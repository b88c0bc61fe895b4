import StageTemplates.Proofs.LexicalPlaces

set_option autoImplicit false

/-!
The way from one path to another, by their text alone. Joined to the path where it begins it leads
to the other, and it is in normal form.
-/
namespace StageTemplates

namespace Path

/-- What two lists begin with together stands before what is left of them. -/
theorem exists_common (first second : List String) :
    ∃ common, first = common ++ (withoutCommon first second).1 ∧
      second = common ++ (withoutCommon first second).2 := by
  fun_induction withoutCommon first second with
  | case1 as name bs ih =>
      obtain ⟨common, left, right⟩ := ih
      exact ⟨name :: common, congrArg (name :: ·) left, congrArg (name :: ·) right⟩
  | case2 a as b bs different => exact ⟨[], rfl, rfl⟩
  | case3 as bs apart => exact ⟨[], rfl, rfl⟩

theorem withoutCommon_self (names : List String) : withoutCommon names names = ([], []) := by
  induction names with
  | nil => rfl
  | cons name rest ih => simpa [withoutCommon] using ih

/-- Nothing is left of both lists only if they are one. -/
theorem withoutCommon_eq_nil_iff {first second : List String} :
    withoutCommon first second = ([], []) ↔ first = second := by
  constructor
  · intro nothing
    obtain ⟨common, left, right⟩ := exists_common first second
    rw [nothing, List.append_nil] at left right
    rw [left, right]
  · rintro rfl
    exact withoutCommon_self first

theorem filter_segments_joined_walk (path : String) :
    ((segments (joined (walk path))).filter fun segment => segment ≠ "" && segment ≠ ".") =
      walk path := by
  by_cases nothing : walk path = []
  · rw [nothing]
    decide
  · rw [segments_joined nothing fun _ member => (isName_of_mem_walk member).unbroken,
      List.filter_eq_self]
    intro name member
    have named := isName_of_mem_walk member
    simp [named.nonempty, named.notHere]

/-- What a normalized path names is what its walk leaves. -/
theorem names_eq_walk (path : String) : names path = walk path := by
  have direct := filter_segments_joined_walk path
  rw [names]
  cases root : isAbsolute path with
  | true =>
      rw [normalize_of_isAbsolute root, segments_slash, List.filter_cons_of_neg (by decide)]
      exact direct
  | false =>
      rw [normalize_of_relative root]
      split
      · next nothing =>
          rw [nothing]
          decide
      · exact direct

/-- The steps from `start` to `path`: up to where both walks part, and then down. -/
def stepsFrom (start path : String) : List String :=
  (withoutCommon (walk path) (walk start)).2.map (fun _ => "..") ++
    (withoutCommon (walk path) (walk start)).1

theorem relative_eq (path start : String) :
    relative path start =
      if stepsFrom start path = [] then "." else joined (stepsFrom start path) := by
  unfold relative stepsFrom
  simp only [names_eq_walk, List.isEmpty_iff]

theorem stepsFrom_eq_nil_iff {path start : String} :
    stepsFrom start path = [] ↔ walk path = walk start := by
  rw [stepsFrom, List.append_eq_nil_iff, List.map_eq_nil_iff, and_comm,
    ← @withoutCommon_eq_nil_iff (walk path), Prod.ext_iff]

/-- The steps up come first, so a walk can leave all the steps. -/
theorem canonical_stepsFrom (start path : String) :
    Canonical false (stepsFrom start path).reverse := by
  obtain ⟨common, whole, -⟩ := exists_common (walk path) (walk start)
  have walked := canonical_walk path
  unfold stepsFrom
  generalize (withoutCommon (walk path) (walk start)).2 = up
  generalize (withoutCommon (walk path) (walk start)).1 = down at whole
  rw [whole, List.reverse_append] at walked
  have climbs : ∀ name ∈ (up.map fun _ => "..").reverse, name = ".." := by simp
  rw [List.reverse_append]
  refine ⟨?_, fun root => absurd root Bool.false_ne_true, ?_⟩
  · rw [List.forall_mem_append]
    refine ⟨fun name member => walked.named name (List.mem_append_left _ member), ?_⟩
    intro name member
    exact climbs name member ▸ isName_up
  · rw [List.pairwise_append]
    refine ⟨(List.pairwise_append.mp walked.ordered).1, ?_, ?_⟩
    · exact List.pairwise_of_forall_mem_list fun _ _ earlier member _ => climbs earlier member
    · exact fun _ _ earlier member _ => climbs earlier member

theorem isAbsolute_relative (path start : String) : isAbsolute (relative path start) = false := by
  rw [relative_eq]
  split
  · decide
  · next some =>
      have canonical := canonical_stepsFrom start path
      exact (joined_of_names some fun name member =>
        canonical.named name (List.mem_reverse.mpr member)).2

theorem walk_relative (path start : String) :
    walk (relative path start) = stepsFrom start path := by
  have direct := (canonical_stepsFrom start path).foldl_segments
  rw [walk, isAbsolute_relative, List.reverse_eq_iff, relative_eq]
  split
  · next nothing =>
      rw [nothing]
      decide
  · exact direct

/-- The way is written as normalizing would write it. -/
theorem normalize_relative (path start : String) :
    normalize (relative path start) = relative path start := by
  rw [normalize_of_relative (isAbsolute_relative path start), walk_relative, ← relative_eq]

theorem relative_eq_here_iff {path start : String} :
    relative path start = "." ↔ walk path = walk start := by
  rw [← stepsFrom_eq_nil_iff, ← walk_relative]
  constructor
  · intro here
    rw [here]
    decide
  · intro nothing
    rw [← normalize_relative, normalize_of_relative (isAbsolute_relative path start),
      if_pos nothing]

/-- A relative path is walked from where the walk before it ended. -/
theorem walk_join {base path : String} (relative : isAbsolute path = false) :
    walk (join base path) =
      ((segments path).foldl (step (isAbsolute base)) (walk base).reverse).reverse := by
  have rooted : isAbsolute base = true → (place base).ups = 0 := ups_place_of_isAbsolute
  have along := (foldl_step_way rooted (segments path)).1
  rw [walk_eq_way, place_join relative, walk_eq_way, along, List.reverse_reverse]

/-- As many steps up as there are names lead out of these names. -/
theorem foldl_step_up {absolute : Bool} {names : List String} (down : ".." ∉ names)
    (passed : List String) :
    (names.map fun _ => "..").foldl (step absolute) (names ++ passed) = passed := by
  induction names with
  | nil => rfl
  | cons name rest ih =>
      rw [List.mem_cons, not_or] at down
      have left : step absolute (name :: rest ++ passed) ".." = rest ++ passed := by
        simp [step, Ne.symm down.1]
      rw [List.map_cons, List.foldl_cons, left, ih down.2]

/-- The steps lead from one walk to the other, if the first has no step up that one cannot take
back. -/
theorem foldl_stepsFrom {path start : String} (kind : isAbsolute path = isAbsolute start)
    (down : ".." ∉ walk start) :
    (stepsFrom start path).foldl (step (isAbsolute start)) (walk start).reverse =
      (walk path).reverse := by
  obtain ⟨common, whole, begun⟩ := exists_common (walk path) (walk start)
  have walked := canonical_walk path
  unfold stepsFrom
  generalize (withoutCommon (walk path) (walk start)).2 = up at begun
  generalize (withoutCommon (walk path) (walk start)).1 = rest at whole
  rw [kind, whole, List.reverse_append] at walked
  -- What is left of the first walk is climbed name by name, and the rest of the second one follows.
  have names : ".." ∉ up.reverse := by
    rw [begun, List.mem_append, not_or] at down
    rw [List.mem_reverse]
    exact down.2
  have climbs : (up.map fun _ => "..") = up.reverse.map fun _ => ".." := by simp
  rw [begun, whole, List.reverse_append, List.reverse_append, List.foldl_append, climbs,
    foldl_step_up names, walked.foldl_step]

theorem walk_join_relative {path start : String} (kind : isAbsolute path = isAbsolute start)
    (down : ".." ∉ walk start) : walk (join start (relative path start)) = walk path := by
  have same := foldl_stepsFrom kind down
  rw [walk_join (isAbsolute_relative path start), List.reverse_eq_iff, ← same, relative_eq]
  split
  · next nothing =>
      rw [nothing]
      rfl
  · next some =>
      have canonical := canonical_stepsFrom start path
      rw [segments_joined some fun name member =>
        (canonical.named name (List.mem_reverse.mpr member)).unbroken]

theorem normalize_eq_iff_walk {first second : String} :
    normalize first = normalize second ↔
      isAbsolute first = isAbsolute second ∧ walk first = walk second := by
  rw [normalize_eq_iff, walk_eq_way, walk_eq_way, Place.way_injective.eq_iff]

/-- The way from one path to another, both from the root or both from the same folder, leads to the
other one when it is joined to the first, unless the first leads up out of the folder. It is a
relative path in normal form, and it is `.` if and only if both paths have one normal form. -/
theorem join_relative {path start : String}
    (sides : isAbsolute path = true ∧ isAbsolute start = true ∨
      isAbsolute path = false ∧ isAbsolute start = false ∧ ".." ∉ segments (normalize start)) :
    normalize (join start (relative path start)) = normalize path ∧
      isAbsolute (relative path start) = false ∧
      normalize (relative path start) = relative path start ∧
      (relative path start = "." ↔ normalize path = normalize start) := by
  have kind : isAbsolute path = isAbsolute start := by
    rcases sides with ⟨one, other⟩ | ⟨one, other, -⟩
    · rw [one, other]
    · rw [one, other]
  have down : ".." ∉ walk start := by
    rcases sides with ⟨-, root⟩ | ⟨-, -, none⟩
    · have rooted := (canonical_walk start).rooted root
      rwa [List.mem_reverse] at rooted
    · rw [← names_eq_walk, names]
      exact fun member => none (List.mem_of_mem_filter member)
  have relative := isAbsolute_relative path start
  refine ⟨?_, relative, normalize_relative path start, ?_⟩
  · rw [normalize_eq_iff_walk, isAbsolute_join relative]
    exact ⟨kind.symm, walk_join_relative kind down⟩
  · rw [normalize_eq_iff_walk, relative_eq_here_iff]
    simp [kind]

/-- From one folder to another below the root, and out of a folder past the one where it lies. -/
theorem models_join_relative :
    isAbsolute "/repo/./data/../models/cnn" = true ∧ isAbsolute "/repo/models//rnn/run/" = true ∧
    normalize (join "/repo/models//rnn/run/" "../../cnn") = "/repo/models/cnn" ∧
    isAbsolute "../shared/dvc.yaml" = false ∧ isAbsolute "stages/train" = false ∧
    ".." ∉ segments (normalize "stages/train") ∧
    normalize (join "stages/train" "../../../shared/dvc.yaml") = "../shared/dvc.yaml" := by
  have below : isAbsolute "/repo/./data/../models/cnn" = true ∧
      isAbsolute "/repo/models//rnn/run/" = true := by decide
  have out : isAbsolute "../shared/dvc.yaml" = false ∧ isAbsolute "stages/train" = false ∧
      ".." ∉ segments (normalize "stages/train") := by decide +kernel
  have inside := (join_relative (Or.inl below)).1
  have outside := (join_relative (Or.inr out)).1
  have across : relative "/repo/./data/../models/cnn" "/repo/models//rnn/run/" = "../../cnn" := by
    decide +kernel
  have past : relative "../shared/dvc.yaml" "stages/train" = "../../../shared/dvc.yaml" := by
    decide +kernel
  have plain : normalize "/repo/./data/../models/cnn" = "/repo/models/cnn" := by decide +kernel
  have kept : normalize "../shared/dvc.yaml" = "../shared/dvc.yaml" := by decide +kernel
  rw [across, plain] at inside
  rw [past, kept] at outside
  exact ⟨below.1, below.2, inside, out.1, out.2.1, out.2.2, outside⟩

end Path

end StageTemplates
