import StageTemplates.Path
import StageTemplates.Proofs.DottedPaths

set_option autoImplicit false

/-!
A normalized path is in normal form: it is what the names that its walk leaves are joined to, and
its own walk leaves the same names.
-/
namespace StageTemplates

namespace Path

/-- A segment that a walk does not pass over. -/
structure IsName (segment : String) : Prop where
  nonempty : segment ≠ ""
  notHere : segment ≠ "."
  unbroken : '/' ∉ segment.toList

/-- Names that a walk can leave, the last one first: steps up come before everything else, and
there are none below the root. -/
structure Canonical (absolute : Bool) (passed : List String) : Prop where
  named : ∀ name ∈ passed, IsName name
  rooted : absolute = true → ".." ∉ passed
  ordered : passed.Pairwise fun later earlier => later = ".." → earlier = ".."

theorem isName_up : IsName ".." := ⟨by decide, by decide, by decide⟩

variable {absolute : Bool}

theorem canonical_nil : Canonical absolute [] :=
  ⟨by simp, by simp, List.Pairwise.nil⟩

theorem Canonical.tail {name : String} {passed : List String}
    (canonical : Canonical absolute (name :: passed)) : Canonical absolute passed where
  named := fun other member => canonical.named other (List.mem_cons_of_mem _ member)
  rooted := fun root member => canonical.rooted root (List.mem_cons_of_mem _ member)
  ordered := canonical.ordered.of_cons

theorem Canonical.of_append {names passed : List String}
    (canonical : Canonical absolute (names ++ passed)) : Canonical absolute passed := by
  induction names with
  | nil => exact canonical
  | cons name rest ih => exact ih canonical.tail

theorem Canonical.cons_name {passed : List String} (canonical : Canonical absolute passed)
    {name : String} (named : IsName name) (down : name ≠ "..") :
    Canonical absolute (name :: passed) where
  named := List.forall_mem_cons.mpr ⟨named, canonical.named⟩
  rooted := fun root => by
    rw [List.mem_cons, not_or]
    exact ⟨down.symm, canonical.rooted root⟩
  ordered := canonical.ordered.cons fun _ _ up => absurd up down

/-- One more step up is left where there is nothing but steps up. -/
theorem Canonical.cons_up {passed : List String} (canonical : Canonical false passed)
    (ups : ∀ name ∈ passed, name = "..") : Canonical false (".." :: passed) where
  named := List.forall_mem_cons.mpr ⟨isName_up, canonical.named⟩
  rooted := fun root => absurd root Bool.false_ne_true
  ordered := canonical.ordered.cons fun name member _ => ups name member

theorem Canonical.step {passed : List String} (canonical : Canonical absolute passed)
    {segment : String} (unbroken : '/' ∉ segment.toList) :
    Canonical absolute (step absolute passed segment) := by
  unfold Path.step
  by_cases skipped : (segment = "" || segment = ".") = true
  · rw [if_pos skipped]
    exact canonical
  rw [if_neg skipped]
  rw [Bool.or_eq_true, decide_eq_true_iff, decide_eq_true_iff, not_or] at skipped
  by_cases up : segment = ".."
  · rw [if_pos up]
    cases passed with
    | nil =>
        cases absolute with
        | true => exact canonical
        | false => exact canonical.cons_up (by simp)
    | cons last rest =>
        dsimp only
        by_cases down : last ≠ ".."
        · rw [if_pos down]
          exact canonical.tail
        · rw [if_neg down]
          rw [not_not] at down
          cases absolute with
          | true => exact canonical
          | false =>
              have later := (List.pairwise_cons.mp canonical.ordered).1
              have ups : ∀ name ∈ last :: rest, name = ".." :=
                List.forall_mem_cons.mpr ⟨down, fun name member => later name member down⟩
              exact canonical.cons_up ups
  · rw [if_neg up]
    exact canonical.cons_name ⟨skipped.1, skipped.2, unbroken⟩ up

theorem unbroken_of_mem_segments {path segment : String} (member : segment ∈ segments path) :
    '/' ∉ segment.toList := by
  obtain ⟨piece, split, rfl⟩ := List.mem_map.mp member
  rw [String.toList_ofList]
  exact not_mem_of_mem_splitOn split

theorem canonical_foldl {steps : List String} (unbroken : ∀ name ∈ steps, '/' ∉ name.toList)
    {passed : List String} (canonical : Canonical absolute passed) :
    Canonical absolute (steps.foldl (step absolute) passed) := by
  induction steps generalizing passed with
  | nil => exact canonical
  | cons segment rest ih =>
      rw [List.forall_mem_cons] at unbroken
      exact ih unbroken.2 (canonical.step unbroken.1)

theorem canonical_walk (path : String) : Canonical (isAbsolute path) (walk path).reverse := by
  rw [walk, List.reverse_reverse]
  exact canonical_foldl (fun _ => unbroken_of_mem_segments) canonical_nil

theorem isName_of_mem_walk {path name : String} (member : name ∈ walk path) : IsName name :=
  (canonical_walk path).named name (List.mem_reverse.mpr member)

theorem Canonical.step_eq_cons {name : String} {passed : List String}
    (canonical : Canonical absolute (name :: passed)) :
    Path.step absolute passed name = name :: passed := by
  have named := canonical.named name List.mem_cons_self
  have kept : ¬ (name = "" || name = ".") = true := by
    simp [named.nonempty, named.notHere]
  unfold Path.step
  rw [if_neg kept]
  by_cases up : name = ".."
  · have relative : absolute = false := by
      rw [← Bool.not_eq_true]
      intro root
      exact canonical.rooted root (up ▸ List.mem_cons_self)
    rw [if_pos up, relative, up]
    cases passed with
    | nil => rfl
    | cons last rest =>
        have above := (List.pairwise_cons.mp canonical.ordered).1 last List.mem_cons_self up
        simp [above]
  · rw [if_neg up]

/-- A walk over names that a walk can leave leaves them as they are. -/
theorem Canonical.foldl_step {names passed : List String}
    (canonical : Canonical absolute (names.reverse ++ passed)) :
    names.foldl (Path.step absolute) passed = names.reverse ++ passed := by
  induction names generalizing passed with
  | nil => rfl
  | cons name rest ih =>
      rw [List.reverse_cons, List.append_assoc, List.singleton_append] at canonical ⊢
      have here : Canonical absolute (name :: passed) := canonical.of_append
      rw [List.foldl_cons, here.step_eq_cons]
      exact ih canonical

/-- Names come out of the path that is made of them. -/
theorem segments_joined {names : List String} (nonempty : names ≠ [])
    (unbroken : ∀ name ∈ names, '/' ∉ name.toList) : segments (joined names) = names :=
  splitOn_intercalate "/" '/' rfl nonempty unbroken

theorem segments_slash (text : String) : segments ("/" ++ text) = "" :: segments text := by
  have slash : ("/" ++ text).toList = '/' :: text.toList := by simp
  rw [segments, slash, List.splitOn_cons_eq_if_modifyHead]
  simp [segments]

theorem exists_slash_of_isAbsolute {path : String} (root : isAbsolute path = true) :
    ∃ rest, path = "/" ++ rest := by
  unfold isAbsolute at root
  rw [decide_eq_true_iff] at root
  obtain ⟨rest, split⟩ := List.head?_eq_some_iff.mp root
  refine ⟨String.ofList rest, String.toList_inj.mp ?_⟩
  simp [split]

/-- What names are joined to is a relative path that is not empty. -/
theorem joined_of_names {names : List String} (nonempty : names ≠ [])
    (named : ∀ name ∈ names, IsName name) :
    joined names ≠ "" ∧ isAbsolute (joined names) = false := by
  have pieces := segments_joined nonempty fun name member => (named name member).unbroken
  -- Both an empty text and one with a `/` at its head have an empty segment.
  have solid : "" ∉ segments (joined names) := by
    rw [pieces]
    intro member
    exact (named "" member).nonempty rfl
  constructor
  · intro empty
    rw [empty] at solid
    exact solid (by decide)
  · rw [← Bool.not_eq_true]
    intro root
    obtain ⟨rest, split⟩ := exists_slash_of_isAbsolute root
    rw [split, segments_slash] at solid
    exact solid List.mem_cons_self

theorem joined_walk_eq_empty_iff (path : String) : joined (walk path) = "" ↔ walk path = [] := by
  constructor
  · intro empty
    by_contra nonempty
    exact (joined_of_names nonempty fun _ => isName_of_mem_walk).1 empty
  · intro nothing
    rw [nothing]
    rfl

theorem normalize_of_isAbsolute {path : String} (root : isAbsolute path = true) :
    normalize path = "/" ++ joined (walk path) := by
  rw [normalize, if_pos root]

theorem normalize_of_relative {path : String} (relative : isAbsolute path = false) :
    normalize path = if walk path = [] then "." else joined (walk path) := by
  rw [normalize, relative, if_neg Bool.false_ne_true]
  simp only [joined_walk_eq_empty_iff]

@[simp] theorem isAbsolute_normalize (path : String) :
    isAbsolute (normalize path) = isAbsolute path := by
  cases root : isAbsolute path with
  | true =>
      rw [normalize_of_isAbsolute root, isAbsolute]
      simp
  | false =>
      rw [normalize_of_relative root]
      split
      · decide
      · next nonempty => exact (joined_of_names nonempty fun _ => isName_of_mem_walk).2

/-- A walk along the path that is made of its names leaves these names. -/
theorem Canonical.foldl_segments {names : List String}
    (canonical : Canonical absolute names.reverse) :
    (segments (joined names)).foldl (Path.step absolute) [] = names.reverse := by
  by_cases nonempty : names = []
  · rw [nonempty]
    cases absolute <;> decide
  · have unbroken : ∀ name ∈ names, '/' ∉ name.toList := by
      intro name member
      exact (canonical.named name (List.mem_reverse.mpr member)).unbroken
    have whole : Canonical absolute (names.reverse ++ []) := by rwa [List.append_nil]
    rw [segments_joined nonempty unbroken, whole.foldl_step, List.append_nil]

/-- Normalizing a path changes nothing about where it leads. -/
@[simp] theorem walk_normalize (path : String) : walk (normalize path) = walk path := by
  have canonical := canonical_walk path
  have direct := canonical.foldl_segments
  rw [walk, isAbsolute_normalize, List.reverse_eq_iff]
  cases root : isAbsolute path with
  | true =>
      rw [root] at direct
      rw [normalize_of_isAbsolute root, segments_slash, List.foldl_cons]
      exact direct
  | false =>
      rw [root] at direct
      rw [normalize_of_relative root]
      split
      · next nothing =>
          rw [nothing]
          decide
      · exact direct

/-- A normalized path is its own normal form. -/
@[simp] theorem normalize_normalize (path : String) :
    normalize (normalize path) = normalize path := by
  cases root : isAbsolute path with
  | true =>
      have same : isAbsolute (normalize path) = true := by rw [isAbsolute_normalize, root]
      rw [normalize_of_isAbsolute same, walk_normalize, ← normalize_of_isAbsolute root]
  | false =>
      have same : isAbsolute (normalize path) = false := by rw [isAbsolute_normalize, root]
      rw [normalize_of_relative same, walk_normalize, ← normalize_of_relative root]

end Path

end StageTemplates
