import StageTemplates.Proofs.CanonicalPaths

set_option autoImplicit false

/-!
Where a path leads by its text alone. Two paths have one normal form if and only if they lead to
the same place, and a path joined to others may be normalized before or after.
-/
namespace StageTemplates

namespace Path

/-- A place as seen from the root or from some folder: so many steps up, and then down through
names. -/
structure Place where
  ups : Nat := 0
  names : List String := []
  down : ".." ∉ names := by simp
deriving DecidableEq, Repr

namespace Place

/-- One segment further. A step up leaves the last name; without names it stays at the root, and
elsewhere it counts. -/
def enter (absolute : Bool) (place : Place) (segment : String) : Place :=
  if segment = "" ∨ segment = "." then place
  else if up : segment = ".." then
    if place.names = [] then if absolute then place else { place with ups := place.ups + 1 }
    else
      { place with
        names := place.names.dropLast
        down := fun member => place.down (List.dropLast_subset _ member) }
  else
    { place with
      names := place.names ++ [segment]
      down := by simp [place.down, Ne.symm up] }

/-- The segments that lead to the place. -/
def way (place : Place) : List String := List.replicate place.ups ".." ++ place.names

end Place

/-- The place that a path denotes, its segments taken from left to right. -/
def place (path : String) : Place := (segments path).foldl (Place.enter (isAbsolute path)) {}

section Steps

variable {absolute : Bool} {segment : String}

theorem Place.enter_of_skipped (skipped : segment = "" ∨ segment = ".") (place : Place) :
    place.enter absolute segment = place := by
  rw [enter, if_pos skipped]

theorem Place.way_injective : Function.Injective way := by
  rintro ⟨ups, names, down⟩ ⟨ups', names', down'⟩ same
  dsimp only [way] at same
  -- All steps up come before the names, so their number is that of all `..` on the way.
  have count := congrArg (List.count "..") same
  simp only [List.count_append, List.count_replicate_self, List.count_eq_zero.mpr down,
    List.count_eq_zero.mpr down', Nat.add_zero] at count
  subst count
  cases List.append_cancel_left same
  rfl

/-- Below the root there are no steps up to count. -/
theorem Place.ups_enter {place : Place} (rooted : absolute = true → place.ups = 0)
    (segment : String) : absolute = true → (place.enter absolute segment).ups = 0 := by
  intro root
  unfold enter
  split
  · exact rooted root
  split
  · split
    · simpa [root] using rooted root
    · exact rooted root
  · exact rooted root

/-- A walk goes on as the place does. -/
theorem step_reverse_way {place : Place} (rooted : absolute = true → place.ups = 0)
    (segment : String) :
    step absolute place.way.reverse segment = (place.enter absolute segment).way.reverse := by
  unfold step Place.enter
  by_cases skipped : segment = "" ∨ segment = "."
  · rw [if_pos skipped, if_pos (by simpa using skipped)]
  · rw [if_neg skipped, if_neg (by simpa using skipped)]
    by_cases up : segment = ".."
    · rw [if_pos up, dif_pos up]
      obtain ⟨ups, names, down⟩ := place
      rcases names.eq_nil_or_concat with rfl | ⟨front, last, rfl⟩
      · cases absolute with
        | true =>
            have none : ups = 0 := rooted rfl
            subst none
            rfl
        | false =>
            simp only [Bool.false_eq_true, if_true, if_false, Place.way, List.append_nil,
              List.reverse_replicate]
            cases ups <;> simp [List.replicate_succ]
      · rw [List.concat_eq_append] at down
        have other : last ≠ ".." := fun same => down (by simp [same])
        simp [Place.way, other]
    · rw [if_neg up, dif_neg up]
      simp [Place.way]

theorem foldl_step_way {place : Place} (rooted : absolute = true → place.ups = 0)
    (segments : List String) :
    segments.foldl (step absolute) place.way.reverse =
        (segments.foldl (Place.enter absolute) place).way.reverse ∧
      (absolute = true → (segments.foldl (Place.enter absolute) place).ups = 0) := by
  induction segments generalizing place with
  | nil => exact ⟨rfl, rooted⟩
  | cons segment rest ih =>
      rw [List.foldl_cons, List.foldl_cons, step_reverse_way rooted]
      exact ih (Place.ups_enter rooted segment)

end Steps

theorem ups_place_of_isAbsolute {path : String} (root : isAbsolute path = true) :
    (place path).ups = 0 := by
  have rooted : isAbsolute path = true → ({} : Place).ups = 0 := fun _ => rfl
  exact (foldl_step_way rooted (segments path)).2 root

/-- The names that a walk leaves are the way to the place. -/
theorem walk_eq_way (path : String) : walk path = (place path).way := by
  have rooted : isAbsolute path = true → ({} : Place).ups = 0 := fun _ => rfl
  rw [walk, List.reverse_eq_iff]
  exact (foldl_step_way rooted (segments path)).1

theorem place_normalize (path : String) : place (normalize path) = place path := by
  apply Place.way_injective
  rw [← walk_eq_way, ← walk_eq_way, walk_normalize]

theorem normalize_eq_iff {first second : String} :
    normalize first = normalize second ↔
      isAbsolute first = isAbsolute second ∧ place first = place second := by
  constructor
  · intro same
    constructor
    · rw [← isAbsolute_normalize first, same, isAbsolute_normalize]
    · rw [← place_normalize first, same, place_normalize]
  · rintro ⟨kind, place⟩
    rw [normalize, normalize, walk_eq_way, walk_eq_way, kind, place]

/-- The path as seen from the root, if it begins there. -/
def belowRoot (path : String) : String :=
  if isAbsolute path then String.ofList path.toList.tail else path

/-- A path without superfluous segments: all its steps up come first, and there are none below the
root. -/
structure NormalForm (path : String) : Prop where
  solid : path = "." ∨ path = "/" ∨
    ∀ segment ∈ segments (belowRoot path), segment ≠ "" ∧ segment ≠ "."
  ordered : ∃ ups names, segments (belowRoot path) = List.replicate ups ".." ++ names ∧
    ".." ∉ names ∧ (isAbsolute path = true → ups = 0)

theorem belowRoot_normalize (path : String) :
    belowRoot (normalize path) =
      if isAbsolute path = false ∧ walk path = [] then "." else joined (walk path) := by
  rw [belowRoot, isAbsolute_normalize]
  cases root : isAbsolute path with
  | true =>
      rw [normalize_of_isAbsolute root]
      simp
  | false =>
      rw [normalize_of_relative root]
      simp

theorem normalForm_normalize (path : String) : NormalForm (normalize path) := by
  by_cases nothing : walk path = []
  · cases root : isAbsolute path with
    | true =>
        have whole : normalize path = "/" := by
          rw [normalize_of_isAbsolute root, nothing]
          rfl
        rw [whole]
        exact ⟨by simp, 0, [""], by decide, by decide, fun _ => rfl⟩
    | false =>
        have whole : normalize path = "." := by
          rw [normalize_of_relative root, if_pos nothing]
        rw [whole]
        exact ⟨by simp, 0, ["."], by decide, by decide, fun _ => rfl⟩
  · have pieces : segments (belowRoot (normalize path)) = walk path := by
      rw [belowRoot_normalize, if_neg fun both => nothing both.2]
      exact segments_joined nothing fun _ member => (isName_of_mem_walk member).unbroken
    constructor
    · rw [pieces]
      refine Or.inr (Or.inr fun segment member => ?_)
      have named := isName_of_mem_walk member
      exact ⟨named.nonempty, named.notHere⟩
    · rw [pieces, isAbsolute_normalize]
      exact ⟨(place path).ups, (place path).names, walk_eq_way path, (place path).down,
        ups_place_of_isAbsolute⟩

/-- At a `/` the segments of two texts come together. -/
theorem segments_append_slash (first second : String) :
    segments (first ++ "/" ++ second) = segments first ++ segments second := by
  have chars : (first ++ "/" ++ second).toList = first.toList ++ '/' :: second.toList := by simp
  rw [segments, chars, List.splitOn_append_cons_self, List.map_append]
  rfl

/-- Without the separators at its end a text loses nothing but empty segments. -/
theorem exists_splitOn_rdropWhile (text : List Char) :
    ∃ blanks, text.splitOn '/' = (text.rdropWhile (· = '/')).splitOn '/' ++ blanks ∧
      ∀ piece ∈ blanks, piece = [] := by
  induction text using List.reverseRecOn with
  | nil => exact ⟨[], by simp, by simp⟩
  | append_singleton front last ih =>
      by_cases slash : last = '/'
      · obtain ⟨blanks, split, blank⟩ := ih
        refine ⟨blanks ++ [[]], ?_, List.forall_mem_append.mpr ⟨blank, by simp⟩⟩
        rw [List.rdropWhile_concat_pos _ _ _ (by simpa using slash), slash,
          List.splitOn_append_cons_self, split, List.splitOn_nil, List.append_assoc]
      · rw [List.rdropWhile_concat_neg _ _ _ (by simpa using slash)]
        exact ⟨[], by simp, by simp⟩

/-- The path without the separators at its end. -/
def withoutSlashes (path : String) : String := String.ofList (path.toList.rdropWhile (· = '/'))

theorem segments_withoutSlashes (path : String) :
    ∃ blanks, segments path = segments (withoutSlashes path) ++ blanks ∧
      ∀ segment ∈ blanks, segment = "" := by
  obtain ⟨blanks, split, blank⟩ := exists_splitOn_rdropWhile path.toList
  refine ⟨blanks.map String.ofList, ?_, ?_⟩
  · rw [segments, split, List.map_append, segments, withoutSlashes, String.toList_ofList]
  · rw [List.forall_mem_map]
    intro piece member
    rw [blank piece member]

theorem join_of_relative {base path : String} (nonempty : base ≠ "")
    (relative : isAbsolute path = false) : join base path = withoutSlashes base ++ "/" ++ path := by
  rw [join, relative]
  simp [nonempty, withoutSlashes, List.rdropWhile]

theorem foldl_enter_of_blank {absolute : Bool} {blanks : List String}
    (blank : ∀ segment ∈ blanks, segment = "") (place : Place) :
    blanks.foldl (Place.enter absolute) place = place := by
  induction blanks with
  | nil => rfl
  | cons segment rest ih =>
      rw [List.forall_mem_cons] at blank
      rw [List.foldl_cons, Place.enter_of_skipped (Or.inl blank.1), ih blank.2]

theorem isAbsolute_join {base path : String} (relative : isAbsolute path = false) :
    isAbsolute (join base path) = isAbsolute base := by
  by_cases empty : base = ""
  · rw [join, if_pos (by simp [empty]), relative, empty]
    rfl
  · have chars : (join base path).toList =
        base.toList.rdropWhile (· = '/') ++ '/' :: path.toList := by
      simp [join_of_relative empty relative, withoutSlashes]
    have some : base.toList ≠ [] := fun none => empty (String.toList_eq_nil_iff.mp none)
    obtain ⟨first, rest, split⟩ := List.exists_cons_of_ne_nil some
    unfold isAbsolute
    rw [chars]
    cases left : base.toList.rdropWhile (· = '/') with
    | nil =>
        have slashes := List.rdropWhile_eq_nil_iff.mp left first (by simp [split])
        rw [split, of_decide_eq_true slashes]
        rfl
    | cons c others =>
        obtain ⟨slashes, whole⟩ := List.rdropWhile_prefix (· = '/') base.toList
        rw [left] at whole
        rw [← whole]
        rfl

/-- A relative path goes on from where the path before it leads. -/
theorem place_join {base path : String} (relative : isAbsolute path = false) :
    place (join base path) =
      (segments path).foldl (Place.enter (isAbsolute base)) (place base) := by
  by_cases empty : base = ""
  · rw [join, if_pos (by simp [empty]), place, relative, empty]
    rfl
  · have along : (segments (withoutSlashes base)).foldl (Place.enter (isAbsolute base)) {} =
        place base := by
      obtain ⟨blanks, split, blank⟩ := segments_withoutSlashes base
      rw [place, split, List.foldl_append, foldl_enter_of_blank blank]
    rw [place, isAbsolute_join relative, join_of_relative empty relative, segments_append_slash,
      List.foldl_append, along]

/-- What a path is joined to may be normalized first. -/
theorem normalize_join_normalize (base path : String) :
    normalize (join (normalize base) path) = normalize (join base path) := by
  cases root : isAbsolute path with
  | true => simp [join, root]
  | false =>
      rw [normalize_eq_iff, isAbsolute_join root, isAbsolute_join root, place_join root,
        place_join root, isAbsolute_normalize, place_normalize]
      exact ⟨rfl, rfl⟩

/-- Normalizing gives one form to all paths that denote one place, absolute or not, and different
forms to others. It gives the same form again to what it gave, and that form has no superfluous
segment. A path may be normalized before others are joined to it. -/
theorem normalize_canonical :
    (∀ first second, normalize first = normalize second ↔
        isAbsolute first = isAbsolute second ∧ place first = place second) ∧
      (∀ path, normalize (normalize path) = normalize path ∧ NormalForm (normalize path)) ∧
      ∀ base path, normalize (join base path) = normalize (join (normalize base) path) := by
  refine ⟨fun _ _ => normalize_eq_iff, fun path => ⟨?_, ?_⟩, fun base path => ?_⟩
  · exact normalize_normalize path
  · exact normalForm_normalize path
  · exact (normalize_join_normalize base path).symm

end Path

end StageTemplates
