import Mathlib
import StageTemplates.Proofs.Outlines

set_option autoImplicit false

/-!
What decides whether an item of `vars` can be loaded: the outline of the variables there are, and
which files they are from. Items that are both loaded may come in either order.
-/
namespace StageTemplates

/-- What is loaded of a file: all of it, or some keys. -/
abbrev Share := Option (Set String)

/-- The outline of variables, and what is loaded of each file. -/
structure Inventory where
  outline : Outline
  imports : String → Option Share

/-- What an item brings in, if it can be had, and the file it asks for. -/
structure Request where
  file : Option (String × Share)
  content : Option Outline

/-- What becomes of a request before its content is looked at. -/
inductive Verdict where
  | refused
  | known
  | loads (share : Share)

namespace Verdict

open Classical in
/-- Keys of a file go beside other keys of it. All of a file goes beside nothing else of it, and
need not be loaded again. -/
noncomputable def on : Option Share → Share → Verdict
  | none, share => loads share
  | some none, none => known
  | some none, some _ => refused
  | some (some _), none => refused
  | some (some loaded), some keys =>
      if Disjoint loaded keys then loads (some (loaded ∪ keys)) else refused

open Classical in
/-- Unless all of a file is loaded, some keys of it are, or none are. -/
theorem on_keys {loaded : Option Share} (part : loaded ≠ some none) :
    ∃ old : Set String, ∀ keys, on loaded (some keys) =
      if Disjoint old keys then loads (some (old ∪ keys)) else refused := by
  match loaded with
  | none =>
      refine ⟨∅, fun keys => ?_⟩
      rw [if_pos (Set.empty_disjoint keys), Set.empty_union]
      rfl
  | some none => exact absurd rfl part
  | some (some old) => exact ⟨old, fun keys => rfl⟩

/-- Part of a file and all of it do not go together. -/
theorem on_mixed {share other : Share} (mixed : share.isNone ≠ other.isNone) :
    on (some share) other = refused := by
  match share, other with
  | none, none => exact absurd rfl mixed
  | none, some _ => rfl
  | some _, none => rfl
  | some _, some _ => exact absurd rfl mixed

end Verdict

namespace Inventory

/-- The imports with a share of a file, if there is one to be noted. -/
def noted (imports : String → Option Share) : Option (String × Share) → String → Option Share
  | none => imports
  | some (path, share) => Function.update imports path (some share)

/-- The inventory with content, if it fits. -/
noncomputable def load (inventory : Inventory) (content : Option Outline)
    (note : Option (String × Share)) : Option Inventory :=
  (content.bind inventory.outline.add).map fun outline => ⟨outline, noted inventory.imports note⟩

noncomputable def settle (inventory : Inventory) (request : Request) :
    Verdict → Option Inventory
  | .refused => none
  | .known => some inventory
  | .loads share => inventory.load request.content (request.file.map fun file => (file.1, share))

/-- What is asked of the imports by a request. -/
noncomputable def verdict (inventory : Inventory) (request : Request) : Verdict :=
  match request.file with
  | none => .loads none
  | some (path, share) => .on (inventory.imports path) share

/-- The inventory after a request, if it can be met. -/
noncomputable def grant (inventory : Inventory) (request : Request) : Option Inventory :=
  inventory.settle request (inventory.verdict request)

noncomputable def grantAll (inventory : Inventory) (requests : List Request) : Option Inventory :=
  requests.foldl (fun before request => before.bind (·.grant request)) (some inventory)

/-- Two requests are for different files, or one of them is for none. -/
def Apart (first second : Request) : Prop :=
  ∀ one two, first.file = some one → second.file = some two → one.1 ≠ two.1

variable {first second : Request}

theorem noted_comm {note other : Option (String × Share)}
    (apart : ∀ one two, note = some one → other = some two → one.1 ≠ two.1)
    (imports : String → Option Share) :
    noted (noted imports note) other = noted (noted imports other) note := by
  match note, other with
  | none, _ => rfl
  | some _, none => rfl
  | some one, some two => exact Function.update_comm (apart one two rfl rfl) _ _ imports

/-- Contents fit together in either order. -/
theorem content_comm (outline : Outline) (one two : Option Outline) :
    ((one.bind outline.add).bind fun outline => two.bind outline.add) =
      (two.bind outline.add).bind fun outline => one.bind outline.add := by
  cases one with
  | none => exact (Option.bind_fun_none _).symm
  | some one =>
      cases two with
      | none => exact Option.bind_fun_none _
      | some two => exact Outline.add_right_comm outline one two

theorem load_load (inventory : Inventory) (one two : Option Outline)
    (note other : Option (String × Share)) :
    (inventory.load one note).bind (·.load two other) =
      ((one.bind inventory.outline.add).bind fun outline => two.bind outline.add).map
        fun outline => ⟨outline, noted (noted inventory.imports note) other⟩ := by
  unfold load
  cases one.bind inventory.outline.add with
  | none => rfl
  | some outline => rfl

theorem load_comm (inventory : Inventory) (one two : Option Outline)
    {note other : Option (String × Share)}
    (same : noted (noted inventory.imports note) other =
      noted (noted inventory.imports other) note) :
    (inventory.load one note).bind (·.load two other) =
      (inventory.load two other).bind (·.load one note) := by
  rw [load_load, load_load, content_comm, same]

/-- Requests for different files do not mind each other, whatever becomes of them. -/
theorem settle_comm (apart : Apart first second) (inventory : Inventory)
    (verdict other : Verdict) :
    (inventory.settle first verdict).bind (·.settle second other) =
      (inventory.settle second other).bind (·.settle first verdict) := by
  match verdict, other with
  | .refused, .refused => rfl
  | .refused, .known => rfl
  | .refused, .loads share => exact (Option.bind_fun_none _).symm
  | .known, .refused => rfl
  | .known, .known => rfl
  | .known, .loads share => exact (Option.bind_fun_some _).symm
  | .loads share, .refused => exact Option.bind_fun_none _
  | .loads share, .known => exact Option.bind_fun_some _
  | .loads share, .loads share' =>
      refine load_comm inventory first.content second.content (noted_comm ?_ inventory.imports)
      intro one two here there
      obtain ⟨file, asked, rfl⟩ := Option.map_eq_some_iff.mp here
      obtain ⟨file', asked', rfl⟩ := Option.map_eq_some_iff.mp there
      exact apart file file' asked asked'

theorem noted_of_load {inventory after : Inventory} {content : Option Outline}
    {note : Option (String × Share)} (loaded : inventory.load content note = some after) :
    after.imports = noted inventory.imports note := by
  obtain ⟨outline, -, rfl⟩ := Option.map_eq_some_iff.mp loaded
  rfl

/-- What is loaded of other files stays. -/
theorem imports_of_settle {inventory after : Inventory} {verdict : Verdict}
    (settled : inventory.settle first verdict = some after) {path : String}
    (other : ∀ file, first.file = some file → path ≠ file.1) :
    after.imports path = inventory.imports path := by
  match verdict with
  | .refused => cases settled
  | .known =>
      cases settled
      rfl
  | .loads share =>
      rw [noted_of_load settled]
      cases asked : first.file with
      | none => rfl
      | some file => exact Function.update_of_ne (other file asked) _ _

theorem grant_comm_of_apart (apart : Apart first second) (inventory : Inventory) :
    (inventory.grant first).bind (·.grant second) =
      (inventory.grant second).bind (·.grant first) := by
  have still : ∀ {one two : Request}, Apart one two → ∀ after, inventory.grant one = some after →
      after.verdict two = inventory.verdict two := by
    intro one two apart after settled
    unfold verdict
    cases asked : two.file with
    | none => rfl
    | some file =>
        have kept : after.imports file.1 = inventory.imports file.1 :=
          imports_of_settle settled fun other there => (apart other file there asked).symm
        dsimp only
        rw [kept]
  have back : Apart second first := fun one two here there => (apart two one there here).symm
  unfold grant
  calc (inventory.settle first (inventory.verdict first)).bind
        (fun after => after.settle second (after.verdict second))
      = (inventory.settle first (inventory.verdict first)).bind
          (·.settle second (inventory.verdict second)) :=
        Option.bind_congr fun after settled => by rw [still apart after settled]
    _ = (inventory.settle second (inventory.verdict second)).bind
          (·.settle first (inventory.verdict first)) := settle_comm apart inventory _ _
    _ = (inventory.settle second (inventory.verdict second)).bind
          (fun after => after.settle first (after.verdict first)) :=
        Option.bind_congr fun after settled => by rw [still back after settled]

/-- After a request for all of a file, all of it is loaded; after one for keys, keys are. -/
theorem share_of_grant {inventory after : Inventory} {path : String} {share : Share}
    (asked : first.file = some (path, share)) (granted : inventory.grant first = some after) :
    ∃ kept, after.imports path = some kept ∧ kept.isNone = share.isNone := by
  have loads : ∀ kept : Share, inventory.settle first (.loads kept) = some after →
      after.imports path = some kept := by
    intro kept settled
    rw [noted_of_load settled, asked]
    exact Function.update_self path (some kept) inventory.imports
  unfold grant at granted
  rw [verdict, asked] at granted
  dsimp only at granted
  match before : inventory.imports path, share with
  | none, share =>
      rw [before] at granted
      exact ⟨share, loads share granted, rfl⟩
  | some none, none =>
      rw [before] at granted
      cases granted
      exact ⟨none, before, rfl⟩
  | some none, some keys =>
      rw [before] at granted
      cases granted
  | some (some loaded), none =>
      rw [before] at granted
      cases granted
  | some (some loaded), some keys =>
      rw [before, Verdict.on] at granted
      split at granted
      · exact ⟨some (loaded ∪ keys), loads _ granted, rfl⟩
      · cases granted

/-- No keys of a file are loaded beside all of it. -/
theorem grant_of_whole {inventory : Inventory} {path : String} {keys : Set String}
    (asked : first.file = some (path, some keys))
    (whole : inventory.imports path = some none) : inventory.grant first = none := by
  rw [grant, verdict, asked]
  dsimp only
  rw [whole]
  rfl

/-- All of a file and part of it are not both loaded. -/
theorem grant_mixed {path : String} {share other : Share}
    (asked : first.file = some (path, share)) (asked' : second.file = some (path, other))
    (mixed : share.isNone ≠ other.isNone) (inventory : Inventory) :
    (inventory.grant first).bind (·.grant second) = none := by
  rw [Option.bind_eq_none_iff]
  intro after granted
  obtain ⟨kept, there, alike⟩ := share_of_grant asked granted
  rw [grant, verdict, asked']
  dsimp only
  rw [there, Verdict.on_mixed (alike ▸ mixed)]
  rfl

open Classical in
/-- Keys of a file are loaded after other keys of it if all of them are different. -/
theorem grant_keys {path : String} {keys others : Set String}
    (asked : first.file = some (path, some keys))
    (asked' : second.file = some (path, some others)) {inventory : Inventory} {old : Set String}
    (before : ∀ keys, Verdict.on (inventory.imports path) (some keys) =
      if Disjoint old keys then .loads (some (old ∪ keys)) else .refused) :
    (inventory.grant first).bind (·.grant second) =
      if Disjoint old keys ∧ Disjoint old others ∧ Disjoint keys others then
        ((first.content.bind inventory.outline.add).bind fun outline =>
          second.content.bind outline.add).map fun outline =>
            ⟨outline, Function.update inventory.imports path (some (some (old ∪ keys ∪ others)))⟩
      else none := by
  have one : inventory.verdict first = .on (inventory.imports path) (some keys) := by
    rw [verdict, asked]
  rw [grant, one, before]
  by_cases fits : Disjoint old keys
  · have two : ∀ after, inventory.settle first (.loads (some (old ∪ keys))) = some after →
        after.verdict second = .on (some (some (old ∪ keys))) (some others) := by
      intro after settled
      rw [verdict, asked', noted_of_load settled, asked]
      exact congrArg (Verdict.on · _) (Function.update_self path _ inventory.imports)
    rw [if_pos fits]
    by_cases apart : Disjoint (old ∪ keys) others
    · rw [if_pos ⟨fits, Set.disjoint_union_left.mp apart⟩]
      have second_loads : ∀ after, inventory.settle first (.loads (some (old ∪ keys))) =
          some after → after.grant second =
            after.load second.content (some (path, some (old ∪ keys ∪ others))) := by
        intro after settled
        rw [grant, two after settled, Verdict.on, if_pos apart, settle, asked']
        rfl
      rw [Option.bind_congr second_loads, settle, asked]
      refine (load_load inventory _ _ _ _).trans ?_
      refine congrArg (Option.map · _) ?_
      funext outline
      exact congrArg (Inventory.mk outline) (Function.update_idem _ _ inventory.imports)
    · rw [if_neg fun all => apart (Set.disjoint_union_left.mpr all.2), Option.bind_eq_none_iff]
      intro after settled
      rw [grant, two after settled, Verdict.on, if_neg apart]
      rfl
  · rw [if_neg fits, if_neg fun all => fits all.1]
    rfl

open Classical in
/-- Two requests come to the same in either order. -/
theorem grant_comm (same : ∀ path, first.file = some (path, none) →
      second.file = some (path, none) → first.content = second.content)
    (inventory : Inventory) :
    (inventory.grant first).bind (·.grant second) =
      (inventory.grant second).bind (·.grant first) := by
  by_cases apart : Apart first second
  · exact grant_comm_of_apart apart inventory
  · simp only [Apart, not_forall, not_not] at apart
    obtain ⟨⟨path, share⟩, ⟨path', other⟩, asked, asked', rfl⟩ := apart
    by_cases mixed : share.isNone = other.isNone
    · match share, other with
      | none, none =>
          -- Both want all of the file, so they are one request made twice.
          have equal : first = second := by
            cases first
            cases second
            cases asked
            cases asked'
            exact congrArg (Request.mk _) (same path rfl rfl)
          rw [equal]
      | none, some others => cases mixed
      | some keys, none => cases mixed
      | some keys, some others =>
          by_cases whole : inventory.imports path = some none
          · rw [grant_of_whole asked whole, grant_of_whole asked' whole]
            rfl
          · obtain ⟨old, before⟩ := Verdict.on_keys whole
            rw [grant_keys asked asked' before, grant_keys asked' asked before, content_comm,
              Set.union_right_comm]
            refine if_congr ?_ rfl rfl
            rw [disjoint_comm (a := keys)]
            exact and_left_comm
    · rw [grant_mixed asked asked' mixed, grant_mixed asked' asked (Ne.symm mixed)]

/-- Requests come to the same in any order, if those for all of one file have one content. -/
theorem grantAll_perm {requests others : List Request} (perm : requests.Perm others)
    (same : ∀ one ∈ requests, ∀ two ∈ requests, ∀ path, one.file = some (path, none) →
      two.file = some (path, none) → one.content = two.content)
    (inventory : Inventory) : inventory.grantAll requests = inventory.grantAll others := by
  refine perm.foldl_eq' ?_ (some inventory)
  intro one member two member' before
  cases before with
  | none => rfl
  | some before => exact grant_comm (same one member two member') before

theorem grantAll_cons (inventory : Inventory) (request : Request) (rest : List Request) :
    inventory.grantAll (request :: rest) = (inventory.grant request).bind (·.grantAll rest) := by
  have stuck : ∀ requests : List Request,
      requests.foldl (fun before request => before.bind (grant · request)) none = none := by
    intro requests
    induction requests with
    | nil => rfl
    | cons request rest ih => exact ih
  unfold grantAll
  rw [List.foldl_cons, Option.bind_some]
  cases inventory.grant request with
  | none => exact stuck rest
  | some after => rfl

end Inventory

end StageTemplates
