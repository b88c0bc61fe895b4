import StageTemplates.Proofs.AlikeVariables
import StageTemplates.Proofs.LoadRequests

set_option autoImplicit false

/-!
The items of `vars` may come in any order: they load or do not load, and where they load they leave
the same variables, but for the order of entries.
-/
namespace StageTemplates

namespace Context

/-- Variables that are equal but for the order of entries. What is from files is from the same
places, and of each file the same is noted as loaded: nothing, all of it, or the same keys. -/
structure Alike (first second : Context) : Prop where
  values : first.toValue.Alike second.toValue
  sources : ∀ way origin value, origin.isLocal = false →
    (first.root.Supplies way origin value ↔ second.root.Supplies way origin value)
  shares : ∀ path, first.share? path = second.share? path

theorem alike_of_inventory {first second : Context} (same : first.inventory = second.inventory)
    (distinct : first.Distinct) (distinct' : second.Distinct) : first.Alike second := by
  have outline : first.root.outline = second.root.outline := by
    rw [root, root, Node.outline_dict, Node.outline_dict]
    exact congrArg Inventory.outline same
  refine ⟨Node.alike_of_outline first.root second.root outline distinct distinct', ?_, ?_⟩
  · intro way origin value foreign
    exact ⟨.of_outline outline foreign, .of_outline outline.symm foreign⟩
  · intro path
    exact congrFun (congrArg Inventory.imports same) path

end Context

open Context

namespace MergeStep

/-- What an item asks for does not depend on where it stands. -/
theorem request_ofItem (fs : FileSystem) (wdir stage : String) (index : Nat) (item : Value) :
    (ofItem wdir stage index item).request fs = (ofItem wdir "" 0 item).request fs := by
  have outline : ∀ (source : String) (entries : List (String × Value)),
      Outline.ofEntries (Node.ofEntries (.ofSource source true) entries) =
        Outline.ofEntries (Node.ofEntries {} entries) := by
    intro source entries
    have anonymous : (Node.ofValue (.ofSource source true) (.dict entries)).anonymous =
        (Node.ofValue {} (.dict entries)).anonymous := by
      rw [Node.anonymous_ofValue, Node.anonymous_ofValue]
      rfl
    have same := Node.outline_of_anonymous anonymous
    rwa [Node.ofValue, Node.ofValue, Node.outline_dict, Node.outline_dict] at same
  cases item with
  | dict entries =>
      exact congrArg (fun outline => Request.mk none (some outline))
        ((outline _ entries).trans (outline _ entries).symm)
  | list items => rfl
  | scalar value => cases value <;> rfl

theorem requests_ofItems (fs : FileSystem) (wdir stage : String) (index : Nat)
    (items : List Value) :
    (ofItems wdir stage index items).map (request fs) =
      items.map fun item => (ofItem wdir "" 0 item).request fs := by
  induction items generalizing index with
  | nil => rfl
  | cons item rest ih =>
      rw [ofItems, List.map_cons, List.map_cons, request_ofItem, ih]

end MergeStep

namespace MergeCall

theorem requests_perm (fs : FileSystem) {items others : List Value} (perm : items.Perm others)
    (wdir : String) (stage standard : Option String) :
    (((vars items wdir stage standard).steps fs).map (MergeStep.request fs)).Perm
      (((vars others wdir stage standard).steps fs).map (MergeStep.request fs)) := by
  unfold steps
  dsimp only
  rw [List.map_append, List.map_append, MergeStep.requests_ofItems, MergeStep.requests_ofItems]
  exact (perm.map _).append_left _

end MergeCall

/-- Changes that come to the same inventory, or to none, succeed both or fail both. -/
theorem Change.outcome_of_settled {first second : Change}
    (same : settled? first.effect = settled? second.effect) :
    (first.outcome = .ok () ↔ second.outcome = .ok ()) ∧
      (first.outcome = .ok () → first.context.inventory = second.context.inventory) := by
  unfold settled? effect at same
  dsimp only at same
  cases ended : first.outcome with
  | error error =>
      cases ended' : second.outcome with
      | error error' => simp
      | ok success =>
          rw [ended, ended'] at same
          cases same
  | ok success =>
      cases ended' : second.outcome with
      | error error =>
          rw [ended, ended'] at same
          cases same
      | ok success' =>
          rw [ended, ended'] at same
          exact ⟨by simp, fun _ => Option.some.inj same⟩

namespace Context

/-- Items of `vars` load in one order if they load in another, and they leave variables that are
alike: of equal values, from files from the same places, and with the same of each file noted as
loaded. -/
theorem loadVars_perm (fs : FileSystem) (wdir : String) (stage standard : Option String)
    {context : Context} (unreserved : context.reserved = []) (distinct : context.Distinct)
    {items others : List Value} (each : ∀ item ∈ items, item.Distinct)
    (perm : items.Perm others) :
    let first := context.loadVars fs items wdir stage standard
    let second := context.loadVars fs others wdir stage standard
    (first.outcome = .ok () ↔ second.outcome = .ok ()) ∧
      (first.outcome = .ok () → first.context.Alike second.context) := by
  intro first second
  have clear : context.Clear := ⟨unreserved, distinct⟩
  have each' : ∀ item ∈ others, item.Distinct := fun item member =>
    each item (perm.mem_iff.mpr member)
  have adds := MergeCall.adds_vars fs each wdir stage standard
  have adds' := MergeCall.adds_vars fs each' wdir stage standard
  have one : first = _ := MergeCall.run_eq_inTurn fs context (.vars items wdir stage standard)
  have two : second = _ := MergeCall.run_eq_inTurn fs context (.vars others wdir stage standard)
  have same : settled? first.effect = settled? second.effect := by
    rw [one, two, MergeStep.settled?_inTurn clear fs adds, MergeStep.settled?_inTurn clear fs adds']
    refine Inventory.grantAll_perm (MergeCall.requests_perm fs perm wdir stage standard) ?_ _
    intro request member other member' path asked asked'
    obtain ⟨step, -, rfl⟩ := List.mem_map.mp member
    obtain ⟨step', -, rfl⟩ := List.mem_map.mp member'
    rw [MergeStep.content_request asked, MergeStep.content_request asked']
  obtain ⟨outcomes, inventories⟩ := Change.outcome_of_settled same
  refine ⟨outcomes, fun success => alike_of_inventory (inventories success) ?_ ?_⟩
  · rw [one]
    exact (keptByMerging_clear.inTurn fs adds clear).distinct
  · rw [two]
    exact (keptByMerging_clear.inTurn fs adds' clear).distinct

/-- A file with the variables `lr` and `net`. -/
def modelFiles : FileSystem :=
  (MemoryFiles.ofListing
    [("model.json", "\x7b\"lr\": 1, \"net\": \x7b\"depth\": 3\x7d\x7d")] []).fileSystem

/-- The file's `net` has an entry added to it, and the file is named in two ways. -/
def modelItems : List Value :=
  [.string "model.json:net", .dict [("net", .dict [("width", .int 8)])], .string "./model.json:lr"]

theorem model_loadVars_perm :
    let nothing : Context := {}
    let first := nothing.loadVars modelFiles modelItems "" none none
    let second := nothing.loadVars modelFiles modelItems.reverse "" none none
    nothing.reserved = [] ∧ nothing.Distinct ∧ (∀ item ∈ modelItems, item.Distinct) ∧
      modelItems.Perm modelItems.reverse ∧
      (first.outcome = .ok () ∧ first.context.toValue.json =
        "\x7b\"net\":\x7b\"depth\":3,\"width\":8\x7d,\"lr\":1\x7d") ∧
      (second.outcome = .ok () ∧ second.context.toValue.json =
        "\x7b\"lr\":1,\"net\":\x7b\"width\":8,\"depth\":3\x7d\x7d") ∧
      first.context.Alike second.context := by
  intro nothing first second
  have unreserved : nothing.reserved = [] := rfl
  have distinct : nothing.Distinct := by decide
  have each : ∀ item ∈ modelItems, item.Distinct := by decide
  have perm : modelItems.Perm modelItems.reverse := (List.reverse_perm modelItems).symm
  obtain ⟨succeeds, alike⟩ := loadVars_perm modelFiles "" none none unreserved distinct each perm
  have fine : first.outcome.isOk = true := by decide +kernel
  have shown : first.context.toValue.json =
      "\x7b\"net\":\x7b\"depth\":3,\"width\":8\x7d,\"lr\":1\x7d" := by decide +kernel
  have shown' : second.context.toValue.json =
      "\x7b\"lr\":1,\"net\":\x7b\"width\":8,\"depth\":3\x7d\x7d" := by decide +kernel
  have loaded : first.outcome = .ok () := by
    cases ended : first.outcome with
    | ok success => rfl
    | error error =>
        rw [ended] at fine
        cases fine
  exact ⟨unreserved, distinct, each, perm, ⟨loaded, shown⟩, ⟨succeeds.mp loaded, shown'⟩,
    alike loaded⟩

end Context

end StageTemplates
