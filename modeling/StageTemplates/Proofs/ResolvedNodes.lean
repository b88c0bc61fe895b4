import StageTemplates.Proofs.Places
import StageTemplates.Proofs.Readings
import StageTemplates.Proofs.TokenCuts

set_option autoImplicit false

/-!
Resolving to a node is resolving to a value that keeps where it comes from: the same is read, it
comes to the same, and only a value that is one token keeps the origin of what the token selects.
-/
namespace StageTemplates

/-- The value is a text of one token and nothing else. -/
def Value.IsToken (value : Value) (inner : String) : Prop :=
  value = .string (embrace inner) ∧ '\x7d' ∉ inner.toList ∧ '\n' ∉ inner.toList

/-- Every part is local and without a source, and notes the place where it lies. -/
def Node.Unsourced (node : Node) : Prop :=
  ∀ place part, node.At place part → part.origin = ⟨none, Segment.texts place, true⟩

theorem Node.unsourced_ofLocal (value : Value) : (ofLocal value).Unsourced := by
  intro place part reached
  obtain ⟨inside, -, rfl⟩ := at_ofValue_iff.mp reached
  rw [origin_ofValue]
  rfl

namespace Scope

variable (scope : Scope) {value : Value} {inner : String}

theorem resolveNode_of_isToken (token : value.IsToken inner) :
    scope.resolveNode value = scope.tokenNode inner.toList := by
  obtain ⟨rfl, whole⟩ := token
  have alone := Piece.alone?_ofText_iff.mpr ⟨rfl, whole⟩
  simp only [resolveNode, alone]

theorem resolve_of_isToken (token : value.IsToken inner) :
    scope.resolve value = Node.toValue <$> scope.tokenNode inner.toList := by
  obtain ⟨rfl, whole⟩ := token
  have alone := Piece.alone?_ofText_iff.mpr ⟨rfl, whole⟩
  simp only [resolve, resolveText, alone]
  rfl

/-- What is not one token is resolved to a value, which gets a place of its own. -/
theorem resolveNode_of_not_isToken (mixed : ∀ inner, ¬ value.IsToken inner) :
    scope.resolveNode value = Node.ofLocal <$> scope.resolve value := by
  unfold resolveNode
  dsimp only
  split
  · next text =>
      split
      · next inner alone =>
          have whole : text = embrace (String.ofList inner) ∧ _ :=
            Piece.alone?_ofText_iff.mp (by rwa [String.toList_ofList])
          exact absurd ⟨congrArg Value.string whole.1, whole.2⟩ (mixed (String.ofList inner))
      · rfl
  · rfl

theorem map_toValue_resolveNode (value : Value) :
    Node.toValue <$> scope.resolveNode value = scope.resolve value := by
  by_cases token : ∃ inner, value.IsToken inner
  · obtain ⟨inner, token⟩ := token
    rw [scope.resolveNode_of_isToken token, scope.resolve_of_isToken token]
  · rw [not_exists] at token
    have back : Node.toValue ∘ Node.ofLocal = id := funext (Node.toValue_ofValue {})
    rw [scope.resolveNode_of_not_isToken token, ← comp_map, back, id_map]

end Scope

namespace Context

/-- A value resolved to a node is the value resolved, with what was read and what goes wrong. If the
value is one token, the node is the very one that the token selects; otherwise all of it is local,
has no source, and notes where it lies in the value. -/
theorem resolveNode_agrees (context : Context) (value : Value) (field : Option String)
    (unchecked : Bool) :
    (context.resolveNode value field unchecked).1.map Node.toValue =
        (context.resolve value field unchecked).1 ∧
      (context.resolveNode value field unchecked).2 = (context.resolve value field unchecked).2 ∧
      (∀ inner, value.IsToken inner → ∀ node,
        (context.resolveNode value field unchecked).1 = .ok node ↔
          ∃ path, keyPath unchecked inner.toList = .ok path ∧
            (context.select path).1 = .ok node) ∧
      ((∀ inner, ¬ value.IsToken inner) → ∀ node,
        (context.resolveNode value field unchecked).1 = .ok node → node.Unsourced) := by
  have agree := (context.scope field unchecked).map_toValue_resolveNode value
  refine ⟨?_, ?_, fun inner token node => ?_, fun mixed node success => ?_⟩
  · exact (Reading.outcome_map _ _).symm.trans (congrArg Reading.outcome agree)
  · have reads := (Reading.reads_map _ _).symm.trans (congrArg Reading.reads agree)
    exact congrArg context.recorded reads
  · change ((context.scope field unchecked).resolveNode value).outcome = .ok node ↔ _
    rw [Scope.resolveNode_of_isToken _ token]
    exact Scope.tokenNode_eq_ok_iff _
  · change ((context.scope field unchecked).resolveNode value).outcome = .ok node at success
    rw [Scope.resolveNode_of_not_isToken _ mixed, map_eq_pure_bind,
      Reading.outcome_bind_eq_ok_iff] at success
    obtain ⟨plain, -, same⟩ := success
    cases same
    exact Node.unsourced_ofLocal plain

/-- Variables from a file, with a dictionary among them. -/
def network : Context :=
  ofEntries (.ofSource "params.yaml" false) [("model", .dict [("depth", .int 3)])]

/-- A value with tokens in it, one of them within a text. -/
def depths : Value :=
  .dict [("all", .list [.int 1, .string "$\x7bmodel.depth\x7d"]),
    ("note", .string "of depth $\x7bmodel.depth\x7d")]

theorem network_resolveNode :
    (Value.string "$\x7bmodel\x7d").IsToken "model" ∧ (∀ inner, ¬ depths.IsToken inner) ∧
      (∃ node, (network.resolveNode (.string "$\x7bmodel\x7d") none false).1 = .ok node ∧
        node.toValue = .dict [("depth", .int 3)] ∧
        node.origin = ⟨some "params.yaml", ["model"], false⟩) ∧
      ∃ node, (network.resolveNode depths none false).1 = .ok node ∧
        node.toValue = .dict [("all", .list [.int 1, .int 3]), ("note", .string "of depth 3")] ∧
        node.Unsourced := by
  have token : (Value.string "$\x7bmodel\x7d").IsToken "model" := ⟨rfl, by decide, by decide⟩
  have mixed : ∀ inner, ¬ depths.IsToken inner := by
    rintro inner ⟨same, -⟩
    cases same
  have resolved : (network.resolveNode depths none false).1 =
      .ok (.ofLocal (.dict [("all", .list [.int 1, .int 3]), ("note", .string "of depth 3")])) := by
    cbv
  obtain ⟨-, -, selects, -⟩ := resolveNode_agrees network _ none false
  obtain ⟨-, -, -, unsourced⟩ := resolveNode_agrees network depths none false
  refine ⟨token, mixed, ?_, _, resolved, rfl, unsourced mixed _ resolved⟩
  exact ⟨_, (selects "model" token _).mpr ⟨"model", by cbv, by cbv⟩, rfl, rfl⟩

end Context

end StageTemplates
