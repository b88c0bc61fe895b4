import StageTemplates.Yaml.Tree

set_option autoImplicit false

/-!
Anchors by number. A name counts as new when it is first anchored, and an anchor's number is the
count of names anchored before it; so anchoring a name again may share the number of the next new
name, and then both stand for what was anchored last.
-/
namespace StageTemplates

namespace Yaml

/-- The names anchored so far, with the number each stands for. -/
abbrev Anchors := List (Name × Nat)

def Anchors.set (anchors : Anchors) (name : Name) (number : Nat) : Anchors :=
  match anchors with
  | [] => [(name, number)]
  | (other, old) :: rest =>
      if other = name then (name, number) :: rest else (other, old) :: set rest name number

/-- The properties with the anchor's number, and the names anchored from here on. -/
def Properties.numbered (properties : Properties Name) (anchors : Anchors) :
    Properties Nat × Anchors :=
  match properties.anchor with
  | none => (⟨none, properties.tag⟩, anchors)
  | some name => (⟨some anchors.length, properties.tag⟩, anchors.set name anchors.length)

namespace Tree

mutual

/-- Numbers the anchors and aliases in the order of the text. None if an alias is used before its
name was anchored. -/
def numbered? : Tree Name → Anchors → Option (Tree Nat × Anchors)
  | .alias name, anchors => (anchors.lookup name).map fun number => (.alias number, anchors)
  | .scalar properties text plain, anchors =>
      let (properties, anchors) := properties.numbered anchors
      some (.scalar properties text plain, anchors)
  | .sequence properties items, anchors =>
      let (properties, anchors) := properties.numbered anchors
      match numberedItems? items anchors with
      | some (items, anchors) => some (.sequence properties items, anchors)
      | none => none
  | .mapping properties entries, anchors =>
      let (properties, anchors) := properties.numbered anchors
      match numberedEntries? entries anchors with
      | some (entries, anchors) => some (.mapping properties entries, anchors)
      | none => none
termination_by structural tree => tree

def numberedItems? : List (Tree Name) → Anchors → Option (List (Tree Nat) × Anchors)
  | [], anchors => some ([], anchors)
  | item :: rest, anchors =>
      match numbered? item anchors with
      | some (item, anchors) =>
          match numberedItems? rest anchors with
          | some (rest, anchors) => some (item :: rest, anchors)
          | none => none
      | none => none
termination_by structural items => items

def numberedEntries? : List (Tree Name × Tree Name) → Anchors →
    Option (List (Tree Nat × Tree Nat) × Anchors)
  | [], anchors => some ([], anchors)
  | (key, value) :: rest, anchors =>
      match numbered? key anchors with
      | some (key, anchors) =>
          match numbered? value anchors with
          | some (value, anchors) =>
              match numberedEntries? rest anchors with
              | some (rest, anchors) => some ((key, value) :: rest, anchors)
              | none => none
          | none => none
      | none => none
termination_by structural entries => entries

end

/-- A node before the nodes inside it. -/
def mark (properties : Properties Nat) (tree : Tree Nat) (inside : List (Nat × Tree Nat)) :
    List (Nat × Tree Nat) :=
  match properties.anchor with
  | some number => (number, tree) :: inside
  | none => inside

mutual

/-- The anchored nodes in the order of the text. -/
def anchored : Tree Nat → List (Nat × Tree Nat)
  | .alias _ => []
  | .scalar properties text plain =>
      mark properties (.scalar properties text plain) []
  | .sequence properties items =>
      mark properties (.sequence properties items) (anchoredItems items)
  | .mapping properties entries =>
      mark properties (.mapping properties entries) (anchoredEntries entries)
termination_by structural tree => tree

def anchoredItems : List (Tree Nat) → List (Nat × Tree Nat)
  | [] => []
  | item :: rest => anchored item ++ anchoredItems rest
termination_by structural items => items

def anchoredEntries : List (Tree Nat × Tree Nat) → List (Nat × Tree Nat)
  | [] => []
  | (key, value) :: rest => anchored key ++ anchored value ++ anchoredEntries rest
termination_by structural entries => entries

end

/-- What an alias stands for: the last node anchored under its number. -/
def target? (nodes : List (Nat × Tree Nat)) (number : Nat) : Option (Tree Nat) :=
  nodes.reverse.lookup number

variable {A : Type}

mutual

/-- The parts of a node: itself, or its begin, its end and the parts between. -/
def size : Tree A → Nat
  | .alias _ => 1
  | .scalar _ _ _ => 1
  | .sequence _ items => 2 + sizeItems items
  | .mapping _ entries => 2 + sizeEntries entries
termination_by structural tree => tree

def sizeItems : List (Tree A) → Nat
  | [] => 0
  | item :: rest => size item + sizeItems rest
termination_by structural items => items

def sizeEntries : List (Tree A × Tree A) → Nat
  | [] => 0
  | (key, value) :: rest => size key + size value + sizeEntries rest
termination_by structural entries => entries

end

end Tree

end Yaml

end StageTemplates
