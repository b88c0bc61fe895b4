import StageTemplates.Yaml.Token

set_option autoImplicit false

/-!
The nodes of a YAML document as written: scalars still text, aliases still names.
-/
namespace StageTemplates

namespace Yaml

/-- What may stand before a node. Anchors are of the type `A`. -/
structure Properties (A : Type) where
  anchor : Option A := none
  tag : Option TagText := none

/-- A node, with anchors and aliases of the type `A`. -/
inductive Tree (A : Type) where
  | alias (target : A)
  | scalar (properties : Properties A) (text : List Char) (plain : Bool)
  | sequence (properties : Properties A) (items : List (Tree A))
  | mapping (properties : Properties A) (entries : List (Tree A × Tree A))

abbrev Name := List Char

/-- Tag handles and what they stand for. -/
abbrev Handles := List (List Char × TagText)

def Handles.standard : Handles :=
  [(['!'], TagText.ofChars ['!']), (['!', '!'], TagText.ofChars "tag:yaml.org,2002:".toList)]

def Handles.expand? (handles : Handles) (handle : List Char) (suffix : TagText) :
    Option TagText :=
  match handle with
  | [] => some suffix
  | handle => (handles.lookup handle).map (· ++ suffix)

namespace Tree

/-- The node where nothing is written. -/
def empty (properties : Properties Name) : Tree Name := .scalar properties [] true

/-- An anchor and a tag, each at most once, in either order. -/
def properties? (handles : Handles) (tokens : List Token) :
    Option (Properties Name × List Token) :=
  match tokens with
  | .anchor name :: .tag handle suffix :: rest =>
      (handles.expand? handle suffix).map fun tag => (⟨some name, some tag⟩, rest)
  | .tag handle suffix :: .anchor name :: rest =>
      (handles.expand? handle suffix).map fun tag => (⟨some name, some tag⟩, rest)
  | .anchor name :: rest => some (⟨some name, none⟩, rest)
  | .tag handle suffix :: rest =>
      (handles.expand? handle suffix).map fun tag => (⟨none, some tag⟩, rest)
  | rest => some ({}, rest)

/-- Whether the next token ends a node that would begin there. -/
def ends (closing : List Token) : List Token → Bool
  | [] => false
  | token :: _ => closing.contains token

/-- Properties alone make an empty scalar; without any there is no node. -/
def unwritten (properties : Properties Name) (rest : List Token) :
    Option (Tree Name × List Token) :=
  if properties.anchor.isSome || properties.tag.isSome then some (empty properties, rest) else none

mutual

/-- Reads a node. Inside a block (`block`) it may be a block collection; as the part of a block
mapping (`flush`) it may be a sequence whose entries are not indented further. -/
def node? (handles : Handles) : (budget : Nat) → (block flush : Bool) → List Token →
    Option (Tree Name × List Token)
  | 0, _, _, _ => none
  | budget + 1, block, flush, tokens =>
      match tokens with
      | .alias name :: rest => some (.alias name, rest)
      | tokens =>
          match properties? handles tokens with
          | none => none
          | some (properties, tokens) =>
              match tokens with
              | .scalar text plain :: rest =>
                  some (.scalar properties text plain, rest)
              | .flowSequenceStart :: rest =>
                  (flowItems? handles budget true rest).map fun (items, rest) =>
                    (.sequence properties items, rest)
              | .flowMappingStart :: rest =>
                  (flowEntries? handles budget true rest).map fun (entries, rest) =>
                    (.mapping properties entries, rest)
              | .blockEntry :: rest =>
                  if flush then
                    (flushItems? handles budget (.blockEntry :: rest)).map fun (items, rest) =>
                      (.sequence properties items, rest)
                  else unwritten properties (.blockEntry :: rest)
              | .blockSequenceStart :: rest =>
                  if block then
                    (blockItems? handles budget rest).map fun (items, rest) =>
                      (.sequence properties items, rest)
                  else unwritten properties (.blockSequenceStart :: rest)
              | .blockMappingStart :: rest =>
                  if block then
                    (blockEntries? handles budget rest).map fun (entries, rest) =>
                      (.mapping properties entries, rest)
                  else unwritten properties (.blockMappingStart :: rest)
              | rest => unwritten properties rest

/-- The items of a block sequence, up to its end. -/
def blockItems? (handles : Handles) : (budget : Nat) → List Token →
    Option (List (Tree Name) × List Token)
  | 0, _ => none
  | budget + 1, tokens =>
      match tokens with
      | .blockEnd :: rest => some ([], rest)
      | .blockEntry :: rest => do
          let (item, rest) ←
            if ends [.blockEntry, .blockEnd] rest then some (empty {}, rest)
            else node? handles budget true false rest
          let (items, rest) ← blockItems? handles budget rest
          return (item :: items, rest)
      | _ => none

/-- The items of a sequence that is no deeper than the mapping it stands in. -/
def flushItems? (handles : Handles) : (budget : Nat) → List Token →
    Option (List (Tree Name) × List Token)
  | 0, _ => none
  | budget + 1, tokens =>
      match tokens with
      | .blockEntry :: rest => do
          let (item, rest) ←
            if ends [.blockEntry, .key, .value, .blockEnd] rest then some (empty {}, rest)
            else node? handles budget true false rest
          let (items, rest) ← flushItems? handles budget rest
          return (item :: items, rest)
      | rest => some ([], rest)

/-- The entries of a block mapping, up to its end. -/
def blockEntries? (handles : Handles) : (budget : Nat) → List Token →
    Option (List (Tree Name × Tree Name) × List Token)
  | 0, _ => none
  | budget + 1, tokens =>
      match tokens with
      | .blockEnd :: rest => some ([], rest)
      | .key :: rest => do
          let (key, rest) ←
            if ends [.key, .value, .blockEnd] rest then some (empty {}, rest)
            else node? handles budget true true rest
          let (value, rest) ←
            match rest with
            | .value :: rest =>
                if ends [.key, .value, .blockEnd] rest then some (empty {}, rest)
                else node? handles budget true true rest
            | rest => some (empty {}, rest)
          let (entries, rest) ← blockEntries? handles budget rest
          return ((key, value) :: entries, rest)
      | _ => none

/-- The items of a flow sequence, up to its end. An entry alone makes a mapping of its own. -/
def flowItems? (handles : Handles) : (budget : Nat) → (first : Bool) → List Token →
    Option (List (Tree Name) × List Token)
  | 0, _, _ => none
  | budget + 1, first, tokens =>
      match tokens with
      | .flowSequenceEnd :: rest => some ([], rest)
      | tokens => do
          let tokens ←
            if first then some tokens
            else
              match tokens with
              | .flowEntry :: rest => some rest
              | _ => none
          match tokens with
          | .flowSequenceEnd :: rest => some ([], rest)
          | .key :: rest =>
              let (entry, rest) ← flowPair? handles budget rest
              let (items, rest) ← flowItems? handles budget false rest
              return (.mapping {} [entry] :: items, rest)
          | rest =>
              let (item, rest) ← node? handles budget false false rest
              let (items, rest) ← flowItems? handles budget false rest
              return (item :: items, rest)

/-- The entry of a flow sequence whose key mark was read. An empty key takes the token after the
mark with it. -/
def flowPair? (handles : Handles) : (budget : Nat) → List Token →
    Option ((Tree Name × Tree Name) × List Token)
  | 0, _ => none
  | budget + 1, tokens => do
      let (key, rest) ←
        if ends [.value, .flowEntry, .flowSequenceEnd] tokens then
          some (empty {}, tokens.drop 1)
        else node? handles budget false false tokens
      match rest with
      | .value :: rest =>
          let (value, rest) ←
            if ends [.flowEntry, .flowSequenceEnd] rest then some (empty {}, rest)
            else node? handles budget false false rest
          return ((key, value), rest)
      | rest => return ((key, empty {}), rest)

/-- The entries of a flow mapping, up to its end. -/
def flowEntries? (handles : Handles) : (budget : Nat) → (first : Bool) → List Token →
    Option (List (Tree Name × Tree Name) × List Token)
  | 0, _, _ => none
  | budget + 1, first, tokens =>
      match tokens with
      | .flowMappingEnd :: rest => some ([], rest)
      | tokens => do
          let tokens ←
            if first then some tokens
            else
              match tokens with
              | .flowEntry :: rest => some rest
              | _ => none
          match tokens with
          | .flowMappingEnd :: rest => some ([], rest)
          | .key :: rest =>
              let (key, rest) ←
                if ends [.value, .flowEntry, .flowMappingEnd] rest then some (empty {}, rest)
                else node? handles budget false false rest
              let (value, rest) ←
                match rest with
                | .value :: rest =>
                    if ends [.flowEntry, .flowMappingEnd] rest then some (empty {}, rest)
                    else node? handles budget false false rest
                | rest => some (empty {}, rest)
              let (entries, rest) ← flowEntries? handles budget false rest
              return ((key, value) :: entries, rest)
          | rest =>
              let (key, rest) ← node? handles budget false false rest
              let (entries, rest) ← flowEntries? handles budget false rest
              return ((key, empty {}) :: entries, rest)

end

/-- The handles declared before a document, and the tokens after them. -/
def directives? (version : Bool) (handles : Handles) : List Token → Option (Handles × List Token)
  | .version major minor :: rest =>
      if version || major ≠ 1 || (minor ≠ 1 && minor ≠ 2) then none
      else directives? true handles rest
  | .tagShorthand handle expansion :: rest =>
      if (handles.lookup handle).isSome then none
      else directives? version (handles ++ [(handle, expansion)]) rest
  | rest => some (handles, rest)

def isDirective : Token → Bool
  | .version _ _ => true
  | .tagShorthand _ _ => true
  | _ => false

def contentEnds : List Token → Bool
  | [] => true
  | token :: _ => isDirective token || token = .documentStart || token = .documentEnd

/-- The one document of a stream: none within `some` if the stream is empty. -/
def ofTokens? (tokens : List Token) : Option (Option (Tree Name)) :=
  let budget := 4 * tokens.length + 8
  match tokens with
  | [] => some none
  | first :: _ => do
      let (tree, rest) ←
        if isDirective first || first = .documentStart then do
          let (handles, rest) ← directives? false [] tokens
          match rest with
          | .documentStart :: rest =>
              if contentEnds rest then some (empty {}, rest)
              else node? (handles ++ Handles.standard) budget true false rest
          | _ => none
        else node? Handles.standard budget true false tokens
      if rest.all (· = .documentEnd) then some (some tree) else none

end Tree

end Yaml

end StageTemplates
