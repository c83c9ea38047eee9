import ManagementShell.Data
import ManagementShell.Yaml.Token

/-
This file reads YAML documents.
-/

namespace ManagementShell.Yaml
open Text

/-- A part of a document, in which aliases and anchors bear numbers. -/
inductive Node where
  | scalar (tag : Option Text) (isPlain : Bool) (text : Text)
  | list (tag : Option Text) (items : List Node)
  | table (tag : Option Text) (entries : List (Node × Node))
  | anchored (number : Nat) (node : Node)
  | alias (number : Nat)
  deriving Repr

/-- What stands where a node is left out. -/
def Node.empty : Node := .scalar none true []

/-- The tokens that are left, with the anchors that were met before them. -/
structure Remainder where
  tokens : List Token
  anchors : List (Text × Nat)

namespace Remainder

def drop (remainder : Remainder) (count : Nat) : Remainder :=
  { remainder with tokens := remainder.tokens.drop count }

/-- An anchor has the number of names that are known before it, also if its own is one of them. -/
def note (remainder : Remainder) (name : Text) : Nat × Remainder :=
  let number := remainder.anchors.length
  let others := remainder.anchors.filter fun anchor => anchor.1 != name
  (number, { remainder with anchors := (name, number) :: others })

end Remainder

/-- Where a node stands. The items of a list that is a key or a value need not be indented. -/
inductive Context where
  | item
  | keyOrValue
  | flow
  deriving DecidableEq, Repr

/-- The anchor and the tag before a node, in either order, and the number of their tokens. -/
def properties : List Token → Option Text × Option (Text × Text) × Nat
  | .anchor name :: .tag handle rest :: _ => (some name, some (handle, rest), 2)
  | .tag handle rest :: .anchor name :: _ => (some name, some (handle, rest), 2)
  | .anchor name :: _ => (some name, none, 1)
  | .tag handle rest :: _ => (none, some (handle, rest), 1)
  | _ => (none, none, 0)

/-- The whole tag, if its handle is known; no handle is needed for one that is written out. -/
def wholeTag (handles : List (Text × Text)) (tag : Text × Text) : Option Text :=
  if tag.1 = [] then some tag.2 else (handles.lookup tag.1).map (· ++ tag.2)

def endsItem (token : Token) : Bool := token == .item || token == .blockEnd

def endsEntry (token : Token) : Bool :=
  token == .key || token == .value || token == .blockEnd

def endsBareItem (token : Token) : Bool := token == .item || endsEntry token

def endsFlowItem (token : Token) : Bool := token == .comma || token == .flowListEnd

def endsFlowEntry (token : Token) : Bool := token == .comma || token == .flowTableEnd

mutual

/-- The node at the beginning; the first number bounds the steps here and below. -/
def node? (handles : List (Text × Text)) : Nat → Context → Remainder → Option (Node × Remainder)
  | 0, _, _ => none
  | steps + 1, context, remainder =>
      match remainder.tokens with
      | .alias name :: _ => (remainder.anchors.lookup name).map fun number =>
          (.alias number, remainder.drop 1)
      | tokens =>
          let (anchor, tag, count) := properties tokens
          let after := remainder.drop count
          let tag? : Option (Option Text) := match tag with
            | none => some none
            | some tag => (wholeTag handles tag).map some
          match tag? with
          | none => none
          | some tag => match anchor with
            | none => content? handles steps context tag (count == 0) after
            | some name =>
                let (number, noted) := after.note name
                (content? handles steps context tag false noted).map fun read =>
                  (.anchored number read.1, read.2)

/-- The node after its anchor and its tag; it must not be left out if it has neither. -/
def content? (handles : List (Text × Text)) :
    Nat → Context → Option Text → Bool → Remainder → Option (Node × Remainder)
  | 0, _, _, _, _ => none
  | steps + 1, context, tag, isBare, remainder =>
      let inBlock := context != .flow
      match remainder.tokens with
      | .scalar isPlain text :: _ => some (.scalar tag isPlain text, remainder.drop 1)
      | .flowListStart :: _ => (flowItems? handles steps (remainder.drop 1)).map fun read =>
          (.list tag read.1, read.2)
      | .flowTableStart :: _ => (flowEntries? handles steps (remainder.drop 1)).map fun read =>
          (.table tag read.1, read.2)
      | first :: _ =>
          if first = .item ∧ context = .keyOrValue then
            (bareItems? handles steps remainder).map fun read => (.list tag read.1, read.2)
          else if first = .listStart ∧ inBlock then
            (items? handles steps (remainder.drop 1)).map fun read => (.list tag read.1, read.2)
          else if first = .tableStart ∧ inBlock then
            (entries? handles steps (remainder.drop 1)).map fun read => (.table tag read.1, read.2)
          else if isBare then none
          else some (.scalar tag true [], remainder)
      | [] => if isBare then none else some (.scalar tag true [], remainder)

/-- A node, or the empty one before a token that ends it. -/
def nodeUnless? (handles : List (Text × Text)) (ends : Token → Bool) :
    Nat → Context → Remainder → Option (Node × Remainder)
  | 0, _, _ => none
  | steps + 1, context, remainder =>
      if remainder.tokens.head?.any ends then some (.empty, remainder)
      else node? handles steps context remainder

/-- The items of a list up to the end of its block. -/
def items? (handles : List (Text × Text)) : Nat → Remainder → Option (List Node × Remainder)
  | 0, _ => none
  | steps + 1, remainder => match remainder.tokens with
    | .item :: _ => match nodeUnless? handles endsItem steps .item (remainder.drop 1) with
      | some (first, rest) => (items? handles steps rest).map fun read =>
          (first :: read.1, read.2)
      | none => none
    | .blockEnd :: _ => some ([], remainder.drop 1)
    | _ => none

/-- The items of a list that is not indented; it ends before the first token that is no item. -/
def bareItems? (handles : List (Text × Text)) : Nat → Remainder → Option (List Node × Remainder)
  | 0, _ => none
  | steps + 1, remainder => match remainder.tokens with
    | .item :: _ => match nodeUnless? handles endsBareItem steps .item (remainder.drop 1) with
      | some (first, rest) => (bareItems? handles steps rest).map fun read =>
          (first :: read.1, read.2)
      | none => none
    | _ => some ([], remainder)

/-- The value after a key, which may be left out together with its colon. -/
def value? (handles : List (Text × Text)) (ends : Token → Bool) :
    Nat → Context → Remainder → Option (Node × Remainder)
  | 0, _, _ => none
  | steps + 1, context, remainder => match remainder.tokens with
    | .value :: _ => nodeUnless? handles ends steps context (remainder.drop 1)
    | _ => some (.empty, remainder)

/-- The entries of a table up to the end of its block. -/
def entries? (handles : List (Text × Text)) :
    Nat → Remainder → Option (List (Node × Node) × Remainder)
  | 0, _ => none
  | steps + 1, remainder => match remainder.tokens with
    | .key :: _ => match nodeUnless? handles endsEntry steps .keyOrValue (remainder.drop 1) with
      | none => none
      | some (key, rest) => match value? handles endsEntry steps .keyOrValue rest with
        | none => none
        | some (value, next) => (entries? handles steps next).map fun read =>
            ((key, value) :: read.1, read.2)
    | .blockEnd :: _ => some ([], remainder.drop 1)
    | _ => none

/-- An item in brackets; a key makes a table with one entry of it. Where the key is empty, the token
behind it is lost. -/
def flowItem? (handles : List (Text × Text)) : Nat → Remainder → Option (Node × Remainder)
  | 0, _ => none
  | steps + 1, remainder => match remainder.tokens with
    | .key :: next =>
        let read := if next.head?.any fun token => token == .value || endsFlowItem token then
            some (.empty, remainder.drop 2)
          else node? handles steps .flow (remainder.drop 1)
        match read with
        | none => none
        | some (key, rest) => (value? handles endsFlowItem steps .flow rest).map fun read =>
            (.table none [(key, read.1)], read.2)
    | _ => node? handles steps .flow remainder

/-- The items of a list up to its closing bracket; a comma may follow the last. -/
def flowItems? (handles : List (Text × Text)) : Nat → Remainder → Option (List Node × Remainder)
  | 0, _ => none
  | steps + 1, remainder =>
      if remainder.tokens.head? = some .flowListEnd then some ([], remainder.drop 1)
      else match flowItem? handles steps remainder with
        | none => none
        | some (first, rest) => match rest.tokens with
          | .flowListEnd :: _ => some ([first], rest.drop 1)
          | .comma :: _ => (flowItems? handles steps (rest.drop 1)).map fun read =>
              (first :: read.1, read.2)
          | _ => none

/-- An entry in braces. Without the token for a key, it has no value. -/
def flowEntry? (handles : List (Text × Text)) : Nat → Remainder → Option ((Node × Node) × Remainder)
  | 0, _ => none
  | steps + 1, remainder => match remainder.tokens with
    | .key :: _ =>
        let ends := fun token => token == .value || endsFlowEntry token
        match nodeUnless? handles ends steps .flow (remainder.drop 1) with
        | none => none
        | some (key, rest) => (value? handles endsFlowEntry steps .flow rest).map fun read =>
            ((key, read.1), read.2)
    | _ => (node? handles steps .flow remainder).map fun read => ((read.1, .empty), read.2)

/-- The entries of a table up to its closing brace; a comma may follow the last. -/
def flowEntries? (handles : List (Text × Text)) :
    Nat → Remainder → Option (List (Node × Node) × Remainder)
  | 0, _ => none
  | steps + 1, remainder =>
      if remainder.tokens.head? = some .flowTableEnd then some ([], remainder.drop 1)
      else match flowEntry? handles steps remainder with
        | none => none
        | some (first, rest) => match rest.tokens with
          | .flowTableEnd :: _ => some ([first], rest.drop 1)
          | .comma :: _ => (flowEntries? handles steps (rest.drop 1)).map fun read =>
              (first :: read.1, read.2)
          | _ => none

end

/-- The tags that the data itself understands begin so. -/
def coreTag : Text := "tag:yaml.org,2002:"

/-- These handles are known in every document. -/
def commonHandles : List (Text × Text) := [("!", "!"), ("!!", coreTag)]

/-- The directives before a document, with the tokens after them. -/
structure Directives where
  version : Option (Nat × Nat)
  handles : List (Text × Text)
  rest : List Token

/-- A version or a handle must not be given twice. -/
def directives? (found : Directives) : List Token → Option Directives
  | .version major minor :: rest =>
      if found.version.isSome ∨ major ≠ 1 ∨ (minor ≠ 1 ∧ minor ≠ 2) then none
      else directives? { found with version := some (major, minor) } rest
  | .handle name meaning :: rest =>
      if (found.handles.lookup name).isSome then none
      else directives? { found with handles := (name, meaning) :: found.handles } rest
  | rest => some { found with rest := rest }

def startsNoContent (token : Token) : Bool :=
  match token with
  | .version _ _ | .handle _ _ | .documentStart | .documentEnd => true
  | _ => false

/-- The only document of the tokens. Its content may be left out after a line that starts it, and
directives need such a line. -/
def document? (tokens : List Token) : Option Node :=
  match directives? ⟨none, [], []⟩ tokens with
  | none => none
  | some found =>
      let handles := found.handles ++ commonHandles
      let steps := 8 * tokens.length + 8
      let hasDirectives := found.rest.length < tokens.length
      let read : Option (Node × Remainder) := match found.rest with
        | .documentStart :: rest =>
            if rest.head?.all startsNoContent then some (.empty, ⟨rest, []⟩)
            else node? handles steps .item ⟨rest, []⟩
        | [] => if hasDirectives then none else some (.empty, ⟨[], []⟩)
        | rest => if hasDirectives then none else node? handles steps .item ⟨rest, []⟩
      match read with
      | some (node, ⟨rest, _⟩) => if rest.all (· == .documentEnd) then some node else none
      | none => none

mutual

/-- The nodes with anchors in the order of the document. -/
def Node.anchors : Node → List (Nat × Node)
  | .scalar _ _ _ => []
  | .list _ items => anchorsOfItems items
  | .table _ entries => anchorsOfEntries entries
  | .anchored number node => (number, node) :: node.anchors
  | .alias _ => []

def anchorsOfItems : List Node → List (Nat × Node)
  | [] => []
  | first :: rest => first.anchors ++ anchorsOfItems rest

def anchorsOfEntries : List (Node × Node) → List (Nat × Node)
  | [] => []
  | (key, value) :: rest => key.anchors ++ value.anchors ++ anchorsOfEntries rest

end

/-- What a tag makes of unquoted or quoted text. -/
def taggedText (tag : Text) (isPlain : Bool) (text : Text) : Data :=
  let data : Data := if isPlain then .plain text else .text text
  if tag = "!" then data
  else if tag.head? = some '!' then .tagged tag data
  else if tag = coreTag ++ "int" ∧ (Plain.integer? text).isSome then .plain text
  else if tag = coreTag ++ "null" ∧ isPlain ∧ text ≠ [] ∧ Plain.isNothing text then .plain text
  else if ((["bool", "int", "float", "null"] : List Text).map (coreTag ++ ·)).contains tag then
    .tagged tag data
  else .text text

/-- Lists and tables keep tags that begin with a mark. -/
def withTag (tag : Option Text) (data : Data) : Data :=
  match tag with
  | some ('!' :: name) => .tagged ('!' :: name) data
  | _ => data

/-- The data of a node, where aliases are replaced; below the depth nothing is told. A table whose
keys are not all texts has no use. -/
def Node.data (anchored : Nat → Option Node) : Nat → Node → Data
  | 0, _ => .other
  | _ + 1, .scalar tag isPlain text => match tag with
    | some tag => taggedText tag isPlain text
    | none => if isPlain then .plain text else .text text
  | depth + 1, .list tag items => withTag tag (.list (items.map (Node.data anchored depth)))
  | depth + 1, .table tag entries =>
      let named := entries.mapM fun entry => (Node.data anchored depth entry.1).text?.map fun name =>
        (name, Node.data anchored depth entry.2)
      match named with
      | some named => withTag tag (.table named)
      | none => .other
  | depth + 1, .anchored _ node => Node.data anchored depth node
  | depth + 1, .alias number => match anchored number with
    | some node => Node.data anchored depth node
    | none => .other

/-- No setting lies so deep in a document. -/
def deepest : Nat := 24

/-- The data that a document describes, if it is well-formed. An alias leads to the last node with
its number. -/
def parse? (text : Text) : Option Data :=
  match tokens? text with
  | none => none
  | some tokens => (document? tokens).map fun node =>
      let anchors := node.anchors.reverse
      node.data (fun number => anchors.lookup number) deepest

end ManagementShell.Yaml
