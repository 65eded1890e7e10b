import ScriptCore.Error
import ScriptCore.Yaml.Resolve
import ScriptCore.Yaml.Token.Scan

/-!
# Nodes

The tree of a YAML document with the tags, lines and aliases that its layout
tells.  An alias names an anchor; anchors are numbered in the order in which
their nodes start, and the document keeps the node of each.
-/

namespace ScriptCore
namespace Yaml

/-- A node of a document and the line it starts on, counted from one. -/
inductive Node where
  | scalar (line : Nat) (tag : Tag) (text : String)
  | seq (line : Nat) (tag : Tag) (items : List Node)
  | map (line : Nat) (tag : Tag) (entries : List (Node × Node))
  | alias (line : Nat) (name : String) (anchor : Nat)
deriving Repr, Inhabited

namespace Node

def line : Node → Nat
  | .scalar line .. => line
  | .seq line .. => line
  | .map line .. => line
  | .alias line .. => line

/-- The text of a scalar or the name of an alias; empty for collections. -/
def text : Node → String
  | .scalar _ _ written => written
  | .alias _ name _ => name
  | _ => ""

def sameText : Node → Node → Bool
  | .scalar _ _ a, .scalar _ _ b => a == b
  | .alias _ a _, .alias _ b _ => a == b
  | .seq .., .seq .. => true
  | .map .., .map .. => true
  | _, _ => false

def isMerge : Node → Bool
  | .scalar _ .merge written => written == "<<"
  | _ => false

end Node

/-- A document: its root and the nodes of its anchors. -/
structure Document where
  root : Node
  anchors : Array Node
deriving Repr

namespace Document

/-- The state of reading a document from its tokens. -/
structure Reading where
  tokens : List Token
  /-- The anchor that a name stands for now. -/
  names : List (String × Nat) := []
  anchors : Array Node := #[]
  /-- The expansions of tag handles. -/
  handles : List (String × String) := []

abbrev Reader := StateT Reading Option

namespace Reader

def peek : Reader TokenKind := do
  return ((← get).tokens.head?.map (·.kind)).getD .broken

def line : Reader Nat := do
  return ((← get).tokens.head?.map (·.line)).getD 0 + 1

def skip : Reader Unit :=
  modify fun r => { r with tokens := r.tokens.drop 1 }

def expect (kind : TokenKind) : Reader Unit := do
  if (← peek) = kind then skip else failure

def expand (handle suffix : String) : Reader String := do
  if handle.isEmpty then return suffix
  match (← get).handles.lookup handle with
  | some expansion =>
      if (expansion ++ suffix).isEmpty then failure else return expansion ++ suffix
  | none => failure

structure Head where
  line : Nat
  anchor : Option String := none
  tag : Option String := none

def anchor? : Reader (Option String) := do
  match ← peek with
  | .anchor name =>
      skip
      return some name
  | _ => return none

def tag? : Reader (Option String) := do
  match ← peek with
  | .tag handle suffix =>
      skip
      return some (← expand handle suffix)
  | _ => return none

def head : Reader Head := do
  let line ← line
  match ← anchor? with
  | some name => return { line, anchor := some name, tag := ← tag? }
  | none =>
      let tag ← tag?
      let anchor ← if tag.isSome then anchor? else pure none
      return { line, anchor, tag }

/-- The tag of a node that was written with a tag, or the one it gets otherwise. -/
def Head.tagOr (h : Head) (default : Tag) : Tag :=
  match h.tag with
  | some name => if name == "!" then default else .ofName name
  | none => default

/-- Give the anchor of a node its number; its node is told later. -/
def register (h : Head) : Reader (Option Nat) := do
  match h.anchor with
  | none => return none
  | some name =>
      let r ← get
      let number := r.anchors.size
      set { r with names := (name, number) :: r.names, anchors := r.anchors.push default }
      return some number

def complete (number : Option Nat) (node : Node) : Reader Node := do
  match number with
  | some number => modify fun r => { r with anchors := r.anchors.setIfInBounds number node }
  | none => pure ()
  return node

def defaultTag (text : String) (isPlain : Bool) : Tag :=
  if !isPlain then .str
  else if text == "<<" then .merge
  else scalarTag (ofPlain true text)

def scalarNode (h : Head) (text : String) (isPlain : Bool) : Reader Node := do
  let number ← register h
  complete number (.scalar h.line (h.tagOr (defaultTag text isPlain)) text)

def emptyNode (line : Nat) : Node :=
  .scalar line .null ""

def aliasNode (line : Nat) (name : String) : Reader Node := do
  match (← get).names.lookup name with
  | some number => return .alias line name number
  | none => failure

def isEntryEnd (kinds : List TokenKind) : Reader Bool := do
  return kinds.contains (← peek)

mutual

/-- A node.  Block collections are allowed where `inBlock` is set; where `indentless` is set, a
sequence may stand at the column of the mapping around it. -/
def node (inBlock indentless : Bool) : (fuel : Nat) → Reader Node
  | 0 => failure
  | fuel + 1 => do
      match ← peek with
      | .alias name =>
          let line ← line
          skip
          aliasNode line name
      | _ =>
          let h ← head
          content inBlock indentless h fuel

def content (inBlock indentless : Bool) (h : Head) : (fuel : Nat) → Reader Node
  | 0 => failure
  | fuel + 1 => do
      match ← peek with
      | .scalar written isPlain =>
          skip
          scalarNode h written isPlain
      | .flowSequenceStart =>
          let number ← register h
          skip
          let items ← flowItems true fuel
          complete number (.seq h.line (h.tagOr .seq) items)
      | .flowMappingStart =>
          let number ← register h
          skip
          let entries ← flowEntries true fuel
          complete number (.map h.line (h.tagOr .map) entries)
      | .blockEntry =>
          if indentless then
            let number ← register h
            let items ← indentlessItems fuel
            complete number (.seq h.line (h.tagOr .seq) items)
          else bare h
      | .blockSequenceStart =>
          if inBlock then
            let number ← register h
            skip
            let items ← blockItems fuel
            complete number (.seq h.line (h.tagOr .seq) items)
          else bare h
      | .blockMappingStart =>
          if inBlock then
            let number ← register h
            skip
            let entries ← blockEntries fuel
            complete number (.map h.line (h.tagOr .map) entries)
          else bare h
      | _ => bare h

def bare (h : Head) : Reader Node :=
  if h.anchor.isSome || h.tag.isSome then scalarNode h "" true else failure

def blockItems : (fuel : Nat) → Reader (List Node)
  | 0 => failure
  | fuel + 1 => do
      match ← peek with
      | .blockEntry =>
          let line ← line
          skip
          let item ←
            if ← isEntryEnd [.blockEntry, .blockEnd] then pure (emptyNode line)
            else node true false fuel
          return item :: (← blockItems fuel)
      | .blockEnd =>
          skip
          return []
      | _ => failure

def indentlessItems : (fuel : Nat) → Reader (List Node)
  | 0 => failure
  | fuel + 1 => do
      match ← peek with
      | .blockEntry =>
          let line ← line
          skip
          let item ←
            if ← isEntryEnd [.blockEntry, .key, .value, .blockEnd] then pure (emptyNode line)
            else node true false fuel
          return item :: (← indentlessItems fuel)
      | _ => return []

def blockEntries : (fuel : Nat) → Reader (List (Node × Node))
  | 0 => failure
  | fuel + 1 => do
      match ← peek with
      | .key =>
          let line ← line
          skip
          let key ←
            if ← isEntryEnd [.key, .value, .blockEnd] then pure (emptyNode line)
            else node true true fuel
          let value ← blockValue fuel
          return (key, value) :: (← blockEntries fuel)
      | .blockEnd =>
          skip
          return []
      | _ => failure

def blockValue : (fuel : Nat) → Reader Node
  | 0 => failure
  | fuel + 1 => do
      let line ← line
      match ← peek with
      | .value =>
          skip
          if ← isEntryEnd [.key, .value, .blockEnd] then return emptyNode line
          node true true fuel
      | _ => return emptyNode line

def flowItems (isFirst : Bool) : (fuel : Nat) → Reader (List Node)
  | 0 => failure
  | fuel + 1 => do
      if (← peek) = .flowSequenceEnd then
        skip
        return []
      if !isFirst then expect .flowEntry
      match ← peek with
      | .flowSequenceEnd =>
          skip
          return []
      | .key =>
          let line ← line
          skip
          let pair ← flowPair fuel
          return .map line .map [pair] :: (← flowItems false fuel)
      | _ =>
          let item ← node false false fuel
          return item :: (← flowItems false fuel)

/-- A key and its value as an item of a flow sequence.  An empty key takes the token behind it. -/
def flowPair : (fuel : Nat) → Reader (Node × Node)
  | 0 => failure
  | fuel + 1 => do
      let line ← line
      let key ←
        if ← isEntryEnd [.value, .flowEntry, .flowSequenceEnd] then
          skip
          pure (emptyNode line)
        else node false false fuel
      let value ← flowValue .flowSequenceEnd fuel
      return (key, value)

def flowValue (closing : TokenKind) : (fuel : Nat) → Reader Node
  | 0 => failure
  | fuel + 1 => do
      let line ← line
      match ← peek with
      | .value =>
          skip
          if ← isEntryEnd [.flowEntry, closing] then return emptyNode line
          node false false fuel
      | _ => return emptyNode line

def flowEntries (isFirst : Bool) : (fuel : Nat) → Reader (List (Node × Node))
  | 0 => failure
  | fuel + 1 => do
      if (← peek) = .flowMappingEnd then
        skip
        return []
      if !isFirst then expect .flowEntry
      match ← peek with
      | .flowMappingEnd =>
          skip
          return []
      | .key =>
          skip
          let line ← line
          let key ←
            if ← isEntryEnd [.value, .flowEntry, .flowMappingEnd] then pure (emptyNode line)
            else node false false fuel
          let value ← flowValue .flowMappingEnd fuel
          return (key, value) :: (← flowEntries false fuel)
      | _ =>
          let key ← node false false fuel
          let value := emptyNode (← line)
          return (key, value) :: (← flowEntries false fuel)

end

/-- The directives in front of a document.  Only version 1.1 is known, and none may be repeated. -/
def directives : (fuel : Nat) → (hasVersion : Bool) → Reader Unit
  | 0, _ => failure
  | fuel + 1, hasVersion => do
      match ← peek with
      | .version major minor =>
          if hasVersion || major != 1 || minor != 1 then failure
          skip
          directives fuel true
      | .tagHandle handle expansion =>
          let r ← get
          if (r.handles.lookup handle).isSome then failure
          set { r with handles := (handle, expansion) :: r.handles }
          skip
          directives fuel hasVersion
      | _ => return ()

def standardHandles : List (String × String) :=
  [("!", "!"), ("!!", Tag.home)]

def document (fuel : Nat) : Reader (Option Node) := do
  match ← peek with
  | .streamEnd => return none
  | .broken => failure
  | kind =>
      let isExplicit := kind.isDirective || kind == .documentStart
      if isExplicit then
        directives fuel false
        expect .documentStart
      modify fun r => { r with handles := r.handles ++ standardHandles }
      let isEmpty := isExplicit && (← peek).endsDocument
      let line ← line
      let root ← if isEmpty then pure (emptyNode line) else node true false fuel
      if (← peek) = .broken then failure
      return some root

end Reader

def fuelFor (tokens : List Token) : Nat :=
  4 * tokens.length + 8

/-- The first document of a text; none if the text holds no document at all. -/
def parse (text : String) : Except Error (Option Document) :=
  let tokens := tokens text.toList
  match (Reader.document (fuelFor tokens)).run { tokens } with
  | some (root, r) => .ok (root.map fun root => { root, anchors := r.anchors })
  | none => .error .yamlSyntax

end Document
end Yaml
end ScriptCore
