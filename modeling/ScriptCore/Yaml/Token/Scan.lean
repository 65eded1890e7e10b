import ScriptCore.Yaml.Token.Block
import ScriptCore.Yaml.Token.Plain
import ScriptCore.Yaml.Token.Property
import ScriptCore.Yaml.Token.Quoted

/-!
# Tokens of a text

The text is cut into tokens from left to right.  A token that may turn out to
be a key is remembered, one for each level of flow collections; when a colon
follows on the same line, the key and mapping tokens are put in front of it.
-/

namespace ScriptCore
namespace Yaml

/-- A place where a key without a question mark may start. -/
structure KeyPlace where
  isPossible : Bool := false
  /-- Only a key can stand here. -/
  isRequired : Bool := false
  /-- The number of its first token. -/
  number : Nat := 0
  index : Nat := 0
  line : Nat := 0
  column : Nat := 0

structure Scanner where
  cursor : Cursor
  tokens : Array Token := #[]
  /-- The possible keys, innermost flow level first. -/
  place : KeyPlace := {}
  outerPlaces : List KeyPlace := []
  /-- The column of the innermost block collection, minus one outside of all. -/
  indent : Int := -1
  outerIndents : List Int := []
  /-- A key without a question mark may start here. -/
  keyAllowed : Bool := true

namespace Scanner

def start (text : List Char) : Scanner :=
  { cursor := .start text }

def inFlow (s : Scanner) : Bool :=
  !s.outerPlaces.isEmpty

def emit (s : Scanner) (kind : TokenKind) : Scanner :=
  { s with tokens := s.tokens.push ⟨kind, s.cursor.line⟩ }

def emitMark (s : Scanner) (kind : TokenKind) (length : Nat) : Scanner :=
  let s := s.emit kind
  { s with cursor := s.cursor.skip length }

def insert (s : Scanner) (number : Nat) (token : Token) : Scanner :=
  { s with tokens := (s.tokens.toList.insertIdx number token).toArray }

/-- The place can still become a key: the colon has to be on the same line and near. -/
def isValid (s : Scanner) (k : KeyPlace) : Bool :=
  k.isPossible && k.line == s.cursor.line && decide (s.cursor.index ≤ k.index + 1024)

def dropKey (s : Scanner) : Option Scanner :=
  if s.place.isPossible && s.place.isRequired then none
  else some { s with place := { s.place with isPossible := false } }

def saveKey (s : Scanner) : Option Scanner :=
  if s.keyAllowed then do
    let c := s.cursor
    let isRequired := !s.inFlow && decide (s.indent = (c.column : Int))
    let s ← s.dropKey
    return { s with
      place :=
        { isPossible := true, isRequired, number := s.tokens.size
          index := c.index, line := c.line, column := c.column } }
  else some s

def unroll (column : Int) : List Int → Scanner → Scanner
  | outer, s =>
      if s.indent ≤ column then { s with outerIndents := outer }
      else
        match outer with
        | [] => { s with indent := -1, outerIndents := [] }
        | indent :: rest => unroll column rest { s.emit .blockEnd with indent }

def unrollTo (s : Scanner) (column : Int) : Scanner :=
  if s.inFlow then s else unroll column s.outerIndents s

/-- Open a block collection at a column, unless it is open. -/
def roll (s : Scanner) (column : Nat) (number : Option Nat) (token : Token) : Scanner :=
  if s.inFlow || decide ((column : Int) ≤ s.indent) then s
  else
    let s := { s with outerIndents := s.indent :: s.outerIndents, indent := column }
    match number with
    | some number => s.insert number token
    | none => { s with tokens := s.tokens.push token }

def skipSpace : (fuel : Nat) → Cursor → Cursor
  | 0, c => c
  | fuel + 1, c =>
      if c.atBlank then skipSpace fuel (c.skip 1)
      else if c.atBreak then skipSpace fuel c.skipBreak
      else c

/-- The number of characters within which a comment belongs to the comment above it. -/
def commentReach : Nat := 511

def skipComments : (fuel : Nat) → Cursor → Cursor
  | 0, c => c
  | fuel + 1, c =>
      let c := c.skipLine
      match c.rest with
      | [] => c
      | b :: rest =>
          let gap := (rest.takeWhile fun ch => isBlank ch || ch == '\n' || ch == '\r').length
          if (b = '\n' ∨ b = '\r') ∧ gap < commentReach ∧ rest[gap]? = some '#' then
            skipComments fuel (skipSpace (gap + 1) c)
          else c

def toNextToken : (fuel : Nat) → Scanner → Scanner
  | 0, s => s
  | fuel + 1, s =>
      let c := s.cursor
      let c := if c.column = 0 ∧ c.isAt '\ufeff' then c.skip 1 else c
      let tabs := s.inFlow || !s.keyAllowed
      let c := c.skipWhile fun ch => ch == ' ' || (tabs && ch == '\t')
      let c := if c.isAt '#' then skipComments (c.rest.length + 1) c else c
      if c.atBreak then
        toNextToken fuel { s with cursor := c.skipBreak, keyAllowed := s.keyAllowed || !s.inFlow }
      else { s with cursor := c }

def skipLineComment (s : Scanner) : Scanner :=
  let c := s.cursor.skipBlanks
  if c.isAt '#' then { s with cursor := c.skipLine } else s

def fetchEnd (s : Scanner) : Option Scanner := do
  let s ← (s.unrollTo (-1)).dropKey
  return s.emit .streamEnd

def fetchDirective (s : Scanner) : Option Scanner := do
  let s ← (s.unrollTo (-1)).dropKey
  let (kind, cursor) ← Property.directive s.cursor
  return { s.emit kind with cursor, keyAllowed := false }

def fetchDocumentMark (s : Scanner) (kind : TokenKind) : Option Scanner := do
  let s ← (s.unrollTo (-1)).dropKey
  return { s.emitMark kind 3 with keyAllowed := false }

def fetchFlowStart (s : Scanner) (kind : TokenKind) : Option Scanner := do
  let s ← s.saveKey
  return { s.emitMark kind 1 with
    place := {}, outerPlaces := s.place :: s.outerPlaces, keyAllowed := true }

def fetchFlowEnd (s : Scanner) (kind : TokenKind) : Option Scanner := do
  let s ← s.dropKey
  let s :=
    match s.outerPlaces with
    | place :: outerPlaces => { s with place, outerPlaces }
    | [] => s
  return { s.emitMark kind 1 with keyAllowed := false }

def fetchFlowEntry (s : Scanner) : Option Scanner := do
  let s ← s.dropKey
  return { s.emitMark .flowEntry 1 with keyAllowed := true }

def fetchBlockEntry (s : Scanner) : Option Scanner := do
  if !s.inFlow && !s.keyAllowed then none
  let s := s.roll s.cursor.column none ⟨.blockSequenceStart, s.cursor.line⟩
  let s ← s.dropKey
  return { s.emitMark .blockEntry 1 with keyAllowed := true }

def fetchKey (s : Scanner) : Option Scanner := do
  if !s.inFlow && !s.keyAllowed then none
  let s := s.roll s.cursor.column none ⟨.blockMappingStart, s.cursor.line⟩
  let s ← s.dropKey
  return { s.emitMark .key 1 with keyAllowed := !s.inFlow }

def fetchValue (s : Scanner) : Option Scanner := do
  let k := s.place
  if s.isValid k then
    let s := s.insert k.number ⟨.key, k.line⟩
    let s := s.roll k.column (some k.number) ⟨.blockMappingStart, k.line⟩
    let s := { s with place := { k with isPossible := false }, keyAllowed := false }
    return s.emitMark .value 1
  if k.isPossible && k.isRequired then none
  if !s.inFlow && !s.keyAllowed then none
  let s := s.roll s.cursor.column none ⟨.blockMappingStart, s.cursor.line⟩
  let s := { s with place := { k with isPossible := false }, keyAllowed := !s.inFlow }
  return s.emitMark .value 1

def fetchAnchor (s : Scanner) (kind : String → TokenKind) : Option Scanner := do
  let s ← s.saveKey
  let (name, cursor) ← Property.anchorName s.cursor
  return { s.emit (kind name) with cursor, keyAllowed := false }

def fetchTag (s : Scanner) : Option Scanner := do
  let s ← s.saveKey
  let (kind, cursor) ← Property.tag s.cursor
  return { s.emit kind with cursor, keyAllowed := false }

def fetchBlockScalar (s : Scanner) (isLiteral : Bool) : Option Scanner := do
  let s ← s.dropKey
  let (cursor, written) ← Block.scan isLiteral s.indent s.cursor
  return { s.emit (.scalar (String.ofList written) false) with cursor, keyAllowed := true }

def fetchQuoted (s : Scanner) (isSingle : Bool) : Option Scanner := do
  let s ← s.saveKey
  let (cursor, written) ← Quoted.scan isSingle s.cursor
  return { s.emit (.scalar (String.ofList written) false) with cursor, keyAllowed := false }

def fetchPlain (s : Scanner) : Option Scanner := do
  let s ← s.saveKey
  let (cursor, written, broken) ← Plain.scan s.inFlow (s.indent + 1).toNat s.cursor
  return { s.emit (.scalar (String.ofList written) true) with cursor, keyAllowed := broken }

def isIndicator (c : Char) : Bool :=
  "-?:,[]\x7b\x7d#&*!|>'\"%@\x60".toList.contains c

/-- A plain scalar starts with the character `c`, given the one after it. -/
def startsPlain (s : Scanner) (c : Char) (next : Option Char) : Bool :=
  !(endsWord (some c) || isIndicator c)
    || (c == '-' && !next.any isBlank)
    || (!s.inFlow && (c == '?' || c == ':') && !endsWord next)

/-- The token at the cursor, which is on the character `c`. -/
def fetchAt (s : Scanner) (c : Char) : Option Scanner :=
  let next := s.cursor.ahead 1
  let marks := s.inFlow || endsWord next
  if c = '[' then s.fetchFlowStart .flowSequenceStart
  else if c = '\x7b' then s.fetchFlowStart .flowMappingStart
  else if c = ']' then s.fetchFlowEnd .flowSequenceEnd
  else if c = '\x7d' then s.fetchFlowEnd .flowMappingEnd
  else if c = ',' then s.fetchFlowEntry
  else if c = '-' ∧ endsWord next then s.fetchBlockEntry
  else if c = '?' ∧ marks then s.fetchKey
  else if c = ':' ∧ marks then s.fetchValue
  else if c = '*' then s.fetchAnchor .alias
  else if c = '&' then s.fetchAnchor .anchor
  else if c = '!' then s.fetchTag
  else if c = '|' ∧ !s.inFlow then s.fetchBlockScalar true
  else if c = '>' ∧ !s.inFlow then s.fetchBlockScalar false
  else if c = '\'' then s.fetchQuoted true
  else if c = '"' then s.fetchQuoted false
  else if s.startsPlain c next then s.fetchPlain
  else none

/-- A comment may follow on the line of the last token, unless that token has ended the line or
starts a sequence entry. -/
def allowsLineComment (s : Scanner) : Bool :=
  match s.tokens.back? with
  | some ⟨.blockEntry, _⟩ => false
  | some ⟨.scalar .., _⟩ => !s.keyAllowed
  | _ => true

def fetch (s : Scanner) : Option Scanner :=
  let s := toNextToken (s.cursor.rest.length + 1) s
  let s := s.unrollTo s.cursor.column
  match s.cursor.peek with
  | none => s.fetchEnd
  | some c =>
      if s.cursor.column = 0 ∧ c = '%' then s.fetchDirective
      else if s.cursor.atDocumentMark then
        s.fetchDocumentMark (if c = '-' then .documentStart else .documentEnd)
      else
        (s.fetchAt c).map fun after =>
          if after.allowsLineComment then after.skipLineComment else after

/-- The tokens up to where the text turned out unreadable.  Two tokens have to follow a token
before it can be used, and a possible key has to be decided. -/
def cut (s : Scanner) : List Token :=
  let pending := (s.place :: s.outerPlaces).filter fun k =>
    s.isValid k || (k.isPossible && k.isRequired)
  let limit := pending.foldl (fun acc k => min acc k.number) (s.tokens.size - 2)
  s.tokens.toList.take limit ++ [⟨.broken, s.cursor.line⟩]

def run : (fuel : Nat) → Scanner → List Token
  | 0, s => s.cut
  | fuel + 1, s =>
      match s.fetch with
      | none => s.cut
      | some next =>
          match next.tokens.back? with
          | some ⟨.streamEnd, _⟩ => next.tokens.toList
          | _ => run fuel next

end Scanner

def isReadable (c : Char) : Bool :=
  let n := c.toNat
  n == 0x09 || n == 0x0A || n == 0x0D || (decide (0x20 ≤ n) && decide (n ≤ 0x7E)) || n == 0x85
    || (decide (0xA0 ≤ n) && decide (n ≤ 0xFFFD)) || decide (0x10000 ≤ n)

def tokens (text : List Char) : List Token :=
  let text := if text.head? == some '\ufeff' then text.drop 1 else text
  if text.all isReadable then Scanner.run (text.length + 2) (.start text)
  else [⟨.broken, 0⟩]

end Yaml
end ScriptCore
