import ScriptCore.Text.Hex
import ScriptCore.Text.Utf8
import ScriptCore.Yaml.Cursor
import ScriptCore.Yaml.Token.Basic

/-!
# Anchors, aliases, tags and directives
-/

namespace ScriptCore
namespace Yaml
namespace Property

def endsAnchor : Option Char → Bool
  | some c => endsWord (some c) || "?:,]\x7d%@\x60".toList.contains c
  | none => true

def anchorName (c : Cursor) : Option (String × Cursor) :=
  let (name, c) := (c.skip 1).takeWhile isNameChar
  if name.isEmpty || !endsAnchor c.peek then none else some (String.ofList name, c)

def isUriChar (c : Char) : Bool :=
  isNameChar c || ";/?:@&=+$.!~*'()[]%,".toList.contains c

/-- The byte written as `%` and two hexadecimal digits. -/
def escapedByte? : List Char → Option UInt8
  | '%' :: a :: b :: _ => do
      let high ← Text.hexValue? a
      let low ← Text.hexValue? b
      return (high * 16 + low).toUInt8
  | _ => none

/-- The bytes of the escapes at the start of the text, at most `count`. -/
def escapedBytes : (count : Nat) → List Char → List UInt8
  | 0, _ => []
  | count + 1, cs =>
      match escapedByte? cs with
      | some b => b :: escapedBytes count (cs.drop 3)
      | none => []

def uri : (fuel : Nat) → (reversed : List Char) → Cursor → Option (List Char × Cursor)
  | 0, reversed, c => some (reversed.reverse, c)
  | fuel + 1, reversed, c =>
      match c.peek with
      | some '%' => do
          let (ch, length) ← Text.firstChar? (escapedBytes 4 c.rest)
          uri fuel (ch :: reversed) (c.skip (3 * length))
      | some ch =>
          if isUriChar ch then uri fuel (ch :: reversed) (c.skip 1)
          else some (reversed.reverse, c)
      | none => some (reversed.reverse, c)

/-- The rest of a tag behind `head`; one of the two has to be there. -/
def tagUri (head : List Char) (c : Cursor) : Option (List Char × Cursor) := do
  let (rest, c) ← uri (c.rest.length + 1) [] c
  if head.isEmpty && rest.isEmpty then none
  return (head ++ rest, c)

/-- An exclamation mark, a name, and perhaps a second exclamation mark. -/
def handle (c : Cursor) : List Char × Cursor :=
  let (name, c) := (c.skip 1).takeWhile isNameChar
  if c.isAt '!' then ('!' :: name ++ ['!'], c.skip 1) else ('!' :: name, c)

def verbatimTag (c : Cursor) : Option (TokenKind × Cursor) := do
  let (suffix, c) ← tagUri [] (c.skip 2)
  if c.isAt '>' then return (.tag "" (String.ofList suffix), c.skip 1) else none

/-- A tag with a handle, which is a single exclamation mark unless there are two. -/
def shorthandTag (c : Cursor) : Option (TokenKind × Cursor) := do
  let (start, c) := handle c
  if 1 < start.length ∧ start.getLast? = some '!' then
    let (suffix, c) ← tagUri [] c
    return (.tag (String.ofList start) (String.ofList suffix), c)
  let (rest, c) ← uri (c.rest.length + 1) [] c
  let suffix := start.drop 1 ++ rest
  if suffix.isEmpty then return (.tag "" "!", c)
  return (.tag "!" (String.ofList suffix), c)

/-- The tag whose indicator is here; a blank or the end of the line follows it. -/
def tag (c : Cursor) : Option (TokenKind × Cursor) := do
  let (kind, c) ← if c.ahead 1 = some '<' then verbatimTag c else shorthandTag c
  if endsWord c.peek then return (kind, c) else none

def versionNumber (c : Cursor) : Option (Nat × Cursor) :=
  let (digits, c) := c.takeWhile Char.isDigit
  if digits.isEmpty || decide (2 < digits.length) then none
  else some (digits.foldl (fun n d => n * 10 + (d.toNat - 48)) 0, c)

def version (c : Cursor) : Option (TokenKind × Cursor) := do
  let (major, c) ← versionNumber c.skipBlanks
  if !c.isAt '.' then none
  let (minor, c) ← versionNumber (c.skip 1)
  return (.version major minor, c)

def tagHandle (c : Cursor) : Option (TokenKind × Cursor) := do
  let c := c.skipBlanks
  if !c.isAt '!' then none
  let (name, c) := handle c
  if 1 < name.length ∧ name.getLast? ≠ some '!' then none
  if !c.atBlank then none
  let (expansion, c) ← tagUri [] c.skipBlanks
  if endsWord c.peek then
    return (.tagHandle (String.ofList name) (String.ofList expansion), c)
  else none

def directive (c : Cursor) : Option (TokenKind × Cursor) := do
  let (name, c) := (c.skip 1).takeWhile isNameChar
  if !endsWord c.peek then none
  let (kind, c) ←
    if name == "YAML".toList then version c
    else if name == "TAG".toList then tagHandle c
    else none
  let c := c.skipBlanks
  let c := if c.isAt '#' then c.skipLine else c
  if endsLine c.peek then return (kind, c.skipBreak) else none

end Property
end Yaml
end ScriptCore
