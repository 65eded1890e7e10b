import ScriptCore.Text.Hex
import ScriptCore.Yaml.Cursor
import ScriptCore.Yaml.Resolve

/-!
# How text is written

Text is written plainly where it can be read back as itself, else between
single quotes, else between double quotes.  Text of several lines is written
as a literal block where it can be.
-/

namespace ScriptCore
namespace Yaml
namespace Render

inductive Style where
  | plain
  | single
  | double
  | literal
deriving DecidableEq, Repr

def isPrintable (c : Char) : Bool :=
  let n := c.toNat
  n == 0x0A || (decide (0x20 ≤ n) && decide (n ≤ 0x7E))
    || (decide (0xA0 ≤ n) && decide (n < 0xFFFE) && n != 0xFEFF)

def oldBooleans : List String :=
  ["y", "Y", "yes", "Yes", "YES", "on", "On", "ON", "n", "N", "no", "No", "NO", "off", "Off", "OFF"]

/-- Groups of one or two digits behind colons, the first digit of two being at most five; at least
`1 - seen` of them, with an optional fraction at the end. -/
def isSexagesimalTail : (fuel : Nat) → (seen : Bool) → List Char → Bool
  | 0, _, _ => false
  | fuel + 1, seen, cs =>
      match cs with
      | [] => seen
      | '.' :: rest => seen && rest.all fun c => c.isDigit || c == '_'
      | ':' :: a :: b :: rest =>
          if b.isDigit then decide ('0' ≤ a ∧ a ≤ '5') && isSexagesimalTail fuel true rest
          else a.isDigit && isSexagesimalTail fuel true (b :: rest)
      | [':', a] => a.isDigit
      | _ => false

def isSexagesimal (cs : List Char) : Bool :=
  match (Decimal.splitSign cs).2 with
  | d :: rest =>
      d.isDigit &&
        isSexagesimalTail (cs.length + 1) false (rest.dropWhile fun c => c.isDigit || c == '_')
  | [] => false

def readsAsText (s : String) : Bool :=
  scalarTag (ofPlain true s) == .str && !isSexagesimal s.toList && !oldBooleans.contains s

/-- A character that may not start a plain scalar, given whether a word ends behind it. -/
def isBadStart (c : Char) (endsHere : Bool) : Bool :=
  "#,[]\x7b\x7d&*!|>'\"%@\x60".toList.contains c || (endsHere && (c == '?' || c == ':' || c == '-'))

def hasMark : (previous : Char) → List Char → Bool
  | _, [] => false
  | previous, c :: rest =>
      (c == ':' && (rest.isEmpty || rest.head?.any isBlank))
        || (c == '#' && endsWord (some previous))
        || hasMark c rest

/-- Some character satisfies `p` and the next one satisfies `q`. -/
def hasPair (p q : Char → Bool) : List Char → Bool
  | a :: b :: rest => (p a && q b) || hasPair p q (b :: rest)
  | _ => false

/-- What decides how a text can be written. -/
structure Features where
  isMultiline : Bool
  plainAllowed : Bool
  singleAllowed : Bool
  literalAllowed : Bool

def isSpace (c : Char) : Bool :=
  c == ' '

def features (cs : List Char) : Features :=
  let isMultiline := cs.any isBreak
  let atEdge (p : Char → Bool) := cs.head?.any p || cs.getLast?.any p
  let spaceBreak := hasPair isSpace isBreak cs
  let breakSpace := hasPair isBreak isSpace cs
  let hasTab := cs.contains '\t'
  let isSpecial := cs.any fun c => c ≠ '\t' ∧ !isPrintable c
  let marks :=
    match cs with
    | c :: rest =>
        isBadStart c (rest.isEmpty || rest.head?.any isBlank) || hasMark c rest
          || cs.take 3 == ['-', '-', '-'] || cs.take 3 == ['.', '.', '.']
    | [] => false
  { isMultiline
    plainAllowed :=
      !(atEdge isSpace || isMultiline || breakSpace || spaceBreak || hasTab || isSpecial || marks)
    singleAllowed := !(breakSpace || spaceBreak || hasTab || isSpecial)
    literalAllowed := !(cs.getLast?.any isSpace || spaceBreak || isSpecial) }

def styleOf (s : String) : Style :=
  let f := features s.toList
  if s.isEmpty then .double
  else if s.toList.contains '\n' then
    if f.literalAllowed then .literal else .double
  else if readsAsText s then
    if f.plainAllowed then .plain else if f.singleAllowed then .single else .double
  else .double

/-- A key stands on the line of its value if it has one line and is not too long. -/
def isSimpleKey (s : String) : Bool :=
  !(s.toList.any isBreak) && decide (s.utf8ByteSize ≤ 128)

def escapeLetter? : Char → Option Char
  | '\x00' => some '0'
  | '\x07' => some 'a'
  | '\x08' => some 'b'
  | '\t' => some 't'
  | '\n' => some 'n'
  | '\x0b' => some 'v'
  | '\x0c' => some 'f'
  | '\r' => some 'r'
  | '\x1b' => some 'e'
  | '"' => some '"'
  | '\\' => some '\\'
  | '\u0085' => some 'N'
  | '\u00a0' => some '_'
  | '\u2028' => some 'L'
  | '\u2029' => some 'P'
  | _ => none

def doubleQuotedChar (c : Char) : List Char :=
  if isPrintable c && !isBreak c && c != '"' && c != '\\' then [c]
  else
    match escapeLetter? c with
    | some letter => ['\\', letter]
    | none =>
        let n := c.toNat
        if n ≤ 0xFF then '\\' :: 'x' :: Text.hexUpper 2 n
        else if n ≤ 0xFFFF then '\\' :: 'u' :: Text.hexUpper 4 n
        else '\\' :: 'U' :: Text.hexUpper 8 n

end Render
end Yaml
end ScriptCore
