import ScriptCore.Decimal.Numeral
import ScriptCore.Text.Base64
import ScriptCore.Yaml.Tag

/-!
# What scalars stand for

The data of a scalar is found from its text: the words for booleans and null,
the names of infinities, numbers in several bases, and timestamps.  All other
text stands for itself.
-/

namespace ScriptCore
namespace Yaml

def wordData : List (String × Yaml) :=
  [("true", .bool true), ("True", .bool true), ("TRUE", .bool true),
    ("false", .bool false), ("False", .bool false), ("FALSE", .bool false),
    ("", .null), ("~", .null), ("null", .null), ("Null", .null), ("NULL", .null)]

/-- The doubles without digits; `nan` and the infinities by their bits. -/
def floatData : List (String × Yaml) :=
  let nan := Yaml.float (Float.ofBits 0x7FF8000000000001)
  let infinity := Yaml.float (Float.ofBits 0x7FF0000000000000)
  let negative := Yaml.float (Float.ofBits 0xFFF0000000000000)
  [(".nan", nan), (".NaN", nan), (".NAN", nan),
    (".inf", infinity), (".Inf", infinity), (".INF", infinity),
    ("+.inf", infinity), ("+.Inf", infinity), ("+.INF", infinity),
    ("-.inf", negative), ("-.Inf", negative), ("-.INF", negative)]

/-- Sign, digits with a point, and an optional exponent; the point may not stand alone. -/
def isFloatText (cs : List Char) : Bool :=
  let parts := Decimal.splitPoint (Decimal.splitSign cs).2
  !(parts.1.isEmpty && parts.2.1.isEmpty) && (Decimal.exponentPart? parts.2.2).isSome

/-- Read a number in a base told by two letters, with the sign behind them. -/
def innerSigned? (mark : Char) (base : Nat) (cs : List Char) : Option Yaml :=
  match cs with
  | '0' :: m :: digits =>
      if m = mark then
        match Decimal.int64With? (Decimal.digitsValue? base) digits with
        | some n => some (.int n)
        | none => (Decimal.uint64With? (Decimal.digitsValue? base) digits).map .uint
      else none
  | '-' :: '0' :: m :: digits =>
      if m = mark then
        (Decimal.int64With? (Decimal.digitsValue? base) ('-' :: digits)).map (.int ·)
      else none
  | _ => none

def number? (cs : List Char) : Option Yaml :=
  match Decimal.int64With? Decimal.markedNat? cs with
  | some n => some (.int n)
  | none =>
      match Decimal.uint64With? Decimal.markedNat? cs with
      | some n => some (.uint n)
      | none =>
          match if isFloatText cs then (Decimal.ofChars? cs).bind Decimal.toFloat? else none with
          | some x => some (.float x)
          | none => (innerSigned? 'b' 2 cs).or (innerSigned? 'o' 8 cs)

/-- The data of a plain text.  Timestamps are recognised only where they may be. -/
def ofPlain (timestamps : Bool) (s : String) : Yaml :=
  match (wordData ++ floatData).lookup s with
  | some data => data
  | none =>
      let cs := s.toList
      match cs with
      | [] => .null
      | c :: _ =>
          if c = '.' then
            match (Decimal.ofSeparatedChars? cs).bind Decimal.toFloat? with
            | some x => .float x
            | none => .text s
          else if c.isDigit || c == '+' || c == '-' then
            match if timestamps then Timestamp.ofChars? cs else none with
            | some t => .time t
            | none => (number? (cs.filter (· ≠ '_'))).getD (.text s)
          else .text s

def scalarTag : Yaml → Tag
  | .null => .null
  | .bool _ => .bool
  | .int _ => .int
  | .uint _ => .int
  | .float _ => .float
  | .text _ => .str
  | .time _ => .timestamp
  | .seq _ => .seq
  | .map _ => .map

def floatOfInt (n : Int64) : Float :=
  let d : Decimal := { negative := decide (n < 0), digits := n.toInt.natAbs, exponent := 0 }
  d.toFloat?.getD 0

/-- The data of a scalar with a tag; none if the text does not fit the tag. -/
def ofTagged? (tag : Tag) (s : String) : Option Yaml :=
  match tag with
  | .str => some (.text s)
  | .binary => (Text.ofBase64? s).map fun bytes => .text (Text.ofBytes bytes)
  | tag =>
      if tag.isResolvable then
        let data := ofPlain (tag == .timestamp) s
        if scalarTag data = tag then some data
        else
          match tag, data with
          | .float, .int n => some (.float (floatOfInt n.value))
          | _, _ => none
      else some (.text s)

end Yaml
end ScriptCore
