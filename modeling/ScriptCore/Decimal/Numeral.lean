import ScriptCore.Decimal.Basic

/-!
# Reading numerals

Integers with a base marker, and decimal fractions with an exponent.
-/

namespace ScriptCore
namespace Decimal

def digitValue? (base : Nat) (c : Char) : Option Nat :=
  let n := c.toNat
  let v :=
    if 48 ≤ n ∧ n ≤ 57 then n - 48
    else if 97 ≤ n ∧ n ≤ 122 then n - 87
    else if 65 ≤ n ∧ n ≤ 90 then n - 55
    else 36
  if v < base then some v else none

def digitsValue? (base : Nat) (cs : List Char) : Option Nat :=
  match cs with
  | [] => none
  | cs => cs.foldlM (fun acc c => (digitValue? base c).map (acc * base + ·)) 0

/-- A natural number whose base is told by its start: `0x`, `0b`, `0o`, a leading `0` for octal,
decimal otherwise. -/
def markedNat? (cs : List Char) : Option Nat :=
  match cs with
  | ['0'] => some 0
  | '0' :: m :: d :: rest =>
      if m = 'x' ∨ m = 'X' then digitsValue? 16 (d :: rest)
      else if m = 'b' ∨ m = 'B' then digitsValue? 2 (d :: rest)
      else if m = 'o' ∨ m = 'O' then digitsValue? 8 (d :: rest)
      else digitsValue? 8 (m :: d :: rest)
  | '0' :: rest => digitsValue? 8 rest
  | cs => digitsValue? 10 cs

/-- Split off a sign: whether it is a minus, and the rest. -/
def splitSign : List Char → Bool × List Char
  | '-' :: rest => (true, rest)
  | '+' :: rest => (false, rest)
  | cs => (false, cs)

def signedInt64? (negative : Bool) (n : Nat) : Option Int64 :=
  if negative then
    if n ≤ twoPow 63 then some (Int64.ofInt (-(n : Int))) else none
  else if n < twoPow 63 then some (Int64.ofNat n)
  else none

/-- A signed integer that fits 64 bits, with `natural` reading its digits. -/
def int64With? (natural : List Char → Option Nat) (cs : List Char) : Option Int64 :=
  let s := splitSign cs
  (natural s.2).bind (signedInt64? s.1)

/-- An unsigned integer that fits 64 bits, with `natural` reading its digits. -/
def uint64With? (natural : List Char → Option Nat) (cs : List Char) : Option UInt64 :=
  (natural cs).bind fun n => if n < twoPow 64 then some n.toUInt64 else none

def splitPoint (cs : List Char) : List Char × List Char × List Char :=
  let whole := cs.takeWhile Char.isDigit
  match cs.dropWhile Char.isDigit with
  | '.' :: rest => (whole, rest.takeWhile Char.isDigit, rest.dropWhile Char.isDigit)
  | rest => (whole, [], rest)

def exponentPart? : List Char → Option Int
  | [] => some 0
  | c :: rest =>
      if c = 'e' ∨ c = 'E' then
        let s := splitSign rest
        if s.2.all Char.isDigit then
          (digitsValue? 10 s.2).map fun n => if s.1 then -(n : Int) else (n : Int)
        else none
      else none

/-- A decimal fraction: sign, digits with an optional point, optional exponent. -/
def ofChars? (cs : List Char) : Option Decimal :=
  let s := splitSign cs
  let parts := splitPoint s.2
  if parts.1.isEmpty && parts.2.1.isEmpty then none
  else do
    let exponent ← exponentPart? parts.2.2
    let digits ← digitsValue? 10 (parts.1 ++ parts.2.1)
    return { negative := s.1, digits, exponent := exponent - (parts.2.1.length : Int) }

def underscoresSeparate : (afterDigit : Bool) → List Char → Bool
  | _, [] => true
  | afterDigit, '_' :: rest =>
      afterDigit &&
        match rest with
        | d :: _ => d.isDigit && underscoresSeparate false rest
        | [] => false
  | _, c :: rest => underscoresSeparate c.isDigit rest

/-- A decimal fraction whose digits may be separated by single underscores. -/
def ofSeparatedChars? (cs : List Char) : Option Decimal :=
  if underscoresSeparate false (splitSign cs).2 then ofChars? (cs.filter (· ≠ '_')) else none

end Decimal
end ScriptCore
