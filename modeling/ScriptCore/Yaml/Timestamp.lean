import ScriptCore.Decimal.Numeral

/-!
# Timestamps

Dates and times of day as YAML scalars: `2001-12-14`, `2001-12-14 21:59:43.1`
and `2001-12-14T21:59:43Z` or with an offset in place of the `Z`.
-/

namespace ScriptCore

/-- A point in time by the fields it was written with. -/
structure Timestamp where
  year : Nat
  month : Nat
  day : Nat
  hour : Nat := 0
  minute : Nat := 0
  second : Nat := 0
  nanosecond : Nat := 0
  /-- Minutes east of Greenwich. -/
  offset : Int := 0
deriving DecidableEq, Repr

namespace Timestamp

def isLeap (year : Nat) : Bool :=
  decide (year % 4 = 0) && (decide (year % 100 ≠ 0) || decide (year % 400 = 0))

def daysIn (year month : Nat) : Nat :=
  if month = 2 then (if isLeap year then 29 else 28)
  else if month = 4 ∨ month = 6 ∨ month = 9 ∨ month = 11 then 30
  else 31

def shortNumber? : List Char → Option (Nat × List Char)
  | a :: b :: rest =>
      if a.isDigit then
        if b.isDigit then some ((a.toNat - 48) * 10 + (b.toNat - 48), rest)
        else some (a.toNat - 48, b :: rest)
      else none
  | [a] => if a.isDigit then some (a.toNat - 48, []) else none
  | [] => none

def twoDigits? : List Char → Option (Nat × List Char)
  | a :: b :: rest =>
      if a.isDigit && b.isDigit then some ((a.toNat - 48) * 10 + (b.toNat - 48), rest) else none
  | _ => none

def mark? (allowed : List Char) : List Char → Option (List Char)
  | c :: rest => if allowed.contains c then some rest else none
  | [] => none

/-- Four digits of a year, month and day, and the text after them. -/
def date? (cs : List Char) : Option (Timestamp × List Char) := do
  let digits := cs.takeWhile Char.isDigit
  if digits.length ≠ 4 then none
  let year ← Decimal.digitsValue? 10 digits
  let rest ← mark? ['-'] (cs.drop 4)
  let (month, rest) ← shortNumber? rest
  if month < 1 ∨ 12 < month then none
  let rest ← mark? ['-'] rest
  let (day, rest) ← shortNumber? rest
  if day < 1 ∨ daysIn year month < day then none
  return ({ year, month, day }, rest)

/-- The nanoseconds of the digits after a decimal point, cut to nine digits. -/
def nanoseconds (digits : List Char) : Nat :=
  let kept := digits.take 9
  (kept.foldl (fun n c => n * 10 + (c.toNat - 48)) 0) * Decimal.tenPow (9 - kept.length)

def fraction (cs : List Char) : Nat × List Char :=
  match cs with
  | p :: d :: rest =>
      if (p = '.' ∨ p = ',') ∧ d.isDigit then
        let digits := (d :: rest).takeWhile Char.isDigit
        (nanoseconds digits, (d :: rest).dropWhile Char.isDigit)
      else (0, cs)
  | _ => (0, cs)

def clock? (t : Timestamp) (cs : List Char) : Option (Timestamp × List Char) := do
  let (hour, rest) ← shortNumber? cs
  if 24 ≤ hour then none
  let rest ← mark? [':'] rest
  let (minute, rest) ← shortNumber? rest
  if 60 ≤ minute then none
  let rest ← mark? [':'] rest
  let (second, rest) ← shortNumber? rest
  if 60 ≤ second then none
  let (nanosecond, rest) := fraction rest
  return ({ t with hour, minute, second, nanosecond }, rest)

def zone? (t : Timestamp) (cs : List Char) : Option (Timestamp × List Char) :=
  match cs with
  | 'Z' :: rest => some (t, rest)
  | sign :: rest =>
      if sign = '+' ∨ sign = '-' then do
        let (hours, rest) ← twoDigits? rest
        let rest ← mark? [':'] rest
        let (minutes, rest) ← twoDigits? rest
        if 24 < hours ∨ 60 < minutes then none
        let east : Int := (hours * 60 + minutes : Nat)
        return ({ t with offset := if sign = '-' then -east else east }, rest)
      else none
  | [] => none

/-- The timestamp, if nothing is left of the text. -/
def whole? : Option (Timestamp × List Char) → Option Timestamp
  | some (t, []) => some t
  | _ => none

def ofChars? (cs : List Char) : Option Timestamp := do
  let (date, rest) ← date? cs
  match rest with
  | [] => some date
  | c :: time =>
      if c = 'T' ∨ c = 't' then whole? ((clock? date time).bind fun r => zone? r.1 r.2)
      else if c = ' ' then whole? (clock? date time)
      else none

def padded (width n : Nat) : List Char :=
  let digits := Nat.toDigits 10 n
  List.replicate (width - digits.length) '0' ++ digits

/-- The digits of a fraction of a second without trailing zeros, after a point. -/
def fractionText (nanosecond : Nat) : List Char :=
  match ((padded 9 nanosecond).reverse.dropWhile (· == '0')).reverse with
  | [] => []
  | digits => '.' :: digits

def offsetText (offset : Int) : List Char :=
  (if offset < 0 then '-' else '+')
    :: padded 2 (offset.natAbs / 60) ++ padded 2 (offset.natAbs % 60)

def display (t : Timestamp) : String :=
  String.ofList <|
    padded 4 t.year ++ '-' :: padded 2 t.month ++ '-' :: padded 2 t.day ++ ' ' :: padded 2 t.hour
      ++ ':' :: padded 2 t.minute ++ ':' :: padded 2 t.second ++ fractionText t.nanosecond
      ++ ' ' :: offsetText t.offset
      ++ ' ' :: (if t.offset = 0 then "UTC".toList else offsetText t.offset)

end Timestamp
end ScriptCore
