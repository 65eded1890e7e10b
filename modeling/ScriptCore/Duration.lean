import ScriptCore.Decimal.Numeral

/-!
# Durations

A duration is a whole number of nanoseconds.  It is written with units from
hours down to nanoseconds, as in `1h30m0s`, `1.5ms` or `20ns`.
-/

namespace ScriptCore

structure Duration where
  nanoseconds : Int
deriving DecidableEq, Repr

namespace Duration

def microsecond : Duration := ⟨1000⟩

def millisecond : Duration := ⟨1000000⟩

def unit? (name : List Char) : Option Nat :=
  [("ns", 1), ("us", 1000), ("µs", 1000), ("μs", 1000), ("ms", 1000000), ("s", 1000000000),
    ("m", 60000000000), ("h", 3600000000000)].lookup (String.ofList name)

def limit : Nat := Decimal.twoPow 63

/-- The digits of a fraction as a number below the limit, and the power of ten under it.  Digits
that do not fit are dropped. -/
def fractionValue (digits : List Char) : Nat × Float :=
  let step (acc : Nat × Float × Bool) (c : Char) : Nat × Float × Bool :=
    let x := acc.1
    let y := x * 10 + (c.toNat - 48)
    if acc.2.2 ∨ (limit - 1) / 10 < x ∨ limit < y then (x, acc.2.1, true)
    else (y, acc.2.1 * 10.0, false)
  let total := digits.foldl step (0, 1.0, false)
  (total.1, total.2.1)

def amount? (unit whole : Nat) (fraction : List Char) : Option Nat :=
  if limit / unit < whole then none
  else
    let f := fractionValue fraction
    let part :=
      if f.1 = 0 then 0
      else (f.1.toUInt64.toFloat * (unit.toUInt64.toFloat / f.2)).toUInt64.toNat
    let total := whole * unit + part
    if limit < total then none else some total

def isNumeral (c : Char) : Bool :=
  c == '.' || c.isDigit

/-- The digits before and after a decimal point, and the rest. -/
def number? (cs : List Char) : Option (Nat × List Char × List Char) :=
  let parts := Decimal.splitPoint cs
  if parts.1.isEmpty && parts.2.1.isEmpty then none
  else
    let whole := (Decimal.digitsValue? 10 parts.1).getD 0
    if limit < whole then none else some (whole, parts.2)

/-- The sum of amounts with units; every amount takes at least one unit of fuel. -/
def amounts? : (fuel : Nat) → (total : Nat) → List Char → Option Nat
  | _, total, [] => some total
  | 0, _, _ => none
  | fuel + 1, total, c :: cs => do
      let (whole, fraction, rest) ← number? (c :: cs)
      let unit ← unit? (rest.takeWhile fun c => !isNumeral c)
      let amount ← amount? unit whole fraction
      if limit < total + amount then none
      amounts? fuel (total + amount) (rest.dropWhile fun c => !isNumeral c)

/-- Read a duration: an optional sign, then amounts with units, or a lone zero. -/
def ofChars? (cs : List Char) : Option Duration :=
  let signed := Decimal.splitSign cs
  match signed.2 with
  | [] => none
  | ['0'] => some ⟨0⟩
  | body => do
      let total ← amounts? body.length 0 body
      if signed.1 then return ⟨-(total : Int)⟩
      if limit ≤ total then none
      return ⟨total⟩

def ofText? (s : String) : Option Duration :=
  ofChars? s.toList

/-- A number of units with `places` digits after the point, without trailing zeros. -/
def fixed (places n : Nat) : List Char :=
  let digits := Nat.toDigits 10 (n % Decimal.tenPow places)
  let padded := List.replicate (places - digits.length) '0' ++ digits
  let kept := if places = 0 then [] else (padded.reverse.dropWhile (· == '0')).reverse
  Nat.toDigits 10 (n / Decimal.tenPow places) ++ (if kept.isEmpty then [] else '.' :: kept)

/-- Hours, minutes and seconds from the largest unit needed. -/
def clock (n : Nat) : List Char :=
  let seconds := n / 1000000000
  let minutes := seconds / 60
  let hours := minutes / 60
  let rest := fixed 9 (n % 60000000000) ++ ['s']
  if seconds < 60 then rest
  else if minutes < 60 then Nat.toDigits 10 minutes ++ 'm' :: rest
  else Nat.toDigits 10 hours ++ 'h' :: Nat.toDigits 10 (minutes % 60) ++ 'm' :: rest

def display (d : Duration) : String :=
  let n := d.nanoseconds.natAbs
  let body :=
    if n = 0 then ['0', 's']
    else if n < 1000 then fixed 0 n ++ ['n', 's']
    else if n < 1000000 then fixed 3 n ++ ['µ', 's']
    else if n < 1000000000 then fixed 6 n ++ ['m', 's']
    else clock n
  String.ofList (if d.nanoseconds < 0 then '-' :: body else body)

end Duration
end ScriptCore
