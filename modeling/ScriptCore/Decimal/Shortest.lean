import ScriptCore.Decimal.Basic

/-!
# The shortest decimal of a double

A double stands for all reals that round to it.  Its shortest decimal is the
one with the fewest digits in that interval, and of those the nearest to the
double, an exact tie going to the even digit.
-/

namespace ScriptCore
namespace Decimal

/-- A positive double `center / den` with the ends of its rounding interval. -/
structure Interval where
  center : Nat
  low : Nat
  high : Nat
  den : Nat
  closed : Bool
deriving DecidableEq, Repr

/-- The rounding interval of the double `m * 2^q`, whose neighbour below is half as far when `m`
is the least significand of its binade. -/
def Interval.ofBinary (m : Nat) (q : Int) (halfStep : Bool) : Interval :=
  let low := if halfStep then 4 * m - 1 else 4 * m - 2
  let factor := if 2 ≤ q then twoPow (q - 2).toNat else 1
  let den := if 2 ≤ q then 1 else twoPow (2 - q).toNat
  { center := 4 * m * factor
    low := low * factor
    high := (4 * m + 2) * factor
    den := den
    closed := m % 2 = 0 }

def Interval.contains (i : Interval) (d : Nat) (k : Int) : Bool :=
  let value := if 0 ≤ k then d * tenPow k.toNat * i.den else d * i.den
  let scale := if 0 ≤ k then 1 else tenPow (-k).toNat
  if i.closed then decide (i.low * scale ≤ value) && decide (value ≤ i.high * scale)
  else decide (i.low * scale < value) && decide (value < i.high * scale)

/-- The quotient and remainder of the center on the grid of multiples of `10^k`, with the
divisor. -/
def Interval.onGrid (i : Interval) (k : Int) : Nat × Nat × Nat :=
  let num := if 0 ≤ k then i.center else i.center * tenPow (-k).toNat
  let den := if 0 ≤ k then i.den * tenPow k.toNat else i.den
  (num / den, num % den, den)

/-- The grid point of `10^k` next to the center that lies in the interval. -/
def Interval.pick (i : Interval) (k : Int) : Option Nat :=
  let cell := i.onGrid k
  let d := cell.1
  let below := i.contains d k
  let above := i.contains (d + 1) k
  if below && above then
    let twice := 2 * cell.2.1
    if twice < cell.2.2 then some d
    else if cell.2.2 < twice then some (d + 1)
    else if d % 2 = 0 then some d else some (d + 1)
  else if below then some d
  else if above then some (d + 1)
  else none

def leadingExponent (num den : Nat) : Int :=
  if den ≤ num then (numeralLength (num / den) : Int) - 1
  else
    let gap := numeralLength den - numeralLength num
    if den ≤ num * tenPow gap then -(gap : Int) else -(gap : Int) - 1

/-- Try `n`, `n + 1`, … digits, at most `tries` times. -/
def Interval.search (i : Interval) (top : Int) : (tries n : Nat) → Nat × Int
  | 0, n =>
      let k := top - ((n : Int) - 1)
      ((i.onGrid k).1, k)
  | tries + 1, n =>
      let k := top - ((n : Int) - 1)
      match i.pick k with
      | some d => (d, k)
      | none => i.search top tries (n + 1)

def significantDigits (n : Nat) : List Char :=
  ((Nat.toDigits 10 n).reverse.dropWhile (· == '0')).reverse

/-- The shortest digits of the positive double `m * 2^q` and the exponent of the first one. -/
def shortestDigits (m : Nat) (q : Int) (halfStep : Bool) : List Char × Int :=
  let i := Interval.ofBinary m q halfStep
  let found := i.search (leadingExponent i.center i.den) 17 1
  (significantDigits found.1, found.2 + (numeralLength found.1 : Int) - 1)

inductive FloatClass where
  | nan
  | infinite (negative : Bool)
  | zero (negative : Bool)
  | finite (negative : Bool) (significand : Nat) (exponent : Int) (halfStep : Bool)
deriving DecidableEq, Repr

def FloatClass.ofBits (bits : UInt64) : FloatClass :=
  let n := bits.toNat
  let negative := decide (twoPow 63 ≤ n)
  let field : Nat := n / twoPow 52 % twoPow 11
  let fraction : Nat := n % twoPow 52
  if field = 2047 then
    if fraction = 0 then .infinite negative else .nan
  else if field = 0 then
    if fraction = 0 then .zero negative else .finite negative fraction (-1074) false
  else
    .finite negative (fraction + twoPow 52) ((field : Int) - 1075)
      (decide (fraction = 0) && decide (1 < field))

end Decimal
end ScriptCore
