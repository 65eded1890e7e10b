/-!
# Decimal numbers and their nearest doubles

A decimal is a sign, an integer and a power of ten.  Its nearest double is
found in exact integer arithmetic: the quotient is cut to 53 bits, rounded to
the nearest integer with ties to the even one, and packed into the bits of a
double.
-/

namespace ScriptCore

/-- The number `(-1)^negative * digits * 10^exponent`. -/
structure Decimal where
  negative : Bool
  digits : Nat
  exponent : Int
deriving DecidableEq, Repr

namespace Decimal

def twoPow (n : Nat) : Nat :=
  Nat.pow 2 n

def tenPow (n : Nat) : Nat :=
  Nat.pow 10 n

/-- Round `num / den` to the nearest integer, ties to the even one. -/
def roundDiv (num den : Nat) : Nat :=
  let q := num / den
  let twice := 2 * (num % den)
  if twice < den then q
  else if den < twice then q + 1
  else if q % 2 = 0 then q else q + 1

def scaleBinary (num den : Nat) (shift : Int) : Nat × Nat :=
  if 0 ≤ shift then (num, den * twoPow shift.toNat) else (num * twoPow (-shift).toNat, den)

/-- The exponent of the lowest bit of the double next to `num / den`. -/
def lowExponent (num den : Nat) : Int :=
  let guess : Int := max ((num.log2 : Int) - (den.log2 : Int) - 52) (-1074)
  let scaled := scaleBinary num den guess
  if scaled.1 / scaled.2 < twoPow 52 ∧ -1074 < guess then guess - 1 else guess

/-- The bits of the double with integer significand `m` and lowest exponent `q`. -/
def packBits (m : Nat) (q : Int) : Option UInt64 :=
  let carried := if m = twoPow 53 then (twoPow 52, q + 1) else (m, q)
  let m := carried.1
  let q := carried.2
  if 971 < q then none
  else if m < twoPow 52 then some m.toUInt64
  else some (((q + 1075).toNat <<< 52) + (m - twoPow 52)).toUInt64

/-- The bits of the double nearest to the positive fraction, if it is finite. -/
def fractionBits (num den : Nat) : Option UInt64 :=
  let q := lowExponent num den
  let scaled := scaleBinary num den q
  packBits (roundDiv scaled.1 scaled.2) q

/-- Number of decimal digits of `n`, at least one. -/
def numeralLength (n : Nat) : Nat :=
  (Nat.toDigits 10 n).length

/-- The bits of the absolute value of the nearest double, if it is finite. -/
def magnitudeBits (d : Decimal) : Option UInt64 :=
  if d.digits = 0 then some 0
  else
    let top := d.exponent + (numeralLength d.digits : Int)
    if 310 < top then none
    else if top < -330 then some 0
    else if 0 ≤ d.exponent then fractionBits (d.digits * tenPow d.exponent.toNat) 1
    else fractionBits d.digits (tenPow (-d.exponent).toNat)

def toFloat? (d : Decimal) : Option Float :=
  d.magnitudeBits.map fun bits =>
    Float.ofBits (if d.negative then bits ||| 0x8000000000000000 else bits)

end Decimal
end ScriptCore
