import ScriptCore.Decimal.Shortest

/-!
# The text of a double

A layout says how the shortest digits of a double are written: the range of
exponents that stay positional, and the texts of the values without digits.
-/

namespace ScriptCore
namespace Decimal

structure Layout where
  /-- Exponents of the first digit from here on are written in exponent form. -/
  positionalEnd : Int
  /-- Exponents below this one are written in exponent form. -/
  positionalStart : Int
  nan : String
  positiveInfinity : String
  negativeInfinity : String
deriving Repr

def exponentText (x : Int) : List Char :=
  let digits := Nat.toDigits 10 x.natAbs
  (if x < 0 then '-' else '+') :: (if digits.length < 2 then '0' :: digits else digits)

def exponentForm (digits : List Char) (x : Int) : List Char :=
  match digits with
  | [] => []
  | [d] => d :: 'e' :: exponentText x
  | d :: rest => d :: '.' :: rest ++ 'e' :: exponentText x

/-- Digits with a point where the exponent of the first digit puts it. -/
def positionalForm (digits : List Char) (x : Int) : List Char :=
  if x < 0 then
    '0' :: '.' :: List.replicate ((-x).toNat - 1) '0' ++ digits
  else
    let whole := x.toNat + 1
    if digits.length ≤ whole then digits ++ List.replicate (whole - digits.length) '0'
    else digits.take whole ++ '.' :: digits.drop whole

def Layout.renderBits (layout : Layout) (bits : UInt64) : String :=
  match FloatClass.ofBits bits with
  | .nan => layout.nan
  | .infinite false => layout.positiveInfinity
  | .infinite true => layout.negativeInfinity
  | .zero false => "0"
  | .zero true => "-0"
  | .finite negative m q halfStep =>
      let shortest := shortestDigits m q halfStep
      let body :=
        if shortest.2 < layout.positionalStart ∨ layout.positionalEnd ≤ shortest.2 then
          exponentForm shortest.1 shortest.2
        else positionalForm shortest.1 shortest.2
      String.ofList (if negative then '-' :: body else body)

def Layout.render (layout : Layout) (x : Float) : String :=
  layout.renderBits x.toBits

/-- Doubles in displayed values: positional from `0.0001` up to six digits before the point. -/
def display : Layout where
  positionalEnd := 6
  positionalStart := -4
  nan := "NaN"
  positiveInfinity := "+Inf"
  negativeInfinity := "-Inf"

/-- Doubles in YAML documents: the displayed digits with YAML's names for the others. -/
def yaml : Layout :=
  { display with nan := ".nan", positiveInfinity := ".inf", negativeInfinity := "-.inf" }

end Decimal
end ScriptCore
