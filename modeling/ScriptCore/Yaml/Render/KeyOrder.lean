import ScriptCore.Text.Letter

/-!
# The order of mapping keys

Keys are ordered as a reader expects: runs of digits count as numbers, so that
`a2` comes before `a10`, and letters come after everything else.
-/

namespace ScriptCore
namespace Yaml
namespace Render
namespace KeyOrder

/-- The number of a run of digits behind `start`, in 64 bits. -/
def runValue (start : Int64) (cs : List Char) : Int64 :=
  (cs.takeWhile Text.isDecimalDigit).foldl
    (fun n c => n * 10 + Int64.ofInt ((c.toNat : Int) - 48)) start

/-- The run of digits that ends the text before, nearest first, has a digit other than zero. -/
def continuesNumber (before : List Char) : Bool :=
  (before.takeWhile Text.isDecimalDigit).any (· ≠ '0')

/-- Compare at the first difference; `before` is the common text, nearest first. -/
def lessAt (before a b : List Char) (x y : Char) : Bool :=
  let letterX := Text.isLetter x
  let letterY := Text.isLetter y
  if letterX && letterY then decide (x < y)
  else if letterX || letterY then
    if before.head?.any Text.isDecimalDigit then letterX else letterY
  else
    let start : Int64 := if (x = '0' ∨ y = '0') ∧ continuesNumber before then 1 else 0
    let n := runValue start a
    let m := runValue start b
    if n ≠ m then decide (n < m)
    else
      let i := (a.takeWhile Text.isDecimalDigit).length
      let j := (b.takeWhile Text.isDecimalDigit).length
      if i ≠ j then decide (i < j) else decide (x < y)

def lessFrom (before : List Char) : List Char → List Char → Bool
  | x :: a, y :: b =>
      if x = y then lessFrom (x :: before) a b else lessAt before (x :: a) (y :: b) x y
  | a, b => decide (a.length < b.length)

def less (a b : String) : Bool :=
  lessFrom [] a.toList b.toList

end KeyOrder
end Render
end Yaml
end ScriptCore
