import ScriptCore.Yaml.Cursor

/-!
# Block scalars

A block scalar is a header and the lines under it that are indented more than
their surroundings.  In a literal scalar line breaks are kept; in a folded one
a single line break between lines that start with a word reads as a space.
-/

namespace ScriptCore
namespace Yaml
namespace Block

/-- What happens to the line breaks at the end. -/
inductive Chomping where
  | strip
  | clip
  | keep
deriving DecidableEq, Repr

/-- What the header says; an indentation of zero is to be found out. -/
structure Header where
  chomping : Chomping := .clip
  indentation : Nat := 0

def chomping? : Option Char → Option Chomping
  | some '+' => some .keep
  | some '-' => some .strip
  | _ => none

def indentation? (c : Cursor) : Option Nat :=
  c.peek.bind fun ch => if ch.isDigit then some (ch.toNat - 48) else none

def withIndentation (h : Header) (c : Cursor) : Option (Header × Cursor) :=
  match indentation? c with
  | some 0 => none
  | some n => some ({ h with indentation := n }, c.skip 1)
  | none => some (h, c)

def header (c : Cursor) : Option (Header × Cursor) :=
  match chomping? c.peek with
  | some chomping => withIndentation { chomping } (c.skip 1)
  | none => do
      let (h, c) ← withIndentation {} c
      if h.indentation = 0 then return (h, c)
      match chomping? c.peek with
      | some chomping => return ({ h with chomping }, c.skip 1)
      | none => return (h, c)

def headerEnd (c : Cursor) : Option Cursor :=
  let c := c.skipBlanks
  let c := if c.isAt '#' then c.skipLine else c
  if endsLine c.peek then some c.skipBreak else none

def skipIndentation (indentation : Nat) (c : Cursor) : Cursor :=
  let spaces := (c.rest.takeWhile (· == ' ')).length
  c.skip (if indentation = 0 then spaces else min spaces (indentation - c.column))

/-- Skip indentation and empty lines, collecting line breaks.  Also tells the deepest column
reached.  A tab may not stand where indentation is needed. -/
def emptyLines (indentation : Nat) : (fuel : Nat) → (deepest : Nat) → (breaks : List Char) →
    Cursor → Option (Cursor × List Char × Nat)
  | 0, _, _, _ => none
  | fuel + 1, deepest, breaks, c =>
      let c := skipIndentation indentation c
      let deepest := max deepest c.column
      if c.isAt '\t' && (indentation == 0 || decide (c.column < indentation)) then none
      else if c.atBreak then
        emptyLines indentation fuel deepest (breaks ++ c.breakText) c.skipBreak
      else some (c, breaks, deepest)

/-- The text so far, the break of its last line, the empty lines after it, and whether the last
line started with a blank. -/
structure Content where
  reversed : List Char := []
  lastBreak : List Char := []
  breaks : List Char
  afterBlank : Bool := false

def Content.join (isLiteral nextBlank : Bool) (t : Content) : List Char :=
  if !isLiteral && !t.afterBlank && !nextBlank && t.lastBreak == ['\n'] then
    (if t.breaks.isEmpty then [' '] else t.breaks)
  else t.lastBreak ++ t.breaks

def lines (isLiteral : Bool) (indentation : Nat) : (fuel : Nat) → Cursor → Content →
    Option (Cursor × Content)
  | 0, _, _ => none
  | fuel + 1, c, t =>
      if c.column = indentation ∧ !c.rest.isEmpty then do
        let blank := c.atBlank
        let (line, after) := c.takeWhile fun ch => !isBreak ch
        let reversed := line.reverse ++ (t.join isLiteral blank).reverse ++ t.reversed
        let (next, breaks, _) ←
          emptyLines indentation (after.rest.length + 1) 0 [] after.skipBreak
        lines isLiteral indentation fuel next
          { reversed, lastBreak := after.breakText, breaks, afterBlank := blank }
      else some (c, t)

def Content.tail (t : Content) : Chomping → List Char
  | .strip => []
  | .clip => t.lastBreak
  | .keep => t.lastBreak ++ t.breaks

/-- Read a block scalar whose indicator is here, inside a collection at column `outer`, which is
below zero if there is none. -/
def scan (isLiteral : Bool) (outer : Int) (c : Cursor) : Option (Cursor × List Char) := do
  let (h, c) ← header (c.skip 1)
  let c ← headerEnd c
  let base := outer.toNat
  let given := if h.indentation = 0 then 0 else base + h.indentation
  let (c, breaks, deepest) ← emptyLines given (c.rest.length + 1) 0 [] c
  let indentation := if given = 0 then max deepest (max (outer + 1).toNat 1) else given
  let (c, t) ← lines isLiteral indentation (c.rest.length + 1) c { breaks }
  return (c, t.reversed.reverse ++ t.tail h.chomping)

end Block
end Yaml
end ScriptCore
