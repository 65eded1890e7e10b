import ScriptCore.Yaml.Cursor

/-!
# Folded text

In plain and quoted scalars a single line break reads as a space, further line
breaks stand for themselves, and blanks around line breaks are dropped.
-/

namespace ScriptCore
namespace Yaml

/-- Text read so far, with the white space behind it that is not part of it yet. -/
structure Folding where
  /-- The characters so far, last one first. -/
  reversed : List Char := []
  /-- Blanks since the last word, last one first. -/
  blanks : List Char := []
  /-- There was a line break since the last word. -/
  broken : Bool := false
  firstBreak : List Char := []
  laterBreaks : List Char := []

namespace Folding

def text (f : Folding) : List Char :=
  f.reversed.reverse

def push (f : Folding) (cs : List Char) : Folding :=
  { f with reversed := cs.reverse ++ f.reversed }

def blank (f : Folding) (ch : Char) : Folding :=
  if f.broken then f else { f with blanks := ch :: f.blanks }

def lineBreak (f : Folding) (text : List Char) : Folding :=
  if f.broken then { f with laterBreaks := f.laterBreaks ++ text }
  else { f with blanks := [], firstBreak := text, broken := true }

def escapedBreak (f : Folding) : Folding :=
  { f with broken := true, firstBreak := [] }

def space (f : Folding) : List Char :=
  if f.broken then
    if f.firstBreak == ['\n'] then (if f.laterBreaks.isEmpty then [' '] else f.laterBreaks)
    else f.firstBreak ++ f.laterBreaks
  else f.blanks.reverse

def flush (f : Folding) : Folding :=
  { reversed := f.space.reverse ++ f.reversed }

end Folding
end Yaml
end ScriptCore
