/-!
# Reading positions

A cursor is the text that is still to be read together with its position:
lines and columns count from zero, and a carriage return before a line feed is
one line break with it.
-/

namespace ScriptCore
namespace Yaml

def isBlank (c : Char) : Bool :=
  c == ' ' || c == '\t'

def isBreak (c : Char) : Bool :=
  c == '\n' || c == '\r' || c == '\u0085' || c == '\u2028' || c == '\u2029'

def endsWord : Option Char → Bool
  | some c => isBlank c || isBreak c
  | none => true

def endsLine : Option Char → Bool
  | some c => isBreak c
  | none => true

def isNameChar (c : Char) : Bool :=
  (decide (c.toNat < 128) && c.isAlphanum) || c == '_' || c == '-'

/-- The text that is still to be read, and where it starts. -/
structure Cursor where
  rest : List Char
  index : Nat := 0
  line : Nat := 0
  column : Nat := 0
deriving Repr

namespace Cursor

def start (text : List Char) : Cursor :=
  { rest := text }

def ahead (c : Cursor) (k : Nat) : Option Char :=
  c.rest[k]?

def peek (c : Cursor) : Option Char :=
  c.ahead 0

def isAt (c : Cursor) (ch : Char) : Bool :=
  c.peek == some ch

def atBlank (c : Cursor) : Bool :=
  c.peek.any isBlank

def atBreak (c : Cursor) : Bool :=
  c.peek.any isBreak

def skip (c : Cursor) (n : Nat) : Cursor :=
  { c with rest := c.rest.drop n, index := c.index + n, column := c.column + n }

def skipBreak (c : Cursor) : Cursor :=
  match c.rest with
  | '\r' :: '\n' :: rest => { rest, index := c.index + 2, line := c.line + 1, column := 0 }
  | ch :: rest =>
      if isBreak ch then { rest, index := c.index + 1, line := c.line + 1, column := 0 } else c
  | [] => c

/-- The text of the line break here: a line feed, save that the line and paragraph separators stand
for themselves. -/
def breakText (c : Cursor) : List Char :=
  match c.peek with
  | some ch => if ch = '\u2028' ∨ ch = '\u2029' then [ch] else if isBreak ch then ['\n'] else []
  | none => []

/-- Past the characters of this line that satisfy `p`. -/
def skipWhile (p : Char → Bool) (c : Cursor) : Cursor :=
  c.skip (c.rest.takeWhile p).length

/-- The characters here that satisfy `p`, and the cursor past them. -/
def takeWhile (p : Char → Bool) (c : Cursor) : List Char × Cursor :=
  (c.rest.takeWhile p, c.skipWhile p)

def skipBlanks (c : Cursor) : Cursor :=
  c.skipWhile isBlank

def skipLine (c : Cursor) : Cursor :=
  c.skipWhile fun ch => !isBreak ch

/-- Three hyphens or three dots alone at the start of a line. -/
def atDocumentMark (c : Cursor) : Bool :=
  c.column == 0 && (c.rest.take 3 == ['-', '-', '-'] || c.rest.take 3 == ['.', '.', '.'])
    && endsWord (c.ahead 3)

end Cursor
end Yaml
end ScriptCore
