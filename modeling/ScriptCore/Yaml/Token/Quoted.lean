import ScriptCore.Text.Hex
import ScriptCore.Yaml.Token.Folding

/-!
# Quoted scalars

Between single quotes a quote is written twice.  Between double quotes there
are escape sequences, among them the escaped line break.
-/

namespace ScriptCore
namespace Yaml
namespace Quoted

def escape? : Char → Option Char
  | '0' => some '\x00'
  | 'a' => some '\x07'
  | 'b' => some '\x08'
  | 't' => some '\t'
  | '\t' => some '\t'
  | 'n' => some '\n'
  | 'v' => some '\x0b'
  | 'f' => some '\x0c'
  | 'r' => some '\r'
  | 'e' => some '\x1b'
  | ' ' => some ' '
  | '"' => some '"'
  | '\'' => some '\''
  | '\\' => some '\\'
  | 'N' => some '\u0085'
  | '_' => some '\u00a0'
  | 'L' => some '\u2028'
  | 'P' => some '\u2029'
  | _ => none

/-- The number of hexadecimal digits behind an escape letter. -/
def codeLength? : Char → Option Nat
  | 'x' => some 2
  | 'u' => some 4
  | 'U' => some 8
  | _ => none

def charOfHex? (digits : List Char) : Option Char := do
  let n ← digits.foldlM (fun acc c => (Text.hexValue? c).map (acc * 16 + ·)) 0
  if h : n.isValidChar then some (Char.ofNatAux n h) else none

/-- The escape sequence after a backslash: its character and the number of characters it takes. -/
def escapeSequence? : List Char → Option (Char × Nat)
  | [] => none
  | letter :: rest =>
      match codeLength? letter with
      | some length =>
          let digits := rest.take length
          if digits.length = length then (charOfHex? digits).map fun ch => (ch, length + 1)
          else none
      | none => (escape? letter).map fun ch => (ch, 1)

inductive Piece where
  | closing
  | char (ch : Char) (length : Nat)
  | escapedBreak
  /-- White space or the end of the text. -/
  | space
  | invalid

def piece (isSingle : Bool) : List Char → Piece
  | [] => .space
  | c :: rest =>
      if endsWord (some c) then .space
      else if isSingle then
        if c = '\'' then (if rest.head? == some '\'' then .char '\'' 2 else .closing)
        else .char c 1
      else if c = '"' then .closing
      else if c = '\\' then
        if rest.head?.any isBreak then .escapedBreak
        else
          match escapeSequence? rest with
          | some (ch, length) => .char ch (length + 1)
          | none => .invalid
      else .char c 1

def space : (fuel : Nat) → Cursor → Folding → Cursor × Folding
  | 0, c, f => (c, f)
  | fuel + 1, c, f =>
      match c.peek with
      | some ch =>
          if isBlank ch then space fuel (c.skip 1) (f.blank ch)
          else if isBreak ch then space fuel c.skipBreak (f.lineBreak c.breakText)
          else (c, f)
      | none => (c, f)

def pieces (isSingle : Bool) : (fuel : Nat) → Cursor → Folding → Option (Cursor × Folding)
  | 0, _, _ => none
  | fuel + 1, c, f =>
      if c.atDocumentMark then none
      else
        match piece isSingle c.rest with
        | .closing => some (c.skip 1, f)
        | .char ch length => pieces isSingle fuel (c.skip length) (f.push [ch])
        | .escapedBreak =>
            let (c, f) := space (c.rest.length + 1) (c.skip 1).skipBreak f.escapedBreak
            pieces isSingle fuel c f.flush
        | .space =>
            if c.rest.isEmpty then none
            else
              let (c, f) := space (c.rest.length + 1) c f
              pieces isSingle fuel c f.flush
        | .invalid => none

/-- Read a quoted scalar that starts here: the cursor behind it and its text. -/
def scan (isSingle : Bool) (c : Cursor) : Option (Cursor × List Char) := do
  let (c, f) ← pieces isSingle (c.rest.length + 1) (c.skip 1) {}
  return (c, f.text)

end Quoted
end Yaml
end ScriptCore
