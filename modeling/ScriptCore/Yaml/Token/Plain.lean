import ScriptCore.Yaml.Token.Folding

/-!
# Plain scalars

A plain scalar ends before a colon that ends a word, before a comment and, in
a flow collection, before its punctuation.  Its later lines are indented more
than the collection around it.
-/

namespace ScriptCore
namespace Yaml
namespace Plain

def isFlowMark (c : Char) : Bool :=
  c == ',' || c == '?' || c == '[' || c == ']' || c == '\x7b' || c == '\x7d'

def word (inFlow : Bool) : List Char → List Char
  | [] => []
  | c :: rest =>
      if endsWord (some c) || (c == ':' && endsWord rest.head?) || (inFlow && isFlowMark c) then []
      else c :: word inFlow rest

/-- Read blanks and line breaks.  A tab may not stand where indentation is needed. -/
def space (indent : Nat) : (fuel : Nat) → Cursor → Folding → Option (Cursor × Folding)
  | 0, c, f => some (c, f)
  | fuel + 1, c, f =>
      match c.peek with
      | some ch =>
          if isBlank ch then
            if f.broken && ch == '\t' && decide (c.column < indent) then none
            else space indent fuel (c.skip 1) (f.blank ch)
          else if isBreak ch then space indent fuel c.skipBreak (f.lineBreak c.breakText)
          else some (c, f)
      | none => some (c, f)

def words (inFlow : Bool) (indent : Nat) : (fuel : Nat) → Cursor → Folding →
    Option (Cursor × Folding)
  | 0, c, f => some (c, f)
  | fuel + 1, c, f =>
      if c.atDocumentMark || c.isAt '#' then some (c, f)
      else
        let w := word inFlow c.rest
        let f := if w.isEmpty then f else f.flush.push w
        let c := c.skip w.length
        if c.atBlank || c.atBreak then do
          let (c, f) ← space indent (c.rest.length + 1) c f
          if !inFlow && decide (c.column < indent) then return (c, f)
          words inFlow indent fuel c f
        else some (c, f)

/-- Read a plain scalar: the cursor behind it and its white space, its text, and whether a line
break was among that space. -/
def scan (inFlow : Bool) (indent : Nat) (c : Cursor) : Option (Cursor × List Char × Bool) := do
  let (c, f) ← words inFlow indent (c.rest.length + 1) c {}
  return (c, f.text, f.broken)

end Plain
end Yaml
end ScriptCore
