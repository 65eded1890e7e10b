import ScriptCore.Decimal.Layout
import ScriptCore.Yaml.Render.KeyOrder
import ScriptCore.Yaml.Render.Scalar

/-!
# Documents of data

Data is written in block style.  A collection inside a mapping starts on a new
line at the next multiple of four columns; a collection inside a sequence starts
right behind the dash.  Mapping keys are sorted.
-/

namespace ScriptCore
namespace Yaml
namespace Render

structure Writer where
  /-- The characters, last one first. -/
  reversed : List Char := []
  column : Nat := 0
  /-- The next token needs no space in front of it. -/
  isSpaced : Bool := true
  /-- Nothing but indentation and indicators stands on this line. -/
  isIndented : Bool := true

namespace Writer

def put (w : Writer) (c : Char) : Writer :=
  { w with reversed := c :: w.reversed, column := w.column + 1 }

def putAll (w : Writer) (cs : List Char) : Writer :=
  cs.foldl put w

def newLine (w : Writer) (c : Char) : Writer :=
  { w with reversed := c :: w.reversed, column := 0, isIndented := true }

def spaces (w : Writer) (n : Nat) : Writer :=
  w.putAll (List.replicate n ' ')

/-- Go to a column, on a new line unless this one has nothing else on it. -/
def indentTo (w : Writer) (indent : Int) : Writer :=
  let column := indent.toNat
  let w :=
    if !w.isIndented || decide (column < w.column) || (w.column == column && !w.isSpaced) then
      w.newLine '\n'
    else w
  { w.spaces (column - w.column) with isSpaced := true }

def indicator (w : Writer) (mark : String) (needsSpace isSpaced isIndented : Bool) : Writer :=
  let w := if needsSpace && !w.isSpaced then w.put ' ' else w
  { w.putAll mark.toList with isSpaced, isIndented := w.isIndented && isIndented }

def occupy (w : Writer) : Writer :=
  { w with isSpaced := false, isIndented := false }

def plain (w : Writer) (cs : List Char) : Writer :=
  let w := if w.isSpaced then w else w.put ' '
  (w.putAll cs).occupy

/-- One character between single quotes; `breaks` tells that line breaks precede it. -/
def singleChar (indent : Int) (acc : Writer × Bool) (c : Char) : Writer × Bool :=
  let w := acc.1
  if isBreak c then
    let w := if !acc.2 && c == '\n' then w.newLine '\n' else w
    (w.newLine c, true)
  else if c = ' ' then (w.put c, acc.2)
  else
    let w := if acc.2 then w.indentTo indent else w
    let w := if c = '\'' then w.put c else w
    ({ w.put c with isIndented := false }, false)

def single (w : Writer) (indent : Int) (cs : List Char) : Writer :=
  let w := w.indicator "'" true false false
  let w := (cs.foldl (singleChar indent) (w, false)).1
  (w.indicator "'" false false false).occupy

def double (w : Writer) (cs : List Char) : Writer :=
  let w := w.indicator "\"" true false false
  let w := w.putAll (cs.flatMap doubleQuotedChar)
  (w.indicator "\"" false false false).occupy

/-- The header of a literal block: the indentation where the text does not show it, and what
happens to line breaks at the end. -/
def literalHeader (cs : List Char) : String :=
  let indentation := if cs.head?.any fun c => c == ' ' || isBreak c then "4" else ""
  let chomping :=
    match cs.reverse with
    | c :: rest =>
        if !isBreak c then "-"
        else if rest.isEmpty || rest.head?.any isBreak then "+"
        else ""
    | [] => "-"
  "|" ++ indentation ++ chomping

def literalChar (indent : Int) (acc : Writer × Bool) (c : Char) : Writer × Bool :=
  if isBreak c then (acc.1.newLine c, true)
  else
    let w := if acc.2 then acc.1.indentTo indent else acc.1
    ({ w.put c with isIndented := false }, false)

def literal (w : Writer) (indent : Int) (cs : List Char) : Writer :=
  let w := w.indicator (literalHeader cs) true true false
  (cs.foldl (literalChar indent) (w, true)).1

def text (w : Writer) (indent : Int) (s : String) : Writer :=
  match styleOf s with
  | .plain => w.plain s.toList
  | .single => w.single indent s.toList
  | .double => w.double s.toList
  | .literal => w.literal indent s.toList

end Writer

/-- The column of what is inside something at `indent`, where nothing is at minus one. -/
def inner (indent : Int) (inSequence isScalar : Bool) : Int :=
  if indent < 0 then (if isScalar then 4 else 0)
  else if inSequence then indent + 2
  else 4 * ((indent + 4) / 4)

def key (indent : Int) (name : String) (w : Writer) : Writer :=
  let w := w.indentTo indent
  if isSimpleKey name then (w.text (inner indent false true) name).indicator ":" false false false
  else
    let w := (w.indicator "?" true false true).text (inner indent false true) name
    (w.indentTo indent).indicator ":" true false true

mutual

def data (indent : Int) (inSequence : Bool) (w : Writer) : Yaml → Writer
  | .null => w.plain "null".toList
  | .bool b => w.plain (if b then "true" else "false").toList
  | .int n => w.plain (toString n.toInt).toList
  | .uint n => w.plain (toString n.toNat).toList
  | .float x => w.plain (Decimal.yaml.render x).toList
  | .time t => w.plain t.display.toList
  | .text s => w.text (inner indent inSequence true) s
  | .seq list =>
      if list.isEmpty then (w.indicator "[" true true false).indicator "]" false false false
      else items (inner indent inSequence false) w list
  | .map pairs =>
      if pairs.isEmpty then
        (w.indicator "\x7b" true true false).indicator "\x7d" false false false
      else entries (inner indent inSequence false) w pairs

def items (indent : Int) (w : Writer) : List Yaml → Writer
  | [] => w
  | item :: rest =>
      let w := (w.indentTo indent).indicator "-" true false true
      items indent (data indent true w item) rest

def entries (indent : Int) (w : Writer) : List (Yaml × Yaml) → Writer
  | [] => w
  | (name, value) :: rest =>
      entries indent (data indent false (key indent name.keyText w) value) rest

end

end Render

def sortEntries (entries : List (Yaml × Yaml)) : List (Yaml × Yaml) :=
  entries.mergeSort fun a b => !Render.KeyOrder.less b.1.keyText a.1.keyText

mutual

/-- The same data with all mappings in the order in which they are written. -/
def sorted : Yaml → Yaml
  | .seq items => .seq (sortedItems items)
  | .map entries => .map (sortEntries (sortedEntries entries))
  | data => data

def sortedItems : List Yaml → List Yaml
  | [] => []
  | item :: rest => sorted item :: sortedItems rest

def sortedEntries : List (Yaml × Yaml) → List (Yaml × Yaml)
  | [] => []
  | (key, value) :: rest => (key, sorted value) :: sortedEntries rest

end

def render (y : Yaml) : String :=
  let w := Render.data (-1) false {} y.sorted
  String.ofList (w.indentTo (-1)).reversed.reverse

end Yaml
end ScriptCore
