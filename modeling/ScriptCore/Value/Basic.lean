import ScriptCore.Ty.Equal

/-!
# Values

A value is a tree.  Its leaves are scalars and handles to what lives in the
store: cells, functions and promises.  Lists, tuples, algebraic values and
aliases carry a mark; occurrences with one mark are one object, so that an
edit in place changes all of them at once.
-/

namespace ScriptCore

abbrev Mark := Nat

abbrev CellId := Nat

abbrev FunctionId := Nat

abbrev PromiseId := Nat

/-- Whether an algebraic type is a sum or a product. -/
inductive AlgebraicKind where
  | sum
  | product
deriving DecidableEq, Repr

namespace AlgebraicKind

def text : AlgebraicKind → String
  | .sum => "sum"
  | .product => "product"

def ofInt (n : Int) : AlgebraicKind :=
  if n = 1 then .product else .sum

end AlgebraicKind

/-- The type and the variant of an algebraic value. -/
structure Shape where
  kind : AlgebraicKind
  typeName : String
  /-- The variant, empty for products. -/
  tag : String
  typeArgs : List Ty
deriving Repr

def Shape.record : Shape where
  kind := .product
  typeName := "Record"
  tag := ""
  typeArgs := []

inductive Value where
  /-- No value at all. -/
  | absent
  | int (n : Int64)
  | uint (n : UInt64)
  | float (x : Float)
  /-- A character by its code, which need not be a valid one. -/
  | char (code : Int32)
  | byte (b : UInt8)
  | bool (b : Bool)
  | list (mark : Mark) (element : Ty) (items : List Value)
  | tuple (mark : Mark) (items : List Value)
  | algebraic (mark : Mark) (shape : Shape) (fields : List (String × Value))
  /-- A value under a second type name; a missing target is the type of the content. -/
  | alias (mark : Mark) (name target : Ty) (content : Value)
  /-- A live reference to a cell. -/
  | reference (cell : CellId)
  | function (id : FunctionId)
  | promise (id : PromiseId)
deriving Repr, Inhabited

namespace Value

def unit : Value := .tuple 0 []

def kind : Value → String
  | .absent => "nil"
  | .int _ => "INTEGER"
  | .uint _ => "UINTEGER"
  | .float _ => "FLOAT"
  | .char _ => "CHAR"
  | .byte _ => "BYTE"
  | .bool _ => "BOOLEAN"
  | .list .. => "LIST"
  | .tuple .. => "TUPLE"
  | .algebraic .. => "ALGEBRAIC"
  | .alias .. => "ALIAS"
  | .reference _ => "REFERENCE"
  | .function _ => "FUNCTION"
  | .promise _ => "PROMISE"

def isAbsent : Value → Bool
  | .absent => true
  | _ => false

def isReference : Value → Bool
  | .reference _ => true
  | _ => false

/-- The character of a code; the replacement character if there is none. -/
def charOfCode (code : Int32) : Char :=
  let n := code.toInt
  if 0 ≤ n then
    if h : n.toNat.isValidChar then Char.ofNatAux n.toNat h else '�'
  else '�'

def codeOfChar (c : Char) : Int32 :=
  Int32.ofNat c.toNat

def ofText (mark : Mark) (s : String) : Value :=
  .list mark .char (s.toList.map fun c => .char (codeOfChar c))

def isChar : Value → Bool
  | .char _ => true
  | _ => false

def isTextList (element : Ty) (items : List Value) : Bool :=
  (!element.isMissing && element.key == "Char") || (!items.isEmpty && items.all isChar)

def itemsText (items : List Value) : String :=
  String.ofList <| items.filterMap fun
    | .char code => some (charOfCode code)
    | _ => none

def putField (name : String) (value : Value) : List (String × Value) → List (String × Value)
  | [] => [(name, value)]
  | (other, old) :: rest =>
      if name == other then (name, value) :: rest
      else if name < other then (name, value) :: (other, old) :: rest
      else (other, old) :: putField name value rest

/-- Fields in the order of their names, the last of two equal names winning. -/
def sortFields (fields : List (String × Value)) : List (String × Value) :=
  fields.foldl (fun acc f => putField f.1 f.2 acc) []

def record (mark : Mark) (fields : List (String × Value)) : Value :=
  .algebraic mark .record (sortFields fields)

def mark? : Value → Option Mark
  | .list mark .. => some mark
  | .tuple mark _ => some mark
  | .algebraic mark .. => some mark
  | .alias mark .. => some mark
  | _ => none

mutual

/-- Put `node` in place of every object with the given mark. -/
def replace (mark : Mark) (node : Value) : Value → Value
  | .list m element items =>
      if m = mark then node else .list m element (replaceAll mark node items)
  | .tuple m items => if m = mark then node else .tuple m (replaceAll mark node items)
  | .algebraic m shape fields =>
      if m = mark then node else .algebraic m shape (replaceFields mark node fields)
  | .alias m name target content =>
      if m = mark then node else .alias m name target (replace mark node content)
  | v => v

def replaceAll (mark : Mark) (node : Value) : List Value → List Value
  | [] => []
  | v :: rest => replace mark node v :: replaceAll mark node rest

def replaceFields (mark : Mark) (node : Value) :
    List (String × Value) → List (String × Value)
  | [] => []
  | (name, v) :: rest => (name, replace mark node v) :: replaceFields mark node rest

end

end Value
end ScriptCore
