import ScriptCore.Decimal.Layout
import ScriptCore.Heap.Basic

/-!
# Looking at values

The type, the written form and the truth of a value.  Trees are followed
structurally; a reference is followed into its cell, at most as often as there
are cells, which is enough where no cell is reachable from its own content.
-/

namespace ScriptCore
namespace Heap

/-- Run `visit` on a value, giving it a way to visit the content of a cell.  Each visit of a cell
uses up one of `depth`; `bottom` is the failure when nothing is left. -/
def follow {ε α : Type} (h : Heap) (bottom : ε)
    (visit : (CellId → Except ε α) → Value → Except ε α) : (depth : Nat) → Value → Except ε α
  | 0, v => visit (fun _ => .error bottom) v
  | depth + 1, v => visit (fun cell => h.follow bottom visit depth (h.load cell)) v

def explore {α : Type} (h : Heap) (visit : (CellId → Except Panic α) → Value → Except Panic α)
    (v : Value) : Except Panic α :=
  h.follow .bottomless visit h.cells.size v

def functionType (h : Heap) (id : FunctionId) : Ty :=
  match h.functions[id]? with
  | some f => f.signature.type
  | none => .any

def promiseType (h : Heap) (id : PromiseId) : Ty :=
  match h.promises[id]? with
  | some p => .promiseOf p.returnType.orAny
  | none => .promiseOf .any

def shapeType (shape : Shape) : Ty :=
  if shape.typeArgs.isEmpty then .named shape.typeName
  else .app (.named shape.typeName) shape.typeArgs

mutual

def typeVia (h : Heap) (cellType : CellId → Except Panic Ty) : Value → Except Panic Ty
  | .absent => .error .absentValue
  | .int _ => .ok .int
  | .uint _ => .ok .uint
  | .float _ => .ok .float
  | .char _ => .ok .char
  | .byte _ => .ok .byte
  | .bool _ => .ok .bool
  | .list _ element _ => .ok (.listOf element.orAny)
  | .tuple _ items => do
      let types ← typesVia h cellType items
      return if types.isEmpty then .unit else .tuple types
  | .algebraic _ shape _ => .ok (shapeType shape)
  | .alias _ name target content =>
      if target.isMissing then do
        let type ← typeVia h cellType content
        return .alias name type
      else .ok (.alias name target)
  | .reference cell => do
      let type ← cellType cell
      return .ref type
  | .function id => .ok (h.functionType id)
  | .promise id => .ok (h.promiseType id)

def typesVia (h : Heap) (cellType : CellId → Except Panic Ty) :
    List Value → Except Panic (List Ty)
  | [] => .ok []
  | v :: rest => do
      let type ← typeVia h cellType v
      let types ← typesVia h cellType rest
      return type :: types

end

def typeOf (h : Heap) (v : Value) : Except Panic Ty :=
  h.explore h.typeVia v

def byteText (b : UInt8) : String :=
  "0x" ++ String.ofList (Text.hex 2 b.toNat)

def fieldsText (name : String) (parts : List String) : String :=
  if parts.isEmpty then name else name ++ "(" ++ ", ".intercalate parts ++ ")"

def functionText (h : Heap) (id : FunctionId) : String :=
  match h.functions[id]? with
  | some f => f.signature.display
  | none => ""

def promiseText (h : Heap) (id : PromiseId) : String :=
  match h.promises[id]? with
  | some p => "<promise <uuid> " ++ p.state.text ++ ">"
  | none => ""

mutual

def displayVia (h : Heap) (cellText : CellId → Except Panic String) :
    Value → Except Panic String
  | .absent => .error .absentValue
  | .int n => .ok (toString n.toInt)
  | .uint n => .ok (toString n.toNat ++ "u")
  | .float x => .ok (Decimal.display.render x)
  | .char code => .ok (String.ofList ['\'', Value.charOfCode code, '\''])
  | .byte b => .ok (byteText b)
  | .bool b => .ok (if b then "true" else "false")
  | .list _ element items =>
      if Value.isTextList element items then
        .ok ("\"" ++ Value.itemsText items ++ "\"")
      else do
        let parts ← displayAllVia h cellText items
        return "[" ++ ", ".intercalate parts ++ "]"
  | .tuple _ items => do
      let parts ← displayAllVia h cellText items
      return "(" ++ ", ".intercalate parts ++ ")"
  | .algebraic _ shape fields => do
      let parts ← displayFieldsVia h cellText fields
      return fieldsText (if shape.tag.isEmpty then shape.typeName else shape.tag) parts
  | .alias _ name _ content => do
      if name.isMissing then throw .absentValue
      let inner ← displayVia h cellText content
      return name.display ++ "(" ++ inner ++ ")"
  | .reference cell => do
      let inner ← cellText cell
      return "&" ++ inner
  | .function id => .ok (h.functionText id)
  | .promise id => .ok (h.promiseText id)

def displayAllVia (h : Heap) (cellText : CellId → Except Panic String) :
    List Value → Except Panic (List String)
  | [] => .ok []
  | v :: rest => do
      let part ← displayVia h cellText v
      let parts ← displayAllVia h cellText rest
      return part :: parts

def displayFieldsVia (h : Heap) (cellText : CellId → Except Panic String) :
    List (String × Value) → Except Panic (List String)
  | [] => .ok []
  | (name, v) :: rest => do
      let part ← displayVia h cellText v
      let parts ← displayFieldsVia h cellText rest
      return (name ++ ": " ++ part) :: parts

end

def display (h : Heap) (v : Value) : Except Panic String :=
  h.explore h.displayVia v

def truthVia (cellTruth : CellId → Except Panic Bool) : Value → Except Panic Bool
  | .absent => .ok false
  | .int n => .ok (n != 0)
  | .uint n => .ok (n != 0)
  | .float x => .ok (x != 0)
  | .byte b => .ok (b != 0)
  | .bool b => .ok b
  | .alias _ _ _ content => truthVia cellTruth content
  | .reference cell => cellTruth cell
  | _ => .ok true

def isTruthy (h : Heap) (v : Value) : Except Panic Bool :=
  h.explore truthVia v

end Heap
end ScriptCore
