import ScriptCore.World.Basic

/-!
# Variables

A variable is bound once.  An immutable variable holds a value; a mutable one
holds a reference, and assignments go through to the cell.
-/

namespace ScriptCore
namespace World

def varAt? (w : World) (id : VariableId) : Option Variable :=
  w.vars[id]?

def slot (id : VariableId) : Op Value := do
  match (← get).varAt? id with
  | some v => return v.slot
  | none => Op.stop .absentValue

def declared (id : VariableId) : Op Ty := do
  match (← get).varAt? id with
  | some v => return v.declared
  | none => Op.stop .absentValue

def addVariable (v : Variable) : Op VariableId := do
  let w ← get
  set { w with vars := w.vars.push v }
  return w.vars.size

def checkBinding (declared : Ty) (value : Value) : Op Unit := do
  if value.isAbsent then Op.fail (.ofKind .invalidCall "" "cannot bind a nil value")
  let actual ← typeOf value
  require "" "cannot bind value" declared actual

def bindValue (declared : Ty) (value : Value) : Op VariableId := do
  checkBinding declared value
  addVariable { declared, slot := value }

/-- A new variable that holds a value in a cell of its own.  Of a reference, the content is
copied. -/
def bindMutable (declared : Ty) (value : Value) : Op VariableId := do
  let value ← Op.build (Heap.detach value)
  let reference ← Op.build (Heap.newReference value)
  bindValue declared reference

/-- Put a value into a variable, whatever it holds. -/
def setValue (id : VariableId) (value : Value) : Op Unit := do
  let declared ← declared id
  checkBinding declared value
  modify fun w => { w with vars := w.vars.setIfInBounds id { declared, slot := value } }

def isMutable (id : VariableId) : Op Bool := do
  return (← slot id).isReference

def cellOf (id : VariableId) : Op CellId := do
  match ← slot id with
  | .reference cell => return cell
  | _ => Op.fail (.ofKind .immutableAssignment "" "binding is not mutable")

/-- The content of a value: what a reference refers to, or the value itself. -/
def contentOf (v : Value) : Op Value := do
  return (← get).heap.contentOf v

/-- Store a value in the cell of a mutable variable.  Without a declared type the content keeps the
type that it has. -/
def assignValue (id : VariableId) (value : Value) : Op Unit := do
  let cell ← cellOf id
  let value ← contentOf value
  if value.isAbsent then Op.fail (.ofKind .invalidCall "" "cannot assign a nil value")
  let declared ← declared id
  let expected ← if declared.isMissing then typeOf ((← get).heap.load cell) else pure declared
  let actual ← typeOf value
  require "" "cannot assign value" expected actual
  modify fun w => { w with heap := w.heap.store cell value }

def copyOf (id : VariableId) : Op Value := do
  let value ← slot id
  Op.build (Heap.copyContent value)

def snapshot (id : VariableId) : Op VariableId := do
  let value ← copyOf id
  let declared ← declared id
  addVariable { declared, slot := value }

def valueType (id : VariableId) : Op Ty := do
  let value ← slot id
  if value.isAbsent then return .any else typeOf value

def variableType (id : VariableId) : Op Ty := do
  let declared ← declared id
  if declared.isMissing then valueType id else return declared

end World
end ScriptCore
