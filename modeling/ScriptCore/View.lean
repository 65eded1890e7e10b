import ScriptCore.Heap.Observe
import ScriptCore.World.Variable

/-!
# Views

Values and variables as they are shown to whoever drives a program.
-/

namespace ScriptCore

/-- A value as it is shown: its class, its written form and its type. -/
structure ObjectView where
  kind : String
  text : String
  type : String
deriving DecidableEq, Repr

/-- Show a value; there is nothing to show of no value. -/
def Heap.view (h : Heap) (v : Value) : Except Panic (Option ObjectView) := do
  if v.isAbsent then return none
  let text ← h.display v
  let type ← h.typeOf v
  return some { kind := v.kind, text, type := type.display }

structure VariableView where
  declared : Ty
  isMutable : Bool
  value : Option ObjectView
  valueType : Ty
  type : Ty

namespace World

def view (v : Value) : Op (Option ObjectView) :=
  Op.look fun h => h.view v

def viewVariable (id : VariableId) : Op VariableView := do
  let declared ← declared id
  let isMutable ← isMutable id
  let value ← view (← slot id)
  let valueType ← valueType id
  let type ← variableType id
  return { declared, isMutable, value, valueType, type }

def viewBindings (scope : Option ScopeId) : Op (List (String × VariableView)) := do
  let w ← get
  match scope.bind fun s => w.scopes[s]? with
  | some s => s.bindings.toSorted.mapM fun e => do return (e.1, ← viewVariable e.2)
  | none => Op.stop .absentValue

end World
end ScriptCore
