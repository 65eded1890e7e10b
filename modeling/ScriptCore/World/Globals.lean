import ScriptCore.World.Guard
import ScriptCore.World.Scope

/-!
# Global variables

A name is looked up in the scopes, then among the variables of the thread, the
shared immutable and the shared mutable variables.  It is assigned the other
way round: shared mutable, shared immutable (which never works), thread-local,
and the scopes last.  Shared variables are read as snapshots.
-/

namespace ScriptCore
namespace World

def locals (w : World) (thread : ThreadId) : NameMap VariableId :=
  w.threads.getD thread {}

def setLocal (thread : ThreadId) (name : String) (id : VariableId) : Op Unit :=
  modify fun w =>
    { w with threads := w.threads.setIfInBounds thread ((w.locals thread).insert name id) }

/-- A name cannot be declared again once it is a shared immutable variable. -/
def frozenFault (name : String) : Error :=
  .ofKind .immutableAssignment name "already declared as a shared-immutable global"

def declareLocal (thread : ThreadId) (name : String) (declared : Ty) (value : Value) : Op Unit := do
  let id ← Op.withName name (bindMutable declared value)
  setLocal thread name id

def declareFrozen (name : String) (declared : Ty) (value : Value) : Op Unit := do
  if (← get).guarded.contains name then
    Op.fail (.ofKind .immutableAssignment name "already declared as a shared-mutable global")
  let value ← Op.withName name (Op.build (Heap.detach value))
  let id ← Op.withName name (bindValue declared value)
  modify fun w => { w with frozen := w.frozen.insert name id }

/-- Declare a shared mutable variable.  An earlier one is replaced inside its lock. -/
def declareGuarded (thread : ThreadId) (name : String) (declared : Ty) (value : Value) :
    Op Unit := do
  let id ← Op.withName name (bindMutable declared value)
  match (← get).guarded.get? name with
  | some g =>
      withGuard thread name g fun _ => do
        match (← get).guarded.get? name with
        | some g => setGuard name { g with var := id }
        | none => return ()
  | none => setGuard name { var := id }

def declare (thread : ThreadId) (name : String) (tier : Int) (declared : Ty) (value : Value) :
    Op Unit := do
  if (← get).frozen.contains name then Op.fail (frozenFault name)
  match Tier.ofCode? tier with
  | some .threadLocal => declareLocal thread name declared value
  | some .sharedImmutable => declareFrozen name declared value
  | some .sharedMutable => declareGuarded thread name declared value
  | none =>
      Op.fail (.ofKind .invalidCall name ("unknown global tier " ++ Tier.textOfCode tier))

def declareGlobal (thread : ThreadId) (name : String) (tier : Int) (declared : Ty) (value : Value) :
    Op Unit := do
  declare thread name tier declared value
  log .debug "global declared"
    [("name", .text name), ("tier", .text (Tier.textOfCode tier))]

def lookupGlobal? (thread : ThreadId) (name : String) : Op (Option VariableId) := do
  let w ← get
  match (w.locals thread).get? name with
  | some id => return some id
  | none =>
      match w.frozen.get? name with
      | some id => return some (← Op.withName name (snapshot id))
      | none =>
          match w.guarded.get? name with
          | some g => return some (← Op.withName name (withGuard thread name g snapshot))
          | none => return none

def unboundFault (name : String) : Error :=
  .ofKind .unboundName name "no variable with this name"

def lookup (thread : ThreadId) (scope : Option ScopeId) (name : String) : Op VariableId := do
  match (← get).find? scope name with
  | some id => return id
  | none =>
      match ← lookupGlobal? thread name with
      | some id => return id
      | none => Op.fail (unboundFault name)

/-- Assign to a global variable; tells whether there is one with the name. -/
def assignGlobal (thread : ThreadId) (name : String) (value : Value) : Op Bool := do
  let w ← get
  match w.guarded.get? name with
  | some g =>
      Op.withName name (withGuard thread name g fun id => assignValue id value)
      return true
  | none =>
      if w.frozen.contains name then
        Op.fail
          (.ofKind .immutableAssignment name "cannot assign to a shared-immutable global")
      match (w.locals thread).get? name with
      | some id =>
          Op.withName name (assignValue id value)
          return true
      | none => return false

def assign (thread : ThreadId) (scope : Option ScopeId) (name : String) (value : Value) :
    Op Unit := do
  if ← assignGlobal thread name value then return ()
  if ← update scope name value then return ()
  Op.fail (unboundFault name)

def guardOf (name : String) : Op Guard := do
  match (← get).guarded.get? name with
  | some g => return g
  | none => Op.fail (.ofKind .unboundName name "no shared-mutable global")

def withMutableGlobal {α : Type} (thread : ThreadId) (name : String) (work : VariableId → Op α) :
    Op α := do
  let g ← guardOf name
  Op.withName name (withGuard thread name g work)

def globalNames (w : World) (thread : ThreadId) (tier : Int) : List String :=
  match Tier.ofCode? tier with
  | some .threadLocal => (w.locals thread).names
  | some .sharedImmutable => w.frozen.names
  | some .sharedMutable => w.guarded.names
  | none => []

def getGlobal (thread : ThreadId) (name : String) : Op Value := do
  let id ← lookup thread none name
  contentOf (← slot id)

/-- A thread of its own: it shares everything but the thread-local variables. -/
def newThread : Op ThreadId := do
  let w ← get
  set { w with threads := w.threads.push {} }
  return w.threads.size

def fork : Op ThreadId := do
  let id ← newThread
  log .debug "interpreter cloned" [("clone", .text anonymous)]
  return id

end World
end ScriptCore
