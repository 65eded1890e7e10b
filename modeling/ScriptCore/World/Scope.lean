import ScriptCore.World.Variable

/-!
# Scopes

Names are looked up from the innermost scope outwards.  A scope is always
younger than the scope around it.
-/

namespace ScriptCore
namespace World

def newScope (outer : Option ScopeId) : Op ScopeId := do
  let w ← get
  set { w with scopes := w.scopes.push { outer } }
  return w.scopes.size

def chain (w : World) : (fuel : Nat) → Option ScopeId → List Scope
  | 0, _ => []
  | _, none => []
  | fuel + 1, some id =>
      match w.scopes[id]? with
      | some scope => scope :: w.chain fuel scope.outer
      | none => []

/-- The scopes from a scope outwards; no more than there are scopes. -/
def scopeChain (w : World) (scope : Option ScopeId) : List Scope :=
  w.chain w.scopes.size scope

def find? (w : World) (scope : Option ScopeId) (name : String) : Option VariableId :=
  (w.scopeChain scope).findSome? fun s => s.bindings.get? name

def bindName (scope : Option ScopeId) (name : String) (id : VariableId) : Op Unit := do
  let w ← get
  match scope.bind fun s => w.scopes[s]?.map fun found => (s, found) with
  | some (s, found) =>
      let found := { found with bindings := found.bindings.insert name id }
      set { w with scopes := w.scopes.setIfInBounds s found }
  | none => Op.stop .absentValue

/-- Bind a name to a new variable.  Of a reference, the content is copied. -/
def define (scope : Option ScopeId) (name : String) (declared : Ty) (value : Value)
    (isMutable : Bool) : Op VariableId := do
  let value ← Op.withName name (Op.build (Heap.detach value))
  let value ← if isMutable then Op.build (Heap.newReference value) else pure value
  let id ← Op.withName name (bindValue declared value)
  bindName scope name id
  return id

/-- Assign to the nearest binding of a name; tells whether there is one. -/
def update (scope : Option ScopeId) (name : String) (value : Value) : Op Bool := do
  match (← get).find? scope name with
  | some id =>
      Op.withName name (assignValue id value)
      return true
  | none => return false

/-- The nearest bindings among those of a list of scopes, each scope by the order of its names. -/
def nearest : List Scope → NameMap VariableId → NameMap VariableId
  | [], found => found
  | scope :: rest, found =>
      nearest rest <|
        scope.bindings.toSorted.foldl
          (fun acc e => if acc.contains e.1 then acc else acc.insert e.1 e.2) found

/-- An immutable variable as it is, or a snapshot of a mutable one. -/
def frozenCopy (name : String) (id : VariableId) : Op VariableId := do
  if ← isMutable id then Op.withName name (snapshot id) else return id

/-- A scope of its own with all that is visible in a scope.  Mutable variables become snapshots,
immutable ones are shared. -/
def detached (scope : Option ScopeId) : Op ScopeId := do
  let w ← get
  let visible := (nearest (w.scopeChain scope) {}).entries
  let copies ← visible.mapM fun e => do return (e.1, ← frozenCopy e.1 e.2)
  let id ← newScope none
  modify fun w =>
    { w with scopes := w.scopes.setIfInBounds id { bindings := { entries := copies } } }
  return id

end World
end ScriptCore
