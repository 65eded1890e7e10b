import ScriptCore.Proofs.Operation
import ScriptCore.View
import ScriptCore.World.Classes
import ScriptCore.World.Globals
import ScriptCore.World.Promise

/-!
# Looking at the world

Operations that only look at the world keep any property of it.
-/

namespace ScriptCore
namespace World

variable {P : World → Prop}

@[grind ←] theorem keeps_typeOf (v : Value) : Op.Keeps P (typeOf v) :=
  Op.keeps_look _

@[grind ←] theorem keeps_view (v : Value) : Op.Keeps P (view v) :=
  Op.keeps_look _

@[grind ←] theorem keeps_require (name detail : String) (expected actual : Ty) :
    Op.Keeps P (require name detail expected actual) := by
  unfold require
  grind

@[grind ←] theorem keeps_slot (id : VariableId) : Op.Keeps P (slot id) := by
  unfold slot
  grind

@[grind ←] theorem keeps_declared (id : VariableId) : Op.Keeps P (declared id) := by
  unfold declared
  grind

@[grind ←] theorem keeps_contentOf (v : Value) : Op.Keeps P (contentOf v) :=
  Op.keeps_get_bind fun _ => Op.keeps_pure _

@[grind ←] theorem keeps_promise (id : PromiseId) : Op.Keeps P (promise id) := by
  unfold promise
  grind

@[grind ←] theorem keeps_function (id : FunctionId) : Op.Keeps P (function id) := by
  unfold function
  grind

theorem run_function {w : World} {id : FunctionId} {f : Function}
    (hf : w.heap.functions[id]? = some f) : (function id).run w = (.ok f, w) := by
  unfold function
  rw [Op.run_bind, Op.run_get, Op.next_ok, hf]
  rfl

theorem function_ok {w w' : World} {id : FunctionId} {f : Function}
    (hrun : (function id).run w = (.ok f, w')) : w.heap.functions[id]? = some f ∧ w' = w := by
  unfold function at hrun
  rw [Op.run_bind, Op.run_get, Op.next_ok] at hrun
  cases hf : w.heap.functions[id]? with
  | none =>
      rw [hf] at hrun
      cases hrun
  | some g =>
      rw [hf] at hrun
      cases hrun
      exact ⟨rfl, rfl⟩

@[grind ←] theorem keeps_guardOf (name : String) : Op.Keeps P (guardOf name) := by
  unfold guardOf
  grind

/-!
## Variables
-/

@[grind ←] theorem keeps_isMutable (id : VariableId) : Op.Keeps P (isMutable id) :=
  (keeps_slot id).bind fun _ => Op.keeps_pure _

@[grind ←] theorem keeps_cellOf (id : VariableId) : Op.Keeps P (cellOf id) := by
  unfold cellOf
  grind

@[grind ←] theorem keeps_valueType (id : VariableId) : Op.Keeps P (valueType id) := by
  unfold valueType
  grind

@[grind ←] theorem keeps_variableType (id : VariableId) : Op.Keeps P (variableType id) := by
  unfold variableType
  grind

@[grind ←] theorem keeps_checkBinding (declared : Ty) (value : Value) :
    Op.Keeps P (checkBinding declared value) := by
  unfold checkBinding
  grind

@[grind ←] theorem keeps_viewVariable (id : VariableId) : Op.Keeps P (viewVariable id) :=
  (keeps_declared id).bind fun _ => (keeps_isMutable id).bind fun _ =>
    (keeps_slot id).bind fun v => (keeps_view v).bind fun _ => (keeps_valueType id).bind fun _ =>
      (keeps_variableType id).bind fun _ => Op.keeps_pure _

@[grind ←] theorem keeps_viewBindings (scope : Option ScopeId) :
    Op.Keeps P (viewBindings scope) := by
  unfold viewBindings
  grind

/-!
## Functions, classes and promises
-/

@[grind ←] theorem keeps_instanceFor? (name : String) (args : Args) :
    Op.Keeps P (instanceFor? name args) := by
  unfold instanceFor?
  grind

@[grind ←] theorem keeps_closure? (scope : Option ScopeId) (name : String) :
    Op.Keeps P (closure? scope name) := by
  unfold closure?
  grind

@[grind ←] theorem keeps_askSource (scope : Option ScopeId) (name : String) (args : Args)
    (source : Source) : Op.Keeps P (askSource scope name args source) := by
  unfold askSource
  grind

@[grind ←] theorem keeps_checkDefault (className : String) (m : ClassMethod) :
    Op.Keeps P (checkDefault className m) := by
  unfold checkDefault
  grind

@[grind ←] theorem keeps_checkBodies (className typeName : String)
    (methods : List (String × Option FunctionId)) :
    Op.Keeps P (checkBodies className typeName methods) := by
  unfold checkBodies
  grind

@[grind ←] theorem keeps_checkMethodNames (c : Typeclass) (className typeName : String)
    (names : List String) : Op.Keeps P (checkMethodNames c className typeName names) := by
  unfold checkMethodNames
  grind

@[grind ←] theorem keeps_checkMethodType (c : Typeclass) (className typeName : String)
    (m : InstanceMethod) : Op.Keeps P (checkMethodType c className typeName m) :=
  (keeps_function m.body).bind fun _ => keeps_require _ _ _ _

@[grind ←] theorem keeps_settle (f : Signature) (result : Value) :
    Op.Keeps P (settle f result) :=
  (keeps_typeOf _).bind fun _ => (keeps_require _ _ _ _).bind fun _ => Op.keeps_pure _

@[grind ←] theorem keeps_awaitPromise? (id : PromiseId) : Op.Keeps P (awaitPromise? id) := by
  unfold awaitPromise?
  grind

@[grind ←] theorem keeps_awaitAll? (ids : List PromiseId) (isCancelled : Bool) :
    Op.Keeps P (awaitAll? ids isCancelled) := by
  unfold awaitAll?
  grind

end World
end ScriptCore
