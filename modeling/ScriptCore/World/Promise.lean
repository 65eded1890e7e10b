import ScriptCore.World.Binding

/-!
# Promises

A promise is completed once, by the result, the error or the stop of the body
behind it.  Later attempts change nothing.
-/

namespace ScriptCore
namespace Promise

def complete (p : Promise) (state : PromiseState) : Promise :=
  if p.state.isDone then p else { p with state }

/-- The state of a promise whose body came to a value of the given type. -/
def resolvedState (p : Promise) (result : Value) (actual : Ty) : PromiseState :=
  match Ty.check p.returnType actual with
  | .ok () => .resolved result
  | .error m => .failed (.ofMismatch p.function "promised return value" m)

def failedState (p : Promise) (e : Error) : PromiseState :=
  .failed (e.withName p.function)

def poisonedState (p : Promise) (cause : Panic) : PromiseState :=
  .poisoned
    (.ofKind .poisonedPromise p.function ("spawned body panicked: " ++ cause.report))

end Promise

namespace World

def promise (id : PromiseId) : Op Promise := do
  match (← get).heap.promises[id]? with
  | some p => return p
  | none => Op.stop .absentValue

def newPromise (f : Signature) : Op PromiseId := do
  let p : Promise := { function := f.displayName, returnType := f.result, state := .pending }
  let id ← Op.onHeap fun h => h.newPromise p
  log .debug "spawned" [("function", .text p.function), ("promise", .text anonymous)]
  return id

def completePromise (id : PromiseId) (state : PromiseState) : Op Unit := do
  let p ← promise id
  modify fun w => { w with heap := w.heap.setPromise id (p.complete state) }

/-- Complete a promise by the result of its body, which has to be of the promised type. -/
def resolvePromise (id : PromiseId) (result : Value) : Op Unit := do
  let p ← promise id
  let actual ← typeOf result
  completePromise id (p.resolvedState result actual)

def failPromise (id : PromiseId) (e : Error) : Op Unit := do
  let p ← promise id
  completePromise id (p.failedState e)

def poisonPromise (id : PromiseId) (cause : Panic) : Op Unit := do
  let p ← promise id
  log .error "spawned body panicked"
    [("function", .text p.function), ("promise", .text anonymous),
      ("panic", .text cause.report)]
  completePromise id (p.poisonedState cause)

/-- Complete a promise by what the body behind it came to.  A result without a type poisons it. -/
def concludePromise (id : PromiseId) (outcome : Except Failure Value) : Op Unit :=
  let attempt : Op Unit :=
    match outcome with
    | .ok result => resolvePromise id (orUnit result)
    | .error (.error e) => failPromise id e
    | .error (.panic cause) => Op.stop cause
  tryCatch attempt fun
    | .panic cause => poisonPromise id cause
    | .error e => Op.fail e

/-- What waiting for a promise gives; nothing while it is pending. -/
def awaitPromise? (id : PromiseId) : Op (Option Value) := do
  match (← promise id).state with
  | .pending => return none
  | .resolved result => return some result
  | .failed reason => Op.fail reason
  | .poisoned reason => Op.fail reason

def firstError? (states : List PromiseState) : Option Error :=
  states.findSome? fun
    | .failed reason => some reason
    | .poisoned reason => some reason
    | _ => none

def results? (states : List PromiseState) : Option (List Value) :=
  states.mapM fun
    | .resolved result => some result
    | _ => none

/-- What waiting for several promises gives: their results in order, or an error of one of them.
A cancelled wait does not wait for pending promises; any other one gives nothing while there are
some. -/
def awaitAll? (ids : List PromiseId) (isCancelled : Bool) : Op (Option (List Value)) := do
  let states ← ids.mapM fun id => do return (← promise id).state
  match firstError? states with
  | some e => Op.fail e
  | none =>
      match results? states with
      | some results => return some results
      | none => if isCancelled then Op.fail .cancelled else return none

end World
end ScriptCore
