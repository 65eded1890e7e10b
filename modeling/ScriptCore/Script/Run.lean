import ScriptCore.Exchange
import ScriptCore.Script.Primitive

/-!
# Running scripts

Expressions are evaluated and steps are run by recursion on the script.  Only
calls of functions leave the script at hand; their depth is bounded.
-/

namespace ScriptCore
namespace Script

open Exec

/-- Call a function with arguments on a thread; the call may have been cancelled already. -/
abbrev Invoke := ThreadId → FunctionId → World.Args → (isCancelled : Bool) → Exec Value

/-! ## Values -/

def freshMark : Exec Mark :=
  op (Op.build Heap.freshMark)

def newText (s : String) : Exec Value := do
  return .ofText (← freshMark) s

def newListOf (items : List Value) : Exec Value := do
  let element ←
    match items with
    | [] => pure .any
    | first :: _ => op (World.typeOf first)
  return .list (← freshMark) element items

def captured (frame : Frame) : Capture → Exec (Option ScopeId)
  | .nothing => return none
  | .named scope => do return (← get).scopes.get? scope
  | .current => return frame.scope

def bodyOf : BodyText → Body
  | .none => .none
  | .native steps => .native steps
  | .handle steps => .handle steps

def argument (frame : Frame) (index : Nat) : Exec Value := do
  match frame.args[index]? with
  | some v => refresh frame.edits v
  | none => stop .absentValue

def Operator.apply : Operator → Int64 → Int64 → Value
  | .add, a, b => .int (a + b)
  | .mul, a, b => .int (a * b)
  | .eq, a, b => .bool (a == b)
  | .lt, a, b => .bool (decide (a < b))

def calculate (o : Operator) : Value → Value → Exec Value
  | .int a, .int b => return o.apply a b
  | _, _ => fail (.plain (o.text ++ ": not an Int"))

def loadFrom : Value → Exec Value
  | .reference cell => do return (← get).world.heap.load cell
  | _ => stop .absentValue

def yamlText (v : Value) : Exec Value := do
  match (← get).world.heap.yamlText v with
  | .ok text => newText text
  | .error f => throw f

def awaited (v : Value) : Exec Value := do
  match ← op (World.awaitPromise? (← promiseOf v)) with
  | some result => return result
  | none => fail (.plain "still pending")

def functionIn? : Value → Option FunctionId
  | .function id => some id
  | _ => none

def callPlain (invoke : Invoke) (thread : ThreadId) (name : String) (values : List Value)
    (isCancelled : Bool) : Exec Value := do
  let args ← values.mapM fun v => some <$> op (Op.withName name (World.bindValue .missing v))
  let id ← op (World.resolve none name args)
  invoke thread id args isCancelled

def Frame.redirect (frame : Frame) (thread scope : Option String) : Exec Frame := do
  let s ← get
  let thread ←
    match thread with
    | some name =>
        match s.threads.get? name with
        | some id => pure id
        | none => stop .absentValue
    | none => pure frame.thread
  let scope :=
    match scope with
    | some name => s.scopes.get? name
    | none => frame.scope
  return { frame with thread, scope }

/-- Run inside the lock of a shared mutable variable, which a register holds meanwhile. -/
def holding {α : Type} (frame : Frame) (name : String) (work : Exec α) : Exec α := do
  let g ← op (World.guardOf name)
  op (Op.withName name (World.enterGuard frame.thread name g))
  setVariable "held" g.var
  let result ← outcome work
  op (World.leaveGuard name (World.isPanic result))
  match result with
  | .ok a => return a
  | .error f => throw (f.withName name)

def attempting (work : Exec Flow) : Exec Flow := do
  match ← outcome work with
  | .ok flow => return flow
  | .error (.error e) =>
      traceEntry (.caught e)
      return .next .ok
  | .error (.panic p) => stop p

def inContext {α : Type} (text : String) (work : Exec α) : Exec α := do
  match ← outcome work with
  | .ok a => return a
  | .error (.error e) => fail (.context text e)
  | .error (.panic p) => stop p

def bindHost (name : String) (params : List Param) (result : Ty) (steps : List Step) :
    Exec Unit := do
  let owner := (← get).world.heap.functions.size
  let signature : Signature := { name, spawn := false, params, effects := [], result }
  let id ← op (Op.onHeap fun h =>
    h.newFunction { signature, closure := none, body := .host name owner steps })
  op (World.addFunction name (some id))

/-- The answers of nested steps are dropped; a value that ends the script is kept. -/
def Flow.orOk : Flow → Flow
  | .next _ => .next .ok
  | flow => flow

/-! ## Scripts -/

mutual

def evaluate (invoke : Invoke) (frame : Frame) : Expr → Exec Value
  | .absent => return .absent
  | .int n => return .int n
  | .uint n => return .uint n
  | .float x => return .float x
  | .char code => return .char code
  | .byte b => return .byte b
  | .bool b => return .bool b
  | .text s => newText s
  | .list element items => do
      let items ← evaluateAll invoke frame items
      return .list (← freshMark) element items
  | .newList items => do newListOf (← evaluateAll invoke frame items)
  | .tuple items => do
      let items ← evaluateAll invoke frame items
      return .tuple (← freshMark) items
  | .algebraic shape fields => do
      let fields ← evaluateFields invoke frame fields
      return .algebraic (← freshMark) shape (Value.sortFields fields)
  | .alias name target content => do
      let content ← evaluate invoke frame content
      return .alias (← freshMark) name target content
  | .reference content => do
      let content ← evaluate invoke frame content
      op (Op.build (Heap.newReference content))
  | .function signature capture body => do
      let closure ← captured frame capture
      let id ← op (Op.onHeap fun h => h.newFunction { signature, closure, body := bodyOf body })
      return .function id
  | .register name => register name
  | .read name => do
      let id ← op (World.lookup frame.thread frame.scope name)
      op (do World.contentOf (← World.slot id))
  | .slot name => do
      let id ← op (World.lookup frame.thread frame.scope name)
      op (World.slot id)
  | .argument index => argument frame index
  | .live => return .bool true
  | .onMainThread => return .bool (frame.thread == 0)
  | .call c => evaluateCall invoke frame c
  | .choose condition whenTrue whenFalse => do
      let c ← evaluate invoke frame condition
      if ← op (Op.look fun h => h.isTruthy c) then evaluate invoke frame whenTrue
      else evaluate invoke frame whenFalse
  | .arith o left right => do
      let a ← evaluate invoke frame left
      let b ← evaluate invoke frame right
      calculate o a b
  | .display e => do
      let v ← evaluate invoke frame e
      newText (← op (Op.look fun h => h.display v))
  | .typeName e => do
      let v ← evaluate invoke frame e
      newText (← op (World.typeOf v)).display
  | .truthy e => do
      let v ← evaluate invoke frame e
      return .bool (← op (Op.look fun h => h.isTruthy v))
  | .copy e => do
      let v ← evaluate invoke frame e
      op (Op.build (Heap.copy v))
  | .load e => do loadFrom (← evaluate invoke frame e)
  | .sameReference e => do
      match Heap.sameReference (← evaluate invoke frame e) with
      | .ok v => return v
      | .error f => throw f
  | .yaml e => do yamlText (← evaluate invoke frame e)
  | .await e => do awaited (← evaluate invoke frame e)

/-- Evaluate expressions in order.  Edits made meanwhile show in all results. -/
def evaluateAll (invoke : Invoke) (frame : Frame) : List Expr → Exec (List Value)
  | [] => return []
  | e :: rest => do
      let v ← evaluate invoke frame e
      let edits ← editCount
      let vs ← evaluateAll invoke frame rest
      return (← refresh edits v) :: vs

def evaluateFields (invoke : Invoke) (frame : Frame) :
    List (String × Expr) → Exec (List (String × Value))
  | [] => return []
  | (name, e) :: rest => do
      let v ← evaluate invoke frame e
      let edits ← editCount
      let fields ← evaluateFields invoke frame rest
      return (name, ← refresh edits v) :: fields

def plainArgs (invoke : Invoke) (frame : Frame) : List Arg → Exec (List Value)
  | [] => return []
  | arg :: rest => do
      let v ← plainArg invoke frame arg
      let edits ← editCount
      let vs ← plainArgs invoke frame rest
      return (← refresh edits v) :: vs

def plainArg (invoke : Invoke) (frame : Frame) : Arg → Exec Value
  | .value e => evaluate invoke frame e
  | _ => return .absent

def variableArgs (invoke : Invoke) (frame : Frame) : List Arg → Exec World.Args
  | [] => return []
  | arg :: rest => do
      let id ← variableArg invoke frame arg
      let ids ← variableArgs invoke frame rest
      return id :: ids

def variableArg (invoke : Invoke) (frame : Frame) : Arg → Exec (Option VariableId)
  | .missing => return none
  | .var name => do return (← get).vars.get? name
  | .lookup name => do return some (← op (World.lookup frame.thread frame.scope name))
  | .value e => do
      let v ← evaluate invoke frame e
      return some (← op (World.bindValue .missing v))

def evaluateCall (invoke : Invoke) (frame : Frame) : Call → Exec Value
  | .mk callee args target register isCancelled => do
      let result ←
        match callee with
        | .plain name => do
            callPlain invoke frame.thread name (← plainArgs invoke frame args) isCancelled
        | .host name => do
            callPlain invoke 0 name (← plainArgs invoke frame args) isCancelled
        | .named name => do
            let args ← variableArgs invoke frame args
            let id ← op (World.resolve frame.scope name args)
            invoke frame.thread id args isCancelled
        | .target => do
            let args ← variableArgs invoke frame args
            match functionIn? (← evaluate invoke frame target) with
            | some id => invoke frame.thread id args isCancelled
            | none => fail (.plain "call: not a function")
      keep register result
      return result

def classMethods (invoke : Invoke) (frame : Frame) :
    List MethodText → Exec (List World.ClassMethod)
  | [] => return []
  | m :: rest => do
      let m ← classMethod invoke frame m
      let ms ← classMethods invoke frame rest
      return m :: ms

def classMethod (invoke : Invoke) (frame : Frame) : MethodText → Exec World.ClassMethod
  | .mk name signature body => do
      let v ← evaluate invoke frame body
      return { name, signature, default := functionIn? v }

def instanceMethods (invoke : Invoke) (frame : Frame) :
    List MethodText → Exec (List (String × Option FunctionId))
  | [] => return []
  | m :: rest => do
      let m ← instanceMethod invoke frame m
      let ms ← instanceMethods invoke frame rest
      return m :: ms

def instanceMethod (invoke : Invoke) (frame : Frame) :
    MethodText → Exec (String × Option FunctionId)
  | .mk name _ body => do
      let v ← evaluate invoke frame body
      return (name, functionIn? v)

def runStep (invoke : Invoke) (frame : Frame) : Step → Exec Flow
  | .mk thread scope operand action => do
      let frame ← frame.redirect thread scope
      let v ← evaluate invoke frame operand
      runAction invoke frame v action

def runSteps (invoke : Invoke) (frame : Frame) : List Step → Exec Flow
  | [] => return .next .ok
  | step :: rest => do
      match ← runStep invoke frame step with
      | .next _ => runSteps invoke frame rest
      | .finished v => return .finished v

def runAction (invoke : Invoke) (frame : Frame) (operand : Value) : Action → Exec Flow
  | .primitive .finish => return .finished operand
  | .primitive p => do return .next (← perform frame operand p)
  | .withMutable name steps => Flow.orOk <$> holding frame name (runSteps invoke frame steps)
  | .attempt steps => Flow.orOk <$> attempting (runSteps invoke frame steps)
  | .withContext text steps => Flow.orOk <$> inContext text (runSteps invoke frame steps)
  | .call c => do
      let v ← evaluateCall invoke frame c
      return .next (← showValue v)
  | .resolve name args register => do
      let args ← variableArgs invoke frame args
      let id ← op (World.resolve frame.scope name args)
      return .next (← keepValue register (.function id))
  | .addFunction name function => do
      let v ← evaluate invoke frame function
      op (World.addFunction name (functionIn? v))
      return .next .ok
  | .addClass name methods => do
      op (World.addClass name (← classMethods invoke frame methods))
      return .next .ok
  | .addInstance name type methods => do
      op (World.addInstance name type (← instanceMethods invoke frame methods))
      return .next .ok
  | .bindHost name params result steps => do
      bindHost name params result steps
      return .next .ok

end

/-! ## Calls -/

/-- Run the steps of a body to a value; there may be none. -/
def runBody (invoke : Invoke) (frame : Frame) (steps : List Step) : Exec Value := do
  match ← runSteps invoke frame steps with
  | .finished v => return v
  | .next _ => return .absent

def hostArg (name : String) (scope : ScopeId) (p : Param) : Exec Value := do
  match (← get).world.find? (some scope) p.name with
  | some id => op (do World.contentOf (← World.slot id))
  | none => fail (.plain (name ++ ": parameter " ++ p.name ++ " not bound"))

def evaluateBody (invoke : Invoke) (thread : ThreadId) (f : Function) (scope : ScopeId) :
    Exec Value := do
  match f.body with
  | .none => fail (World.noBodyFault f.signature)
  | .native steps => runBody invoke { thread, scope := some scope } steps
  | .handle steps =>
      if (← get).world.hasEvaluator then runBody invoke { thread, scope := some scope } steps
      else fail (World.noEvaluatorFault f.signature)
  | .host name owner steps =>
      let params := (← op (World.function owner)).signature.params
      let args ← params.mapM (hostArg name scope)
      runBody invoke { args, edits := ← editCount } steps

def spawnBody (invoke : Invoke) (f : Function) (scope : ScopeId) : Exec Value := do
  let worker ← op World.fork
  let id ← op (World.newPromise f.signature)
  interrupt <| .start do
    let result ← (evaluateBody invoke worker f scope).run
    let _ ← (op (World.concludePromise id result)).run
    return ()
  return .promise id

def runCall (invoke : Invoke) (thread : ThreadId) (f : Function) (scope : ScopeId)
    (isCancelled : Bool) : Exec Value := do
  if isCancelled then fail .cancelled
  match ← outcome (evaluateBody invoke thread f scope) with
  | .ok result => op (World.settle f.signature result)
  | .error e => throw (e.withName f.signature.displayName)

def invoke : (depth : Nat) → Invoke
  | 0, _, _, _, _ => stop .tooDeep
  | depth + 1, thread, id, args, isCancelled => do
      let f ← op (World.function id)
      let scope ← op (World.prepare f args)
      if f.signature.spawn then spawnBody (invoke depth) f scope
      else runCall (invoke depth) thread f scope isCancelled

def maxDepth : Nat := 10000

/-- Evaluate an expression with nothing around it. -/
def eval (e : Expr) : Exec Value :=
  evaluate (invoke maxDepth) {} e

def runTop (step : Step) : Exec Answer := do
  match ← runStep (invoke maxDepth) {} step with
  | .next answer => return answer
  | .finished v => showValue v

end Script
end ScriptCore
