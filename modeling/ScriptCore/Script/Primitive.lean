import ScriptCore.Script.Answer
import ScriptCore.Script.Session
import ScriptCore.World.Globals
import ScriptCore.World.Promise

/-!
# Primitive actions

The actions that have no steps or expressions inside.
-/

namespace ScriptCore
namespace Script

structure Frame where
  thread : ThreadId := 0
  scope : Option ScopeId := none
  /-- The arguments of the running host function. -/
  args : List Value := []
  /-- The number of edits when the arguments were taken. -/
  edits : Nat := 0

inductive Flow where
  | next (answer : Answer)
  /-- The script is done, with a value. -/
  | finished (v : Value)

open Exec

def showValue (v : Value) : Exec Answer := do
  return .object (← op (World.view v))

def showVariable (id : VariableId) : Exec Answer := do
  return .var (← op (World.viewVariable id))

def showBindings (scope : Option ScopeId) : Exec Answer := do
  return .bindings (← op (World.viewBindings scope))

def keepValue (register : Option String) (v : Value) : Exec Answer := do
  keep register v
  showValue v

def keepShown (register : Option String) (id : VariableId) : Exec Answer := do
  keepVariable register id
  showVariable id

def cellIn (register : String) : Exec CellId := do
  match ← Exec.register register with
  | .reference cell => return cell
  | _ => stop .absentValue

def sameCell (left right : String) : Exec Bool := do
  let cell ← cellIn left
  match ← Exec.register right with
  | .reference other => return cell == other
  | _ => return false

def noPromise : Error :=
  .plain "await: not a promise"

def promiseOf : Value → Exec PromiseId
  | .promise id => return id
  | _ => fail noPromise

/-! ## Edits in place -/

def editNode (site : Site) (part : Value) : Value → Option (Mark × Value)
  | .list mark element items =>
      if site.index < items.length then
        some (mark, .list mark element (items.set site.index part))
      else none
  | .tuple mark items =>
      if site.index < items.length then some (mark, .tuple mark (items.set site.index part))
      else none
  | .algebraic mark shape fields =>
      some (mark, .algebraic mark shape (Value.putField site.field part fields))
  | .alias mark name target _ => some (mark, .alias mark name target part)
  | _ => none

def renameParam (site : Site) (f : Function) : Option Function :=
  match f.signature.params[site.index]? with
  | some p =>
      let params := f.signature.params.set site.index { p with name := site.renamed }
      some { f with signature := { f.signature with params } }
  | none => none

def editRegister (register : String) (site : Site) (part : Value) : Exec Unit := do
  match ← Exec.register register with
  | .function id =>
      let f ← op (World.function id)
      match renameParam site f with
      | some f =>
          modify fun s =>
            { s with world := { s.world with heap := s.world.heap.setFunction id f } }
      | none => stop .absentValue
  | v =>
      match editNode site part v with
      | some (mark, node) => modify fun s => s.edit mark node
      | none => stop .absentValue

/-! ## Gates -/

def passGate (name : String) : Exec Unit := do
  if (← get).openGates.contains name then return ()
  interrupt (.wait name)

def openGate (name : String) : Exec Unit := do
  modify fun s => { s with openGates := name :: s.openGates }
  interrupt (.wake name)

/-! ## All of them -/

def perform (frame : Frame) (operand : Value) : Primitive → Exec Answer
  | .setRegister register => keepValue (some register) operand
  | .evaluate => showValue operand
  | .store register => do
      let cell ← cellIn register
      modify fun s =>
        { s with world := { s.world with heap := s.world.heap.store cell operand } }
      return .ok
  | .sameCell left right => return .same (← sameCell left right)
  | .edit register site => do
      editRegister register site operand
      showValue (← Exec.register register)
  | .bindVariable var type isMutable => do
      let bind := if isMutable then World.bindMutable else World.bindValue
      let id ← op (bind type operand)
      keepShown (some var) id
  | .emptyVariable var type => do
      let id ← op (World.addVariable { declared := type, slot := .absent })
      keepShown (some var) id
  | .showVariable var => do showVariable (← variableOf var)
  | .setVariable var => do
      op (World.setValue (← variableOf var) operand)
      return .ok
  | .assignVariable var => do
      op (World.assignValue (← variableOf var) operand)
      return .ok
  | .copyContent var register => do
      keepValue register (← op (World.copyOf (← variableOf var)))
  | .takeReference var register => do
      keepValue register (.reference (← op (World.cellOf (← variableOf var))))
  | .snapshot var into => do
      keepShown (some into) (← op (World.snapshot (← variableOf var)))
  | .newScope scope outer => do
      let outer := outer.bind (← get).scopes.get?
      setScope scope (← op (World.newScope outer))
      return .ok
  | .define name type isMutable => do
      showVariable (← op (World.define frame.scope name type operand isMutable))
  | .put name var => do
      let id ← variableOf var
      op (World.bindName frame.scope name id)
      showVariable id
  | .find name into => do
      match (← get).world.find? frame.scope name with
      | some id =>
          keepVariable into id
          return .search (some (← op (World.viewVariable id)))
      | none => return .search none
  | .update name => return .found (← op (World.update frame.scope name operand))
  | .showBindings => showBindings frame.scope
  | .detach scope => do
      let id ← op (World.detached frame.scope)
      setScope scope id
      showBindings (some id)
  | .declare name tier type => do
      op (World.declareGlobal frame.thread name tier type operand)
      return .ok
  | .lookup name into => do
      keepShown into (← op (World.lookup frame.thread frame.scope name))
  | .assign name => do
      op (World.assign frame.thread frame.scope name operand)
      return .ok
  | .globalNames tier => return .names ((← get).world.globalNames frame.thread tier)
  | .functionNames => return .names (← get).world.tables.functions.names
  | .classNames => return .names (← get).world.tables.classes.names
  | .instanceTypes method => return .names ((← get).world.tables.instances.types method)
  | .fork thread => do
      let id ← op World.fork
      modify fun s => { s with threads := s.threads.insert thread id }
      return .ok
  | .showSettings => return .settings (← get).world.settings
  | .await => do
      match ← op (World.awaitPromise? (← promiseOf operand)) with
      | some v => showValue v
      | none => return .pending
  | .awaitAll registers isCancelled => do
      let ids ← registers.mapM fun r => do promiseOf (← Exec.register r)
      match ← op (World.awaitAll? ids isCancelled) with
      | some values => return .results (← values.mapM fun v => op (World.view v))
      | none => return .pending
  | .status register => do
      let p ← op (World.promise (← promiseOf (← Exec.register register)))
      return .status
        { state := p.state.text, isDone := p.state.isDone, function := p.function,
          returnType := p.returnType }
  | .gate name => do
      passGate name
      return .ok
  | .openGate name => do
      openGate name
      return .ok
  | .setGlobal name tier => do
      op (World.declareGlobal 0 name tier .missing operand)
      return .ok
  | .getGlobal name => do showValue (← op (World.getGlobal 0 name))
  | .trace => do
      traceEntry (.value (← op (World.view operand)))
      return .ok
  | .finish => showValue operand
  | .fail text => fail (.plain text)
  | .panic text => stop (.raised text)

end Script
end ScriptCore
