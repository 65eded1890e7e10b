import ScriptCore.Script.Task
import ScriptCore.View

/-!
# Sessions

A session is a world together with what scripts keep between steps: registers,
open gates and the trace.
-/

namespace ScriptCore

/-- An entry of the trace: a value, or an error that was caught. -/
inductive TraceEntry where
  | value (v : Option ObjectView)
  | caught (e : Error)

/-- What scripts work on. -/
structure Session where
  world : World
  registers : NameMap Value := {}
  vars : NameMap VariableId := {}
  scopes : NameMap ScopeId := {}
  threads : NameMap ThreadId := .ofList [("main", 0)]
  openGates : List String := []
  /-- Objects that were edited in place, latest first: mark and new content. -/
  edits : List (Mark × Value) := []
  /-- The trace of the running step, latest entry first. -/
  trace : List TraceEntry := []

abbrev Exec := ExceptT Failure (Interruptible Session)

namespace Exec

def op {α : Type} (o : Op α) : Exec α := do
  let s ← get
  let (r, world) := o.run s.world
  set { s with world }
  match r with
  | .ok a => return a
  | .error f => throw f

def fail {α : Type} (e : Error) : Exec α :=
  throw (.error e)

def stop {α : Type} (p : Panic) : Exec α :=
  throw (.panic p)

def outcome {α : Type} (m : Exec α) : Exec (Except Failure α) :=
  tryCatch (Except.ok <$> m) fun f => pure (.error f)

def interrupt (request : Interruptible Session Unit) : Exec Unit :=
  ExceptT.lift request

def setRegister (name : String) (v : Value) : Exec Unit :=
  modify fun s => { s with registers := s.registers.insert name v }

def keep (name : Option String) (v : Value) : Exec Unit :=
  match name with
  | some name => setRegister name v
  | none => pure ()

/-- The value in a register; an unknown register holds none. -/
def register (name : String) : Exec Value := do
  return ((← get).registers.get? name).getD .absent

def setVariable (name : String) (id : VariableId) : Exec Unit :=
  modify fun s => { s with vars := s.vars.insert name id }

def keepVariable (name : Option String) (id : VariableId) : Exec Unit :=
  match name with
  | some name => setVariable name id
  | none => pure ()

def variableOf (name : String) : Exec VariableId := do
  match (← get).vars.get? name with
  | some id => return id
  | none => stop .absentValue

def setScope (name : String) (id : ScopeId) : Exec Unit :=
  modify fun s => { s with scopes := s.scopes.insert name id }

def traceEntry (e : TraceEntry) : Exec Unit :=
  modify fun s => { s with trace := e :: s.trace }

def editCount : Exec Nat := do
  return (← get).edits.length

/-- A value after all edits but the first `count`. -/
def refresh (count : Nat) (v : Value) : Exec Value := do
  let edits := (← get).edits
  return (edits.take (edits.length - count)).foldr (fun e v => v.replace e.1 e.2) v

end Exec

namespace Session

/-- Put an object in place of every object with its mark, wherever it is. -/
def edit (s : Session) (mark : Mark) (node : Value) : Session :=
  let change := Value.replace mark node
  let h := s.world.heap
  let result : PromiseState → PromiseState
    | .resolved v => .resolved (change v)
    | state => state
  { s with
    world :=
      { s.world with
        heap :=
          { h with
            cells := h.cells.map change
            promises := h.promises.map fun p => { p with state := result p.state } }
        vars := s.world.vars.map fun v => { v with slot := change v.slot } }
    registers := s.registers.map change
    edits := (mark, node) :: s.edits }

end Session
end ScriptCore
