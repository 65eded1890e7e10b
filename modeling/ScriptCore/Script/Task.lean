/-!
# Tasks

A task is a computation on a state that can be interrupted.  It may wait at a
gate, start another task beside itself, or open a gate.  Only one task runs at
a time: a started task runs until it is done or waits, and then its starter
goes on.
-/

namespace ScriptCore

/-- A computation that is done or wants something before it goes on. -/
inductive Task (σ : Type) : Type → Type 1 where
  | done {α : Type} (s : σ) (a : α) : Task σ α
  /-- Wait until the gate is opened. -/
  | wait {α : Type} (gate : String) (s : σ) (next : σ → Task σ α) : Task σ α
  /-- Start another task. -/
  | start {α : Type} (s : σ) (job : σ → Task σ Unit) (next : σ → Task σ α) : Task σ α
  /-- Let the tasks go on that wait at the gate. -/
  | wake {α : Type} (gate : String) (s : σ) (next : σ → Task σ α) : Task σ α

namespace Task

variable {σ α β : Type}

def andThen : Task σ α → (σ → α → Task σ β) → Task σ β
  | .done s a, f => f s a
  | .wait gate s next, f => .wait gate s fun s => (next s).andThen f
  | .start s job next, f => .start s job fun s => (next s).andThen f
  | .wake gate s next, f => .wake gate s fun s => (next s).andThen f

/-- Tasks that wait, each with its gate, in the order in which they started to. -/
abbrev Waiting (σ : Type) := List (String × (σ → Task σ Unit))

abbrev Waker (σ : Type) := String → σ → Waiting σ → σ × Waiting σ

abbrev Parking (σ α : Type) := String → (σ → Task σ α) → Waiting σ → Waiting σ

def join : Parking σ Unit :=
  fun gate next waiting => waiting ++ [(gate, next)]

def abandon : Parking σ α :=
  fun _ _ waiting => waiting

def run (waker : Waker σ) : {α : Type} → Parking σ α → Task σ α → Waiting σ →
    σ × Waiting σ × Option α
  | _, _, .done s a, waiting => (s, waiting, some a)
  | _, park, .wait gate s next, waiting => (s, park gate next waiting, none)
  | _, park, .start s job next, waiting =>
      let (s, waiting, _) := run waker join (job s) waiting
      run waker park (next s) waiting
  | _, park, .wake gate s next, waiting =>
      let (s, waiting) := waker gate s waiting
      run waker park (next s) waiting

/-- Let all tasks at a gate go on, one after another.  A task may open further gates, at most
`depth` deep. -/
def wakeAll : (depth : Nat) → Waker σ
  | 0, _, s, waiting => (s, waiting)
  | depth + 1, gate, s, waiting =>
      let woken := waiting.filter fun e => e.1 == gate
      let others := waiting.filter fun e => e.1 != gate
      woken.foldl
        (fun acc e =>
          let (s, waiting, _) := run (wakeAll depth) join (e.2 acc.1) acc.2
          (s, waiting))
        (s, others)

end Task

def Interruptible (σ α : Type) : Type 1 :=
  σ → Task σ α

namespace Interruptible

variable {σ : Type}

instance : Monad (Interruptible σ) where
  pure a := fun s => .done s a
  bind m f := fun s => (m s).andThen fun s a => f a s

instance : MonadStateOf σ (Interruptible σ) where
  get := fun s => .done s s
  set s := fun _ => .done s ()
  modifyGet f := fun s => .done (f s).2 (f s).1

def wait (gate : String) : Interruptible σ Unit :=
  fun s => .wait gate s fun s => .done s ()

def start (job : Interruptible σ Unit) : Interruptible σ Unit :=
  fun s => .start s job fun s => .done s ()

def wake (gate : String) : Interruptible σ Unit :=
  fun s => .wake gate s fun s => .done s ()

end Interruptible
end ScriptCore
