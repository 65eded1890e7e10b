import ScriptCore.World.Basic

/-!
# Locks

Every shared mutable variable has a lock.  A thread that already holds the lock
is turned away.  A holder that stops in the middle of an update poisons the
lock for good.
-/

namespace ScriptCore
namespace Guard

inductive Entry where
  | entered (g : Guard)
  /-- The thread holds the lock already. -/
  | reentrant
  | poisoned
  /-- Another thread holds the lock. -/
  | busy
deriving DecidableEq, Repr

def enter (g : Guard) (thread : ThreadId) : Entry :=
  match g.holder with
  | some holder => if holder = thread then .reentrant else .busy
  | none => if g.isPoisoned then .poisoned else .entered { g with holder := some thread }

def leave (g : Guard) (isPoisoned : Bool) : Guard :=
  { g with holder := none, isPoisoned := g.isPoisoned || isPoisoned }

end Guard

namespace World

def setGuard (name : String) (g : Guard) : Op Unit :=
  modify fun w => { w with guarded := w.guarded.insert name g }

def enterGuard (thread : ThreadId) (name : String) (g : Guard) : Op Unit :=
  match g.enter thread with
  | .entered g => setGuard name g
  | .reentrant =>
      Op.fail (.ofKind .invalidCall name "reentrant access to a shared-mutable global")
  | .poisoned => Op.fail (.ofKind .poisonedLock name "a previous holder panicked mid-update")
  | .busy => Op.stop .stuck

def leaveGuard (name : String) (isPoisoned : Bool) : Op Unit := do
  match (← get).guarded.get? name with
  | some g =>
      setGuard name (g.leave isPoisoned)
      if isPoisoned then log .error "shared-mutable global poisoned" [("name", .text name)]
  | none => return ()

def isPanic {α : Type} : Except Failure α → Bool
  | .error (.panic _) => true
  | _ => false

def withGuard {α : Type} (thread : ThreadId) (name : String) (g : Guard)
    (work : VariableId → Op α) : Op α := do
  enterGuard thread name g
  let outcome ← tryCatch (Except.ok <$> work g.var) fun f => pure (.error f)
  leaveGuard name (isPanic outcome)
  match outcome with
  | .ok a => return a
  | .error f => throw f

end World
end ScriptCore
