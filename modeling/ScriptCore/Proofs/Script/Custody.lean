import ScriptCore.Proofs.Script.Robust
import ScriptCore.Proofs.World.Command
import ScriptCore.Proofs.World.Globals

/-!
# Custody of promises

A pending promise is completed by the task that was started for it, and by
nobody else.  Whatever a script does, a promise that is pending when the script
starts or goes on is pending, and the same, wherever the script is interrupted
or ends.
-/

namespace ScriptCore
namespace World

def Owes (id : PromiseId) (p : Promise) (w : World) : Prop :=
  w.heap.promises[id]? = some p

variable {id : PromiseId} {p : Promise}

theorem robust_promise : Heap.Robust fun h => h.promises[id]? = some p where
  marked hh := hh
  duplicated hh _ := hh
  named _ hh _ := hh
  boxed _ hh := hh
  stored _ _ hh := hh

theorem owes_newPromise {w w' : World} (hw : Owes id p w) {q : Promise}
    (hheap : w'.heap = (w.heap.newPromise q).2) : Owes id p w' := by
  have hid := (Array.getElem?_eq_some_iff.mp hw).1
  unfold Owes
  rw [hheap]
  simpa [Owes, Heap.newPromise, Array.getElem?_push, Nat.ne_of_lt hid] using hw

end World

namespace Script

open World Exec

variable {id : PromiseId} {p : Promise} {invoke : Invoke}

def promiseFor (f : Signature) : Promise where
  function := f.displayName
  returnType := f.result
  state := .pending

/-- The task behind a promise runs a body and completes the promise by what it came to. -/
def job (invoke : Invoke) (worker : ThreadId) (f : Function) (scope : ScopeId) (id : PromiseId)
    (s : Session) : Task Session Unit :=
  ((evaluateBody invoke worker f scope).run s).andThen fun u outcome =>
    .done { u with world := ((concludePromise id outcome).run u.world).2 } ()

theorem run_job (invoke : Invoke) (worker : ThreadId) (f : Function) (scope : ScopeId)
    (id : PromiseId) (s : Session) :
    (do
      let result ← (evaluateBody invoke worker f scope).run
      let _ ← (op (concludePromise id result)).run
      return () : Interruptible Session Unit) s = job invoke worker f scope id s := by
  show ((evaluateBody invoke worker f scope).run s).andThen _ = _
  unfold job
  congr 1
  funext u outcome
  show ((op (concludePromise id outcome)).run u).andThen _ = _
  rw [run_op]
  rfl

/-- A spawned call makes a promise, starts the task behind it and gives the promise at once. -/
theorem run_spawnBody (invoke : Invoke) (f : Function) (scope : ScopeId) (s : Session) :
    ∃ worker s₁, s₁.world.heap = (s.world.heap.newPromise (promiseFor f.signature)).2 ∧
      (spawnBody invoke f scope).run s =
        .start s₁ (job invoke worker f scope s.world.heap.promises.size)
          (fun t => .done t (.ok (.promise s.world.heap.promises.size))) := by
  rcases run_fork s.world with ⟨lines, hfork⟩
  rcases run_newPromise { s.world with threads := s.world.threads.push {}, lines } f.signature
    with ⟨lines', hmade⟩
  refine ⟨s.world.threads.size,
    { s with
      world :=
        { s.world with
          heap := (s.world.heap.newPromise (promiseFor f.signature)).2
          threads := s.world.threads.push {}
          lines := lines' } }, rfl, ?_⟩
  unfold spawnBody
  rw [run_bind, run_op, hfork, Task.andThen, next, run_bind, run_op, hmade, Task.andThen, next]
  show Task.start _ _ _ = _
  congr 1
  funext t
  exact run_job invoke _ f scope _ t

theorem owes_edit (hp : p.state = .pending) {s : Session} (hs : Owes id p s.world) (mark : Mark)
    (node : Value) : Owes id p (s.edit mark node).world := by
  have hid : s.world.heap.promises[id]? = some p := hs
  obtain ⟨function, returnType, state⟩ := p
  cases hp
  simp [Owes, Session.edit, hid]

theorem owes_spawnBody {f : Function} {scope : ScopeId}
    (hbody : ∀ worker, Exec.Keeps (Owes id p) (evaluateBody invoke worker f scope)) :
    Exec.Keeps (Owes id p) (spawnBody invoke f scope) := by
  intro s hs
  rcases run_spawnBody invoke f scope s with ⟨worker, s₁, hheap, hrun⟩
  -- the task completes the promise made here, whose number no older promise has
  have hother : s.world.heap.promises.size ≠ id :=
    Nat.ne_of_gt (Array.getElem?_eq_some_iff.mp hs).1
  rw [hrun]
  refine ⟨owes_newPromise hs hheap, ?_, fun t ht => ht⟩
  intro t ht
  apply (hbody worker t ht).andThen
  intro u outcome hu
  have hset : ∀ (h : Heap) q, h.promises[id]? = some p →
      (h.setPromise s.world.heap.promises.size q).promises[id]? = some p := by
    intro h q hh
    simpa [Heap.setPromise, hother] using hh
  exact keeps_concludePromise hset outcome u.world _ _ hu rfl

theorem admits_promise : Admits (fun h => h.promises[id]? = some p) fun _ => True where
  toRobust := robust_promise
  made hh _ := hh
  bodies _ _ := fun _ _ => trivial

theorem withstands_promise (hp : p.state = .pending) :
    Withstands (fun h => h.promises[id]? = some p) fun _ => True where
  toAdmits := admits_promise
  edited hs _ := owes_edit hp hs _ _
  performed hinvoke hstores _ :=
    (admits_promise.keeps_evaluate hinvoke _ _ hstores).bind fun v => by
      unfold runAction perform
      grind [OnHeap, Heap.store]
  spawned hbody := owes_spawnBody hbody

theorem keeps_evaluateBody (hp : p.state = .pending) (hinvoke : invoke.Keeps (Owes id p))
    (thread : ThreadId) (f : Function) (scope : ScopeId) :
    Exec.Keeps (Owes id p) (evaluateBody invoke thread f scope) :=
  (withstands_promise hp).keeps_evaluateBody hinvoke thread (fun _ _ => trivial) scope

theorem keeps_invoke (hp : p.state = .pending) (depth : Nat) :
    (Script.invoke depth).Keeps (Owes id p) :=
  (withstands_promise hp).keeps_invoke depth

theorem keeps_runTop (hp : p.state = .pending) (step : Step) :
    Exec.Keeps (Owes id p) (runTop step) :=
  (withstands_promise hp).keeps_runTop fun _ _ => trivial

end Script
end ScriptCore
