import ScriptCore.Proofs.Promise.Completion
import ScriptCore.Proofs.Script.Custody

/-!
# Calls and spawned calls

A function may run on the thread of its caller, which gets the result, or on a
thread of its own, which completes a promise.  Both run the same body, and both
end it in ways of their own: they put the empty tuple in place of no value,
check the result against the declared type, and name errors.  They agree on
every outcome of a body.
-/

namespace ScriptCore

def Fault.subject (f : Fault) : FaultKind × String × Ty × Ty :=
  (f.kind, f.name, f.expected, f.actual)

/-- The errors are of the same kinds, and have the same name, expected and actual type.  They may
differ in detail. -/
structure Error.Alike (e e' : Error) : Prop where
  kinds : e.kinds = e'.kinds
  subject : e.fault?.map Fault.subject = e'.fault?.map Fault.subject

def Function.spawning (f : Function) (spawn : Bool) : Function :=
  { f with signature := { f.signature with spawn } }

namespace Script

open World Exec Promise

variable {f : Signature} {h : Heap} {result : Value} {type : Ty} {cause : Panic} {w : World}
variable {id : PromiseId}

/-- What a call comes to whose body has come to an outcome. -/
def returned (f : Signature) (h : Heap) : Except Failure Value → Except Failure Value
  | .ok result =>
      match h.typeOf (orUnit result) with
      | .ok type =>
          match Ty.check f.result type with
          | .ok () => .ok (orUnit result)
          | .error m => .error (.error (.ofMismatch f.displayName "return value" m))
      | .error cause => .error (.panic cause)
  | .error e => .error (e.withName f.displayName)

def promised (f : Signature) (h : Heap) : Except Failure Value → PromiseState
  | .ok result =>
      match h.typeOf (orUnit result) with
      | .ok type => (promiseFor f).resolvedState (orUnit result) type
      | .error cause => (promiseFor f).poisonedState cause
  | .error (.error e) => (promiseFor f).failedState e
  | .error (.panic cause) => (promiseFor f).poisonedState cause

/-!
## One outcome, two ends
-/

def Fits (f : Signature) (h : Heap) (outcome : Except Failure Value) (v : Value) : Prop :=
  ∃ result type, outcome = .ok result ∧ v = orUnit result ∧ h.typeOf v = .ok type ∧
    Ty.check f.result type = .ok ()

/-- What a call comes to and the state of its promise agree on an outcome of the body. -/
structure Agree (f : Signature) (h : Heap) (outcome r : Except Failure Value)
    (state : PromiseState) : Prop where
  value : ∀ v, r = .ok v ↔ state = .resolved v
  checked : ∀ v, r = .ok v ↔ Fits f h outcome v
  error : (∃ e, r = .error (.error e)) ↔ ∃ reason, state = .failed reason
  alike : ∀ e reason, r = .error (.error e) → state = .failed reason → e.Alike reason
  panic : (∃ cause, r = .error (.panic cause)) ↔ ∃ reason, state = .poisoned reason

theorem alike_self (e : Error) : e.Alike e :=
  ⟨rfl, rfl⟩

theorem alike_ofMismatch (name detail detail' : String) (m : Ty.Mismatch) :
    (Error.ofMismatch name detail m).Alike (.ofMismatch name detail' m) :=
  ⟨rfl, rfl⟩

theorem agree_value (htype : h.typeOf (orUnit result) = .ok type)
    (hcheck : Ty.check f.result type = .ok ()) :
    Agree f h (.ok result) (.ok (orUnit result)) (.resolved (orUnit result)) where
  value v := by simp
  checked v := by
    constructor
    · intro hv
      cases hv
      exact ⟨result, type, rfl, rfl, htype, hcheck⟩
    · rintro ⟨result', type', houtcome, hv, _⟩
      cases houtcome
      rw [hv]
  error := by simp
  alike e reason hr := by cases hr
  panic := by simp

theorem agree_error {outcome : Except Failure Value} {e reason : Error}
    (hmisfit : ∀ v, ¬ Fits f h outcome v) (halike : e.Alike reason) :
    Agree f h outcome (.error (.error e)) (.failed reason) where
  value v := by simp
  checked v := by
    constructor
    · intro hv
      cases hv
    · intro hfits
      exact absurd hfits (hmisfit v)
  error := by simp
  alike e' reason' hr hstate := by
    cases hr
    cases hstate
    exact halike
  panic := by simp

theorem agree_panic {outcome : Except Failure Value} {reason : Error}
    (hmisfit : ∀ v, ¬ Fits f h outcome v) :
    Agree f h outcome (.error (.panic cause)) (.poisoned reason) where
  value v := by simp
  checked v := by
    constructor
    · intro hv
      cases hv
    · intro hfits
      exact absurd hfits (hmisfit v)
  error := by simp
  alike e' reason' hr := by cases hr
  panic := by simp

theorem not_fits_error (e : Failure) (v : Value) : ¬ Fits f h (.error e) v := by
  rintro ⟨result, type, houtcome, _⟩
  cases houtcome

theorem not_fits_untyped (htype : h.typeOf (orUnit result) = .error cause) (v : Value) :
    ¬ Fits f h (.ok result) v := by
  rintro ⟨result', type, houtcome, hv, htype', _⟩
  cases houtcome
  rw [hv, htype] at htype'
  cases htype'

theorem not_fits_mismatch {m : Ty.Mismatch} (htype : h.typeOf (orUnit result) = .ok type)
    (hcheck : Ty.check f.result type = .error m) (v : Value) : ¬ Fits f h (.ok result) v := by
  rintro ⟨result', type', houtcome, hv, htype', hcheck'⟩
  cases houtcome
  rw [hv, htype] at htype'
  cases htype'
  rw [hcheck] at hcheck'
  cases hcheck'

theorem agree_returned_promised (f : Signature) (h : Heap) (outcome : Except Failure Value) :
    Agree f h outcome (returned f h outcome) (promised f h outcome) := by
  cases outcome with
  | ok result =>
      cases htype : h.typeOf (orUnit result) with
      | ok type =>
          cases hcheck : Ty.check f.result type with
          | ok u =>
              simp only [returned, promised, resolvedState, promiseFor, htype, hcheck]
              exact agree_value htype hcheck
          | error m =>
              simp only [returned, promised, resolvedState, promiseFor, htype, hcheck]
              exact agree_error (not_fits_mismatch htype hcheck) (alike_ofMismatch _ _ _ m)
      | error cause =>
          simp only [returned, promised, htype]
          exact agree_panic (not_fits_untyped htype)
  | error e =>
      cases e with
      | error e => exact agree_error (not_fits_error _) (alike_self _)
      | panic cause => exact agree_panic (not_fits_error _)

/-!
## Both kinds of calls
-/

theorem run_settle (f : Signature) (result : Value) (w : World) :
    (settle f result).run w = (returned f w.heap (.ok result), w) := by
  unfold settle
  rw [Op.run_bind]
  cases htype : w.heap.typeOf (orUnit result) with
  | ok type =>
      rw [run_typeOf htype, Op.next_ok, Op.run_bind]
      unfold require
      cases hcheck : Ty.check f.result type with
      | ok u =>
          simp only [returned, htype, hcheck]
          rfl
      | error m =>
          simp only [returned, htype, hcheck]
          rfl
  | error cause =>
      unfold typeOf
      rw [Op.run_look, htype]
      simp only [returned, htype]
      rfl

theorem run_runCall (invoke : Invoke) (thread : ThreadId) (f : Function) (scope : ScopeId)
    (s : Session) :
    (runCall invoke thread f scope false).run s =
      ((evaluateBody invoke thread f scope).run s).andThen fun u outcome =>
        .done u (returned f.signature u.world.heap outcome) := by
  unfold runCall
  rw [if_neg Bool.false_ne_true, run_bind, run_outcome, Task.andThen_assoc]
  congr 1
  funext u outcome
  cases outcome with
  | ok result =>
      show (op (settle f.signature result)).run u = _
      rw [run_op, run_settle]
  | error e => rfl

theorem promise_conclude (hw : Owes id (promiseFor f) w) (outcome : Except Failure Value) :
    ((concludePromise id outcome).run w).2.heap.promises[id]? =
      some { promiseFor f with state := promised f w.heap outcome } := by
  have hundergone : ∀ a, ((attempt id a).run w).2.heap.promises[id]? =
      some ((promiseFor f).undergo (w.heap, a)) := promise_attempt hw
  cases outcome with
  | ok result =>
      cases htype : w.heap.typeOf (orUnit result) with
      | ok type =>
          rw [run_conclude_result hw htype, hundergone, undergo_some (outcome?_resolve htype)]
          simp only [promised, htype]
          rfl
      | error cause =>
          rw [run_conclude_untyped hw htype, hundergone]
          simp only [promised, htype]
          rfl
  | error e =>
      cases e with
      | error e =>
          rw [run_conclude_error hw, hundergone]
          rfl
      | panic cause =>
          rw [run_conclude_panic, hundergone]
          rfl

/-- A call has found its function and has bound its parameters in a scope. -/
structure Bound (s : Session) (fid : FunctionId) (args : Args) (f : Function) (scope : ScopeId)
    (s₁ : Session) : Prop where
  function : s.world.heap.functions[fid]? = some f
  scope : ∃ w, (prepare f args).run s.world = (.ok scope, w) ∧ s₁ = { s with world := w }

variable {s s₁ : Session} {fid : FunctionId} {args : Args} {scope : ScopeId} {g : Function}

theorem Bound.run_invoke (hbound : Bound s fid args g scope s₁) (depth : Nat) (thread : ThreadId)
    (isCancelled : Bool) :
    (invoke (depth + 1) thread fid args isCancelled).run s =
      if g.signature.spawn then (spawnBody (invoke depth) g scope).run s₁
      else (runCall (invoke depth) thread g scope isCancelled).run s₁ := by
  rcases hbound with ⟨hfunction, w, hscope, rfl⟩
  rw [invoke, run_bind, run_op, run_function hfunction, Task.andThen, next, run_bind, run_op,
    hscope, Task.andThen, next]
  cases g.signature.spawn with
  | true => rfl
  | false => rfl

theorem evaluateBody_spawning (invoke : Invoke) (thread : ThreadId) (f : Function) (spawn : Bool)
    (scope : ScopeId) :
    evaluateBody invoke thread (f.spawning spawn) scope = evaluateBody invoke thread f scope :=
  rfl

theorem returned_spawning (f : Function) (spawn : Bool) :
    returned (f.spawning spawn).signature = returned f.signature := by
  funext h outcome
  cases outcome <;> rfl

/-- A spawned call has started a task on a thread of its own, which is to complete a promise. -/
structure Spawned (depth : Nat) (f : Function) (scope : ScopeId)
    (call : Task Session (Except Failure Value)) (worker : ThreadId) (id : PromiseId) : Prop where
  /-- The promise is pending at first, and the caller gets it at once. -/
  started : ∃ s, Owes id (promiseFor f.signature) s.world ∧
    call = .start s (job (invoke depth) worker f scope id) fun u => .done u (.ok (.promise id))
  /-- No step of a session completes it, nor does any task that the step starts. -/
  kept : ∀ step, Exec.Keeps (Owes id (promiseFor f.signature)) (runTop step)
  ends : ∀ s u outcome,
    ((evaluateBody (invoke depth) worker f scope).run s).Ends
      (fun s => Owes id (promiseFor f.signature) s.world) u outcome →
    (job (invoke depth) worker f scope id s).Ends
      (fun s => Owes id (promiseFor f.signature) s.world)
      { u with world := ((concludePromise id outcome).run u.world).2 } ()
  /-- However it ends, the promise is in the state that the outcome of the body decides. -/
  decided : ∀ s u', Owes id (promiseFor f.signature) s.world →
    (job (invoke depth) worker f scope id s).Ends
      (fun s => Owes id (promiseFor f.signature) s.world) u' () →
    ∃ u outcome,
      ((evaluateBody (invoke depth) worker f scope).run s).Ends
        (fun s => Owes id (promiseFor f.signature) s.world) u outcome ∧
      u'.world.heap.promises[id]? =
        some { promiseFor f.signature with state := promised f.signature u.world.heap outcome }

theorem spawned_spawnBody (depth : Nat) (f : Function) (spawn : Bool) (scope : ScopeId)
    (s : Session) :
    ∃ worker id, Spawned depth f scope
      ((spawnBody (invoke depth) (f.spawning spawn) scope).run s) worker id := by
  rcases run_spawnBody (invoke depth) (f.spawning spawn) scope s with ⟨worker, s₁, hheap, hrun⟩
  refine ⟨worker, s.world.heap.promises.size, ?_⟩
  constructor
  · refine ⟨s₁, ?_, hrun⟩
    show s₁.world.heap.promises[_]? = some (promiseFor (f.spawning spawn).signature)
    rw [hheap]
    simp [Heap.newPromise]
  · intro step
    exact keeps_runTop rfl step
  · intro t u outcome hends
    exact hends.andThen (.done _ _)
  · intro t u' ht hends
    rcases Task.Ends.of_andThen hends with ⟨u, outcome, hbody, hdone⟩
    refine ⟨u, outcome, hbody, ?_⟩
    -- the body has left the promise alone, so its end makes the first attempt
    have hkept := keeps_evaluateBody rfl (keeps_invoke rfl depth) worker f scope t ht
    cases hdone
    exact promise_conclude (hkept.ends hbody) outcome

theorem run_evaluateBody_none {invoke : Invoke} {thread : ThreadId} {f : Function}
    (hbody : f.body = .none) (s : Session) :
    (evaluateBody invoke thread f scope).run s =
      .done s (.error (.error (noBodyFault f.signature))) := by
  unfold evaluateBody
  rw [hbody]
  rfl

theorem run_evaluateBody_handle {invoke : Invoke} {thread : ThreadId} {f : Function}
    {steps : List Step} (hbody : f.body = .handle steps) (hnone : s.world.hasEvaluator = false) :
    (evaluateBody invoke thread f scope).run s =
      .done s (.error (.error (noEvaluatorFault f.signature))) := by
  unfold evaluateBody
  rw [hbody]
  simp only
  rw [run_bind, run_get, Task.andThen, next, hnone]
  rfl

/-- Once its parameters are bound, a call runs the body of the function, and so does the task behind
the promise of the same function spawned.  Whatever the body comes to, be it a value, no value, an
error or a stop, the call and the promise agree on it.  There is a value on one side if and only if
the same value is on the other, and that is so if and only if it is of the declared type.  Errors
are alike, and a stop goes with a poisoned promise.  A function without a body, or without the
evaluator that it needs, has an error for its outcome. -/
theorem spawned_call_agrees {depth : Nat} {thread : ThreadId} {f : Function} {s s₁ t t₁ : Session}
    {fid gid : FunctionId} {args args' : Args} {scope scope' : ScopeId}
    (hcall : Bound s fid args (f.spawning false) scope s₁)
    (hspawn : Bound t gid args' (f.spawning true) scope' t₁) :
    (invoke (depth + 1) thread fid args false).run s =
        ((evaluateBody (invoke depth) thread f scope).run s₁).andThen (fun u outcome =>
          .done u (returned f.signature u.world.heap outcome)) ∧
      (∃ worker id, Spawned depth f scope' ((invoke (depth + 1) thread gid args' false).run t)
        worker id) ∧
      (∀ h outcome, Agree f.signature h outcome (returned f.signature h outcome)
        (promised f.signature h outcome)) ∧
      (f.body = .none → ∀ thread scope u, (evaluateBody (invoke depth) thread f scope).run u =
        .done u (.error (.error (noBodyFault f.signature)))) ∧
      (∀ steps, f.body = .handle steps → ∀ thread scope u, u.world.hasEvaluator = false →
        (evaluateBody (invoke depth) thread f scope).run u =
          .done u (.error (.error (noEvaluatorFault f.signature)))) := by
  refine ⟨?_, ?_, agree_returned_promised f.signature, ?_, ?_⟩
  · rw [hcall.run_invoke depth thread false]
    show (runCall (invoke depth) thread (f.spawning false) scope false).run s₁ = _
    rw [run_runCall, returned_spawning, evaluateBody_spawning]
  · rw [hspawn.run_invoke depth thread false]
    exact spawned_spawnBody depth f true scope' t₁
  · intro hbody thread scope u
    exact run_evaluateBody_none hbody u
  · intro steps hbody thread scope u hnone
    exact run_evaluateBody_handle hbody hnone

def misfit : Function where
  signature := { name := "misfit", spawn := false, params := [], effects := [], result := .int }
  closure := none
  body := .native [.mk none none (.bool true) (.primitive .finish)]

def twoForms : Session where
  world := { heap := { functions := #[misfit.spawning false, misfit.spawning true] } }

theorem misfit_fails_in_both_forms :
    ∃ s₁ t₁ e reason, Bound twoForms 0 [] (misfit.spawning false) 0 s₁ ∧
      Bound twoForms 1 [] (misfit.spawning true) 1 t₁ ∧
      (invoke 1 0 0 [] false).run twoForms = .done s₁ (.error (.error e)) ∧
      promised misfit.signature s₁.world.heap (.ok (.bool true)) = .failed reason ∧
      e.Alike reason := by
  have hcall : Bound twoForms 0 [] (misfit.spawning false) 0 _ := ⟨rfl, _, rfl, rfl⟩
  have hspawn : Bound twoForms 1 [] (misfit.spawning true) 1 _ := ⟨rfl, _, rfl, rfl⟩
  rcases @spawned_call_agrees 0 0 misfit _ _ _ _ _ _ _ _ _ _ hcall hspawn with
    ⟨hrun, _, hagree, _⟩
  refine ⟨_, _, _, _, hcall, hspawn, hrun.trans rfl, rfl, ?_⟩
  exact (hagree twoForms.world.heap (.ok (.bool true))).alike _ _ rfl rfl

end Script
end ScriptCore
