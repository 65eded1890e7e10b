import ScriptCore.Proofs.Heap.Typing
import ScriptCore.Proofs.World.Guard
import ScriptCore.Proofs.World.Variable
import ScriptCore.World.Promise

/-!
# Completing a promise

Whoever completes a promise resolves, fails or poisons it.  Any number of such
attempts may be made, in any order and by anybody.  The first one that comes
to a state decides, and nothing changes afterwards.  An attempt comes to no
state if it is to resolve the promise by a result whose type cannot be told;
then it stops and leaves the promise as it is.

A state says at once how far the body has come, what it came to and whether
somebody who waits is to be told.  Whoever keeps these in fields of their own,
and closes a signal at the end, has to set them together; the fields then fit
together after any attempts, and the signal is closed once.
-/

namespace ScriptCore
namespace Promise

inductive Attempt where
  | resolve (result : Value)
  | fail (reason : Error)
  | poison (cause : Panic)

/-- An attempt with the heap in which it tells the type of its result. -/
abbrev Trial := Heap × Attempt

def outcome? (p : Promise) : Trial → Option PromiseState
  | (h, .resolve result) =>
      match h.typeOf result with
      | .ok actual => some (p.resolvedState result actual)
      | .error _ => none
  | (_, .fail reason) => some (p.failedState reason)
  | (_, .poison cause) => some (p.poisonedState cause)

def undergo (p : Promise) (t : Trial) : Promise :=
  match p.outcome? t with
  | some state => p.complete state
  | none => p

def after (p : Promise) (past : List Trial) : Promise :=
  past.foldr (fun t q => q.undergo t) p

def decided? (p : Promise) (past : List Trial) : Option PromiseState :=
  past.reverse.findSome? p.outcome?

variable {p q : Promise} {t : Trial} {past more : List Trial} {state : PromiseState}

/-!
## One attempt
-/

theorem complete_pending (hpending : p.state = .pending) (state : PromiseState) :
    p.complete state = { p with state } := by
  unfold complete
  rw [hpending]
  rfl

theorem complete_done (hdone : p.state.isDone = true) (state : PromiseState) :
    p.complete state = p := by
  unfold complete
  rw [if_pos hdone]

theorem complete_signature (p : Promise) (state : PromiseState) :
    (p.complete state).function = p.function ∧ (p.complete state).returnType = p.returnType := by
  unfold complete
  cases p.state.isDone <;> exact ⟨rfl, rfl⟩

theorem outcome?_resolve {h : Heap} {result : Value} {actual : Ty}
    (htype : h.typeOf result = .ok actual) :
    p.outcome? (h, .resolve result) = some (p.resolvedState result actual) := by
  simp only [outcome?, htype]

theorem outcome?_resolve_stop {h : Heap} {result : Value} {cause : Panic}
    (htype : h.typeOf result = .error cause) : p.outcome? (h, .resolve result) = none := by
  simp only [outcome?, htype]

theorem undergo_some (houtcome : p.outcome? t = some state) :
    p.undergo t = p.complete state := by
  unfold undergo
  rw [houtcome]

theorem undergo_none (houtcome : p.outcome? t = none) : p.undergo t = p := by
  unfold undergo
  rw [houtcome]

theorem outcome?_congr (hfunction : q.function = p.function)
    (htype : q.returnType = p.returnType) (t : Trial) : q.outcome? t = p.outcome? t := by
  obtain ⟨h, a⟩ := t
  cases a with
  | resolve result =>
      unfold outcome? resolvedState
      rw [hfunction, htype]
  | fail reason =>
      unfold outcome? failedState
      rw [hfunction]
  | poison cause =>
      unfold outcome? poisonedState
      rw [hfunction]

theorem resolvedState_cases (p : Promise) (result : Value) (actual : Ty) :
    (Ty.check p.returnType actual = .ok () ∧ p.resolvedState result actual = .resolved result) ∨
      ∃ reason, p.resolvedState result actual = .failed reason := by
  unfold resolvedState
  cases Ty.check p.returnType actual with
  | ok u => exact Or.inl ⟨rfl, rfl⟩
  | error m => exact Or.inr ⟨_, rfl⟩

theorem outcome?_cases (houtcome : p.outcome? t = some state) :
    (∃ h result actual, t = (h, .resolve result) ∧ h.typeOf result = .ok actual ∧
      state = p.resolvedState result actual) ∨
      (∃ h reason, t = (h, .fail reason) ∧ state = p.failedState reason) ∨
      ∃ h cause, t = (h, .poison cause) ∧ state = p.poisonedState cause := by
  obtain ⟨h, a⟩ := t
  cases a with
  | resolve result =>
      cases htype : h.typeOf result with
      | error cause =>
          rw [outcome?_resolve_stop htype] at houtcome
          cases houtcome
      | ok actual =>
          rw [outcome?_resolve htype] at houtcome
          cases houtcome
          exact Or.inl ⟨h, result, actual, rfl, htype, rfl⟩
  | fail reason =>
      cases houtcome
      exact Or.inr (Or.inl ⟨h, reason, rfl, rfl⟩)
  | poison cause =>
      cases houtcome
      exact Or.inr (Or.inr ⟨h, cause, rfl, rfl⟩)

theorem isDone_of_outcome? (houtcome : p.outcome? t = some state) : state.isDone = true := by
  rcases outcome?_cases houtcome with ⟨_, result, actual, _, _, rfl⟩ | ⟨_, _, _, rfl⟩ |
    ⟨_, _, _, rfl⟩
  · rcases p.resolvedState_cases result actual with ⟨_, hresolved⟩ | ⟨_, hfailed⟩
    · rw [hresolved]
      rfl
    · rw [hfailed]
      rfl
  · rfl
  · rfl

theorem undergo_done (hdone : p.state.isDone = true) (t : Trial) : p.undergo t = p := by
  cases houtcome : p.outcome? t with
  | none => exact undergo_none houtcome
  | some state => rw [undergo_some houtcome, complete_done hdone]

theorem undergo_signature (p : Promise) (t : Trial) :
    (p.undergo t).function = p.function ∧ (p.undergo t).returnType = p.returnType := by
  cases houtcome : p.outcome? t with
  | none =>
      rw [undergo_none houtcome]
      exact ⟨rfl, rfl⟩
  | some state =>
      rw [undergo_some houtcome]
      exact p.complete_signature state

theorem state_undergo_pending (hpending : p.state = .pending) (t : Trial) :
    (p.undergo t).state = (p.outcome? t).getD .pending := by
  cases houtcome : p.outcome? t with
  | none =>
      rw [undergo_none houtcome]
      exact hpending
  | some state =>
      rw [undergo_some houtcome, complete_pending hpending]
      rfl

/-!
## All attempts
-/

theorem after_signature (p : Promise) (past : List Trial) :
    (p.after past).function = p.function ∧ (p.after past).returnType = p.returnType := by
  induction past with
  | nil => exact ⟨rfl, rfl⟩
  | cons t past ih =>
      have hlast := (p.after past).undergo_signature t
      exact ⟨hlast.1.trans ih.1, hlast.2.trans ih.2⟩

theorem after_append (p : Promise) (more past : List Trial) :
    p.after (more ++ past) = (p.after past).after more :=
  List.foldr_append

theorem after_done (hdone : p.state.isDone = true) (more : List Trial) : p.after more = p := by
  induction more with
  | nil => rfl
  | cons t more ih =>
      show (p.after more).undergo t = p
      rw [ih, undergo_done hdone]

theorem decided?_cons (p : Promise) (t : Trial) (past : List Trial) :
    p.decided? (t :: past) = (p.decided? past).or (p.outcome? t) := by
  unfold decided?
  rw [List.reverse_cons, List.findSome?_append]
  simp

theorem isDone_of_decided? (hdecided : p.decided? past = some state) : state.isDone = true := by
  rcases List.exists_of_findSome?_eq_some hdecided with ⟨t, _, houtcome⟩
  exact isDone_of_outcome? houtcome

theorem state_after (hpending : p.state = .pending) (past : List Trial) :
    (p.after past).state = (p.decided? past).getD .pending := by
  induction past with
  | nil => exact hpending
  | cons t past ih =>
      rw [decided?_cons]
      show ((p.after past).undergo t).state = _
      cases hdecided : p.decided? past with
      | some state =>
          rw [hdecided] at ih
          have hdone : (p.after past).state.isDone = true := by
            rw [ih]
            exact isDone_of_decided? hdecided
          rw [undergo_done hdone, ih]
          rfl
      | none =>
          rw [hdecided] at ih
          have hsame := p.after_signature past
          rw [state_undergo_pending ih, outcome?_congr hsame.1 hsame.2, Option.none_or]

end Promise

/-!
## The fields of a promise
-/

/-- How far the body behind a promise has come. -/
inductive PromiseStatus where
  | pending
  | resolved
  | failed
  | poisoned
deriving DecidableEq

/-- A promise with a field for everything that its completion sets. -/
structure PromiseRecord where
  function : String
  returnType : Ty
  status : PromiseStatus := .pending
  result : Value := .absent
  error : Option Error := none
  /-- Whoever waits for the promise waits until its signal is closed. -/
  closed : Bool := false

namespace PromiseRecord

open Promise

def close? (r : PromiseRecord) : Option PromiseRecord :=
  if r.closed then none else some { r with closed := true }

/-- Set the fields and close the signal, unless the promise is complete. -/
def complete? (r : PromiseRecord) (status : PromiseStatus) (result : Value)
    (error : Option Error) : Option PromiseRecord :=
  if r.status ≠ .pending then some r
  else close? { r with status, result, error }

/-- Complete a promise by a result of the given type, which has to be the promised one. -/
def resolve? (r : PromiseRecord) (result : Value) (actual : Ty) : Option PromiseRecord :=
  match Ty.check r.returnType actual with
  | .ok () => r.complete? .resolved result none
  | .error m =>
      r.complete? .failed .absent (some (.ofMismatch r.function "promised return value" m))

def fail? (r : PromiseRecord) (reason : Error) : Option PromiseRecord :=
  r.complete? .failed .absent (some (reason.withName r.function))

def poison? (r : PromiseRecord) (cause : Panic) : Option PromiseRecord :=
  r.complete? .poisoned .absent
    (some (.ofKind .poisonedPromise r.function ("spawned body panicked: " ++ cause.report)))

/-- The fields after an attempt; nothing if it closes a closed signal. -/
def undergo? (r : PromiseRecord) : Trial → Option PromiseRecord
  | (h, .resolve result) =>
      match h.typeOf result with
      | .ok actual => r.resolve? result actual
      | .error _ => some r
  | (_, .fail reason) => r.fail? reason
  | (_, .poison cause) => r.poison? cause

def after? (r : PromiseRecord) (past : List Trial) : Option PromiseRecord :=
  past.foldr (fun t before => before.bind (·.undergo? t)) (some r)

/-- What waiting for a promise gives; nothing while its signal is open. -/
def answer (r : PromiseRecord) : Except Failure (Option Value) :=
  if r.closed then
    match r.error with
    | some reason => .error (.error reason)
    | none => .ok (some r.result)
  else .ok none

/-- Status, result, error and signal fit together. -/
structure Coherent (r : PromiseRecord) (past : List Trial) : Prop where
  pending : r.status = .pending → r.result = .absent ∧ r.error = none ∧ r.closed = false
  resolved : r.status = .resolved →
    r.closed = true ∧ r.error = none ∧ r.result ≠ .absent ∧
      ∃ h actual, (h, .resolve r.result) ∈ past ∧ h.typeOf r.result = .ok actual ∧
        Ty.check r.returnType actual = .ok ()
  failed : r.status = .failed →
    r.closed = true ∧ r.result = .absent ∧ ∃ reason, r.error = some reason
  poisoned : r.status = .poisoned →
    r.closed = true ∧ r.result = .absent ∧
      ∃ detail, r.error = some (.ofKind .poisonedPromise r.function detail)

variable {r : PromiseRecord} {past : List Trial} {t : Trial}

theorem complete?_done (hdone : r.status ≠ .pending) (status : PromiseStatus) (result : Value)
    (error : Option Error) : r.complete? status result error = some r :=
  if_pos hdone

theorem complete?_pending (hpending : r.status = .pending) (hopen : r.closed = false)
    (status : PromiseStatus) (result : Value) (error : Option Error) :
    r.complete? status result error = some { r with status, result, error, closed := true } := by
  unfold complete? close?
  rw [if_neg (not_not_intro hpending), if_neg (by simp [hopen])]

theorem undergo?_resolve {h : Heap} {result : Value} {actual : Ty}
    (htype : h.typeOf result = .ok actual) :
    r.undergo? (h, .resolve result) = r.resolve? result actual := by
  simp only [undergo?, htype]

theorem undergo?_resolve_stop {h : Heap} {result : Value} {cause : Panic}
    (htype : h.typeOf result = .error cause) : r.undergo? (h, .resolve result) = some r := by
  simp only [undergo?, htype]

/-- An attempt stops, or completes the promise by a result of the promised type or by an error. -/
theorem undergo?_cases (r : PromiseRecord) (t : Trial) :
    r.undergo? t = some r ∨
      (∃ h result actual, t = (h, .resolve result) ∧ h.typeOf result = .ok actual ∧
        Ty.check r.returnType actual = .ok () ∧
        r.undergo? t = r.complete? .resolved result none) ∨
      (∃ reason, r.undergo? t = r.complete? .failed .absent (some reason)) ∨
      ∃ detail, r.undergo? t =
        r.complete? .poisoned .absent (some (.ofKind .poisonedPromise r.function detail)) := by
  obtain ⟨h, a⟩ := t
  cases a with
  | resolve result =>
      cases htype : h.typeOf result with
      | error cause => exact Or.inl (undergo?_resolve_stop htype)
      | ok actual =>
          rw [undergo?_resolve htype, resolve?]
          cases hcheck : Ty.check r.returnType actual with
          | ok u => exact Or.inr (Or.inl ⟨h, result, actual, rfl, htype, hcheck, rfl⟩)
          | error m => exact Or.inr (Or.inr (Or.inl ⟨_, rfl⟩))
  | fail reason => exact Or.inr (Or.inr (Or.inl ⟨_, rfl⟩))
  | poison cause => exact Or.inr (Or.inr (Or.inr ⟨_, rfl⟩))

theorem undergo?_done (hdone : r.status ≠ .pending) (t : Trial) : r.undergo? t = some r := by
  rcases r.undergo?_cases t with hstop | ⟨_, _, _, _, _, _, hrun⟩ | ⟨_, hrun⟩ | ⟨_, hrun⟩
  · exact hstop
  · rw [hrun, complete?_done hdone]
  · rw [hrun, complete?_done hdone]
  · rw [hrun, complete?_done hdone]

theorem Coherent.weaken (hr : r.Coherent past) (t : Trial) : r.Coherent (t :: past) where
  pending := hr.pending
  resolved hstatus := by
    rcases hr.resolved hstatus with ⟨hclosed, herror, hresult, h, actual, hmem, htype⟩
    exact ⟨hclosed, herror, hresult, h, actual, List.mem_cons_of_mem t hmem, htype⟩
  failed := hr.failed
  poisoned := hr.poisoned

theorem Coherent.undergo? (hr : r.Coherent past) (t : Trial) :
    ∃ r', r.undergo? t = some r' ∧ r'.Coherent (t :: past) := by
  by_cases hstatus : r.status = .pending
  · -- the signal of a pending promise is open, so that it can be closed
    have hcomplete := complete?_pending hstatus (hr.pending hstatus).2.2
    rcases r.undergo?_cases t with hstop | ⟨h, result, actual, rfl, htype, hcheck, hrun⟩ |
      ⟨reason, hrun⟩ | ⟨detail, hrun⟩
    · exact ⟨r, hstop, hr.weaken t⟩
    · have hresult : result ≠ .absent := by
        rintro rfl
        rw [Heap.typeOf_absent] at htype
        cases htype
      exact ⟨_, hrun.trans (hcomplete _ _ _),
        { pending := fun h => nomatch h
          resolved := fun _ =>
            ⟨rfl, rfl, hresult, h, actual, List.mem_cons_self, htype, hcheck⟩
          failed := fun h => nomatch h
          poisoned := fun h => nomatch h }⟩
    · exact ⟨_, hrun.trans (hcomplete _ _ _),
        { pending := fun h => nomatch h
          resolved := fun h => nomatch h
          failed := fun _ => ⟨rfl, rfl, reason, rfl⟩
          poisoned := fun h => nomatch h }⟩
    · exact ⟨_, hrun.trans (hcomplete _ _ _),
        { pending := fun h => nomatch h
          resolved := fun h => nomatch h
          failed := fun h => nomatch h
          poisoned := fun _ => ⟨rfl, rfl, detail, rfl⟩ }⟩
  · exact ⟨r, undergo?_done hstatus t, hr.weaken t⟩

theorem Coherent.after? (hr : r.Coherent []) (past : List Trial) :
    ∃ r', r.after? past = some r' ∧ r'.Coherent past := by
  induction past with
  | nil => exact ⟨r, rfl, hr⟩
  | cons t past ih =>
      rcases ih with ⟨before, hbefore, hcoherent⟩
      rcases hcoherent.undergo? t with ⟨r', hundergo, hr'⟩
      refine ⟨r', ?_, hr'⟩
      show (r.after? past).bind (·.undergo? t) = some r'
      rw [hbefore]
      exact hundergo

end PromiseRecord

/-!
The state of a promise stands for these fields.
-/

namespace PromiseState

def status : PromiseState → PromiseStatus
  | .pending => .pending
  | .resolved _ => .resolved
  | .failed _ => .failed
  | .poisoned _ => .poisoned

def result : PromiseState → Value
  | .resolved result => result
  | _ => .absent

def error? : PromiseState → Option Error
  | .failed reason => some reason
  | .poisoned reason => some reason
  | _ => none

theorem status_eq_pending_iff {state : PromiseState} :
    state.status = .pending ↔ state.isDone = false := by
  cases state <;> simp [status, isDone]

end PromiseState

namespace Promise

variable {p : Promise}

def record (p : Promise) : PromiseRecord where
  function := p.function
  returnType := p.returnType
  status := p.state.status
  result := p.state.result
  error := p.state.error?
  closed := p.state.isDone

theorem complete?_record (p : Promise) (state : PromiseState) (hdone : state.isDone = true) :
    p.record.complete? state.status state.result state.error? = some (p.complete state).record := by
  cases hp : p.state.isDone with
  | true =>
      have hstatus : p.record.status ≠ .pending := by
        intro hpending
        rw [PromiseState.status_eq_pending_iff.mp hpending] at hp
        cases hp
      rw [PromiseRecord.complete?_done hstatus, complete_done hp]
  | false =>
      have hpending : p.record.status = .pending := PromiseState.status_eq_pending_iff.mpr hp
      have hcomplete : p.complete state = { p with state } := by
        unfold complete
        rw [hp]
        rfl
      rw [PromiseRecord.complete?_pending hpending hp, hcomplete, ← hdone]
      rfl

theorem undergo?_record (p : Promise) (t : Trial) :
    p.record.undergo? t = some (p.undergo t).record := by
  obtain ⟨h, a⟩ := t
  cases a with
  | resolve result =>
      cases htype : h.typeOf result with
      | error cause =>
          rw [undergo_none (outcome?_resolve_stop htype), PromiseRecord.undergo?_resolve_stop htype]
      | ok actual =>
          have hreturn : p.record.returnType = p.returnType := rfl
          rw [undergo_some (outcome?_resolve htype), PromiseRecord.undergo?_resolve htype,
            PromiseRecord.resolve?, resolvedState, hreturn]
          cases Ty.check p.returnType actual with
          | ok u => exact p.complete?_record (.resolved result) rfl
          | error m => exact p.complete?_record (.failed _) rfl
  | fail reason => exact p.complete?_record (p.failedState reason) rfl
  | poison cause => exact p.complete?_record (p.poisonedState cause) rfl

theorem after?_record (p : Promise) (past : List Trial) :
    p.record.after? past = some (p.after past).record := by
  induction past with
  | nil => rfl
  | cons t past ih =>
      show (p.record.after? past).bind (·.undergo? t) = some ((p.after past).undergo t).record
      rw [ih]
      exact undergo?_record _ t

theorem coherent_record (hpending : p.state = .pending) : p.record.Coherent [] := by
  unfold record
  rw [hpending]
  exact
    { pending := fun _ => ⟨rfl, rfl, rfl⟩
      resolved := fun hstatus => nomatch hstatus
      failed := fun hstatus => nomatch hstatus
      poisoned := fun hstatus => nomatch hstatus }

theorem coherent_after (hpending : p.state = .pending) (past : List Trial) :
    (p.after past).record.Coherent past := by
  rcases (coherent_record hpending).after? past with ⟨r, hafter, hr⟩
  rw [after?_record] at hafter
  cases hafter
  exact hr

end Promise

/-!
## Attempts in the world
-/

namespace World

open Promise

variable {w w' : World} {id : PromiseId} {p : Promise}

theorem run_promise (hp : w.heap.promises[id]? = some p) : (promise id).run w = (.ok p, w) := by
  unfold promise
  rw [Op.run_bind, Op.run_get, Op.next_ok, hp]
  rfl

theorem run_completePromise (hp : w.heap.promises[id]? = some p) (state : PromiseState) :
    (completePromise id state).run w =
      (.ok (), { w with heap := w.heap.setPromise id (p.complete state) }) := by
  unfold completePromise
  rw [Op.run_bind, run_promise hp, Op.next_ok, Op.run_modify]

theorem run_resolvePromise (hp : w.heap.promises[id]? = some p) {result : Value} {actual : Ty}
    (htype : w.heap.typeOf result = .ok actual) :
    (resolvePromise id result).run w =
      (.ok (), { w with
        heap := w.heap.setPromise id (p.complete (p.resolvedState result actual)) }) := by
  unfold resolvePromise
  rw [Op.run_bind, run_promise hp, Op.next_ok, Op.run_bind, run_typeOf htype, Op.next_ok,
    run_completePromise hp]

theorem run_resolvePromise_stop (hp : w.heap.promises[id]? = some p) {result : Value}
    {cause : Panic} (htype : w.heap.typeOf result = .error cause) :
    (resolvePromise id result).run w = (.error (.panic cause), w) := by
  unfold resolvePromise typeOf
  rw [Op.run_bind, run_promise hp, Op.next_ok, Op.run_bind, Op.run_look, htype]
  rfl

theorem run_failPromise (hp : w.heap.promises[id]? = some p) (reason : Error) :
    (failPromise id reason).run w =
      (.ok (), { w with heap := w.heap.setPromise id (p.complete (p.failedState reason)) }) := by
  unfold failPromise
  rw [Op.run_bind, run_promise hp, Op.next_ok, run_completePromise hp]

theorem run_poisonPromise (hp : w.heap.promises[id]? = some p) (cause : Panic) :
    ∃ lines, (poisonPromise id cause).run w =
      (.ok (), { w with
        heap := w.heap.setPromise id (p.complete (p.poisonedState cause)), lines }) := by
  rcases run_log w .error "spawned body panicked"
    [("function", .text p.function), ("promise", .text anonymous),
      ("panic", .text cause.report)] with ⟨lines, hlog⟩
  refine ⟨lines, ?_⟩
  unfold poisonPromise
  rw [Op.run_bind, run_promise hp, Op.next_ok, Op.run_bind, hlog, Op.next_ok]
  exact run_completePromise (w := { w with lines }) hp _

theorem promises_setPromise (hp : w.heap.promises[id]? = some p) (q : Promise) :
    (w.heap.setPromise id q).promises[id]? = some q := by
  have hid := (Array.getElem?_eq_some_iff.mp hp).1
  simp [Heap.setPromise, hid]

def attempt (id : PromiseId) : Attempt → Op Unit
  | .resolve result => resolvePromise id result
  | .fail reason => failPromise id reason
  | .poison cause => poisonPromise id cause

theorem promise_attempt (hp : w.heap.promises[id]? = some p) (a : Attempt) :
    ((attempt id a).run w).2.heap.promises[id]? = some (p.undergo (w.heap, a)) := by
  cases a with
  | resolve result =>
      cases htype : w.heap.typeOf result with
      | ok actual =>
          rw [attempt, run_resolvePromise hp htype, undergo_some (outcome?_resolve htype)]
          exact promises_setPromise hp _
      | error cause =>
          rw [attempt, run_resolvePromise_stop hp htype, undergo_none (outcome?_resolve_stop htype)]
          exact hp
  | fail reason =>
      rw [attempt, run_failPromise hp]
      exact promises_setPromise hp _
  | poison cause =>
      rcases run_poisonPromise hp cause with ⟨lines, hrun⟩
      rw [attempt, hrun]
      exact promises_setPromise hp _

/-!
The end of a body makes one attempt, and a second one if the first stops.
-/

theorem run_conclude_result (hp : w.heap.promises[id]? = some p) {result : Value} {actual : Ty}
    (htype : w.heap.typeOf (orUnit result) = .ok actual) :
    (concludePromise id (.ok result)).run w = (attempt id (.resolve (orUnit result))).run w := by
  unfold concludePromise
  rw [Op.run_tryCatch]
  simp only [attempt, run_resolvePromise hp htype]

theorem run_conclude_untyped (hp : w.heap.promises[id]? = some p) {result : Value} {cause : Panic}
    (htype : w.heap.typeOf (orUnit result) = .error cause) :
    (concludePromise id (.ok result)).run w = (attempt id (.poison cause)).run w := by
  unfold concludePromise
  rw [Op.run_tryCatch]
  simp only [attempt, run_resolvePromise_stop hp htype]

theorem run_conclude_error (hp : w.heap.promises[id]? = some p) (reason : Error) :
    (concludePromise id (.error (.error reason))).run w = (attempt id (.fail reason)).run w := by
  unfold concludePromise
  rw [Op.run_tryCatch]
  simp only [attempt, run_failPromise hp]

theorem run_conclude_panic (w : World) (id : PromiseId) (cause : Panic) :
    (concludePromise id (.error (.panic cause))).run w = (attempt id (.poison cause)).run w := by
  unfold concludePromise
  rw [Op.run_tryCatch]
  simp only [attempt, Op.run_stop]

/-- The attempts that have been made on a promise since it was made, the latest first, and the world
after them.  Anything that leaves the promise alone may happen in between. -/
inductive Attempted (id : PromiseId) (p : Promise) : List Trial → World → Prop where
  | made {w : World} (hp : w.heap.promises[id]? = some p) (hpending : p.state = .pending) :
      Attempted id p [] w
  | attempt {past : List Trial} {w : World} (hpast : Attempted id p past w) (a : Attempt) :
      Attempted id p ((w.heap, a) :: past) ((attempt id a).run w).2
  /-- Somebody has told the type of a result earlier, in another heap, and completes the promise
  only now. -/
  | late {past : List Trial} {w : World} (hpast : Attempted id p past w) (h : Heap)
      (result : Value) (actual : Ty) (htype : h.typeOf result = .ok actual) :
      Attempted id p ((h, .resolve result) :: past)
        ((completePromise id (p.resolvedState result actual)).run w).2
  | other {past : List Trial} {w w' : World} (hpast : Attempted id p past w)
      (hsame : w'.heap.promises[id]? = w.heap.promises[id]?) : Attempted id p past w'

variable {past : List Trial}

theorem Attempted.pending (hpast : Attempted id p past w) : p.state = .pending := by
  induction hpast with
  | made _ hpending => exact hpending
  | attempt _ _ ih => exact ih
  | late _ _ _ _ _ ih => exact ih
  | other _ _ ih => exact ih

theorem Attempted.promise (hpast : Attempted id p past w) :
    w.heap.promises[id]? = some (p.after past) := by
  induction hpast with
  | made hp _ => exact hp
  | attempt _ a ih => exact promise_attempt ih a
  | @late past w _ h result actual htype ih =>
      have hsame := p.after_signature past
      have houtcome : (p.after past).outcome? (h, .resolve result) =
          some (p.resolvedState result actual) := by
        rw [outcome?_congr hsame.1 hsame.2, outcome?_resolve htype]
      show _ = some ((p.after past).undergo (h, .resolve result))
      rw [run_completePromise ih, undergo_some houtcome]
      exact promises_setPromise ih _
  | other _ hsame ih => exact hsame.trans ih

theorem Attempted.conclude (hpast : Attempted id p past w) (outcome : Except Failure Value) :
    ∃ more, Attempted id p (more ++ past) ((concludePromise id outcome).run w).2 ∧
      (p.decided? (more ++ past)).isSome = true := by
  have hp := hpast.promise
  suffices hlast : ∃ t rest,
      Attempted id p (t :: rest ++ past) ((concludePromise id outcome).run w).2 ∧
        (p.outcome? t).isSome = true by
    rcases hlast with ⟨t, rest, hmore, houtcome⟩
    refine ⟨t :: rest, hmore, ?_⟩
    rw [List.cons_append, decided?_cons, Option.isSome_or, houtcome, Bool.or_true]
  cases outcome with
  | ok result =>
      cases htype : w.heap.typeOf (orUnit result) with
      | ok actual =>
          rw [run_conclude_result hp htype]
          refine ⟨(w.heap, .resolve (orUnit result)), [], hpast.attempt _, ?_⟩
          rw [outcome?_resolve htype]
          rfl
      | error cause =>
          rw [run_conclude_untyped hp htype]
          have hstopped := hpast.attempt (.resolve (orUnit result))
          rw [World.attempt, run_resolvePromise_stop hp htype] at hstopped
          exact ⟨(w.heap, .poison cause), [(w.heap, .resolve (orUnit result))],
            hstopped.attempt _, rfl⟩
  | error f =>
      cases f with
      | error reason =>
          rw [run_conclude_error hp]
          exact ⟨(w.heap, .fail reason), [], hpast.attempt _, rfl⟩
      | panic cause =>
          rw [run_conclude_panic]
          exact ⟨(w.heap, .poison cause), [], hpast.attempt _, rfl⟩

/-!
## What can be seen of a promise
-/

theorem run_awaitPromise? (hp : w.heap.promises[id]? = some p) :
    (awaitPromise? id).run w = (p.record.answer, w) := by
  unfold awaitPromise?
  rw [Op.run_bind, run_promise hp, Op.next_ok, PromiseRecord.answer, Promise.record]
  cases p.state <;> rfl

/-- Whatever attempts have been made on a promise: its state is what the first one came to that came
to a state, or it is pending.  The same attempts on the fields of the promise come to the fields of
this state and never close a closed signal.  Status, result, error and signal fit together, and give
what waiting for the promise gives.  Once the promise is complete no further attempts change
anything.  The end of a body consists of attempts that leave no promise pending. -/
theorem first_attempt_decides (hpast : Attempted id p past w) :
    ∃ q, w.heap.promises[id]? = some q ∧
      q.function = p.function ∧ q.returnType = p.returnType ∧
      q.state = (p.decided? past).getD .pending ∧
      p.record.after? past = some q.record ∧
      q.record.Coherent past ∧
      (awaitPromise? id).run w = (q.record.answer, w) ∧
      (q.record.status ≠ .pending → ∀ more w', Attempted id p (more ++ past) w' →
        w'.heap.promises[id]? = some q ∧ p.record.after? (more ++ past) = some q.record ∧
          (awaitPromise? id).run w' = (q.record.answer, w')) ∧
      (∀ outcome, ∃ more, Attempted id p (more ++ past) ((concludePromise id outcome).run w).2 ∧
        (p.decided? (more ++ past)).isSome = true) := by
  have hpending := hpast.pending
  have hsame := p.after_signature past
  refine ⟨p.after past, hpast.promise, hsame.1, hsame.2, state_after hpending past,
    after?_record p past, coherent_after hpending past, run_awaitPromise? hpast.promise, ?_,
    hpast.conclude⟩
  intro hstatus more w' hmore
  have hdone : (p.after past).state.isDone = true := by
    rw [← Bool.not_eq_false, ← PromiseState.status_eq_pending_iff]
    exact hstatus
  have hafter : p.after (more ++ past) = p.after past := by
    rw [after_append, after_done hdone]
  have hp' := hmore.promise
  rw [hafter] at hp'
  refine ⟨hp', ?_, run_awaitPromise? hp'⟩
  rw [after?_record, hafter]

def awaitingInt : World where
  heap := { promises := #[{ function := "f", returnType := .int, state := .pending }] }

/-- No value comes to nothing, a result of another type fails the promise, and the right result
comes too late. -/
theorem late_result_changes_nothing :
    ∃ past w q, Attempted 0 { function := "f", returnType := .int, state := .pending } past w ∧
      past.length = 3 ∧ w.heap.promises[0]? = some q ∧
      q.state.text = "failed" := by
  have hmade : Attempted 0 { function := "f", returnType := .int, state := .pending } []
      awaitingInt := .made rfl rfl
  have hpast := ((hmade.attempt (.resolve .absent)).attempt (.resolve (.bool true))).attempt
    (.resolve (.int 1))
  rcases first_attempt_decides hpast with ⟨q, hq, _, _, hstate, _⟩
  refine ⟨_, _, q, hpast, rfl, hq, ?_⟩
  rw [hstate]
  rfl

end World
end ScriptCore
