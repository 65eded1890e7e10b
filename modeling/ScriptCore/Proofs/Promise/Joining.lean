import Mathlib.Algebra.GroupWithZero.Nat
import Mathlib.Data.List.Forall2
import Mathlib.Logic.Relation
import ScriptCore.Proofs.Promise.Completion
import ScriptCore.Proofs.World.Looking

/-!
# Joining promises in any order

Whoever waits for several promises starts one waiter for each of them.  The
waiters run at the same time, and the promises end when they end.  A waiter
comes back with the result of its promise or with an error.  The first error is
kept, and only after that the whole group is cancelled, so that waiters may come
back because of the cancellation.  When all are back the join gives the kept
error, or else the results.

However all this is mixed, the kept error is that of a promise, and without one
all promises are resolved.
-/

namespace ScriptCore
namespace World

variable {w w' : World} {id : PromiseId} {ids : List PromiseId} {p : Promise} {v v' : Value}
  {e : Error} {r : Except Error (List Value)}

/-!
## Ends of promises
-/

def Finished (w : World) (id : PromiseId) : Prop :=
  ∃ p, w.heap.promises[id]? = some p ∧ p.state.isDone = true

def Resolved (w : World) (id : PromiseId) (v : Value) : Prop :=
  ∃ p, w.heap.promises[id]? = some p ∧ p.state = .resolved v

def Broken (w : World) (id : PromiseId) (e : Error) : Prop :=
  ∃ p, w.heap.promises[id]? = some p ∧ (p.state = .failed e ∨ p.state = .poisoned e)

def Upholds (w w' : World) : Prop :=
  ∀ (id : PromiseId) (p : Promise), w.heap.promises[id]? = some p → p.state.isDone = true →
    w'.heap.promises[id]? = some p

theorem Resolved.upheld (hup : w.Upholds w') (hresolved : w.Resolved id v) : w'.Resolved id v := by
  rcases hresolved with ⟨p, hp, hstate⟩
  refine ⟨p, hup id p hp ?_, hstate⟩
  rw [hstate]
  rfl

theorem Broken.upheld (hup : w.Upholds w') (hbroken : w.Broken id e) : w'.Broken id e := by
  rcases hbroken with ⟨p, hp, hstate⟩
  refine ⟨p, hup id p hp ?_, hstate⟩
  rcases hstate with hstate | hstate
  · rw [hstate]
    rfl
  · rw [hstate]
    rfl

theorem Resolved.unique (hv : w.Resolved id v) (hv' : w.Resolved id v') : v = v' := by
  rcases hv with ⟨p, hp, hstate⟩
  rcases hv' with ⟨p', hp', hstate'⟩
  rw [hp] at hp'
  cases hp'
  rw [hstate] at hstate'
  cases hstate'
  rfl

theorem Broken.not_resolved (hbroken : w.Broken id e) : ¬ w.Resolved id v := by
  rintro ⟨p, hp, hresolved⟩
  rcases hbroken with ⟨p', hp', hstate⟩
  rw [hp] at hp'
  cases hp'
  rw [hresolved] at hstate
  rcases hstate with hstate | hstate <;> cases hstate

theorem run_await_resolved (hresolved : w.Resolved id v) :
    (awaitPromise? id).run w = (.ok (some v), w) := by
  rcases hresolved with ⟨p, hp, hstate⟩
  rw [run_awaitPromise? hp, Promise.record, hstate]
  rfl

theorem run_await_broken (hbroken : w.Broken id e) :
    (awaitPromise? id).run w = (.error (.error e), w) := by
  rcases hbroken with ⟨p, hp, hstate | hstate⟩
  · rw [run_awaitPromise? hp, Promise.record, hstate]
    rfl
  · rw [run_awaitPromise? hp, Promise.record, hstate]
    rfl

theorem Finished.cases (hfinished : w.Finished id) :
    (∃ v, w.Resolved id v) ∨ ∃ e, w.Broken id e := by
  rcases hfinished with ⟨p, hp, hdone⟩
  cases hstate : p.state with
  | pending =>
      rw [hstate] at hdone
      cases hdone
  | resolved v => exact Or.inl ⟨v, p, hp, hstate⟩
  | failed e => exact Or.inr ⟨e, p, hp, Or.inl hstate⟩
  | poisoned e => exact Or.inr ⟨e, p, hp, Or.inr hstate⟩

theorem resolved_of_await (hfinished : w.Finished id)
    (hawait : (awaitPromise? id).run w = (.ok (some v), w)) : w.Resolved id v := by
  rcases hfinished.cases with ⟨v', hresolved⟩ | ⟨e, hbroken⟩
  · rw [run_await_resolved hresolved] at hawait
    cases hawait
    exact hresolved
  · rw [run_await_broken hbroken] at hawait
    cases hawait

theorem broken_of_await (hfinished : w.Finished id)
    (hawait : (awaitPromise? id).run w = (.error (.error e), w)) : w.Broken id e := by
  rcases hfinished.cases with ⟨v, hresolved⟩ | ⟨e', hbroken⟩
  · rw [run_await_resolved hresolved] at hawait
    cases hawait
  · rw [run_await_broken hbroken] at hawait
    cases hawait
    exact hbroken

/-!
A promise that ends leaves those that are done alone.
-/

theorem upholds_completePromise (w : World) (id : PromiseId) (state : PromiseState) :
    Op.Keeps w.Upholds (completePromise id state) := by
  intro w₁ r w' hup hrun
  unfold completePromise promise at hrun
  rw [Op.run_bind, Op.run_bind, Op.run_get, Op.next_ok] at hrun
  cases hp : w₁.heap.promises[id]? with
  | none =>
      rw [hp] at hrun
      cases hrun
      exact hup
  | some p =>
      rw [hp] at hrun
      cases hrun
      intro other q hq hdone
      have hq₁ := hup other q hq hdone
      by_cases hother : other = id
      · subst hother
        rw [hp] at hq₁
        cases hq₁
        rw [Promise.complete_done hdone]
        exact promises_setPromise hp p
      · change (w₁.heap.promises.setIfInBounds id _)[other]? = some q
        rw [Array.getElem?_setIfInBounds_ne (Ne.symm hother)]
        exact hq₁

theorem upholds_log (w : World) (level : Log.Level) (message : String)
    (attrs : List (String × Log.AttrValue)) : Op.Keeps w.Upholds (log level message attrs) := by
  intro w₁ r w' hup hrun
  rcases run_log w₁ level message attrs with ⟨lines, hlog⟩
  rw [hlog] at hrun
  cases hrun
  exact hup

theorem upholds_concludePromise (w : World) (id : PromiseId) (outcome : Except Failure Value) :
    Op.Keeps w.Upholds (concludePromise id outcome) := by
  apply Op.Keeps.tryCatch
  · cases outcome with
    | ok result =>
        refine (keeps_promise id).bind fun p => (keeps_typeOf _).bind fun actual => ?_
        exact w.upholds_completePromise id _
    | error f =>
        cases f with
        | error e => exact (keeps_promise id).bind fun p => w.upholds_completePromise id _
        | panic cause => exact Op.keeps_stop cause
  · intro f
    cases f with
    | error e => exact Op.keeps_fail e
    | panic cause =>
        refine (keeps_promise id).bind fun p => ?_
        exact (w.upholds_log _ _ _).bind fun _ => w.upholds_completePromise id _

/-!
## Answers
-/

/-- What may come of a join: the results of all promises in their order, or the error of one. -/
def Answers (w : World) (ids : List PromiseId) : Except Error (List Value) → Prop
  | .ok vs => List.Forall₂ w.Resolved ids vs
  | .error e => ∃ id ∈ ids, w.Broken id e

theorem mem_of_forall₂ {vs : List Value} (hall : List.Forall₂ w.Resolved ids vs)
    (hid : id ∈ ids) : ∃ v, w.Resolved id v := by
  induction hall with
  | nil => cases hid
  | @cons first v rest vs hfirst _ ih =>
      cases hid with
      | head => exact ⟨v, hfirst⟩
      | tail _ hid => exact ih hid

theorem Answers.isOk_iff (hanswers : w.Answers ids r) :
    (∃ vs, r = .ok vs) ↔ ∀ id ∈ ids, ∃ v, w.Resolved id v := by
  cases r with
  | ok vs =>
      constructor
      · intro _ id hid
        exact mem_of_forall₂ hanswers hid
      · intro _
        exact ⟨vs, rfl⟩
  | error e =>
      rcases hanswers with ⟨id, hid, hbroken⟩
      constructor
      · rintro ⟨vs, hok⟩
        cases hok
      · intro hall
        rcases hall id hid with ⟨v, hresolved⟩
        exact absurd hresolved hbroken.not_resolved

theorem results_unique {vs vs' : List Value} (hvs : List.Forall₂ w.Resolved ids vs)
    (hvs' : List.Forall₂ w.Resolved ids vs') : vs = vs' := by
  induction hvs generalizing vs' with
  | nil =>
      cases hvs'
      rfl
  | cons hfirst _ ih =>
      cases hvs' with
      | cons hfirst' hrest' => rw [hfirst.unique hfirst', ih hrest']

theorem run_states (hids : ∀ id ∈ ids, w.Finished id) :
    ∃ states, (ids.mapM fun id => do return (← promise id).state : Op _).run w = (.ok states, w) ∧
      List.Forall₂ (fun id s => ∃ p, w.heap.promises[id]? = some p ∧ p.state = s) ids states := by
  induction ids with
  | nil => exact ⟨[], rfl, .nil⟩
  | cons id rest ih =>
      rcases hids id List.mem_cons_self with ⟨p, hp, _⟩
      rcases ih fun other hother => hids other (List.mem_cons_of_mem id hother) with
        ⟨states, hrun, hstates⟩
      refine ⟨p.state :: states, ?_, .cons ⟨p, hp, rfl⟩ hstates⟩
      rw [List.mapM_cons, Op.run_bind, Op.run_bind, run_promise hp, Op.next_ok, Op.run_pure,
        Op.next_ok, Op.run_bind, hrun, Op.next_ok]
      rfl

theorem states_cases {states : List PromiseState} (hids : ∀ id ∈ ids, w.Finished id)
    (hstates :
      List.Forall₂ (fun id s => ∃ p, w.heap.promises[id]? = some p ∧ p.state = s) ids states) :
    (∃ e, firstError? states = some e ∧ ∃ id ∈ ids, w.Broken id e) ∨
      ∃ vs, firstError? states = none ∧ results? states = some vs ∧
        List.Forall₂ w.Resolved ids vs := by
  induction hstates with
  | nil => exact Or.inr ⟨[], rfl, rfl, .nil⟩
  | @cons id s rest states hfirst _ ih =>
      rcases hfirst with ⟨p, hp, rfl⟩
      have hrest := ih fun other hother => hids other (List.mem_cons_of_mem id hother)
      rcases (hids id List.mem_cons_self).cases with ⟨v, hresolved⟩ | ⟨e, hbroken⟩
      · rcases hresolved with ⟨p', hp', hstate⟩
        rw [hp] at hp'
        cases hp'
        rcases hrest with ⟨e, herror, other, hother, hbroken⟩ | ⟨vs, hnone, hresults, hall⟩
        · refine Or.inl ⟨e, ?_, other, List.mem_cons_of_mem id hother, hbroken⟩
          rw [hstate]
          exact herror
        · refine Or.inr ⟨v :: vs, ?_, ?_, .cons ⟨p, hp, hstate⟩ hall⟩
          · rw [hstate]
            exact hnone
          · rw [hstate]
            unfold results? at hresults ⊢
            rw [List.mapM_cons, hresults]
            rfl
      · refine Or.inl ⟨e, ?_, id, List.mem_cons_self, hbroken⟩
        rcases hbroken with ⟨p', hp', hstate⟩
        rw [hp] at hp'
        cases hp'
        rcases hstate with hstate | hstate
        · rw [hstate]
          rfl
        · rw [hstate]
          rfl

theorem run_awaitAll? (hids : ∀ id ∈ ids, w.Finished id) :
    ∃ r : Except Error (List Value), w.Answers ids r ∧
      (awaitAll? ids false).run w = ((r.map some).mapError .error, w) := by
  rcases run_states hids with ⟨states, hrun, hstates⟩
  rcases states_cases hids hstates with ⟨e, herror, hbroken⟩ | ⟨vs, hnone, hresults, hall⟩
  · refine ⟨.error e, hbroken, ?_⟩
    unfold awaitAll?
    rw [Op.run_bind, hrun, Op.next_ok, herror]
    rfl
  · refine ⟨.ok vs, hall, ?_⟩
    unfold awaitAll?
    rw [Op.run_bind, hrun, Op.next_ok, hnone, hresults]
    rfl

end World

/-!
## Waiters
-/

namespace Join

/-- Why a waiter comes back without a result: its promise is broken, or the group is cancelled. -/
inductive Cause where
  | broken (reason : Error)
  | cancelled

def Cause.error : Cause → Error
  | .broken reason => reason
  | .cancelled => .cancelled

inductive Stage where
  /-- It waits for the end of its promise or for the cancellation of the group. -/
  | waiting
  | released
  | leaving (cause : Cause)
  /-- Its error has been kept, and it is about to cancel the group. -/
  | cancelling
  | gone

/-- The waiter for a promise, with its place in the list of results. -/
structure Waiter where
  promise : PromiseId
  stage : Stage := .waiting
  slot : Value := .absent

structure Record where
  kept : Option Cause := none
  isCancelled : Bool := false

/-- One step of a waiter.  Where its promise is done and the group is cancelled it may see either of
them. -/
inductive Advance (w : World) (k : Record) (x : Waiter) : Record → Waiter → Prop where
  | release (hstage : x.stage = .waiting) (hfinished : w.Finished x.promise) :
      Advance w k x k { x with stage := .released }
  | abandon (hstage : x.stage = .waiting) (hcancelled : k.isCancelled = true) :
      Advance w k x k { x with stage := .leaving .cancelled }
  | collect {v : Value} (hstage : x.stage = .released)
      (hawait : (World.awaitPromise? x.promise).run w = (.ok (some v), w)) :
      Advance w k x k { x with stage := .gone, slot := v }
  | stumble {e : Error} (hstage : x.stage = .released)
      (hawait : (World.awaitPromise? x.promise).run w = (.error (.error e), w)) :
      Advance w k x k { x with stage := .leaving (.broken e) }
  | report {c : Cause} (hstage : x.stage = .leaving c) (hfirst : k.kept = none) :
      Advance w k x { k with kept := some c } { x with stage := .cancelling }
  | pass {c : Cause} (hstage : x.stage = .leaving c) (hlate : k.kept ≠ none) :
      Advance w k x k { x with stage := .gone }
  | cancel (hstage : x.stage = .cancelling) :
      Advance w k x { k with isCancelled := true } { x with stage := .gone }

def Stage.ahead : Stage → Nat
  | .waiting => 4
  | .released => 3
  | .leaving _ => 2
  | .cancelling => 1
  | .gone => 0

/-- What is true of a waiter in each of its stages.  A waiter that is gone has put down the result
of its promise, unless an error has been kept. -/
def Waiter.Upright (w : World) (k : Record) (x : Waiter) : Prop :=
  match x.stage with
  | .waiting => True
  | .released => w.Finished x.promise
  | .leaving (.broken e) => w.Broken x.promise e
  | .leaving .cancelled => k.kept ≠ none
  | .cancelling => k.kept ≠ none
  | .gone => k.kept = none → w.Resolved x.promise x.slot

section

variable {w w' : World} {k k' : Record} {x x' : Waiter}

theorem Advance.promise (hadvance : Advance w k x k' x') : x'.promise = x.promise := by
  cases hadvance <;> rfl

theorem Advance.ahead_lt (hadvance : Advance w k x k' x') : x'.stage.ahead < x.stage.ahead := by
  cases hadvance with
  | release hstage _ => rw [hstage]; exact (by decide : 3 < 4)
  | abandon hstage _ => rw [hstage]; exact (by decide : 2 < 4)
  | collect hstage _ => rw [hstage]; exact (by decide : 0 < 3)
  | stumble hstage _ => rw [hstage]; exact (by decide : 2 < 3)
  | report hstage _ => rw [hstage]; exact (by decide : 1 < 2)
  | pass hstage _ => rw [hstage]; exact (by decide : 0 < 2)
  | cancel hstage => rw [hstage]; exact (by decide : 0 < 1)

theorem Advance.kept (hadvance : Advance w k x k' x') {c : Cause} (hkept : k.kept = some c) :
    k'.kept = some c := by
  cases hadvance with
  | report _ hfirst =>
      rw [hkept] at hfirst
      cases hfirst
  | _ => exact hkept

namespace Waiter.Upright

theorem recorded (hx : x.Upright w k) (hkept : k.kept ≠ none → k'.kept ≠ none) :
    x.Upright w k' := by
  unfold Upright at hx ⊢
  split at hx
  · trivial
  · exact hx
  · exact hx
  · exact hkept hx
  · exact hkept hx
  · intro hnone
    apply hx
    by_contra hsome
    exact hkept hsome hnone

theorem upheld (hx : x.Upright w k) (hup : w.Upholds w') : x.Upright w' k := by
  unfold Upright at hx ⊢
  split at hx
  · trivial
  · rcases hx with ⟨p, hp, hdone⟩
    exact ⟨p, hup _ p hp hdone, hdone⟩
  · exact hx.upheld hup
  · exact hx
  · exact hx
  · exact fun hnone => (hx hnone).upheld hup

theorem finished (hx : x.Upright w k) (hstage : x.stage = .released) : w.Finished x.promise := by
  unfold Upright at hx
  rw [hstage] at hx
  exact hx

theorem kept (hx : x.Upright w k) (hstage : x.stage = .cancelling) : k.kept ≠ none := by
  unfold Upright at hx
  rw [hstage] at hx
  exact hx

theorem resolved (hx : x.Upright w k) (hstage : x.stage = .gone) (hnone : k.kept = none) :
    w.Resolved x.promise x.slot := by
  unfold Upright at hx
  rw [hstage] at hx
  exact hx hnone

/-- The first error to be kept is that of a promise: the group is cancelled only after that. -/
theorem cause (hx : x.Upright w k) {c : Cause} (hstage : x.stage = .leaving c)
    (hfirst : k.kept = none) : ∃ e, c = .broken e ∧ w.Broken x.promise e := by
  unfold Upright at hx
  rw [hstage] at hx
  cases c with
  | broken e => exact ⟨e, rfl, hx⟩
  | cancelled => exact absurd hfirst hx

theorem advance (hx : x.Upright w k) (hcancelled : k.isCancelled = true → k.kept ≠ none)
    (hadvance : Advance w k x k' x') : x'.Upright w k' := by
  cases hadvance with
  | release _ hfinished => exact hfinished
  | abandon _ h => exact hcancelled h
  | collect hstage hawait => exact fun _ => World.resolved_of_await (hx.finished hstage) hawait
  | stumble hstage hawait => exact World.broken_of_await (hx.finished hstage) hawait
  | report _ _ => exact Option.some_ne_none _
  | pass _ hlate => exact fun hnone => absurd hnone hlate
  | cancel hstage => exact fun hnone => absurd hnone (hx.kept hstage)

end Waiter.Upright

theorem Waiter.exists_advance (k : Record) (hfinished : w.Finished x.promise)
    (hstage : x.stage ≠ .gone) : ∃ k' x', Advance w k x k' x' := by
  cases hat : x.stage with
  | waiting => exact ⟨_, _, .release hat hfinished⟩
  | released =>
      rcases hfinished.cases with ⟨v, hresolved⟩ | ⟨e, hbroken⟩
      · exact ⟨_, _, .collect hat (World.run_await_resolved hresolved)⟩
      · exact ⟨_, _, .stumble hat (World.run_await_broken hbroken)⟩
  | leaving c =>
      by_cases hkept : k.kept = none
      · exact ⟨_, _, .report hat hkept⟩
      · exact ⟨_, _, .pass hat hkept⟩
  | cancelling => exact ⟨_, _, .cancel hat⟩
  | gone => exact absurd hat hstage

end

/-!
## Groups
-/

structure Group where
  waiters : List Waiter
  record : Record := {}
  world : World

namespace Group

def start (ids : List PromiseId) (world : World) : Group where
  waiters := ids.map fun id => { promise := id }
  world

inductive Moves (g : Group) : Group → Prop where
  | move {before after : List Waiter} {x x' : Waiter} {k : Record}
      (hwaiters : g.waiters = before ++ x :: after) (hadvance : Advance g.world g.record x k x') :
      Moves g { g with waiters := before ++ x' :: after, record := k }

/-- One of the waiters makes a step, or something happens in the world: promises end, or anything
else that leaves the promises alone which are done. -/
inductive Step (g : Group) : Group → Prop where
  | move {g' : Group} (hmoves : g.Moves g') : Step g g'
  | act (world : World) (hup : g.world.Upholds world) : Step g { g with world }

def Runs : Group → Group → Prop :=
  Relation.ReflTransGen Step

/-- Any number of steps of the waiters, while nothing else happens. -/
def MovesOn : Group → Group → Prop :=
  Relation.ReflTransGen Moves

def outcome? (g : Group) : Option (Except Error (List Value)) :=
  if g.waiters.all fun x => x.stage.ahead == 0 then
    some <|
      match g.record.kept with
      | some cause => .error cause.error
      | none => .ok (g.waiters.map Waiter.slot)
  else none

def ahead (g : Group) : Nat :=
  (g.waiters.map fun x => x.stage.ahead).sum

variable {ids : List PromiseId} {g g' : Group} {c : Cause} {r : Except Error (List Value)}

theorem gone_of_ahead {x : Waiter} (hahead : x.stage.ahead = 0) : x.stage = .gone := by
  cases hstage : x.stage with
  | gone => rfl
  | _ => rw [hstage] at hahead; cases hahead

theorem outcome?_cases (houtcome : g.outcome? = some r) :
    (∀ x ∈ g.waiters, x.stage = .gone) ∧
      ((∃ c, g.record.kept = some c ∧ r = .error c.error) ∨
        g.record.kept = none ∧ r = .ok (g.waiters.map Waiter.slot)) := by
  unfold outcome? at houtcome
  split at houtcome
  · next hall =>
      refine ⟨fun x hx => gone_of_ahead (by simpa using List.all_eq_true.mp hall x hx), ?_⟩
      cases hkept : g.record.kept with
      | some c =>
          rw [hkept] at houtcome
          exact Or.inl ⟨c, rfl, (Option.some.inj houtcome).symm⟩
      | none =>
          rw [hkept] at houtcome
          exact Or.inr ⟨rfl, (Option.some.inj houtcome).symm⟩
  · cases houtcome

theorem exists_of_outcome?_none (hnone : g.outcome? = none) :
    ∃ x ∈ g.waiters, x.stage ≠ .gone := by
  by_contra hno
  push Not at hno
  have hall : (g.waiters.all fun x => x.stage.ahead == 0) = true := by
    rw [List.all_eq_true]
    intro x hx
    rw [hno x hx]
    rfl
  unfold outcome? at hnone
  rw [if_pos hall] at hnone
  cases hnone

theorem Moves.world (hmoves : g.Moves g') : g'.world = g.world := by
  cases hmoves
  rfl

theorem Moves.ahead_lt (hmoves : g.Moves g') : g'.ahead < g.ahead := by
  cases hmoves with
  | @move before after x x' k hwaiters hadvance =>
      have hless := hadvance.ahead_lt
      unfold ahead
      rw [hwaiters]
      simp only [List.map_append, List.map_cons, List.sum_append, List.sum_cons]
      omega

theorem Moves.kept (hmoves : g.Moves g') (hkept : g.record.kept = some c) :
    g'.record.kept = some c := by
  cases hmoves with
  | move _ hadvance => exact hadvance.kept hkept

structure Sound (ids : List PromiseId) (g : Group) : Prop where
  promises : g.waiters.map Waiter.promise = ids
  cancelled : g.record.isCancelled = true → g.record.kept ≠ none
  kept : ∀ c, g.record.kept = some c →
    ∃ e, c = .broken e ∧ ∃ id ∈ ids, g.world.Broken id e
  upright : ∀ x ∈ g.waiters, x.Upright g.world g.record

theorem sound_start (ids : List PromiseId) (w : World) : (start ids w).Sound ids where
  promises := by
    unfold start
    rw [List.map_map]
    exact List.map_id ids
  cancelled := nofun
  kept := nofun
  upright := by
    intro x hx
    rcases List.mem_map.mp hx with ⟨id, _, rfl⟩
    trivial

namespace Sound

theorem move (h : g.Sound ids) (hmoves : g.Moves g') : g'.Sound ids := by
  cases hmoves with
  | @move before after x x' k hwaiters hadvance =>
      have hx : x ∈ g.waiters := by
        rw [hwaiters]
        exact List.mem_append_right before List.mem_cons_self
      have hmono : g.record.kept ≠ none → k.kept ≠ none := by
        intro hkept
        rcases Option.ne_none_iff_exists'.mp hkept with ⟨c, hc⟩
        rw [hadvance.kept hc]
        exact nofun
      have hid : x.promise ∈ ids := by
        rw [← h.promises]
        exact List.mem_map_of_mem hx
      constructor
      · have hpromises := h.promises
        rw [hwaiters, List.map_append, List.map_cons] at hpromises
        rw [List.map_append, List.map_cons, hadvance.promise]
        exact hpromises
      · cases hadvance with
        | report _ _ => exact fun _ => Option.some_ne_none _
        | cancel hstage => exact fun _ => (h.upright x hx).kept hstage
        | _ => exact h.cancelled
      · intro c hc
        cases hadvance with
        | report hstage hfirst =>
            cases hc
            rcases (h.upright x hx).cause hstage hfirst with ⟨e, rfl, hbroken⟩
            exact ⟨e, rfl, x.promise, hid, hbroken⟩
        | _ => exact h.kept c hc
      · intro y hy
        rcases List.mem_append.mp hy with hy | hy
        · refine (h.upright y ?_).recorded hmono
          rw [hwaiters]
          exact List.mem_append_left _ hy
        · cases hy with
          | head => exact (h.upright x hx).advance h.cancelled hadvance
          | tail _ hy =>
              refine (h.upright y ?_).recorded hmono
              rw [hwaiters]
              exact List.mem_append_right before (List.mem_cons_of_mem x hy)

theorem act (h : g.Sound ids) {w : World} (hup : g.world.Upholds w) :
    Sound ids { g with world := w } where
  promises := h.promises
  cancelled := h.cancelled
  kept := by
    intro c hc
    rcases h.kept c hc with ⟨e, rfl, id, hid, hbroken⟩
    exact ⟨e, rfl, id, hid, hbroken.upheld hup⟩
  upright := fun x hx => (h.upright x hx).upheld hup

theorem step (h : g.Sound ids) (hstep : g.Step g') : g'.Sound ids := by
  cases hstep with
  | move hmoves => exact h.move hmoves
  | act world hup => exact h.act hup

theorem runs (h : g.Sound ids) (hruns : g.Runs g') : g'.Sound ids := by
  induction hruns with
  | refl => exact h
  | tail _ hstep ih => exact ih.step hstep

theorem answers (h : g.Sound ids) (houtcome : g.outcome? = some r) :
    g.world.Answers ids r ∧ g.record.kept ≠ some .cancelled := by
  rcases outcome?_cases houtcome with ⟨hgone, ⟨c, hkept, rfl⟩ | ⟨hnone, rfl⟩⟩
  · rcases h.kept c hkept with ⟨e, rfl, hbroken⟩
    refine ⟨hbroken, ?_⟩
    rw [hkept]
    exact nofun
  · refine ⟨?_, hnone ▸ nofun⟩
    show List.Forall₂ g.world.Resolved ids (g.waiters.map Waiter.slot)
    rw [← h.promises, List.forall₂_map_left_iff, List.forall₂_map_right_iff, List.forall₂_same]
    intro x hx
    exact (h.upright x hx).resolved (hgone x hx) hnone

theorem exists_move (h : g.Sound ids) (hids : ∀ id ∈ ids, g.world.Finished id)
    (hnone : g.outcome? = none) : ∃ g', g.Moves g' := by
  rcases exists_of_outcome?_none hnone with ⟨x, hx, hstage⟩
  have hid : x.promise ∈ ids := by
    rw [← h.promises]
    exact List.mem_map_of_mem hx
  rcases List.append_of_mem hx with ⟨before, after, hwaiters⟩
  rcases Waiter.exists_advance g.record (hids _ hid) hstage with ⟨k, x', hadvance⟩
  exact ⟨_, .move hwaiters hadvance⟩

theorem finishes (h : g.Sound ids) (hids : ∀ id ∈ ids, g.world.Finished id) :
    ∃ g' r, MovesOn g g' ∧ g'.outcome? = some r ∧
      ∀ c, g.record.kept = some c → g'.record.kept = some c := by
  induction hn : g.ahead using Nat.strongRecOn generalizing g with
  | ind n ih =>
      cases houtcome : g.outcome? with
      | some r => exact ⟨g, r, .refl, houtcome, fun _ hkept => hkept⟩
      | none =>
          rcases h.exists_move hids houtcome with ⟨g₁, hmoves⟩
          have hids₁ : ∀ id ∈ ids, g₁.world.Finished id := by
            rw [hmoves.world]
            exact hids
          rcases ih _ (hn ▸ hmoves.ahead_lt) (h.move hmoves) hids₁ rfl with
            ⟨g', r, hon, hend, hkept⟩
          exact ⟨g', r, .head hmoves hon, hend, fun c hc => hkept c (hmoves.kept hc)⟩

end Sound

theorem MovesOn.runs (hon : MovesOn g g') : g.Runs g' :=
  Relation.ReflTransGen.mono (fun _ _ => Step.move) _ _ hon

theorem MovesOn.world (hon : MovesOn g g') : g'.world = g.world := by
  induction hon with
  | refl => rfl
  | tail _ hmoves ih => rw [hmoves.world, ih]

theorem moves_at {w : World} {k k' : Record} {x x' : Waiter} (before after : List Waiter)
    (hadvance : Advance w k x k' x') :
    Moves { waiters := before ++ x :: after, record := k, world := w }
      { waiters := before ++ x' :: after, record := k', world := w } :=
  .move rfl hadvance

theorem keeps_first {w : World} (before after : List PromiseId) {id : PromiseId} {e : Error}
    (hbroken : w.Broken id e) :
    ∃ g, MovesOn (start (before ++ id :: after) w) g ∧ g.record.kept = some (.broken e) := by
  have hfinished : w.Finished id := by
    rcases hbroken with ⟨p, hp, hstate | hstate⟩
    · exact ⟨p, hp, by rw [hstate]; rfl⟩
    · exact ⟨p, hp, by rw [hstate]; rfl⟩
  have hstart : start (before ++ id :: after) w =
      { waiters := (start before w).waiters ++ { promise := id } :: (start after w).waiters
        world := w } :=
    congrArg (fun waiters => ({ waiters, world := w } : Group)) List.map_append
  rw [hstart]
  have hreleased := moves_at (start before w).waiters (start after w).waiters
    (.release (k := {}) (x := { promise := id }) rfl hfinished)
  have hleaving := moves_at (start before w).waiters (start after w).waiters
    (.stumble (k := {}) (x := { promise := id, stage := .released }) rfl
      (World.run_await_broken hbroken))
  have hkept := moves_at (w := w) (start before w).waiters (start after w).waiters
    (.report (k := {}) (x := { promise := id, stage := .leaving (.broken e) }) rfl rfl)
  exact ⟨_, ((Relation.ReflTransGen.single hreleased).tail hleaving).tail hkept, rfl⟩

theorem exists_order {w : World} (hids : ∀ id ∈ ids, w.Finished id) (hanswers : w.Answers ids r) :
    ∃ g, MovesOn (start ids w) g ∧ g.outcome? = some r := by
  have hstart := sound_start ids w
  cases r with
  | ok vs =>
      rcases hstart.finishes hids with ⟨g, r, hon, houtcome, _⟩
      have hanswers' := ((hstart.runs hon.runs).answers houtcome).1
      rw [hon.world] at hanswers'
      rcases hanswers'.isOk_iff.mpr (hanswers.isOk_iff.mp ⟨vs, rfl⟩) with ⟨vs', rfl⟩
      rw [World.results_unique hanswers hanswers']
      exact ⟨g, hon, houtcome⟩
  | error e =>
      rcases hanswers with ⟨id, hid, hbroken⟩
      rcases List.append_of_mem hid with ⟨before, after, rfl⟩
      rcases keeps_first before after hbroken with ⟨g₁, hon₁, hkept₁⟩
      have hids₁ : ∀ other ∈ before ++ id :: after, g₁.world.Finished other := by
        rw [hon₁.world]
        exact hids
      rcases (hstart.runs hon₁.runs).finishes hids₁ with ⟨g, r, hon, houtcome, hkept⟩
      refine ⟨g, hon₁.trans hon, ?_⟩
      rcases outcome?_cases houtcome with ⟨_, ⟨c, hc, rfl⟩ | ⟨hnone, _⟩⟩
      · rw [hkept _ hkept₁] at hc
        cases hc
        exact houtcome
      · rw [hkept _ hkept₁] at hnone
        cases hnone

/-- However the steps of the waiters and the ends of the promises are mixed: what comes of the join
are the results of all promises in their order if all of them are resolved, and else the error of
one that failed or is poisoned, and never the cancellation of the group.  Once all promises are done
the join ends, since a waiter can make a step until all are gone, and every step brings them nearer
to that; waiting in one go gives one of the answers of the join, and each answer is given in some
order.  The end of a body is something that may happen at any time. -/
theorem joined_in_any_order {w : World} (hruns : (start ids w).Runs g) :
    (∀ r, g.outcome? = some r →
      g.world.Answers ids r ∧ g.record.kept ≠ some .cancelled ∧
        ((∃ vs, r = .ok vs) ↔ ∀ id ∈ ids, ∃ v, g.world.Resolved id v)) ∧
    ((∀ id ∈ ids, g.world.Finished id) →
      (g.outcome? = none → ∃ g', g.Moves g') ∧
      (∃ r, g.world.Answers ids r ∧
        (World.awaitAll? ids false).run g.world = ((r.map some).mapError .error, g.world)) ∧
      ∀ r, g.world.Answers ids r →
        ∃ g', MovesOn (start ids g.world) g' ∧ g'.outcome? = some r) ∧
    (∀ g', g.Moves g' → g'.ahead < g.ahead) ∧
    ∀ id outcome,
      g.Step { g with world := ((World.concludePromise id outcome).run g.world).2 } := by
  have hsound := (sound_start ids w).runs hruns
  refine ⟨?_, ?_, fun _ => Moves.ahead_lt, ?_⟩
  · intro r houtcome
    rcases hsound.answers houtcome with ⟨hanswers, hkept⟩
    exact ⟨hanswers, hkept, hanswers.isOk_iff⟩
  · intro hids
    exact ⟨hsound.exists_move hids, World.run_awaitAll? hids, fun r => exists_order hids⟩
  · intro id outcome
    exact .act _
      (World.upholds_concludePromise g.world id outcome g.world _ _ (fun _ _ hp _ => hp) rfl)

def twoPromised : World where
  heap :=
    { promises :=
        #[{ function := "f", returnType := .int, state := .pending },
          { function := "g", returnType := .int, state := .pending }] }

def oneFailed : World :=
  ((World.concludePromise 0 (.ok (.int 7))).run
    ((World.concludePromise 1 (.error (.error (.plain "no")))).run twoPromised).2).2

/-- The first promise is waited for twice, and the join gives the error of the second one. -/
theorem joined_with_failure :
    ∃ g, (start [0, 1, 0] twoPromised).Runs g ∧ g.outcome? = some (.error (.plain "no")) ∧
      g.record.kept ≠ some .cancelled := by
  have hfailed := Relation.ReflTransGen.single
    ((joined_in_any_order (.refl (a := start [0, 1, 0] twoPromised))).2.2.2 1
      (.error (.error (.plain "no"))))
  have hboth : (start [0, 1, 0] twoPromised).Runs (start [0, 1, 0] oneFailed) :=
    hfailed.tail ((joined_in_any_order hfailed).2.2.2 0 (.ok (.int 7)))
  have hfirst : oneFailed.Finished 0 := ⟨_, rfl, rfl⟩
  have hbroken : oneFailed.Broken 1 (.plain "no") := ⟨_, rfl, Or.inl rfl⟩
  have hsecond : oneFailed.Finished 1 := ⟨_, rfl, rfl⟩
  have hids : ∀ id ∈ [0, 1, 0], oneFailed.Finished id := by
    simp [hfirst, hsecond]
  rcases ((joined_in_any_order hboth).2.1 hids).2.2 (.error (.plain "no"))
    ⟨1, by simp, hbroken⟩ with ⟨g, hon, houtcome⟩
  have hruns := hboth.trans hon.runs
  exact ⟨g, hruns, houtcome, ((joined_in_any_order hruns).1 _ houtcome).2.1⟩

end Group
end Join
end ScriptCore
