import ScriptCore.Proofs.Lock.Access
import ScriptCore.Proofs.Lock.Machine

/-!
# Operations as runs of the machine

An operation is done in one go.  The machine can do the same in steps, whatever
the other threads are in the middle of: it passes through the code of every
lock that the operation works in, and it reports what has come of it.
-/

namespace ScriptCore
namespace Lock

open World (isPanic poisonedFault reentrantFault)

namespace Entry

def entered (e : Entry) (t : ThreadId) : Entry :=
  { e with guard.holder := some t, lock := some t, events := .entered t :: e.events }

def left (e : Entry) (t : ThreadId) (r : Except Failure Unit) : Entry :=
  { e with guard := e.guard.leave (isPanic r), lock := none, events := .ended t r :: e.events }

/-- The entry of a poisoned lock once a thread has been turned away. -/
def rejected (e : Entry) (t : ThreadId) : Entry :=
  { e with lock := none, events := .failed t (poisonedFault e.name) :: e.events }

end Entry

namespace Machine

variable {m m' : Machine} {t : ThreadId} {name : String} {e e' : Entry} {l : List Call}
  {s : Stage} {s' : Option Stage}

/-!
## Moving one call
-/

def withCall (m : Machine) (t : ThreadId) (l : List Call) (e : Entry) (stage : Option Stage) :
    Machine :=
  (m.put e).setCalls t (movedOn e.name stage l)

theorem calls_withCall (m : Machine) (t : ThreadId) (l : List Call) (e : Entry)
    (stage : Option Stage) : (m.withCall t l e stage).calls t = movedOn e.name stage l :=
  Function.update_self ..

theorem calls_withCall_ne (m : Machine) {t u : ThreadId} (hu : u ≠ t) (l : List Call) (e : Entry)
    (stage : Option Stage) : (m.withCall t l e stage).calls u = m.calls u :=
  Function.update_of_ne hu ..

theorem entryAt_withCall (m : Machine) (t : ThreadId) (l : List Call) (e : Entry)
    (stage : Option Stage) : (m.withCall t l e stage).entryAt e.name = some e :=
  entryAt_put_self m e

theorem world_put (he : m.entryAt name = some e) (hname : e'.name = name)
    (hguard : e'.guard = e.guard) : (m.put e').world = m.world := by
  have hput := congrArg Machine.world (put_of_entryAt he)
  rw [← hput]
  unfold put
  rw [hname, hguard, name_of_entryAt he]

theorem withCall_self (he : m.entryAt name = some e) (hcalls : m.calls t = ⟨name, s⟩ :: l) :
    m.withCall t l e (some s) = m := by
  have hname := name_of_entryAt he
  subst hname
  unfold withCall
  rw [put_of_entryAt he]
  unfold setCalls movedOn
  simp only [← hcalls, Function.update_eq_self]

theorem step_withCall (hadvance : Advance t e s e' s') :
    (m.withCall t l e (some s)).Step (m.withCall t l e' s') := by
  have hstep := Step.advance (calls_withCall m t l e (some s)) (entryAt_withCall m t l e (some s))
    hadvance
  have heq : ((m.withCall t l e (some s)).put e').setCalls t (movedOn e.name s' l) =
      m.withCall t l e' s' := by
    have hname := hadvance.name
    unfold withCall setCalls put
    simp only [hname, NameMap.insert_insert, Function.update_idem]
  rw [heq] at hstep
  exact hstep

/-- No call stands between taking a lock and recording it, or between the record and the lock on
its way out. -/
def Settled (m : Machine) : Prop :=
  ∀ t, ∀ c ∈ m.calls t, c.stage.owns = c.stage.holds

theorem Settled.lock (hsettled : m.Settled) (h : m.Coherent) (he : m.entryAt name = some e) :
    e.lock = e.guard.holder := by
  have hok := h.entries name e he
  have hsame (u : ThreadId) :
      (m.stages name u).any Stage.owns = (m.stages name u).any Stage.holds := by
    cases hs : m.stages name u with
    | none => rfl
    | some s₁ => exact hsettled u _ (mem_of_stageOf hs)
  apply Option.ext
  intro u
  rw [hok.lock u, hok.holder u, hsame u]

theorem Ready.withCall (hready : m.Ready t) (hcalls : m.calls t = l) (e : Entry) :
    (m.withCall t l e (some .inside)).Ready t := by
  intro c hc
  rw [calls_withCall] at hc
  rcases List.mem_cons.mp hc with rfl | hc
  · rfl
  · exact hready c (hcalls ▸ hc)

theorem Settled.withCall (hsettled : m.Settled) (hcalls : m.calls t = l) (e : Entry) :
    (m.withCall t l e (some .inside)).Settled := by
  intro u c hc
  by_cases hu : u = t
  · rw [hu, calls_withCall] at hc
    rcases List.mem_cons.mp hc with rfl | hc
    · rfl
    · exact hsettled t c (hcalls ▸ hc)
  · rw [calls_withCall_ne m hu] at hc
    exact hsettled u c hc

/-!
## Through the code of a lock
-/

theorem runs_ask (hready : m.Ready t) (he : m.entryAt name = some e)
    (hholder : e.guard.holder ≠ some t) : m.Runs (m.withCall t (m.calls t) e (some .waiting)) := by
  have hstep := Step.ask hready (Asks.waits he hholder)
  have heq : m.setCalls t (⟨name, .waiting⟩ :: m.calls t) =
      m.withCall t (m.calls t) e (some .waiting) := by
    unfold withCall
    rw [put_of_entryAt he, name_of_entryAt he]
    rfl
  rw [heq] at hstep
  exact Relation.ReflTransGen.single hstep

theorem runs_enter (hready : m.Ready t) (he : m.entryAt name = some e) (hlock : e.lock = none)
    (hfree : e.guard.IsFree) :
    m.Runs (m.withCall t (m.calls t) (e.entered t) (some .inside)) := by
  have hholder : e.guard.holder ≠ some t := by
    rw [hfree.1]
    exact nofun
  have hasked := runs_ask hready he hholder
  have hlocked := hasked.tail (step_withCall (.lock hlock))
  have hchecked := hlocked.tail (step_withCall (.clean hfree.2))
  exact hchecked.tail (step_withCall .claim)

theorem runs_reject (hready : m.Ready t) (he : m.entryAt name = some e) (hlock : e.lock = none)
    (hholder : e.guard.holder = none) (hpoisoned : e.guard.isPoisoned = true) :
    m.Runs (m.withCall t (m.calls t) (e.rejected t) none) := by
  have hasked := runs_ask hready he (by rw [hholder]; exact nofun)
  have hlocked := hasked.tail (step_withCall (.lock hlock))
  have hchecked := hlocked.tail (step_withCall (.poisoned hpoisoned))
  exact hchecked.tail (step_withCall .reject)

theorem runs_leave (he : m.entryAt name = some e) (hcalls : m.calls t = ⟨name, .inside⟩ :: l)
    (r : Except Failure Unit) : m.Runs (m.withCall t l (e.left t r) none) := by
  unfold Entry.left
  have hfinished : m.Runs (m.withCall t l { e with events := .ended t r :: e.events }
      (some (if isPanic r then .unwinding else .clearing))) := by
    have hstep := step_withCall (m := m) (l := l) (Advance.finish (t := t) (e := e) r)
    rw [withCall_self he hcalls] at hstep
    exact Relation.ReflTransGen.single hstep
  cases hr : isPanic r with
  | false =>
      rw [hr] at hfinished
      have hcleared := hfinished.tail (step_withCall .clear)
      have hleave : e.guard.leave false = { e.guard with holder := none } := by
        simp [Guard.leave]
      rw [hleave]
      exact hcleared.tail (step_withCall .unlock)
  | true =>
      rw [hr] at hfinished
      have hpoisoned := hfinished.tail (step_withCall .poison)
      have hcleared := hpoisoned.tail (step_withCall .clear)
      have hleave : e.guard.leave true = { e.guard with holder := none, isPoisoned := true } := by
        simp [Guard.leave]
      rw [hleave]
      exact hcleared.tail (step_withCall .unlock)

end Machine

/-!
## Performing
-/

/-- The outcome of an operation that another thread keeps waiting. -/
def blocked {α : Type} : Except Failure α :=
  .error (.panic .stuck)

theorem error_ne_blocked {α β : Type} {f : Failure}
    (h : (.error f : Except Failure α) ≠ blocked) : (.error f : Except Failure β) ≠ blocked := by
  intro heq
  cases heq
  exact h rfl

namespace Machine

/-- A thread with these calls is about to perform an operation in this world. -/
structure Poised (m : Machine) (t : ThreadId) (l : List Call) (w : World) : Prop where
  coherent : m.Coherent
  settled : m.Settled
  ready : m.Ready t
  calls : m.calls t = l
  world : m.world = w

/-- An operation that ends in this world has been performed, and all calls in it are over. -/
structure Performed (m m' : Machine) (w : World) : Prop where
  runs : m.Runs m'
  world : m'.world = w
  calls : m'.calls = m.calls

theorem Performed.poised {m m' : Machine} {t : ThreadId} {l : List Call} {w w' : World}
    (h : m.Performed m' w') (hm : m.Poised t l w) : m'.Poised t l w' where
  coherent := hm.coherent.runs h.runs
  settled := by
    unfold Settled
    rw [h.calls]
    exact hm.settled
  ready := by
    unfold Ready
    rw [h.calls]
    exact hm.ready
  calls := by rw [h.calls, hm.calls]
  world := h.world

theorem Performed.trans {m m₁ m₂ : Machine} {w₁ w₂ : World} (h : m.Performed m₁ w₁)
    (h' : m₁.Performed m₂ w₂) : m.Performed m₂ w₂ :=
  ⟨h.runs.trans h'.runs, h'.world, h'.calls.trans h.calls⟩

theorem Poised.act {m : Machine} {t : ThreadId} {l : List Call} {w w' : World}
    (hm : m.Poised t l w) (hguarded : w'.guarded = w.guarded) :
    m.Performed { m with world := w' } w' := by
  rw [← hm.world] at hguarded
  exact ⟨Relation.ReflTransGen.single (.act w' hguarded), rfl, rfl⟩

end Machine

/-- A thread with these calls can perform the operation in steps of the machine. -/
def Performs {α : Type} (t : ThreadId) (l : List Call) (x : Op α) (w : World) : Prop :=
  ∀ m : Machine, m.Poised t l w → (x.run w).1 ≠ blocked → ∃ m', m.Performed m' (x.run w).2

namespace Performs

variable {α β : Type} {t : ThreadId} {l : List Call} {x : Op α} {w : World}

theorem of_leaves (hx : (x.run w).2.guarded = w.guarded) : Performs t l x w := by
  intro m hm _
  exact ⟨_, hm.act hx⟩

theorem of_run_eq {y : Op α} (hrun : y.run w = x.run w) (h : Performs t l x w) :
    Performs t l y w := by
  unfold Performs
  rw [hrun]
  exact h

theorem bind {f : α → Op β} (hx : Performs t l x w)
    (hf : ∀ a w', x.run w = (.ok a, w') → Performs t l (f a) w') : Performs t l (x >>= f) w := by
  intro m hm hends
  have hfirst := hx m hm
  rw [Op.run_bind] at hends ⊢
  rcases hrun : x.run w with ⟨r, w₁⟩
  rw [hrun] at hends hfirst
  cases r with
  | error f => exact hfirst (error_ne_blocked hends)
  | ok a =>
      rcases hfirst (fun heq => nomatch heq) with ⟨m₁, hperformed⟩
      rcases hf a w₁ hrun m₁ (hperformed.poised hm) hends with ⟨m₂, hperformed₂⟩
      exact ⟨m₂, hperformed.trans hperformed₂⟩

theorem withName (h : Performs t l x w) (name : String) : Performs t l (Op.withName name x) w := by
  intro m hm hends
  have hx := h m hm
  rw [Op.run_withName] at hends ⊢
  rcases hrun : x.run w with ⟨r, w₁⟩
  rw [hrun] at hends hx
  cases r with
  | error f =>
      refine hx fun heq => ?_
      cases heq
      exact hends rfl
  | ok a => exact hx fun heq => nomatch heq

theorem map (h : Performs t l x w) (g : α → β) : Performs t l (g <$> x) w := by
  rw [← bind_pure_comp]
  exact h.bind fun a w' _ => of_leaves rfl

end Performs

/-!
## Reports

An operation that works in a lock leaves a report: it has been turned away, or
its callback has run, with the outcome that the report tells, and the operation
ends the way the callback has ended.
-/

/-- Both outcomes are results, both are errors, or both are panics. -/
def SameEnd {α β : Type} (r : Except Failure α) (r' : Except Failure β) : Prop :=
  r.isOk = r'.isOk ∧ isPanic r = isPanic r'

/-- What is known of a variable after an operation in its lock, given what came of the callback and
of the operation. -/
inductive Reports {α : Type} (t : ThreadId) (name : String) (before : List Event)
    (inner : Except Failure Unit) (outcome : Except Failure α) : List Event → Prop where
  | turnedAway {fault : Error} (hfault : fault = poisonedFault name ∨ fault = reentrantFault name)
      (houtcome : outcome = .error (.error fault)) :
      Reports t name before inner outcome (.failed t fault :: before)
  | worked {between : List Event} (hentered : .entered t :: before <:+ between)
      (hend : SameEnd inner outcome) :
      Reports t name before inner outcome (.ended t inner :: between)

/-- A thread with these calls can perform the operation in steps of the machine, and it goes through
the code of the lock, where its callback has this outcome. -/
def PerformsAt {α : Type} (name : String) (t : ThreadId) (l : List Call)
    (inner : Except Failure Unit) (x : Op α) (w : World) : Prop :=
  ∀ m : Machine, m.Poised t l w → (x.run w).1 ≠ blocked →
    ∃ m', m.Performed m' (x.run w).2 ∧
      Reports t name (m.events name) inner (x.run w).1 (m'.events name)

section

variable {α β : Type} {t : ThreadId} {l : List Call} {x : Op α} {w : World} {name : String}
  {inner : Except Failure Unit}

/-- A report holds of another outcome that ends in the same way and keeps the faults of locks. -/
theorem Reports.imp {before events : List Event} {r : Except Failure α} {r' : Except Failure β}
    (h : Reports t name before inner r events) (hend : SameEnd r r')
    (hfault : ∀ fault : Error, fault.withName name = fault → r = .error (.error fault) →
      r' = .error (.error fault)) : Reports t name before inner r' events := by
  cases h with
  | @turnedAway fault hcause houtcome =>
      have hnamed : fault.withName name = fault := by
        rcases hcause with rfl | rfl
        · exact World.withName_ofKind _ _ _
        · exact World.withName_ofKind _ _ _
      exact .turnedAway hcause (hfault fault hnamed houtcome)
  | worked hentered hr => exact .worked hentered ⟨hr.1.trans hend.1, hr.2.trans hend.2⟩

namespace PerformsAt

theorem performs (h : PerformsAt name t l inner x w) : Performs t l x w := by
  intro m hm hends
  rcases h m hm hends with ⟨m', hperformed, _⟩
  exact ⟨m', hperformed⟩

theorem of_run_eq {y : Op α} (hrun : y.run w = x.run w) (h : PerformsAt name t l inner x w) :
    PerformsAt name t l inner y w := by
  unfold PerformsAt
  rw [hrun]
  exact h

theorem withName (h : PerformsAt name t l inner x w) :
    PerformsAt name t l inner (Op.withName name x) w := by
  intro m hm hends
  have hx := h m hm
  rw [Op.run_withName] at hends ⊢
  rcases hrun : x.run w with ⟨r, w₁⟩
  rw [hrun] at hends hx
  cases r with
  | error f =>
      have hne : (.error f : Except Failure α) ≠ blocked := by
        intro heq
        cases heq
        exact hends rfl
      rcases hx hne with ⟨m', hperformed, hreports⟩
      refine ⟨m', hperformed, hreports.imp ⟨rfl, ?_⟩ ?_⟩
      · cases f <;> rfl
      · intro fault hnamed heq
        cases heq
        exact congrArg (fun e => Except.error (Failure.error e)) hnamed
  | ok a => exact hx fun heq => nomatch heq

theorem preceded {f : α → Op β} {a : α} {w₁ : World} (hrun : x.run w = (.ok a, w₁))
    (hguarded : w₁.guarded = w.guarded) (hf : PerformsAt name t l inner (f a) w₁) :
    PerformsAt name t l inner (x >>= f) w := by
  intro m hm hends
  rw [Op.run_bind, hrun, Op.next_ok] at hends ⊢
  have hacted := hm.act hguarded
  rcases hf _ (hacted.poised hm) hends with ⟨m', hperformed, hreports⟩
  exact ⟨m', hacted.trans hperformed, hreports⟩

theorem followed {f : α → Op β} (hx : PerformsAt name t l inner x w)
    (hf : ∀ a w', ∃ b w'', (f a).run w' = (.ok b, w'') ∧ w''.guarded = w'.guarded) :
    PerformsAt name t l inner (x >>= f) w := by
  intro m hm hends
  have hfirst := hx m hm
  rw [Op.run_bind] at hends ⊢
  rcases hrun : x.run w with ⟨r, w₁⟩
  rw [hrun] at hends hfirst
  cases r with
  | error f =>
      rcases hfirst (error_ne_blocked hends) with ⟨m', hperformed, hreports⟩
      refine ⟨m', hperformed, hreports.imp ⟨rfl, ?_⟩ ?_⟩
      · cases f <;> rfl
      · intro fault _ heq
        cases heq
        rfl
  | ok a =>
      rcases hfirst (fun heq => nomatch heq) with ⟨m', hperformed, hreports⟩
      rcases hf a w₁ with ⟨b, w₂, hrest, hguarded⟩
      rw [Op.next_ok, hrest]
      have hacted := (hperformed.poised hm).act hguarded
      refine ⟨_, hperformed.trans hacted, hreports.imp ⟨rfl, rfl⟩ ?_⟩
      intro fault _ heq
      cases heq

theorem map (h : PerformsAt name t l inner x w) (g : α → β) :
    PerformsAt name t l inner (g <$> x) w := by
  rw [← bind_pure_comp]
  exact h.followed fun a w' => ⟨g a, w', rfl, rfl⟩

end PerformsAt
end

/-!
## Operations in a lock
-/

section

variable {α : Type} {m : Machine} {t : ThreadId} {l : List Call} {e : Entry} {w w' : World}
  {work : VariableId → Op α} {r : Except Failure α}

theorem runs_withGuard_free (hm : m.Poised t l w) (he : m.entryAt e.name = some e)
    (hfree : e.guard.IsFree)
    (hwork : ∀ w, Performs t (⟨e.name, .inside⟩ :: l) (work e.guard.var) w)
    (hrun : (World.withGuard t e.name e.guard work).run w = (r, w')) (hends : r ≠ blocked) :
    ∃ m', m.Performed m' w' ∧
      Reports t e.name (m.events e.name)
        (((work e.guard.var).run (w.hold e.name e.guard t)).1.map fun _ => ()) r
        (m'.events e.name) := by
  obtain ⟨hcoherent, hsettled, hready, rfl, rfl⟩ := hm
  rw [World.run_withGuard_free hfree] at hrun
  rcases hheld : (work e.guard.var).run (m.world.hold e.name e.guard t) with ⟨r₁, w₁⟩
  rw [hheld] at hrun
  cases hrun
  -- into the lock
  have henter := Machine.runs_enter hready he ((hsettled.lock hcoherent he).trans hfree.1) hfree
  have hinside : (m.withCall t (m.calls t) (e.entered t) (some .inside)).Poised t
      (⟨e.name, .inside⟩ :: m.calls t) (m.world.hold e.name e.guard t) :=
    { coherent := hcoherent.runs henter
      settled := hsettled.withCall rfl _
      ready := hready.withCall rfl _
      calls := Machine.calls_withCall ..
      world := rfl }
  -- through the callback
  have hends₁ : ((work e.guard.var).run (m.world.hold e.name e.guard t)).1 ≠ blocked := by
    rw [hheld]
    exact hends
  rcases hwork _ _ hinside hends₁ with ⟨m₂, hperformed⟩
  rw [hheld] at hperformed
  have hm₂ := hperformed.poised hinside
  have hevents := hperformed.runs.events e.name
  rw [show (m.withCall t (m.calls t) (e.entered t) (some .inside)).events e.name = _ from
    Machine.events_put_self m (e.entered t)] at hevents
  -- and out of it
  have hknown := hm₂.coherent.known t ⟨e.name, .inside⟩
    (by rw [hm₂.calls]; exact List.mem_cons_self)
  rcases Option.isSome_iff_exists.mp hknown with ⟨e₂, he₂⟩
  have hname : e₂.name = e.name := Machine.name_of_entryAt he₂
  have hleave := Machine.runs_leave he₂ hm₂.calls (r₁.map fun _ => ())
  have hg₂ := Machine.guard_of_entryAt he₂
  rw [hm₂.world] at hg₂
  rcases World.release_eq hg₂ (isPanic r₁) with ⟨lines, hrelease⟩
  have hguarded : (w₁.release e.name (isPanic r₁)).guarded =
      (m₂.withCall t (m.calls t) (e₂.left t (r₁.map fun _ => ())) none).world.guarded := by
    rw [hrelease]
    change _ = m₂.world.guarded.insert e₂.name (e₂.guard.leave (isPanic (r₁.map fun _ => ())))
    rw [hname, hm₂.world, World.isPanic_map]
  refine ⟨_, ⟨(henter.trans (hperformed.runs.trans hleave)).tail (.act _ hguarded), rfl, ?_⟩, ?_⟩
  · change Function.update m₂.calls t (m.calls t) = m.calls
    rw [hperformed.calls]
    change Function.update (Function.update m.calls t _) t (m.calls t) = m.calls
    rw [Function.update_idem, Function.update_eq_self]
  · change Reports t _ _ _ _ ((m₂.put (e₂.left t (r₁.map fun _ => ()))).events e.name)
    have hleft := Machine.events_put_self m₂ (e₂.left t (r₁.map fun _ => ()))
    change (m₂.put _).events e₂.name = _ at hleft
    rw [hname] at hleft
    rw [hleft]
    refine .worked ?_ ⟨World.isOk_map _ _, World.isPanic_map _ _⟩
    rw [Machine.events_of_entryAt he₂, ← Machine.events_of_entryAt he]
    exact hevents

theorem runs_withGuard (hm : m.Poised t l w) (he : m.entryAt e.name = some e)
    (hwork : ∀ w, Performs t (⟨e.name, .inside⟩ :: l) (work e.guard.var) w)
    (hrun : (World.withGuard t e.name e.guard work).run w = (r, w')) (hends : r ≠ blocked) :
    ∃ m', m.Performed m' w' ∧
      Reports t e.name (m.events e.name)
        (((work e.guard.var).run (w.hold e.name e.guard t)).1.map fun _ => ()) r
        (m'.events e.name) := by
  by_cases hfree : e.guard.IsFree
  · exact runs_withGuard_free hm he hfree hwork hrun hends
  obtain ⟨hcoherent, hsettled, hready, rfl, rfl⟩ := hm
  have hlock := hsettled.lock hcoherent he
  cases hholder : e.guard.holder with
  | none =>
      have hpoisoned : e.guard.isPoisoned = true := by
        cases hp : e.guard.isPoisoned with
        | true => rfl
        | false => exact absurd ⟨hholder, hp⟩ hfree
      rw [(World.turnsAway_poisoned hholder hpoisoned t e.name).withGuard] at hrun
      cases hrun
      have hreject := Machine.runs_reject hready he (hlock.trans hholder) hholder hpoisoned
      refine ⟨_, ⟨hreject, Machine.world_put he rfl rfl, Function.update_eq_self ..⟩, ?_⟩
      rw [show (m.withCall t (m.calls t) (e.rejected t) none).events e.name = _ from
        Machine.events_put_self m (e.rejected t), ← Machine.events_of_entryAt he]
      exact .turnedAway (Or.inl rfl) rfl
  | some holder =>
      by_cases heq : holder = t
      · subst heq
        rw [(World.turnsAway_reentrant hholder e.name).withGuard] at hrun
        cases hrun
        have hrefuse := Relation.ReflTransGen.single
          (Machine.Step.ask hready (.refused he hholder))
        refine ⟨_, ⟨hrefuse, Machine.world_put he rfl rfl, rfl⟩, ?_⟩
        have hevents := Machine.events_put_self m
          { e with events := .failed holder (reentrantFault e.name) :: e.events }
        rw [hevents, ← Machine.events_of_entryAt he]
        exact .turnedAway (Or.inr rfl) rfl
      · refine absurd ?_ hends
        have hbusy : e.guard.enter t = .busy := by
          unfold Guard.enter
          simp only [hholder, heq, if_false]
        unfold World.withGuard World.enterGuard at hrun
        rw [hbusy] at hrun
        cases hrun
        rfl

end

theorem Performs.retarget {t : ThreadId} {l : List Call} {w : World} {name : String}
    (id : VariableId) :
    Performs t (⟨name, .inside⟩ :: l) (World.retarget name id) w := by
  intro m hm _
  obtain ⟨_, _, _, hcalls, rfl⟩ := hm
  cases hg : m.world.guarded.get? name with
  | none =>
      refine ⟨m, .refl, ?_, rfl⟩
      unfold World.retarget
      rw [Op.run_bind, Op.run_get, Op.next_ok, hg]
      rfl
  | some g =>
      rw [World.run_retarget hg]
      have he := Machine.entryAt_of_guard hg
      refine ⟨_, Relation.ReflTransGen.single (.advance hcalls he (.rebind id)), rfl, ?_⟩
      change Function.update m.calls t (⟨name, .inside⟩ :: l) = m.calls
      rw [← hcalls, Function.update_eq_self]

namespace PerformsAt

variable {α : Type} {t : ThreadId} {l : List Call} {w : World} {name : String} {g : Guard}

theorem withGuard {work : VariableId → Op α} (hg : w.guarded.get? name = some g)
    (hwork : ∀ w, Performs t (⟨name, .inside⟩ :: l) (work g.var) w) :
    PerformsAt name t l (((work g.var).run (w.hold name g t)).1.map fun _ => ())
      (World.withGuard t name g work) w := by
  intro m hm hends
  let e : Entry := { name, guard := g, lock := m.locks name, events := m.events name }
  have he : m.entryAt e.name = some e := Machine.entryAt_of_guard (by rw [hm.world, hg])
  rcases hrun : (World.withGuard t name g work).run w with ⟨r, w'⟩
  rw [hrun] at hends
  exact runs_withGuard (e := e) hm he hwork hrun hends

theorem withGuard_unit {work : VariableId → Op Unit} (hg : w.guarded.get? name = some g)
    (hwork : ∀ w, Performs t (⟨name, .inside⟩ :: l) (work g.var) w) :
    PerformsAt name t l ((work g.var).run (w.hold name g t)).1 (World.withGuard t name g work)
      w := by
  have hunit : ∀ r : Except Failure Unit, (r.map fun _ => ()) = r := by
    intro r
    cases r <;> rfl
  have hperforms := withGuard hg hwork
  rw [hunit] at hperforms
  exact hperforms

theorem rebind (hg : w.guarded.get? name = some g) (id : VariableId) :
    PerformsAt name t l ((World.retarget name id).run (w.hold name g t)).1
      (World.rebind t name id) w :=
  of_run_eq (World.run_rebind hg) (withGuard_unit hg fun _ => .retarget id)

theorem snapshot (hg : w.guarded.get? name = some g) :
    PerformsAt name t l (((World.snapshot g.var).run (w.hold name g t)).1.map fun _ => ())
      (World.withGuard t name g World.snapshot) w := by
  refine withGuard hg fun w₁ => .of_leaves ?_
  rcases hwork : (World.snapshot g.var).run w₁ with ⟨r₁, w₂⟩
  exact World.leaves_snapshot _ w₁ r₁ w₂ rfl hwork

theorem assignValue (hg : w.guarded.get? name = some g) (value : Value) :
    PerformsAt name t l ((World.assignValue g.var value).run (w.hold name g t)).1
      (World.withGuard t name g fun id => World.assignValue id value) w := by
  refine withGuard_unit hg fun w₁ => .of_leaves ?_
  rcases hwork : (World.assignValue g.var value).run w₁ with ⟨r₁, w₂⟩
  exact World.leaves_assignValue _ value w₁ r₁ w₂ rfl hwork

theorem access (hg : w.guarded.get? name = some g) (a : World.Access)
    (hreaches : a.Reaches w t name)
    (hwork : ∀ work, a = .update work → ∀ l id w, Performs t l (work id) w) :
    PerformsAt name t l (a.inside w t name g) (a.perform t name) w := by
  cases a with
  | lookup scope =>
      obtain ⟨hscope, hlocal, hfrozen⟩ := hreaches
      rw [World.Access.inside_lookup]
      exact (of_run_eq (World.run_lookup_guarded hscope hlocal hfrozen hg)
        (snapshot hg).withName).map _
  | assign scope value =>
      exact of_run_eq (World.run_assign_guarded hg) (assignValue hg value).withName
  | declare declared value =>
      obtain ⟨hfrozen, id, w₁, hbind⟩ := hreaches
      have hguarded : w₁.guarded = w.guarded :=
        World.leaves_bindMutable declared value w _ w₁ rfl hbind
      rw [World.Access.inside_declare hbind]
      refine followed (of_run_eq (World.run_declare_shared hfrozen) ?_) fun _ w' => ?_
      · rw [World.declareGuarded_eq]
        refine preceded ?_ hguarded (rebind (by rw [hguarded, hg]) id)
        rw [Op.run_withName, hbind, Op.named_ok]
      · rcases World.run_log w' .debug "global declared"
          [("name", .text name), ("tier", .text (Tier.textOfCode 2))] with ⟨lines, hlines⟩
        exact ⟨_, _, hlines, rfl⟩
  | update work =>
      exact of_run_eq (World.run_withMutableGlobal hg work)
        (withGuard_unit hg fun w₁ => hwork work rfl _ _ w₁).withName

end PerformsAt

namespace Performs

variable {t : ThreadId} {l : List Call} {w : World} {name : String}

theorem rebind (id : VariableId) : Performs t l (World.rebind t name id) w := by
  cases hg : w.guarded.get? name with
  | none =>
      intro m hm _
      rw [World.run_rebind_none hg]
      rw [← hm.world] at hg ⊢
      exact ⟨_, Relation.ReflTransGen.single (.create id hg), rfl, rfl⟩
  | some g => exact (PerformsAt.rebind hg id).performs

theorem lookup (scope : Option ScopeId) : Performs t l (World.lookup t scope name) w := by
  rcases hrun : (World.lookup t scope name).run w with ⟨r, w'⟩
  cases World.lookup_cases hrun with
  | inScope _ => exact of_leaves (by rw [hrun])
  | threadLocal _ _ => exact of_leaves (by rw [hrun])
  | unbound _ _ _ _ => exact of_leaves (by rw [hrun])
  | frozen _ _ _ hsnap =>
      refine of_leaves ?_
      rw [hrun]
      exact (World.leaves_snapshot _).withName name w r w' rfl hsnap
  | guarded _ _ _ hg hsnap =>
      exact of_run_eq (hrun.trans hsnap.symm) (PerformsAt.snapshot hg).withName.performs

theorem assign (scope : Option ScopeId) (value : Value) :
    Performs t l (World.assign t scope name value) w := by
  rcases hrun : (World.assign t scope name value).run w with ⟨r, w'⟩
  cases World.assign_cases hrun with
  | frozen _ _ => exact of_leaves (by rw [hrun])
  | unbound _ _ _ _ => exact of_leaves (by rw [hrun])
  | threadLocal _ _ _ hstore =>
      refine of_leaves ?_
      rw [hrun]
      exact (World.leaves_assignValue _ value).withName name w r w' rfl hstore
  | inScope _ _ _ _ hstore =>
      refine of_leaves ?_
      rw [hrun]
      exact (World.leaves_assignValue _ value).withName name w r w' rfl hstore
  | guarded hg hstore =>
      exact of_run_eq (hrun.trans hstore.symm) (PerformsAt.assignValue hg value).withName.performs

theorem declare (declared : Ty) (value : Value) :
    Performs t l (World.declareGlobal t name 2 declared value) w := by
  refine bind ?_ fun _ w₁ _ => of_leaves ?_
  · cases hfrozen : w.frozen.get? name with
    | some id =>
        refine of_leaves ?_
        rw [World.run_declare_frozen hfrozen]
    | none =>
        refine of_run_eq (World.run_declare_shared hfrozen) ?_
        rw [World.declareGuarded_eq]
        refine bind ((of_leaves ?_).withName name) fun id w₁ _ => rebind id
        rcases hrun : (World.bindMutable declared value).run w with ⟨r, w₁⟩
        exact World.leaves_bindMutable declared value w r w₁ rfl hrun
  · rcases hrun : (World.log _ _ _).run w₁ with ⟨r, w₂⟩
    exact World.leaves_log _ _ _ w₁ r w₂ rfl hrun

/-- A thread can perform every access in steps of the machine, whatever its callback does in
steps of the machine. -/
theorem access (a : World.Access)
    (hwork : ∀ work, a = .update work → ∀ l id w, Performs t l (work id) w) :
    Performs t l (a.perform t name) w := by
  cases a with
  | lookup scope => exact (lookup scope).map _
  | assign scope value => exact assign scope value
  | declare declared value => exact declare declared value
  | update work =>
      cases hg : w.guarded.get? name with
      | none =>
          refine of_leaves ?_
          change ((World.withMutableGlobal t name work).run w).2.guarded = w.guarded
          rw [World.run_withMutableGlobal_none hg]
      | some g => exact (PerformsAt.access hg (.update work) trivial hwork).performs

end Performs

end Lock
end ScriptCore
