import ScriptCore.Proofs.Lock.Adequacy

/-!
# What the locks guarantee

At most one thread is inside a lock.  The thread inside is turned away when it
asks again.  A call that is over leaves its lock free, however it ended, and a
variable is poisoned for good once a callback on it has given up.
-/

namespace ScriptCore
namespace Lock

open World (isPanic poisonedFault reentrantFault)

namespace Machine

variable {m m' : Machine} {t u : ThreadId} {name : String} {e e' : Entry} {rest : List Call}

def Inside (m : Machine) (t : ThreadId) (name : String) : Prop :=
  ⟨name, .inside⟩ ∈ m.calls t

/-- A callback of the thread has given up, and the variable is not marked yet. -/
def Unwinding (m : Machine) (t : ThreadId) (name : String) : Prop :=
  ⟨name, .unwinding⟩ ∈ m.calls t

/-- At most one thread is inside, and it is the recorded holder. -/
def Exclusive (m : Machine) (name : String) (e : Entry) : Prop :=
  ∀ t, m.Inside t name → e.guard.holder = some t ∧ ∀ u, m.Inside u name → u = t

/-- The recorded holder is turned away at the lock, which stays as it is. -/
def RefusesHolder (m : Machine) (name : String) (e : Entry) : Prop :=
  ∀ t, e.guard.holder = some t →
    (∀ m', m.Asks t name m' →
      m' = m.put { e with events := .failed t (reentrantFault name) :: e.events }) ∧
    ∀ a : World.Access, a.Reaches m.world t name →
      (a.perform t name).run m.world = (.error (.error (reentrantFault name)), a.atLock m.world) ∧
        (a.atLock m.world).guarded = m.world.guarded

/-- The lock is free and nobody is recorded after the last step of a call. -/
def ReleasesOnExit (m : Machine) (name : String) : Prop :=
  ∀ m' t, m.Step m' → name ∈ (m.calls t).map Call.name → name ∉ (m'.calls t).map Call.name →
    ∃ e', m'.entryAt name = some e' ∧ e'.lock = none ∧ e'.guard.holder = none

/-- The variable is poisoned exactly if a callback on it has given up.  Between the two the thread
of the callback makes one step. -/
def PoisonedByPanic (m : Machine) (name : String) (e : Entry) : Prop :=
  e.guard.isPoisoned = true ↔ e.HasPanicked ∧ ∀ t, ¬ m.Unwinding t name

/-- A poisoned variable stays so, no callback runs on it any more, and all that happens to it is
that calls fail. -/
def StaysPoisoned (m : Machine) (name : String) (e : Entry) : Prop :=
  e.guard.isPoisoned = true → ∀ m', m.Runs m' →
    ∃ e' new, m'.entryAt name = some e' ∧ e'.guard.isPoisoned = true ∧
      (∀ t, ¬ m'.Inside t name) ∧ e'.events = new ++ e.events ∧
      ∀ ev ∈ new, ∃ t, ev = .failed t (poisonedFault name)

/-- All accesses to a poisoned variable fail.  A call that waits for the lock is not kept waiting,
and without calls underway every operation fails at once. -/
def RejectsAll (m : Machine) (name : String) (e : Entry) : Prop :=
  e.guard.isPoisoned = true → ∀ t,
    (∀ rest, m.calls t = ⟨name, .waiting⟩ :: rest →
      ∃ m', m.Runs m' ∧ m'.calls t = rest ∧
        ∃ events, m'.events name = .failed t (poisonedFault name) :: events) ∧
    (e.guard.holder = none → ∀ a : World.Access, a.Reaches m.world t name →
      (a.perform t name).run m.world = (.error (.error (poisonedFault name)), a.atLock m.world) ∧
        (a.atLock m.world).guarded = m.world.guarded)

/-- Every operation of a thread is a run of the machine, and one that gets as far as a lock goes
through the code of the lock, which reports the outcome of its callback.  The callback may be
anything that is a run of the machine. -/
def Executes (m : Machine) : Prop :=
  ∀ (t : ThreadId) (name : String) (a : World.Access),
    (∀ work, a = .update work → ∀ l id w, Performs t l (work id) w) →
    Performs t (m.calls t) (a.perform t name) m.world ∧
      ∀ g, m.world.guarded.get? name = some g → a.Reaches m.world t name →
        PerformsAt name t (m.calls t) (a.inside m.world t name g) (a.perform t name) m.world

namespace Coherent

theorem stage_of_mem (h : m.Coherent) {s : Stage} (hc : ⟨name, s⟩ ∈ m.calls t) :
    m.stages name t = some s :=
  (h.nested t).stageOf hc

theorem exclusive (h : m.Coherent) (he : m.entryAt name = some e) : m.Exclusive name e := by
  have hok := h.entries name e he
  have hholder (t : ThreadId) (ht : m.Inside t name) : e.guard.holder = some t := by
    rw [hok.holder t, h.stage_of_mem ht]
    rfl
  intro t ht
  refine ⟨hholder t ht, fun u hu => ?_⟩
  have heq := hholder u hu
  rw [hholder t ht] at heq
  exact (Option.some.inj heq).symm

theorem releasesOnExit (h : m.Coherent) (name : String) : m.ReleasesOnExit name := by
  intro m' u hstep hmem hgone
  cases hstep with
  | @ask t name' _ _ hasks =>
      refine absurd ?_ hgone
      cases hasks with
      | refused _ _ => exact hmem
      | waits _ _ =>
          change name ∈ (Function.update m.calls t (⟨name', .waiting⟩ :: m.calls t) u).map Call.name
          by_cases hu : u = t
          · subst hu
            rw [Function.update_self]
            exact List.mem_cons_of_mem _ hmem
          · rw [Function.update_of_ne hu]
            exact hmem
  | @advance t c rest e e' s hcalls he hadvance =>
      change name ∉ (Function.update m.calls t (movedOn c.name s rest) u).map Call.name at hgone
      by_cases hu : u = t
      · subst hu
        rw [Function.update_self] at hgone
        rw [hcalls] at hmem
        cases s with
        | some s => exact absurd hmem hgone
        | none =>
            rcases List.mem_cons.mp hmem with rfl | hmem
            · have hname : e'.name = c.name := hadvance.name.trans (name_of_entryAt he)
              have hstage : m.stages c.name u = some c.stage :=
                h.stage_of_mem (by rw [hcalls]; exact List.mem_cons_self)
              refine ⟨e', ?_, hadvance.released (h.entries _ _ he) hstage⟩
              rw [← hname]
              exact entryAt_put_self m e'
            · exact absurd hmem hgone
      · rw [Function.update_of_ne hu] at hgone
        exact absurd hmem hgone
  | act _ _ => exact absurd hmem hgone
  | create _ _ => exact absurd hmem hgone

theorem poisonedByPanic (h : m.Coherent) (he : m.entryAt name = some e) :
    m.PoisonedByPanic name e := by
  have hok := h.entries name e he
  constructor
  · intro hpoisoned
    refine ⟨hok.panicked.mpr (Or.inl hpoisoned), fun t ht => ?_⟩
    exact hok.not_isClean hpoisoned (h.stage_of_mem ht) rfl
  · rintro ⟨hpanicked, hnobody⟩
    rcases hok.panicked.mp hpanicked with hpoisoned | ⟨t, ht⟩
    · exact hpoisoned
    · exact absurd (mem_of_stageOf ht) (hnobody t)

theorem not_holder (h : m.Coherent) (he : m.entryAt name = some e)
    (hpoisoned : e.guard.isPoisoned = true) (hready : m.Ready t) : e.guard.holder ≠ some t := by
  have hok := h.entries name e he
  intro hholder
  rcases (Option.any_eq_true _ _).mp ((hok.holder t).mp hholder) with ⟨s, hs, _⟩
  have hinside : s = .inside := hready _ (mem_of_stageOf hs)
  exact hok.not_isClean hpoisoned hs (by rw [hinside]; rfl)

end Coherent

theorem refusesHolder (he : m.entryAt name = some e) : m.RefusesHolder name e := by
  intro t hholder
  constructor
  · intro m' hasks
    cases hasks with
    | refused he' _ =>
        rw [he] at he'
        cases he'
        rfl
    | waits he' hother =>
        rw [he] at he'
        cases he'
        exact absurd hholder hother
  · intro a hreaches
    have haway := World.turnsAway_reentrant hholder name
    exact ⟨haway.perform (guard_of_entryAt he) a hreaches, World.Access.guarded_atLock _ a⟩

/-!
## Poisoned variables
-/

/-- An entry after some time in which all that has happened to it is that calls failed. -/
structure OnlyRejects (e e' : Entry) : Prop where
  isPoisoned : e'.guard.isPoisoned = true
  events : ∃ new, e'.events = new ++ e.events ∧
    ∀ ev ∈ new, ∃ t, ev = Event.failed t (poisonedFault e.name)

theorem Coherent.step_poisoned (h : m.Coherent) (hstep : m.Step m') (he : m.entryAt name = some e)
    (hpoisoned : e.guard.isPoisoned = true) :
    ∃ e', m'.entryAt name = some e' ∧ OnlyRejects e e' := by
  have hsame : OnlyRejects e e := ⟨hpoisoned, [], rfl, nofun⟩
  cases hstep with
  | @ask t n _ hready hasks =>
      cases hasks with
      | waits _ _ => exact ⟨e, he, hsame⟩
      | @refused e₁ he₁ hholder =>
          -- nobody who asks is recorded here, for that thread would be inside a poisoned variable
          have hne : e₁.name ≠ name := by
            rintro rfl
            rw [name_of_entryAt he₁] at he
            rw [he₁] at he
            cases he
            exact h.not_holder he₁ hpoisoned hready hholder
          refine ⟨e, (entryAt_put_ne m ?_).trans he, hsame⟩
          exact hne
  | @advance t c rest e₁ e' s hcalls he₁ hadvance =>
      have hname : e'.name = c.name := hadvance.name.trans (name_of_entryAt he₁)
      by_cases hc : c.name = name
      · subst hc
        rw [he₁] at he
        cases he
        have hstage : m.stages c.name t = some c.stage :=
          h.stage_of_mem (by rw [hcalls]; exact List.mem_cons_self)
        rcases hadvance.poisoned_stays (h.entries _ _ he₁) hstage hpoisoned with
          ⟨hstays, hevents⟩
        refine ⟨e', ?_, hstays, ?_⟩
        · rw [← hname]
          exact entryAt_put_self m e'
        · rcases hevents with hevents | hevents
          · exact ⟨[], hevents, nofun⟩
          · refine ⟨[_], hevents, fun ev hev => ⟨t, ?_⟩⟩
            exact List.mem_singleton.mp hev
      · refine ⟨e, ?_, hsame⟩
        rw [← hname] at hc
        exact (entryAt_put_ne m hc).trans he
  | act world hguarded =>
      refine ⟨e, ?_, hsame⟩
      unfold entryAt
      rw [hguarded]
      exact he
  | @create n id hnew =>
      have hne : name ≠ n := by
        rintro rfl
        rw [guard_of_entryAt he] at hnew
        cases hnew
      refine ⟨e, ?_, hsame⟩
      unfold entryAt
      rw [NameMap.get?_insert_ne _ hne]
      exact he

theorem Coherent.runs_poisoned (h : m.Coherent) (hruns : m.Runs m') (he : m.entryAt name = some e)
    (hpoisoned : e.guard.isPoisoned = true) :
    ∃ e', m'.entryAt name = some e' ∧ OnlyRejects e e' := by
  induction hruns with
  | refl => exact ⟨e, he, hpoisoned, [], rfl, nofun⟩
  | tail hruns hstep ih =>
      rcases ih with ⟨e₁, he₁, hpoisoned₁, new₁, hevents₁, hnew₁⟩
      rcases (h.runs hruns).step_poisoned hstep he₁ hpoisoned₁ with
        ⟨e₂, he₂, hpoisoned₂, new₂, hevents₂, hnew₂⟩
      have hname : e₁.name = e.name := (name_of_entryAt he₁).trans (name_of_entryAt he).symm
      refine ⟨e₂, he₂, hpoisoned₂, new₂ ++ new₁, ?_, ?_⟩
      · rw [hevents₂, hevents₁, List.append_assoc]
      · intro ev hev
        rcases List.mem_append.mp hev with hev | hev
        · rw [← hname]
          exact hnew₂ ev hev
        · exact hnew₁ ev hev

theorem Coherent.staysPoisoned (h : m.Coherent) (he : m.entryAt name = some e) :
    m.StaysPoisoned name e := by
  intro hpoisoned m' hruns
  rcases h.runs_poisoned hruns he hpoisoned with ⟨e', he', hpoisoned', new, hevents, hnew⟩
  rw [name_of_entryAt he] at hnew
  refine ⟨e', new, he', hpoisoned', fun t ht => ?_, hevents, hnew⟩
  have hm' := h.runs hruns
  exact (hm'.entries name e' he').not_isClean hpoisoned' (hm'.stage_of_mem ht) rfl

theorem runs_out (he : m.entryAt name = some e) (hpoisoned : e.guard.isPoisoned = true) {s : Stage}
    (hcalls : m.calls t = ⟨name, s⟩ :: rest) (howns : s.owns = true) (hunclean : s.isClean ≠ true) :
    ∃ e', m.Runs (m.withCall t rest e' none) ∧ e'.name = name ∧ e'.lock = none := by
  have hself : m.Runs (m.withCall t rest e (some s)) := by
    rw [withCall_self he hcalls]
    exact .refl
  have hname := name_of_entryAt he
  cases s with
  | waiting => cases howns
  | checking =>
      have hchecked := hself.tail (step_withCall (.poisoned hpoisoned))
      have hrejected := hchecked.tail (step_withCall .reject)
      exact ⟨_, hrejected, hname, rfl⟩
  | rejecting =>
      have hrejected := hself.tail (step_withCall .reject)
      exact ⟨_, hrejected, hname, rfl⟩
  | clearing =>
      have hcleared := hself.tail (step_withCall .clear)
      have hunlocked := hcleared.tail (step_withCall .unlock)
      exact ⟨_, hunlocked, hname, rfl⟩
  | unlocking =>
      have hunlocked := hself.tail (step_withCall .unlock)
      exact ⟨_, hunlocked, hname, rfl⟩
  | _ => exact absurd rfl hunclean

theorem Coherent.runs_unlocked (h : m.Coherent) (he : m.entryAt name = some e)
    (hpoisoned : e.guard.isPoisoned = true) (hwaits : m.calls t = ⟨name, .waiting⟩ :: rest) :
    ∃ m', m.Runs m' ∧ m'.locks name = none ∧ m'.calls t = m.calls t := by
  have hok := h.entries name e he
  cases hlock : e.lock with
  | none => exact ⟨m, .refl, (lock_of_entryAt he).symm.trans hlock, rfl⟩
  | some u =>
      rcases (Option.any_eq_true _ _).mp ((hok.lock u).mp hlock) with ⟨s, hs, howns⟩
      have hunclean := hok.not_isClean hpoisoned hs
      have hother : t ≠ u := by
        rintro rfl
        have hstage : m.stages name t = some .waiting :=
          h.stage_of_mem (by rw [hwaits]; exact List.mem_cons_self)
        rw [hs] at hstage
        cases hstage
        cases howns
      -- the call is the innermost one of its thread, as all others are inside
      have hinner : ∃ l, m.calls u = ⟨name, s⟩ :: l := by
        have hmem := mem_of_stageOf hs
        have hnested := h.nested u
        cases hcalls : m.calls u with
        | nil =>
            rw [hcalls] at hmem
            cases hmem
        | cons c l =>
            rw [hcalls] at hmem hnested
            rcases List.mem_cons.mp hmem with rfl | hmem
            · exact ⟨l, rfl⟩
            · have hinside : s = .inside := hnested.outer _ hmem
              rw [hinside] at hunclean
              exact absurd rfl hunclean
      rcases hinner with ⟨l, hcalls⟩
      rcases runs_out he hpoisoned hcalls howns hunclean with ⟨e', hruns, rfl, hlock'⟩
      refine ⟨_, hruns, ?_, calls_withCall_ne m hother l e' none⟩
      exact (Function.update_self ..).trans hlock'

theorem Coherent.rejectsAll (h : m.Coherent) (he : m.entryAt name = some e) :
    m.RejectsAll name e := by
  intro hpoisoned t
  constructor
  · intro rest hwaits
    rcases h.runs_unlocked he hpoisoned hwaits with ⟨m₁, hruns, hlock, hcalls⟩
    rcases h.runs_poisoned hruns he hpoisoned with ⟨e₁, he₁, hpoisoned₁, _⟩
    rw [hwaits] at hcalls
    have hself : m₁.Runs (m₁.withCall t rest e₁ (some .waiting)) := by
      rw [withCall_self he₁ hcalls]
      exact .refl
    have hlocked := hself.tail (step_withCall (.lock ((lock_of_entryAt he₁).trans hlock)))
    have hchecked := hlocked.tail (step_withCall (.poisoned hpoisoned₁))
    have hrejected : m₁.Runs (m₁.withCall t rest (e₁.rejected t) none) :=
      hchecked.tail (step_withCall .reject)
    have hname := name_of_entryAt he₁
    subst hname
    exact ⟨_, hruns.trans hrejected, calls_withCall .., e₁.events,
      events_put_self m₁ (e₁.rejected t)⟩
  · intro hholder a hreaches
    have haway := World.turnsAway_poisoned hholder hpoisoned t name
    exact ⟨haway.perform (guard_of_entryAt he) a hreaches, World.Access.guarded_atLock _ a⟩

end Machine

/-- Whatever the threads do, in whatever order: a lock lets one thread in and records it, turns it
away when it asks again, is free after every call, and is poisoned for good by a callback that
gives up.  The operations of the world are runs of the machine. -/
theorem lock_protocol {w : World} {m : Machine}
    (hfree : ∀ (name : String) (g : Guard), w.guarded.get? name = some g → g.IsFree)
    (hruns : (Machine.start w).Runs m) :
    (∀ name e, m.entryAt name = some e →
      m.Exclusive name e ∧ m.RefusesHolder name e ∧ m.PoisonedByPanic name e ∧
        m.StaysPoisoned name e ∧ m.RejectsAll name e) ∧
    (∀ name, m.ReleasesOnExit name) ∧ m.Executes := by
  have hm := (Machine.coherent_start hfree).runs hruns
  refine ⟨fun name e he => ?_, hm.releasesOnExit, fun t name a hwork => ?_⟩
  · exact ⟨hm.exclusive he, Machine.refusesHolder he, hm.poisonedByPanic he, hm.staysPoisoned he,
      hm.rejectsAll he⟩
  · refine ⟨Performs.access a hwork, fun g hg hreaches => ?_⟩
    exact PerformsAt.access hg a hreaches hwork

def oneLock : World where
  guarded := NameMap.empty.insert "n" { var := 0 }

def untouched : Entry where
  name := "n"
  guard := { var := 0 }
  lock := none
  events := []

def contended : Machine :=
  ((Machine.start oneLock).withCall 1 [] (untouched.entered 1) (some .inside)).withCall 2 []
    (untouched.entered 1) (some .waiting)

def givenUp : Machine :=
  contended.withCall 1 [] ((untouched.entered 1).left 1 (.error (.panic .absentValue))) none

theorem runs_givenUp : (Machine.start oneLock).Runs givenUp := by
  have hentry : (Machine.start oneLock).entryAt "n" = some untouched :=
    Machine.entryAt_of_guard (NameMap.get?_insert_self _ _ _)
  have hidle : (Machine.start oneLock).Ready 1 := by
    intro c hc
    cases hc
  have henter := Machine.runs_enter hidle hentry rfl ⟨rfl, rfl⟩
  have hready : ((Machine.start oneLock).withCall 1 [] (untouched.entered 1)
      (some .inside)).Ready 2 := by
    intro c hc
    cases hc
  have hask := Machine.runs_ask hready (Machine.entryAt_withCall ..) (by decide)
  have hinside : contended.calls 1 = ⟨"n", .inside⟩ :: [] := rfl
  have hleave := Machine.runs_leave (Machine.entryAt_withCall ..) hinside
    (.error (.panic .absentValue))
  exact (henter.trans hask).trans hleave

/-- The thread that waits while another one gives up gets the lock next, and fails. -/
theorem waiter_fails_after_panic :
    (Machine.start oneLock).Runs givenUp ∧ givenUp.calls 2 = [⟨"n", .waiting⟩] ∧
      ∃ m', givenUp.Runs m' ∧ m'.calls 2 = [] ∧
        ∃ events, m'.events "n" = .failed 2 (poisonedFault "n") :: events := by
  have hfree (name : String) (g : Guard) (hg : oneLock.guarded.get? name = some g) : g.IsFree := by
    change (NameMap.insert _ _ _).get? name = some g at hg
    rw [NameMap.get?_insert] at hg
    by_cases hname : name = "n"
    · rw [if_pos hname] at hg
      cases hg
      exact ⟨rfl, rfl⟩
    · rw [if_neg hname] at hg
      cases hg
  have hprotocol := lock_protocol hfree runs_givenUp
  rcases hprotocol.1 "n" _ (Machine.entryAt_withCall ..) with ⟨_, _, _, _, hrejects⟩
  exact ⟨runs_givenUp, rfl, (hrejects rfl 2).1 [] rfl⟩

end Lock
end ScriptCore
