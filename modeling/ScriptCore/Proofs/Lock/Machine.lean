import Mathlib.Data.List.Nodup
import Mathlib.Logic.Relation
import ScriptCore.Proofs.Lock.Entry

/-!
# Threads at many locks

Any number of threads work on any number of shared mutable variables.  The
callback of a call may call again, so a thread has a stack of calls, and only
the innermost of them moves on.
-/

namespace ScriptCore
namespace Lock

open World (isPanic poisonedFault reentrantFault)

structure Call where
  name : String
  stage : Stage

/-- The world, the locks of all shared mutable variables and what has happened to each, and the
calls of all threads, the innermost first. -/
structure Machine where
  world : World
  locks : String → Option ThreadId
  events : String → List Event
  calls : ThreadId → List Call

namespace Machine

def start (world : World) : Machine where
  world
  locks _ := none
  events _ := []
  calls _ := []

def entryAt (m : Machine) (name : String) : Option Entry :=
  (m.world.guarded.get? name).map fun guard =>
    { name, guard, lock := m.locks name, events := m.events name }

def put (m : Machine) (e : Entry) : Machine :=
  { m with
    world.guarded := m.world.guarded.insert e.name e.guard
    locks := Function.update m.locks e.name e.lock
    events := Function.update m.events e.name e.events }

def setCalls (m : Machine) (t : ThreadId) (calls : List Call) : Machine :=
  { m with calls := Function.update m.calls t calls }

/-- The thread is in code of its own, and not in the code of a lock. -/
def Ready (m : Machine) (t : ThreadId) : Prop :=
  ∀ c ∈ m.calls t, c.stage = .inside

/-- A thread asks for a lock.  It is refused where it is recorded as the holder. -/
inductive Asks (m : Machine) (t : ThreadId) (name : String) : Machine → Prop where
  | refused {e : Entry} (he : m.entryAt name = some e) (hholder : e.guard.holder = some t) :
      Asks m t name (m.put { e with events := .failed t (reentrantFault name) :: e.events })
  | waits {e : Entry} (he : m.entryAt name = some e) (hholder : e.guard.holder ≠ some t) :
      Asks m t name (m.setCalls t (⟨name, .waiting⟩ :: m.calls t))

/-- The calls of a thread after a step of the innermost one. -/
def movedOn (name : String) (stage : Option Stage) (rest : List Call) : List Call :=
  match stage with
  | some s => ⟨name, s⟩ :: rest
  | none => rest

inductive Step (m : Machine) : Machine → Prop where
  | ask {t : ThreadId} {name : String} {m' : Machine} (hready : m.Ready t)
      (hasks : m.Asks t name m') : Step m m'
  | advance {t : ThreadId} {c : Call} {rest : List Call} {e e' : Entry} {s : Option Stage}
      (hcalls : m.calls t = c :: rest) (he : m.entryAt c.name = some e)
      (hadvance : Advance t e c.stage e' s) :
      Step m ((m.put e').setCalls t (movedOn c.name s rest))
  /-- A thread does something that concerns no lock. -/
  | act (world : World) (hguarded : world.guarded = m.world.guarded) : Step m { m with world }
  /-- A shared mutable variable is declared for the first time. -/
  | create {name : String} (id : VariableId) (hnew : m.world.guarded.get? name = none) :
      Step m { m with world.guarded := m.world.guarded.insert name { var := id } }

def Runs : Machine → Machine → Prop :=
  Relation.ReflTransGen Step

end Machine

/-!
## Stages
-/

def stageOf (name : String) : List Call → Option Stage
  | [] => none
  | c :: rest => if c.name = name then some c.stage else stageOf name rest

@[simp] theorem stageOf_cons_self (c : Call) (rest : List Call) :
    stageOf c.name (c :: rest) = some c.stage := if_pos rfl

theorem stageOf_cons_ne {name : String} {c : Call} (hne : c.name ≠ name) (rest : List Call) :
    stageOf name (c :: rest) = stageOf name rest := if_neg hne

theorem stageOf_eq_none {name : String} {l : List Call} (h : name ∉ l.map Call.name) :
    stageOf name l = none := by
  induction l with
  | nil => rfl
  | cons c rest ih =>
      rw [List.map_cons, List.mem_cons, not_or] at h
      rw [stageOf_cons_ne (Ne.symm h.1), ih h.2]

theorem mem_of_stageOf {name : String} {s : Stage} {l : List Call} (h : stageOf name l = some s) :
    ⟨name, s⟩ ∈ l := by
  induction l with
  | nil => cases h
  | cons c rest ih =>
      by_cases hc : c.name = name
      · subst hc
        rw [stageOf_cons_self] at h
        cases h
        exact List.mem_cons_self
      · rw [stageOf_cons_ne hc] at h
        exact List.mem_cons_of_mem _ (ih h)

/-- The calls of a thread are on different variables, and all but the innermost are inside. -/
structure Nested (l : List Call) : Prop where
  distinct : (l.map Call.name).Nodup
  outer : ∀ c ∈ l.tail, c.stage = .inside

namespace Nested

variable {l rest : List Call} {c : Call} {name : String}

theorem stageOf (h : Nested l) (hc : c ∈ l) : stageOf c.name l = some c.stage := by
  have hdistinct := h.distinct
  clear h
  induction l with
  | nil => cases hc
  | cons d rest ih =>
      rw [List.map_cons, List.nodup_cons] at hdistinct
      rcases List.mem_cons.mp hc with rfl | hc
      · exact stageOf_cons_self c rest
      · have hne : d.name ≠ c.name := by
          intro heq
          exact hdistinct.1 (heq ▸ List.mem_map_of_mem hc)
        rw [stageOf_cons_ne hne, ih hc hdistinct.2]

theorem push (hready : ∀ c ∈ l, c.stage = .inside) (h : Nested l) (hnew : name ∉ l.map Call.name)
    (s : Stage) : Nested (⟨name, s⟩ :: l) where
  distinct := List.nodup_cons.mpr ⟨hnew, h.distinct⟩
  outer := hready

theorem movedOn (h : Nested (c :: rest)) (s : Option Stage) :
    Nested (Machine.movedOn c.name s rest) := by
  cases s with
  | some s => exact ⟨h.distinct, h.outer⟩
  | none =>
      refine ⟨(List.nodup_cons.mp h.distinct).2, fun d hd => ?_⟩
      exact h.outer d (List.mem_of_mem_tail hd)

theorem stageOf_movedOn (h : Nested (c :: rest)) (s : Option Stage) :
    Lock.stageOf c.name (Machine.movedOn c.name s rest) = s := by
  cases s with
  | some s => exact stageOf_cons_self ⟨c.name, s⟩ rest
  | none => exact stageOf_eq_none (List.nodup_cons.mp h.distinct).1

end Nested

theorem stageOf_movedOn_ne {name : String} {c : Call} (hne : c.name ≠ name) (s : Option Stage)
    (rest : List Call) :
    stageOf name (Machine.movedOn c.name s rest) = stageOf name (c :: rest) := by
  rw [stageOf_cons_ne hne]
  cases s with
  | some s => exact stageOf_cons_ne (c := ⟨c.name, s⟩) hne rest
  | none => rfl

namespace Machine

variable {m m' : Machine} {t u : ThreadId} {name : String} {e : Entry}

def stages (m : Machine) (name : String) : ThreadId → Option Stage :=
  fun t => stageOf name (m.calls t)

theorem stages_setCalls (m : Machine) (t : ThreadId) (l : List Call) (name : String) :
    (m.setCalls t l).stages name = Function.update (m.stages name) t (stageOf name l) := by
  funext u
  change stageOf name (Function.update m.calls t l u) = _
  by_cases hu : u = t
  · rw [hu, Function.update_self, Function.update_self]
  · rw [Function.update_of_ne hu, Function.update_of_ne hu]
    rfl

theorem stages_setCalls_same {l : List Call} (h : stageOf name l = m.stages name t) :
    (m.setCalls t l).stages name = m.stages name := by
  rw [stages_setCalls, h, Function.update_eq_self]

theorem name_of_entryAt (he : m.entryAt name = some e) : e.name = name := by
  rcases Option.map_eq_some_iff.mp he with ⟨g, _, rfl⟩
  rfl

theorem entryAt_put_self (m : Machine) (e : Entry) : (m.put e).entryAt e.name = some e := by
  simp [entryAt, put, NameMap.get?_insert_self]

theorem entryAt_put_ne (m : Machine) (hne : e.name ≠ name) :
    (m.put e).entryAt name = m.entryAt name := by
  simp [entryAt, put, NameMap.get?_insert_ne _ hne.symm, Function.update_of_ne hne.symm]

theorem put_of_entryAt (he : m.entryAt name = some e) : m.put e = m := by
  rcases Option.map_eq_some_iff.mp he with ⟨g, hg, rfl⟩
  simp [put, NameMap.insert_of_get? hg, Function.update_eq_self]

theorem events_of_entryAt (he : m.entryAt name = some e) : e.events = m.events name := by
  rcases Option.map_eq_some_iff.mp he with ⟨g, _, rfl⟩
  rfl

theorem entryAt_of_guard {g : Guard} (hg : m.world.guarded.get? name = some g) :
    m.entryAt name = some { name, guard := g, lock := m.locks name, events := m.events name } := by
  unfold entryAt
  rw [hg]
  rfl

theorem guard_of_entryAt (he : m.entryAt name = some e) :
    m.world.guarded.get? name = some e.guard := by
  rcases Option.map_eq_some_iff.mp he with ⟨g, hg, rfl⟩
  exact hg

theorem lock_of_entryAt (he : m.entryAt name = some e) : e.lock = m.locks name := by
  rcases Option.map_eq_some_iff.mp he with ⟨g, _, rfl⟩
  rfl

theorem events_put_self (m : Machine) (e : Entry) : (m.put e).events e.name = e.events :=
  Function.update_self ..

theorem events_put {e' : Entry} (he : m.entryAt e'.name = some e) (hevents : e.events <:+ e'.events)
    (n : String) : m.events n <:+ (m.put e').events n := by
  change m.events n <:+ Function.update m.events e'.name e'.events n
  by_cases hn : n = e'.name
  · subst hn
    rw [Function.update_self, ← events_of_entryAt he]
    exact hevents
  · exact ⟨[], (Function.update_of_ne hn _ _).symm⟩

theorem Step.events (hstep : m.Step m') (n : String) : m.events n <:+ m'.events n := by
  cases hstep with
  | ask _ hasks =>
      cases hasks with
      | refused he _ =>
          have hname := name_of_entryAt he
          subst hname
          refine events_put ?_ (List.suffix_cons _ _) n
          exact he
      | waits _ _ => exact List.suffix_refl _
  | advance _ he hadvance =>
      have hname := name_of_entryAt he
      rw [← hname, ← hadvance.name] at he
      exact events_put he hadvance.events n
  | act _ _ => exact List.suffix_refl _
  | create _ _ => exact List.suffix_refl _

theorem Runs.events (hruns : m.Runs m') (n : String) : m.events n <:+ m'.events n := by
  induction hruns with
  | refl => exact List.suffix_refl _
  | tail _ hstep ih => exact ih.trans (hstep.events n)

/-!
## The invariant
-/

/-- What is true of all threads and all entries at all times. -/
structure Coherent (m : Machine) : Prop where
  nested : ∀ t, Nested (m.calls t)
  known : ∀ t, ∀ c ∈ m.calls t, (m.entryAt c.name).isSome
  fresh : ∀ name, m.entryAt name = none → m.locks name = none ∧ m.events name = []
  entries : ∀ name e, m.entryAt name = some e → e.Ok (m.stages name)

namespace Coherent

theorem calls_of_none (h : m.Coherent) (hnone : m.entryAt name = none) (t : ThreadId) :
    m.stages name t = none := by
  cases hs : m.stages name t with
  | none => rfl
  | some s =>
      have hsome := h.known t _ (mem_of_stageOf hs)
      rw [hnone] at hsome
      cases hsome

theorem replace (h : m.Coherent) {e' : Entry} {l : List Call}
    (hnested : Nested l) (hknown : ∀ c ∈ l, (m.entryAt c.name).isSome)
    (hok : e'.Ok (Function.update (m.stages e'.name) t (stageOf e'.name l)))
    (hsame : ∀ name, e'.name ≠ name → stageOf name l = m.stages name t) :
    ((m.put e').setCalls t l).Coherent := by
  have hsome (n : String) (hn : (m.entryAt n).isSome) : ((m.put e').entryAt n).isSome := by
    by_cases heq : e'.name = n
    · rw [← heq, entryAt_put_self]
      rfl
    · rw [entryAt_put_ne m heq]
      exact hn
  constructor
  · intro u
    change Nested (Function.update m.calls t l u)
    by_cases hu : u = t
    · rw [hu, Function.update_self]
      exact hnested
    · rw [Function.update_of_ne hu]
      exact h.nested u
  · intro u c hc
    change c ∈ Function.update m.calls t l u at hc
    apply hsome
    by_cases hu : u = t
    · rw [hu, Function.update_self] at hc
      exact hknown c hc
    · rw [Function.update_of_ne hu] at hc
      exact h.known u c hc
  · intro n hn
    change (m.put e').entryAt n = none at hn
    have hne : e'.name ≠ n := by
      intro heq
      rw [← heq, entryAt_put_self] at hn
      cases hn
    rw [entryAt_put_ne m hne] at hn
    rcases h.fresh n hn with ⟨hlock, hevents⟩
    constructor
    · exact (Function.update_of_ne hne.symm _ _).trans hlock
    · exact (Function.update_of_ne hne.symm _ _).trans hevents
  · intro n e₁ he₁
    change (m.put e').entryAt n = some e₁ at he₁
    by_cases heq : e'.name = n
    · subst heq
      rw [entryAt_put_self] at he₁
      cases he₁
      rw [stages_setCalls]
      exact hok
    · rw [entryAt_put_ne m heq] at he₁
      have hstages : ((m.put e').setCalls t l).stages n = m.stages n :=
        stages_setCalls_same (hsame n heq)
      rw [hstages]
      exact h.entries n e₁ he₁

theorem not_mem_calls (h : m.Coherent) (hready : m.Ready t) (he : m.entryAt name = some e)
    (hholder : e.guard.holder ≠ some t) : name ∉ (m.calls t).map Call.name := by
  intro hmem
  rcases List.mem_map.mp hmem with ⟨c, hc, rfl⟩
  apply hholder
  have hstage : m.stages c.name t = some c.stage := (h.nested t).stageOf hc
  rw [((h.entries _ _ he).holder t), hstage, hready c hc]
  rfl

theorem asks (h : m.Coherent) (hready : m.Ready t) (hasks : m.Asks t name m') : m'.Coherent := by
  cases hasks with
  | @refused e he hholder =>
      have hname := name_of_entryAt he
      subst hname
      have hok := (h.entries _ _ he).refuse t (reentrantFault e.name)
      rw [← Function.update_eq_self t (m.stages e.name)] at hok
      have hput := h.replace (h.nested t) (h.known t) hok (fun _ _ => rfl)
      simpa only [setCalls, put, Function.update_eq_self] using hput
  | @waits e he hholder =>
      have hname := name_of_entryAt he
      subst hname
      have hnew := h.not_mem_calls hready he hholder
      have hput := h.replace (l := ⟨e.name, .waiting⟩ :: m.calls t)
        (Nested.push hready (h.nested t) hnew _)
        (by
          intro c hc
          rcases List.mem_cons.mp hc with rfl | hc
          · rw [he]
            rfl
          · exact h.known t c hc)
        (by
          rw [stageOf_cons_self (⟨e.name, .waiting⟩ : Call)]
          exact (h.entries _ _ he).wait (stageOf_eq_none hnew))
        (fun n hn => stageOf_cons_ne (c := ⟨e.name, .waiting⟩) hn _)
      rw [put_of_entryAt he] at hput
      exact hput

theorem advance (h : m.Coherent) {c : Call} {rest : List Call} {e' : Entry} {s : Option Stage}
    (hcalls : m.calls t = c :: rest) (he : m.entryAt c.name = some e)
    (hadvance : Advance t e c.stage e' s) :
    ((m.put e').setCalls t (movedOn c.name s rest)).Coherent := by
  have hname : e'.name = c.name := hadvance.name.trans (name_of_entryAt he)
  have hnested := h.nested t
  rw [hcalls] at hnested
  have hstage : m.stages c.name t = some c.stage := by
    unfold stages
    rw [hcalls, stageOf_cons_self]
  have hok := hadvance.ok (h.entries _ _ he) hstage
  refine h.replace (hnested.movedOn s) ?_ ?_ ?_
  · intro d hd
    have hmem : d.name ∈ (m.calls t).map Call.name := by
      rw [hcalls, List.map_cons]
      cases s with
      | none => exact List.mem_cons_of_mem _ (List.mem_map_of_mem hd)
      | some s =>
          rcases List.mem_cons.mp hd with rfl | hd
          · exact List.mem_cons_self
          · exact List.mem_cons_of_mem _ (List.mem_map_of_mem hd)
    rcases List.mem_map.mp hmem with ⟨d', hd', heq⟩
    rw [← heq]
    exact h.known t d' hd'
  · rw [hname, hnested.stageOf_movedOn]
    exact hok
  · intro n hn
    rw [hname] at hn
    rw [stageOf_movedOn_ne hn]
    unfold stages
    rw [hcalls]

theorem act (h : m.Coherent) {world : World} (hguarded : world.guarded = m.world.guarded) :
    { m with world }.Coherent := by
  have hentry (n : String) : { m with world }.entryAt n = m.entryAt n := by
    unfold entryAt
    rw [hguarded]
  constructor
  · exact h.nested
  · intro u c hc
    rw [hentry]
    exact h.known u c hc
  · intro n hn
    rw [hentry] at hn
    exact h.fresh n hn
  · intro n e he
    rw [hentry] at he
    exact h.entries n e he

theorem create (h : m.Coherent) (hnew : m.world.guarded.get? name = none) (id : VariableId) :
    { m with world.guarded := m.world.guarded.insert name { var := id } }.Coherent := by
  have hnone : m.entryAt name = none := by
    unfold entryAt
    rw [hnew]
    rfl
  rcases h.fresh name hnone with ⟨hlock, hevents⟩
  have hstages := h.calls_of_none hnone
  have hok : Entry.Ok
      { name, guard := { var := id }, lock := m.locks name, events := m.events name }
      (m.stages name) := by
    constructor
    · intro t
      simp [hlock, hstages]
    · intro t
      simp [hstages]
    · intro _ _
      rfl
    · simp [Entry.HasPanicked, hevents, hstages]
  -- the calls stay as they are, which is to replace those of any thread by themselves
  rw [← Function.update_eq_self 0 (m.stages name)] at hok
  have hput := h.replace (h.nested 0) (h.known 0) hok (fun _ _ => rfl)
  simpa only [setCalls, put, Function.update_eq_self] using hput

theorem step (h : m.Coherent) (hstep : m.Step m') : m'.Coherent := by
  cases hstep with
  | ask hready hasks => exact h.asks hready hasks
  | advance hcalls he hadvance => exact h.advance hcalls he hadvance
  | act world hguarded => exact h.act hguarded
  | create id hnew => exact h.create hnew id

theorem runs (h : m.Coherent) (hruns : m.Runs m') : m'.Coherent := by
  induction hruns with
  | refl => exact h
  | tail _ hstep ih => exact ih.step hstep

end Coherent

theorem coherent_start {w : World}
    (hfree : ∀ (name : String) (g : Guard), w.guarded.get? name = some g → g.IsFree) :
    (start w).Coherent := by
  constructor
  · intro t
    exact ⟨List.nodup_nil, nofun⟩
  · intro t c hc
    cases hc
  · intro name _
    exact ⟨rfl, rfl⟩
  · intro name e he
    rcases Option.map_eq_some_iff.mp he with ⟨g, hg, rfl⟩
    rcases hfree name g hg with ⟨hholder, hclean⟩
    constructor
    · intro t
      simp [start, stages, stageOf]
    · intro t
      simp [hholder, stages, start, stageOf]
    · intro _ _
      exact hclean
    · simp [Entry.HasPanicked, start, stages, stageOf, hclean]

end Machine

end Lock
end ScriptCore
