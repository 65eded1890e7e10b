import Mathlib.Logic.Function.Basic
import ScriptCore.Proofs.World.Guard

/-!
# The protocol of one lock

A call that wants to work on a shared mutable variable goes through stages.  In
each step it looks at, or changes, one thing that other threads can see: the
lock, the record of the holder, or the mark of a poisoned variable.  Steps of
different threads may come in any order.
-/

namespace ScriptCore
namespace Lock

open World (isPanic poisonedFault)

inductive Stage where
  | waiting
  /-- It has the lock and looks whether the variable is poisoned. -/
  | checking
  | rejecting
  /-- It has found the variable clean and records itself as the holder. -/
  | claiming
  | inside
  /-- Its callback has given up, and nobody else knows yet. -/
  | unwinding
  | clearing
  | unlocking
deriving DecidableEq

namespace Stage

/-- The call has the lock. -/
def owns : Stage → Bool
  | .waiting => false
  | _ => true

def holds : Stage → Bool
  | .inside | .unwinding | .clearing => true
  | _ => false

def isClean : Stage → Bool
  | .claiming | .inside | .unwinding => true
  | _ => false

theorem owns_of_holds {s : Stage} (h : s.holds = true) : s.owns = true := by
  cases s with
  | waiting => exact absurd h Bool.false_ne_true
  | _ => rfl

theorem owns_of_isClean {s : Stage} (h : s.isClean = true) : s.owns = true := by
  cases s with
  | waiting => exact absurd h Bool.false_ne_true
  | _ => rfl

end Stage

/-- What is known about the calls on a variable. -/
inductive Event where
  | entered (thread : ThreadId)
  | ended (thread : ThreadId) (outcome : Except Failure Unit)
  | failed (thread : ThreadId) (error : Error)

/-- A shared mutable variable with its lock, and what has happened to it, the latest first. -/
structure Entry where
  name : String
  guard : Guard
  lock : Option ThreadId
  events : List Event

namespace Entry

def HasPanicked (e : Entry) : Prop :=
  ∃ t r, Event.ended t r ∈ e.events ∧ isPanic r = true

end Entry

/-- One step of a call of a thread.  The stage after it is missing where the call is over. -/
inductive Advance (t : ThreadId) (e : Entry) : Stage → Entry → Option Stage → Prop where
  | lock (hunlocked : e.lock = none) :
      Advance t e .waiting { e with lock := some t } (some .checking)
  | poisoned (hpoisoned : e.guard.isPoisoned = true) : Advance t e .checking e (some .rejecting)
  | clean (hclean : e.guard.isPoisoned = false) : Advance t e .checking e (some .claiming)
  | reject :
      Advance t e .rejecting
        { e with lock := none, events := .failed t (poisonedFault e.name) :: e.events } none
  | claim :
      Advance t e .claiming
        { e with guard.holder := some t, events := .entered t :: e.events } (some .inside)
  /-- The callback binds the name to another variable. -/
  | rebind (id : VariableId) : Advance t e .inside { e with guard.var := id } (some .inside)
  | finish (r : Except Failure Unit) :
      Advance t e .inside { e with events := .ended t r :: e.events }
        (some (if isPanic r then .unwinding else .clearing))
  | poison : Advance t e .unwinding { e with guard.isPoisoned := true } (some .clearing)
  | clear : Advance t e .clearing { e with guard.holder := none } (some .unlocking)
  | unlock : Advance t e .unlocking { e with lock := none } none

/-!
## The invariant of an entry

The lock and the record of the holder are marks: each tells which thread has a
call in one of certain stages.
-/

/-- The mark names the thread with a call in one of the stages. -/
def Marks (mark : Option ThreadId) (p : Stage → Bool) (stage : ThreadId → Option Stage) : Prop :=
  ∀ t, mark = some t ↔ (stage t).any p = true

namespace Marks

variable {mark : Option ThreadId} {p : Stage → Bool} {stage : ThreadId → Option Stage}
  {t : ThreadId} {s : Stage} {before after : Option Stage}

theorem keep (h : Marks mark p stage) (hs : stage t = before) (hsame : after.any p = before.any p) :
    Marks mark p (Function.update stage t after) := by
  intro u
  rw [h u]
  by_cases hu : u = t
  · rw [hu, Function.update_self, hsame, hs]
  · rw [Function.update_of_ne hu]

theorem set (h : Marks none p stage) (hafter : after.any p = true) :
    Marks (some t) p (Function.update stage t after) := by
  intro u
  by_cases hu : u = t
  · rw [hu, Function.update_self]
    exact iff_of_true rfl hafter
  · rw [Function.update_of_ne hu, ← h u]
    exact iff_of_false (fun heq => hu (Option.some.inj heq).symm) (fun heq => nomatch heq)

theorem unset (h : Marks mark p stage) (hs : stage t = some s) (hp : p s = true)
    (hafter : after.any p = false) : Marks none p (Function.update stage t after) := by
  have ht : mark = some t := by
    rw [h t, hs]
    exact hp
  intro u
  refine iff_of_false (fun heq => nomatch heq) ?_
  by_cases hu : u = t
  · rw [hu, Function.update_self, hafter]
    exact Bool.false_ne_true
  · rw [Function.update_of_ne hu, ← h u, ht]
    exact fun heq => hu (Option.some.inj heq).symm

theorem eq_none (h : Marks mark p stage) (hnobody : ∀ t, (stage t).any p = false) :
    mark = none := by
  cases mark with
  | none => rfl
  | some t => exact absurd ((h t).mp rfl) (by rw [hnobody t]; exact Bool.false_ne_true)

end Marks

/-- What is true of an entry at all times, with the stages of all calls on it. -/
structure Entry.Ok (e : Entry) (stage : ThreadId → Option Stage) : Prop where
  lock : Marks e.lock Stage.owns stage
  holder : Marks e.guard.holder Stage.holds stage
  clean : ∀ t, (stage t).any Stage.isClean = true → e.guard.isPoisoned = false
  panicked : e.HasPanicked ↔ e.guard.isPoisoned = true ∨ ∃ t, stage t = some .unwinding

section

variable {e e' : Entry} {stage : ThreadId → Option Stage} {t u : ThreadId} {s : Stage}
  {s' : Option Stage}

namespace Entry

theorem hasPanicked_cons {ev : Event} (hev : ∀ t r, ev = .ended t r → isPanic r = false) :
    { e with events := ev :: e.events }.HasPanicked ↔ e.HasPanicked := by
  constructor
  · rintro ⟨t, r, hmem, hr⟩
    cases hmem with
    | head =>
        rw [hev t r rfl] at hr
        cases hr
    | tail _ hmem => exact ⟨t, r, hmem, hr⟩
  · rintro ⟨t, r, hmem, hr⟩
    exact ⟨t, r, List.mem_cons_of_mem _ hmem, hr⟩

namespace Ok

theorem locked (h : e.Ok stage) (hs : stage t = some s) (howns : s.owns = true) :
    e.lock = some t := by
  apply (h.lock t).mpr
  rw [hs]
  exact howns

theorem owner_unique (h : e.Ok stage) (hs : stage t = some s) (howns : s.owns = true)
    {s₁ : Stage} (hs₁ : stage u = some s₁) (howns₁ : s₁.owns = true) : u = t := by
  have hlock := h.locked hs₁ howns₁
  rw [h.locked hs howns] at hlock
  exact (Option.some.inj hlock).symm

theorem nobody_holds (h : e.Ok stage) (hs : stage t = some s) (howns : s.owns = true)
    (hholds : s.holds = false) : e.guard.holder = none := by
  refine h.holder.eq_none fun u => Bool.eq_false_iff.mpr fun hu => ?_
  rcases (Option.any_eq_true _ _).mp hu with ⟨s₁, hs₁, hholds₁⟩
  have heq := h.owner_unique hs howns hs₁ (Stage.owns_of_holds hholds₁)
  rw [heq, hs] at hs₁
  cases hs₁
  rw [hholds] at hholds₁
  cases hholds₁

theorem not_isClean (h : e.Ok stage) (hpoisoned : e.guard.isPoisoned = true)
    (hs : stage t = some s) : s.isClean ≠ true := by
  intro hclean
  have hfalse := h.clean t (by rw [hs, Option.any_some, hclean])
  rw [hpoisoned] at hfalse
  cases hfalse

end Ok
end Entry

theorem exists_unwinding_update (hs : stage t ≠ some .unwinding) (hs' : s' ≠ some .unwinding) :
    (∃ u, Function.update stage t s' u = some .unwinding) ↔ ∃ u, stage u = some .unwinding := by
  constructor
  · rintro ⟨u, hu⟩
    by_cases heq : u = t
    · rw [heq, Function.update_self] at hu
      exact absurd hu hs'
    · rw [Function.update_of_ne heq] at hu
      exact ⟨u, hu⟩
  · rintro ⟨u, hu⟩
    have heq : u ≠ t := by
      rintro rfl
      exact hs hu
    exact ⟨u, by rw [Function.update_of_ne heq, hu]⟩

theorem Entry.Ok.move (h : e.Ok stage) {before : Option Stage} (hs : stage t = before)
    (hlock : Marks e'.lock Stage.owns (Function.update stage t s'))
    (hholder : Marks e'.guard.holder Stage.holds (Function.update stage t s'))
    (hpoisoned : e'.guard.isPoisoned = e.guard.isPoisoned)
    (hpanicked : e'.HasPanicked ↔ e.HasPanicked)
    (hclean : s'.any Stage.isClean = true → e.guard.isPoisoned = false)
    (hbefore : before ≠ some .unwinding) (hafter : s' ≠ some .unwinding) :
    e'.Ok (Function.update stage t s') where
  lock := hlock
  holder := hholder
  clean u hu := by
    rw [hpoisoned]
    by_cases heq : u = t
    · rw [heq, Function.update_self] at hu
      exact hclean hu
    · rw [Function.update_of_ne heq] at hu
      exact h.clean u hu
  panicked := by
    have hstage : stage t ≠ some .unwinding := by
      rw [hs]
      exact hbefore
    rw [hpanicked, hpoisoned, h.panicked, exists_unwinding_update hstage hafter]

theorem Entry.Ok.refuse (h : e.Ok stage) (t : ThreadId) (error : Error) :
    { e with events := .failed t error :: e.events }.Ok stage := by
  have hquiet (u : ThreadId) (r : Except Failure Unit) (heq : Event.failed t error = .ended u r) :
      isPanic r = false := nomatch heq
  exact {
    lock := h.lock
    holder := h.holder
    clean := h.clean
    panicked := (Entry.hasPanicked_cons hquiet).trans h.panicked }

theorem Entry.Ok.wait (h : e.Ok stage) (hs : stage t = none) :
    e.Ok (Function.update stage t (some .waiting)) :=
  h.move hs (h.lock.keep hs rfl) (h.holder.keep hs rfl) rfl Iff.rfl nofun nofun nofun

theorem Advance.ok (h : e.Ok stage) (hs : stage t = some s) (hadvance : Advance t e s e' s') :
    e'.Ok (Function.update stage t s') := by
  have hclean (hsc : s.isClean = true) : e.guard.isPoisoned = false :=
    h.clean t (by rw [hs, Option.any_some, hsc])
  cases hadvance with
  | lock hunlocked =>
      have hlock := h.lock
      rw [hunlocked] at hlock
      exact h.move hs (hlock.set rfl) (h.holder.keep hs rfl) rfl Iff.rfl nofun nofun nofun
  | poisoned hpoisoned =>
      exact h.move hs (h.lock.keep hs rfl) (h.holder.keep hs rfl) rfl Iff.rfl nofun
        nofun nofun
  | clean hnow =>
      exact h.move hs (h.lock.keep hs rfl) (h.holder.keep hs rfl) rfl Iff.rfl
        (fun _ => hnow) nofun nofun
  | reject =>
      exact h.move hs (h.lock.unset hs rfl rfl) (h.holder.keep hs rfl) rfl
        (Entry.hasPanicked_cons nofun) nofun nofun nofun
  | claim =>
      -- only the owner of the lock can be recorded, and this one is not yet
      have hholder := h.holder
      rw [h.nobody_holds hs rfl rfl] at hholder
      exact h.move hs (h.lock.keep hs rfl) (hholder.set rfl) rfl
        (Entry.hasPanicked_cons nofun) (fun _ => hclean rfl) nofun nofun
  | rebind id =>
      exact h.move hs (h.lock.keep hs rfl) (h.holder.keep hs rfl) rfl Iff.rfl
        (fun _ => hclean rfl) nofun nofun
  | finish r =>
      cases hr : isPanic r with
      | false =>
          have hpanicked : { e with events := .ended t r :: e.events }.HasPanicked ↔
              e.HasPanicked := by
            refine Entry.hasPanicked_cons fun _ _ heq => ?_
            cases heq
            exact hr
          exact h.move hs (h.lock.keep hs rfl) (h.holder.keep hs rfl) rfl hpanicked
            nofun nofun nofun
      | true =>
          exact {
            lock := h.lock.keep hs rfl
            holder := h.holder.keep hs rfl
            clean := fun _ _ => hclean rfl
            panicked := iff_of_true ⟨t, r, List.mem_cons_self, hr⟩
              (Or.inr ⟨t, Function.update_self ..⟩) }
  | poison =>
      refine {
        lock := h.lock.keep hs rfl
        holder := h.holder.keep hs rfl
        clean := fun u hu => ?_
        panicked := iff_of_true (h.panicked.mpr (Or.inr ⟨t, hs⟩)) (Or.inl rfl) }
      -- the lock keeps all others out of the stages that rely on a clean variable
      by_cases heq : u = t
      · rw [heq, Function.update_self] at hu
        cases hu
      · rw [Function.update_of_ne heq] at hu
        rcases (Option.any_eq_true _ _).mp hu with ⟨s₁, hs₁, hclean₁⟩
        exact absurd (h.owner_unique hs rfl hs₁ (Stage.owns_of_isClean hclean₁)) heq
  | clear =>
      exact h.move hs (h.lock.keep hs rfl) (h.holder.unset hs rfl rfl) rfl Iff.rfl nofun
        nofun nofun
  | unlock =>
      exact h.move hs (h.lock.unset hs rfl rfl) (h.holder.keep hs rfl) rfl Iff.rfl nofun
        nofun nofun

/-!
## What steps do to an entry
-/

theorem Advance.name (hadvance : Advance t e s e' s') : e'.name = e.name := by
  cases hadvance with
  | _ => rfl

theorem Advance.events (hadvance : Advance t e s e' s') : e.events <:+ e'.events := by
  cases hadvance with
  | reject => exact List.suffix_cons _ _
  | claim => exact List.suffix_cons _ _
  | finish r => exact List.suffix_cons _ _
  | _ => exact List.suffix_refl _

theorem Advance.released (h : e.Ok stage) (hs : stage t = some s)
    (hadvance : Advance t e s e' none) : e'.lock = none ∧ e'.guard.holder = none := by
  cases hadvance with
  | reject => exact ⟨rfl, h.nobody_holds hs rfl rfl⟩
  | unlock => exact ⟨rfl, h.nobody_holds hs rfl rfl⟩

theorem Advance.poisoned_stays (h : e.Ok stage) (hs : stage t = some s)
    (hadvance : Advance t e s e' s') (hpoisoned : e.guard.isPoisoned = true) :
    e'.guard.isPoisoned = true ∧
      (e'.events = e.events ∨ e'.events = .failed t (poisonedFault e.name) :: e.events) := by
  have hunclean := h.not_isClean hpoisoned hs
  cases hadvance with
  | reject => exact ⟨hpoisoned, Or.inr rfl⟩
  | claim => exact absurd rfl hunclean
  | finish r => exact absurd rfl hunclean
  | poison => exact ⟨rfl, Or.inl rfl⟩
  | _ => exact ⟨hpoisoned, Or.inl rfl⟩

end

end Lock
end ScriptCore
