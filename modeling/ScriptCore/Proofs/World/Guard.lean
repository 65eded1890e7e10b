import ScriptCore.Proofs.Operation
import ScriptCore.World.Guard

/-!
# What locks do

Asking for a lock has four answers.  Only one of them lets the work run, and
then the lock is given back however the work ends.
-/

namespace ScriptCore

namespace Guard

/-- Nobody holds the lock, and nobody has ever given up inside it. -/
def IsFree (g : Guard) : Prop :=
  g.holder = none ∧ g.isPoisoned = false

theorem enter_free {g : Guard} (hfree : g.IsFree) (thread : ThreadId) :
    g.enter thread = .entered { g with holder := some thread } := by
  simp [enter, hfree.1, hfree.2]

theorem enter_poisoned {g : Guard} (hholder : g.holder = none) (hpoisoned : g.isPoisoned = true)
    (thread : ThreadId) : g.enter thread = .poisoned := by
  simp [enter, hholder, hpoisoned]

theorem enter_not_free {g : Guard} (hfree : ¬ g.IsFree) (thread : ThreadId) :
    g.enter thread = .reentrant ∨ g.enter thread = .poisoned ∨ g.enter thread = .busy := by
  unfold enter
  cases hholder : g.holder with
  | some holder =>
      by_cases heq : holder = thread
      · simp [heq]
      · simp [heq]
  | none =>
      cases hpoisoned : g.isPoisoned with
      | false => exact absurd ⟨hholder, hpoisoned⟩ hfree
      | true => simp

theorem leave_free {g : Guard} (hfree : g.IsFree) (thread : ThreadId) :
    leave { g with holder := some thread } false = g := by
  obtain ⟨hholder, hclean⟩ := hfree
  cases g
  simp_all [leave]

end Guard

namespace World

variable {α : Type} {w w' : World} {name : String} {g : Guard} {thread : ThreadId}

theorem run_log (w : World) (level : Log.Level) (message : String)
    (attrs : List (String × Log.AttrValue)) :
    ∃ lines, (log level message attrs).run w = (.ok (), { w with lines }) := by
  unfold log
  rw [Op.run_modify]
  cases w.logger.line? _ with
  | none => exact ⟨w.lines, rfl⟩
  | some line => exact ⟨line :: w.lines, rfl⟩

theorem isPanic_map {α β : Type} (f : α → β) (r : Except Failure α) :
    isPanic (r.map f) = isPanic r := by
  cases r with
  | error e => cases e <;> rfl
  | ok a => rfl

theorem isOk_map {α β : Type} (f : α → β) (r : Except Failure α) : (r.map f).isOk = r.isOk := by
  cases r <;> rfl

/-- The fault of a lock whose holder gave up in the middle of an update. -/
def poisonedFault (name : String) : Error :=
  .ofKind .poisonedLock name "a previous holder panicked mid-update"

def reentrantFault (name : String) : Error :=
  .ofKind .invalidCall name "reentrant access to a shared-mutable global"

def hold (w : World) (name : String) (g : Guard) (thread : ThreadId) : World :=
  { w with guarded := w.guarded.insert name { g with holder := some thread } }

def release (w : World) (name : String) (isPoisoned : Bool) : World :=
  ((leaveGuard name isPoisoned).run w).2

theorem run_leaveGuard (w : World) (name : String) (isPoisoned : Bool) :
    (leaveGuard name isPoisoned).run w = (.ok (), w.release name isPoisoned) := by
  unfold release leaveGuard
  rw [Op.run_bind, Op.run_get, Op.next_ok]
  cases w.guarded.get? name with
  | none => rfl
  | some g => cases isPoisoned <;> rfl

theorem release_eq (hg : w.guarded.get? name = some g) (isPoisoned : Bool) :
    ∃ lines, w.release name isPoisoned =
      { w with guarded := w.guarded.insert name (g.leave isPoisoned), lines } := by
  unfold release leaveGuard
  rw [Op.run_bind, Op.run_get, Op.next_ok, hg]
  cases isPoisoned with
  | false => exact ⟨w.lines, rfl⟩
  | true =>
      rcases run_log { w with guarded := w.guarded.insert name (g.leave true) } .error
        "shared-mutable global poisoned" [("name", .text name)] with ⟨lines, hlines⟩
      exact ⟨lines, congrArg Prod.snd hlines⟩

theorem release_none (hg : w.guarded.get? name = none) (isPoisoned : Bool) :
    w.release name isPoisoned = w := by
  unfold release leaveGuard
  rw [Op.run_bind, Op.run_get, Op.next_ok, hg]
  rfl

theorem release_cases (w : World) (name : String) (isPoisoned : Bool) :
    ∃ guarded lines, w.release name isPoisoned = { w with guarded, lines } := by
  cases hg : w.guarded.get? name with
  | some g =>
      rcases release_eq hg isPoisoned with ⟨lines, hrelease⟩
      exact ⟨_, lines, hrelease⟩
  | none => exact ⟨w.guarded, w.lines, release_none hg isPoisoned⟩

theorem run_withGuard_free (hfree : g.IsFree) (work : VariableId → Op α) :
    (withGuard thread name g work).run w =
      (((work g.var).run (w.hold name g thread)).1,
        ((work g.var).run (w.hold name g thread)).2.release name
          (isPanic ((work g.var).run (w.hold name g thread)).1)) := by
  have henter : (enterGuard thread name g).run w = (.ok (), w.hold name g thread) := by
    unfold enterGuard
    rw [Guard.enter_free hfree]
    rfl
  unfold withGuard
  rw [Op.run_bind, henter, Op.next_ok, Op.run_bind, Op.run_tryCatch, Op.run_map]
  rcases (work g.var).run (w.hold name g thread) with ⟨r, w₁⟩
  cases r with
  | error f =>
      rw [Op.next_error]
      simp only [Op.run_pure, Op.next_ok, Op.run_bind, run_leaveGuard]
      rfl
  | ok a =>
      rw [Op.next_ok]
      simp only [Op.run_pure, Op.next_ok, Op.run_bind, run_leaveGuard]

theorem withGuard_cases {work : VariableId → Op α} {r : Except Failure α}
    (hrun : (withGuard thread name g work).run w = (r, w')) :
    (¬ g.IsFree ∧ ∃ f, r = .error f ∧ w' = w) ∨
      g.IsFree ∧ ∃ w₁, (work g.var).run (w.hold name g thread) = (r, w₁) ∧
        w' = w₁.release name (isPanic r) := by
  by_cases hfree : g.IsFree
  · rw [run_withGuard_free hfree] at hrun
    cases hrun
    exact Or.inr ⟨hfree, _, rfl, rfl⟩
  · refine Or.inl ⟨hfree, ?_⟩
    unfold withGuard enterGuard at hrun
    rcases Guard.enter_not_free hfree thread with henter | henter | henter
    · rw [henter] at hrun
      cases hrun
      exact ⟨_, rfl, rfl⟩
    · rw [henter] at hrun
      cases hrun
      exact ⟨_, rfl, rfl⟩
    · rw [henter] at hrun
      cases hrun
      exact ⟨_, rfl, rfl⟩

theorem release_regular (hg : w.guarded.get? name = some g) :
    w.release name false = { w with guarded := w.guarded.insert name (g.leave false) } := by
  unfold release leaveGuard
  rw [Op.run_bind, Op.run_get, Op.next_ok, hg]
  rfl

theorem release_hold (hg : w.guarded.get? name = some g) (hfree : g.IsFree)
    (hsame : w'.guarded = (w.hold name g thread).guarded) :
    w'.release name false = { w' with guarded := w.guarded } := by
  have hget : w'.guarded.get? name = some { g with holder := some thread } := by
    rw [hsame]
    exact NameMap.get?_insert_self _ _ _
  rw [release_regular hget, Guard.leave_free hfree, hsame, hold, NameMap.insert_insert,
    NameMap.insert_of_get? hg]

theorem run_withGuard_same {work : VariableId → Op α} {r : Except Failure α}
    (hg : w.guarded.get? name = some g) (hfree : g.IsFree) (hends : isPanic r = false)
    (hguarded : w'.guarded = w.guarded)
    (hheld : (work g.var).run (w.hold name g thread) =
      (r, { w' with guarded := (w.hold name g thread).guarded })) :
    (withGuard thread name g work).run w = (r, w') := by
  have hsame : ({ w' with guarded := (w.hold name g thread).guarded } : World).guarded =
      (w.hold name g thread).guarded := rfl
  have hrelease := release_hold hg hfree hsame
  rw [← hguarded] at hrelease
  rw [run_withGuard_free hfree, hheld, hends, hrelease]

end World
end ScriptCore
