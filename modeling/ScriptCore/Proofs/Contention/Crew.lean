import Mathlib.Algebra.GroupWithZero.Nat
import Mathlib.Data.List.Nodup
import Mathlib.Logic.Relation
import ScriptCore.Proofs.Contention.Counter

/-!
# No update is lost

Any number of workers add to one integer variable.  However their steps are
mixed, no update fails, and in the end the variable holds the sum of all
additions.  The variable holds at all times what has been written so far, and
what the worker inside the lock has read is what the variable still holds.
-/

namespace ScriptCore

structure Crew where
  workers : List Worker
  world : World

namespace Crew

/-- A worker joins with a thread of its own, or one of the workers makes a step. -/
inductive Step (p : Plan) (c : Crew) : Crew → Prop where
  | hire {t : ThreadId} {w : World} (hfork : World.fork.run c.world = (.ok t, w)) :
      Step p c
        { workers :=
            { thread := t, left := p.rounds, wait := w.settings.minBackoff } :: c.workers
          world := w }
  | work {before after : List Worker} {x : Worker} (hworkers : c.workers = before ++ x :: after) :
      Step p c
        { workers := before ++ (x.step p c.world).1 :: after
          world := (x.step p c.world).2 }

def Runs (p : Plan) : Crew → Crew → Prop :=
  Relation.ReflTransGen (Step p)

def IsDone (c : Crew) : Prop :=
  ∀ x ∈ c.workers, x.left = 0 ∧ x.point = .outside

end Crew

def Worker.HasFailed (x : Worker) : Prop :=
  ∃ f, x.point = .failed f ∨ x.point = .leaving (.error f)

/-- What the variable holds after a number of additions; it wraps around at the ends of its
range. -/
def Plan.total (p : Plan) (start : Int64) (additions : Nat) : Int64 :=
  Int64.ofInt (start.toInt + additions * p.amount.toInt)

theorem Plan.total_zero (p : Plan) (start : Int64) : p.total start 0 = start := by
  unfold total
  rw [Int.ofNat_zero, Int.zero_mul, Int.add_zero, Int64.ofInt_toInt]

theorem Plan.total_succ (p : Plan) (start : Int64) (additions : Nat) :
    p.total start (additions + 1) = p.total start additions + p.amount := by
  unfold total
  rw [Int.natCast_add, Int.add_mul, ← Int.add_assoc, Int64.ofInt_add]
  simp

/-!
## The invariant
-/

namespace Worker

def made (p : Plan) (x : Worker) : Nat :=
  match x.point with
  | .leaving _ => p.rounds - x.left + 1
  | _ => p.rounds - x.left

def remaining (x : Worker) : Nat :=
  match x.point with
  | .entered _ => 4 * x.left - 1
  | .read _ _ => 4 * x.left - 2
  | .leaving _ => 4 * x.left - 3
  | _ => 4 * x.left

/-- A worker outside the lock, or the holder of the lock in one of the stages of an update. -/
inductive AtWork (id : VariableId) (n : Int64) (holder : Option ThreadId) (x : Worker) : Prop where
  | outside (hpoint : x.point = .outside)
  | entered (hpoint : x.point = .entered id) (hholder : holder = some x.thread)
      (hleft : x.left ≠ 0)
  | read (hpoint : x.point = .read id (.int n)) (hholder : holder = some x.thread)
      (hleft : x.left ≠ 0)
  | leaving (hpoint : x.point = .leaving (.ok ())) (hholder : holder = some x.thread)
      (hleft : x.left ≠ 0)

end Worker

namespace Crew

variable {p : Plan} {base : World} {start : Int64} {id : VariableId} {holder : Option ThreadId}
  {c c' : Crew} {before after : List Worker} {x x' : Worker}

def made (p : Plan) (workers : List Worker) : Nat :=
  (workers.map (Worker.made p)).sum

theorem made_append (p : Plan) (before after : List Worker) (x : Worker) :
    made p (before ++ x :: after) = made p before + (x.made p + made p after) := by
  unfold made
  rw [List.map_append, List.sum_append, List.map_cons, List.sum_cons]

theorem mem_middle {y : Worker} :
    y ∈ before ++ x :: after ↔ y = x ∨ y ∈ before ++ after :=
  List.perm_middle.mem_iff.trans List.mem_cons

structure Sound (p : Plan) (base : World) (start : Int64) (id : VariableId)
    (holder : Option ThreadId) (c : Crew) : Prop where
  counter : c.world.Counter p.name id (p.total start (made p c.workers)) holder
  locals : c.world.locals = base.locals
  known : ∀ x ∈ c.workers, x.thread < c.world.threads.size
  distinct : (c.workers.map Worker.thread).Nodup
  bound : ∀ x ∈ c.workers, x.left ≤ p.rounds
  atWork : ∀ x ∈ c.workers, x.AtWork id (p.total start (made p c.workers)) holder
  holds : ∀ t, holder = some t → ∃ x ∈ c.workers, x.thread = t ∧ x.point ≠ .outside

namespace Sound

theorem thread_ne (h : Sound p base start id holder c) (hworkers : c.workers = before ++ x :: after)
    {y : Worker} (hy : y ∈ before ++ after) : y.thread ≠ x.thread := by
  have hdistinct := h.distinct
  rw [hworkers, List.map_append, List.map_cons] at hdistinct
  have hnot := (List.nodup_middle.mp hdistinct)
  rw [List.nodup_cons, ← List.map_append] at hnot
  intro heq
  exact hnot.1 (heq ▸ List.mem_map_of_mem hy)

theorem others_outside (h : Sound p base start id holder c)
    (hworkers : c.workers = before ++ x :: after) (hholder : ∀ t, holder = some t → t = x.thread)
    {y : Worker} (hy : y ∈ before ++ after) : y.point = .outside := by
  have hmem : y ∈ c.workers := by
    rw [hworkers]
    exact mem_middle.mpr (Or.inr hy)
  have hne := h.thread_ne hworkers hy
  cases h.atWork y hmem with
  | outside hpoint => exact hpoint
  | entered _ hy _ => exact absurd (hholder _ hy) hne
  | read _ hy _ => exact absurd (hholder _ hy) hne
  | leaving _ hy _ => exact absurd (hholder _ hy) hne

theorem replace (h : Sound p base start id holder c) (hworkers : c.workers = before ++ x :: after)
    {w : World} {holder' : Option ThreadId}
    (hcounter : w.Counter p.name id (p.total start (made p (before ++ x' :: after))) holder')
    (hthreads : w.threads = c.world.threads) (hthread : x'.thread = x.thread)
    (hbound : x'.left ≤ p.rounds)
    (hatWork : x'.AtWork id (p.total start (made p (before ++ x' :: after))) holder')
    (hothers : ∀ y ∈ before ++ after,
      y.AtWork id (p.total start (made p (before ++ x' :: after))) holder')
    (hholds : ∀ t, holder' = some t →
      ∃ y ∈ before ++ x' :: after, y.thread = t ∧ y.point ≠ .outside) :
    Sound p base start id holder' { workers := before ++ x' :: after, world := w } := by
  have hold (y : Worker) (hy : y = x ∨ y ∈ before ++ after) : y ∈ c.workers := by
    rw [hworkers]
    exact mem_middle.mpr hy
  exact {
    counter := hcounter
    locals := by
      rw [← h.locals]
      funext t
      unfold World.locals
      rw [hthreads]
    known := by
      intro y hy
      change y.thread < w.threads.size
      rw [hthreads]
      rcases mem_middle.mp hy with rfl | hy
      · rw [hthread]
        exact h.known x (hold x (Or.inl rfl))
      · exact h.known y (hold y (Or.inr hy))
    distinct := by
      have hdistinct := h.distinct
      rw [hworkers, List.map_append, List.map_cons] at hdistinct
      rw [List.map_append, List.map_cons, hthread]
      exact hdistinct
    bound := by
      intro y hy
      rcases mem_middle.mp hy with rfl | hy
      · exact hbound
      · exact h.bound y (hold y (Or.inr hy))
    atWork := by
      intro y hy
      rcases mem_middle.mp hy with rfl | hy
      · exact hatWork
      · exact hothers y hy
    holds := hholds }

theorem replace_alone (h : Sound p base start id holder c)
    (hworkers : c.workers = before ++ x :: after) (hholder : ∀ t, holder = some t → t = x.thread)
    {w : World} {holder' : Option ThreadId}
    (hcounter : w.Counter p.name id (p.total start (made p (before ++ x' :: after))) holder')
    (hthreads : w.threads = c.world.threads) (hthread : x'.thread = x.thread)
    (hbound : x'.left ≤ p.rounds)
    (hatWork : x'.AtWork id (p.total start (made p (before ++ x' :: after))) holder')
    (hholds : ∀ t, holder' = some t → x.thread = t ∧ x'.point ≠ .outside) :
    Sound p base start id holder' { workers := before ++ x' :: after, world := w } := by
  refine h.replace hworkers hcounter hthreads hthread hbound hatWork ?_ ?_
  · intro y hy
    exact .outside (h.others_outside hworkers hholder hy)
  · intro t ht
    rcases hholds t ht with ⟨rfl, hpoint⟩
    exact ⟨x', mem_middle.mpr (Or.inl rfl), hthread, hpoint⟩

theorem replace_same (h : Sound p base start id holder c)
    (hworkers : c.workers = before ++ x :: after) (hmade : x'.made p = x.made p)
    (hthread : x'.thread = x.thread) (hbound : x'.left ≤ p.rounds)
    (hatWork : x'.AtWork id (p.total start (made p c.workers)) holder)
    (hpoint : x.point ≠ .outside → x'.point ≠ .outside) :
    Sound p base start id holder { workers := before ++ x' :: after, world := c.world } := by
  have hsum : made p (before ++ x' :: after) = made p c.workers := by
    rw [hworkers, made_append, made_append, hmade]
  refine h.replace hworkers ?_ rfl hthread hbound ?_ ?_ ?_
  · rw [hsum]
    exact h.counter
  · rw [hsum]
    exact hatWork
  · intro y hy
    rw [hsum]
    refine h.atWork y ?_
    rw [hworkers]
    exact mem_middle.mpr (Or.inr hy)
  · intro t ht
    rcases h.holds t ht with ⟨y, hy, hyt, hyp⟩
    rw [hworkers] at hy
    rcases mem_middle.mp hy with rfl | hy
    · exact ⟨x', mem_middle.mpr (Or.inl rfl), hthread.trans hyt, hpoint hyp⟩
    · exact ⟨y, mem_middle.mpr (Or.inr hy), hyt, hyp⟩

/-!
## Steps
-/

theorem work_outside (h : Sound p base start id holder c)
    (hworkers : c.workers = before ++ x :: after) (hpoint : x.point = .outside) :
    ∃ holder', Sound p base start id holder'
        { workers := before ++ (x.step p c.world).1 :: after, world := (x.step p c.world).2 } ∧
      (holder = none → x.left ≠ 0 → (x.step p c.world).1.remaining < x.remaining) := by
  have hx : x ∈ c.workers := by
    rw [hworkers]
    exact mem_middle.mpr (Or.inl rfl)
  have hbound := h.bound x hx
  by_cases hleft : x.left = 0
  · rw [Worker.step_finished hpoint hleft]
    refine ⟨holder, h.replace_same hworkers rfl rfl hbound (.outside hpoint) fun hp => hp, ?_⟩
    intro _ hne
    exact absurd hleft hne
  cases holder with
  | none =>
      rw [Worker.step_enter hpoint hleft h.counter.guard ⟨rfl, rfl⟩]
      have hmade : made p (before ++ { x with
            point := .entered id, wait := c.world.settings.minBackoff } :: after) =
          made p c.workers := by
        rw [hworkers, made_append, made_append]
        simp only [Worker.made, hpoint]
      refine ⟨some x.thread, h.replace_alone hworkers (fun _ ht => nomatch ht) ?_ rfl rfl hbound
        (.entered rfl rfl hleft) ?_, ?_⟩
      · rw [hmade]
        exact h.counter.hold x.thread
      · intro t ht
        exact ⟨Option.some.inj ht, nofun⟩
      · intro _ _
        simp only [Worker.remaining, hpoint]
        omega
  | some t =>
      -- whoever has the lock is inside, and so it is not the worker that asks
      have hne : t ≠ x.thread := by
        rcases h.holds t rfl with ⟨y, hy, rfl, hyp⟩
        rw [hworkers] at hy
        rcases mem_middle.mp hy with rfl | hy
        · exact absurd hpoint hyp
        · exact h.thread_ne hworkers hy
      have hbusy : Guard.enter { var := id, holder := some t, isPoisoned := false } x.thread =
          .busy := by
        simp [Guard.enter, hne]
      rw [Worker.step_busy hpoint hleft h.counter.guard hbusy]
      refine ⟨some t, h.replace_same hworkers rfl rfl hbound (.outside hpoint) fun hp => hp, ?_⟩
      intro hnone
      cases hnone

theorem work_inside (h : Sound p base start id holder c)
    (hworkers : c.workers = before ++ x :: after) (hpoint : x.point ≠ .outside) :
    ∃ holder', Sound p base start id holder'
        { workers := before ++ (x.step p c.world).1 :: after, world := (x.step p c.world).2 } ∧
      (x.step p c.world).1.remaining < x.remaining := by
  have hx : x ∈ c.workers := by
    rw [hworkers]
    exact mem_middle.mpr (Or.inl rfl)
  have hbound := h.bound x hx
  cases h.atWork x hx with
  | outside hout => exact absurd hout hpoint
  | entered hentered hholder hleft =>
      rw [Worker.step_entered hentered h.counter.read]
      refine ⟨holder, h.replace_same hworkers ?_ rfl hbound (.read rfl hholder hleft) ?_, ?_⟩
      · simp only [Worker.made, hentered]
      · exact fun _ => nofun
      · simp only [Worker.remaining, hentered]
        omega
  | read hread hholder hleft =>
      rcases h.counter.write p.amount with ⟨heap, hwrite, hcounter⟩
      rw [Worker.step_read hread hwrite]
      have hmade : made p (before ++ { x with point := .leaving (.ok ()) } :: after) =
          made p c.workers + 1 := by
        rw [hworkers, made_append, made_append]
        simp only [Worker.made, hread]
        omega
      rw [← Plan.total_succ, ← hmade] at hcounter
      have honly (t : ThreadId) (ht : holder = some t) : t = x.thread := by
        rw [hholder] at ht
        exact (Option.some.inj ht).symm
      refine ⟨holder, h.replace_alone hworkers honly hcounter rfl rfl hbound
        (.leaving rfl hholder hleft) ?_, ?_⟩
      · intro t ht
        exact ⟨(honly t ht).symm, nofun⟩
      · simp only [Worker.remaining, hread]
        omega
  | leaving hleaving hholder hleft =>
      rw [Worker.step_leaving hleaving]
      have hmade : made p (before ++ { x with left := x.left - 1, point := .outside } :: after) =
          made p c.workers := by
        rw [hworkers, made_append, made_append]
        simp only [Worker.made, hleaving]
        omega
      have honly (t : ThreadId) (ht : holder = some t) : t = x.thread := by
        rw [hholder] at ht
        exact (Option.some.inj ht).symm
      refine ⟨none, h.replace_alone hworkers honly ?_ ?_ rfl ?_ (.outside rfl) nofun, ?_⟩
      · rw [hmade]
        exact h.counter.release
      · rw [World.release_regular h.counter.guard]
      · exact Nat.le_trans (Nat.sub_le _ _) hbound
      · simp only [Worker.remaining, hleaving]
        omega

theorem hire (h : Sound p base start id holder c) {t : ThreadId} {w : World}
    (hfork : World.fork.run c.world = (.ok t, w)) :
    Sound p base start id holder
      { workers := { thread := t, left := p.rounds, wait := w.settings.minBackoff } :: c.workers
        world := w } := by
  rcases World.run_fork c.world with ⟨lines, hrun⟩
  rw [hrun] at hfork
  cases hfork
  have hmade (wait : Duration) :
      made p ({ thread := c.world.threads.size, left := p.rounds, wait } :: c.workers) =
        made p c.workers := by
    simp [made, Worker.made]
  constructor
  · rw [hmade]
    exact { guard := h.counter.guard, frozen := h.counter.frozen, content := h.counter.content }
  · rw [← h.locals]
    exact funext (World.locals_newThread c.world lines)
  · intro x hx
    change x.thread < (c.world.threads.push {}).size
    rw [Array.size_push]
    rcases List.mem_cons.mp hx with rfl | hx
    · exact Nat.lt_succ_self _
    · exact Nat.lt_succ_of_lt (h.known x hx)
  · -- the number of the new thread is beyond all that are known
    rw [List.map_cons, List.nodup_cons]
    refine ⟨fun hmem => ?_, h.distinct⟩
    rcases List.mem_map.mp hmem with ⟨y, hy, heq⟩
    exact absurd heq (Nat.ne_of_lt (h.known y hy))
  · intro x hx
    rcases List.mem_cons.mp hx with rfl | hx
    · exact Nat.le_refl _
    · exact h.bound x hx
  · intro x hx
    rw [hmade]
    rcases List.mem_cons.mp hx with rfl | hx
    · exact .outside rfl
    · exact h.atWork x hx
  · intro t ht
    rcases h.holds t ht with ⟨y, hy, hyt, hyp⟩
    exact ⟨y, List.mem_cons_of_mem _ hy, hyt, hyp⟩

theorem step (h : Sound p base start id holder c) (hstep : c.Step p c') :
    ∃ holder', Sound p base start id holder' c' := by
  cases hstep with
  | hire hfork => exact ⟨holder, h.hire hfork⟩
  | @work before after x hworkers =>
      by_cases hpoint : x.point = .outside
      · rcases h.work_outside hworkers hpoint with ⟨holder', hsound, _⟩
        exact ⟨holder', hsound⟩
      · rcases h.work_inside hworkers hpoint with ⟨holder', hsound, _⟩
        exact ⟨holder', hsound⟩

theorem runs (h : Sound p base start id holder c) (hruns : c.Runs p c') :
    ∃ holder', Sound p base start id holder' c' := by
  induction hruns with
  | refl => exact ⟨holder, h⟩
  | tail _ hstep ih =>
      rcases ih with ⟨holder₁, h₁⟩
      exact h₁.step hstep

/-!
## Towards the end
-/

theorem exists_mover (h : Sound p base start id holder c) (hmore : ¬ c.IsDone) :
    ∃ x ∈ c.workers, x.point ≠ .outside ∨ holder = none ∧ x.left ≠ 0 := by
  cases holder with
  | some t =>
      rcases h.holds t rfl with ⟨x, hx, _, hpoint⟩
      exact ⟨x, hx, Or.inl hpoint⟩
  | none =>
      unfold IsDone at hmore
      push Not at hmore
      rcases hmore with ⟨x, hx, hleft⟩
      by_cases hzero : x.left = 0
      · exact ⟨x, hx, Or.inl (hleft hzero)⟩
      · exact ⟨x, hx, Or.inr ⟨rfl, hzero⟩⟩

theorem work (h : Sound p base start id holder c) (hworkers : c.workers = before ++ x :: after)
    (hmover : x.point ≠ .outside ∨ holder = none ∧ x.left ≠ 0) :
    ∃ holder', Sound p base start id holder'
        { workers := before ++ (x.step p c.world).1 :: after, world := (x.step p c.world).2 } ∧
      (x.step p c.world).1.remaining < x.remaining := by
  by_cases hpoint : x.point = .outside
  · rcases h.work_outside hworkers hpoint with ⟨holder', hsound, hless⟩
    rcases hmover with hin | ⟨hnone, hleft⟩
    · exact absurd hpoint hin
    · exact ⟨holder', hsound, hless hnone hleft⟩
  · exact h.work_inside hworkers hpoint

theorem finishes (h : Sound p base start id holder c) :
    ∃ c', c.Runs p c' ∧ c'.IsDone ∧ c'.workers.length = c.workers.length := by
  -- every step that somebody can make brings the crew nearer to its end
  induction hn : (c.workers.map Worker.remaining).sum using Nat.strongRecOn
    generalizing c holder with
  | ind n ih =>
      by_cases hdone : c.IsDone
      · exact ⟨c, .refl, hdone, rfl⟩
      rcases h.exists_mover hdone with ⟨x, hx, hmover⟩
      rcases List.append_of_mem hx with ⟨before, after, hworkers⟩
      rcases h.work hworkers hmover with ⟨holder', hsound, hless⟩
      have hsum : ((before ++ (x.step p c.world).1 :: after).map Worker.remaining).sum < n := by
        rw [← hn, hworkers]
        simp only [List.map_append, List.sum_append, List.map_cons, List.sum_cons]
        omega
      rcases ih _ hsum hsound rfl with ⟨c', hruns, hdone', hlength⟩
      refine ⟨c', .head (.work hworkers) hruns, hdone', ?_⟩
      rw [hlength, hworkers]
      simp

theorem not_failed (h : Sound p base start id holder c) (hx : x ∈ c.workers) : ¬ x.HasFailed := by
  rintro ⟨f, hf⟩
  cases h.atWork x hx with
  | outside hpoint => rw [hpoint] at hf; rcases hf with hf | hf <;> cases hf
  | entered hpoint _ _ => rw [hpoint] at hf; rcases hf with hf | hf <;> cases hf
  | read hpoint _ _ => rw [hpoint] at hf; rcases hf with hf | hf <;> cases hf
  | leaving hpoint _ _ => rw [hpoint] at hf; rcases hf with hf | hf <;> cases hf

theorem counter_of_isDone (h : Sound p base start id holder c) (hdone : c.IsDone) :
    c.world.Counter p.name id (p.total start (c.workers.length * p.rounds)) none := by
  have hmade : made p c.workers = c.workers.length * p.rounds := by
    have hall (n : Nat) (hn : n ∈ c.workers.map (Worker.made p)) : n = p.rounds := by
      rcases List.mem_map.mp hn with ⟨x, hx, rfl⟩
      rcases hdone x hx with ⟨hleft, hpoint⟩
      simp [Worker.made, hpoint, hleft]
    unfold made
    rw [List.eq_replicate_of_mem hall, List.sum_replicate_nat, List.length_map]
  have hfree : holder = none := by
    cases holder with
    | none => rfl
    | some t =>
        rcases h.holds t rfl with ⟨x, hx, _, hpoint⟩
        exact absurd (hdone x hx).2 hpoint
  subst hfree
  rw [← hmade]
  exact h.counter

end Sound

/-- However the steps of the workers are mixed, no update fails, and when all are done the variable
holds the sum.  The workers can always get done, and the four steps of an update without a break
are an update in one go. -/
theorem no_update_lost {w w₀ : World} {t₀ : ThreadId} {declared : Ty}
    (hdeclare : (World.declareGlobal t₀ p.name 2 declared (.int start)).run w = (.ok (), w₀))
    (hruns : Runs p { workers := [], world := w₀ } c) :
    (∀ x ∈ c.workers, ¬ x.HasFailed) ∧
    (c.IsDone → ∀ t, (w.locals t).get? p.name = none →
      ∃ found w' v, (World.lookup t none p.name).run c.world = (.ok found, w') ∧
        w'.vars[found]? = some v ∧ v.slot = .int (p.total start (c.workers.length * p.rounds))) ∧
    (∃ c', c.Runs p c' ∧ c'.IsDone ∧ c'.workers.length = c.workers.length) ∧
    ∀ (x : Worker) (w₁ w₂ : World) (r : Except Failure Unit), x.point = .outside → x.left ≠ 0 →
      (∀ g, w₁.guarded.get? p.name = some g → g.enter x.thread ≠ .busy) →
      (World.withMutableGlobal x.thread p.name (World.increase p.amount)).run w₁ = (r, w₂) →
      ∃ x', Worker.steps p 4 (x, w₁) = (x', w₂) ∧ x'.Concluded (x.left - 1) r := by
  rcases World.counter_of_declareGlobal hdeclare with ⟨id, hcounter, hthreads⟩
  have hstart : Sound p w start id none { workers := [], world := w₀ } := by
    constructor
    · rw [show made p [] = 0 from rfl, Plan.total_zero]
      exact hcounter
    · funext t
      unfold World.locals
      rw [hthreads]
    · exact nofun
    · exact List.nodup_nil
    · exact nofun
    · exact nofun
    · exact nofun
  rcases hstart.runs hruns with ⟨holder, hsound⟩
  refine ⟨fun x hx => hsound.not_failed hx, fun hdone t hlocal => ?_, hsound.finishes, ?_⟩
  · exact (hsound.counter_of_isDone hdone).lookup (by rw [hsound.locals, hlocal])
  · intro x w₁ w₂ r hpoint hleft hbusy hrun
    exact Worker.steps_update hpoint hleft hbusy hrun

def threeTwice : Plan where
  name := "n"
  amount := 3
  rounds := 2

def five : World :=
  ((World.declareGlobal 0 "n" 2 .missing (.int 5)).run {}).2

/-- Two workers add three to five, both of them twice. -/
theorem two_workers_make_seventeen :
    ∃ c, Runs threeTwice { workers := [], world := five } c ∧ c.IsDone ∧ c.workers.length = 2 ∧
      ∃ found w' v, (World.lookup 0 none "n").run c.world = (.ok found, w') ∧
        w'.vars[found]? = some v ∧ v.slot = .int 17 := by
  have hdeclare : (World.declareGlobal 0 threeTwice.name 2 .missing (.int 5)).run {} =
      (.ok (), five) := rfl
  rcases World.run_fork five with ⟨_, hfork⟩
  have hfirst := Step.hire (p := threeTwice) (c := { workers := [], world := five }) hfork
  rcases World.run_fork _ with ⟨_, hfork'⟩
  have hhired := (Relation.ReflTransGen.single hfirst).tail (.hire hfork')
  rcases (no_update_lost hdeclare hhired).2.2.1 with ⟨c, hruns, hdone, hlength⟩
  refine ⟨c, hhired.trans hruns, hdone, hlength, ?_⟩
  rcases (no_update_lost hdeclare (hhired.trans hruns)).2.1 hdone 0 rfl with
    ⟨found, w', v, hrun, hv, hslot⟩
  refine ⟨found, w', v, hrun, hv, ?_⟩
  rw [hslot, hlength]
  rfl

end Crew
end ScriptCore
