import ScriptCore.Proofs.World.Globals
import ScriptCore.World.Contention

/-!
# An update in steps

A thread that adds to a shared mutable variable takes its lock, reads the
variable, writes the sum and leaves the lock.  Between two of these steps other
threads may do theirs.
-/

namespace ScriptCore

/-- How long a thread waits before it tries once more to take a lock.  It does not count its waits
unless it has to back off. -/
def Settings.nextWait (s : Settings) (wait : Duration) : Duration :=
  if s.strategy = "block" ∨ s.strategy = "spin" then wait
  else if s.maxBackoff.nanoseconds < 2 * wait.nanoseconds then s.maxBackoff
  else ⟨2 * wait.nanoseconds⟩

namespace World

def readContent (id : VariableId) : Op Value := do
  contentOf (← slot id)

/-- The second half of an addition, given what has been read. -/
def writeSum (amount : Int64) (id : VariableId) : Value → Op Unit
  | .int n => assignValue id (.int (n + amount))
  | _ => Op.stop .absentValue

theorem increase_eq (amount : Int64) (id : VariableId) :
    increase amount id = readContent id >>= writeSum amount id := by
  unfold increase readContent
  rw [bind_assoc]
  rfl

end World

inductive Point where
  /-- The update has not begun, or the thread waits for the lock. -/
  | outside
  | entered (id : VariableId)
  | read (id : VariableId) (content : Value)
  | leaving (outcome : Except Failure Unit)
  | failed (f : Failure)

structure Worker where
  thread : ThreadId
  left : Nat
  point : Point := .outside
  wait : Duration

/-- What every thread is to do: to add an amount to a variable a number of times. -/
structure Plan where
  name : String
  amount : Int64
  rounds : Nat

namespace Worker

open World (guardOf enterGuard leaveGuard readContent writeSum isPanic withMutableGlobal increase)

def acquire (p : Plan) (x : Worker) (w : World) : Worker × World :=
  match (guardOf p.name).run w with
  | (.error f, w) => ({ x with point := .failed f }, w)
  | (.ok g, w) =>
      if g.enter x.thread = .busy then ({ x with wait := w.settings.nextWait x.wait }, w)
      else
        match (enterGuard x.thread p.name g).run w with
        | (.error f, w) => ({ x with point := .failed (f.withName p.name) }, w)
        | (.ok (), w) => ({ x with point := .entered g.var, wait := w.settings.minBackoff }, w)

def release (p : Plan) (x : Worker) (outcome : Except Failure Unit) (w : World) : Worker × World :=
  let w := ((leaveGuard p.name (isPanic outcome)).run w).2
  match outcome with
  | .ok () => ({ x with left := x.left - 1, point := .outside }, w)
  | .error f => ({ x with point := .failed (f.withName p.name) }, w)

/-- The next step of a worker.  There is none where it has finished or failed. -/
def step (p : Plan) (x : Worker) (w : World) : Worker × World :=
  match x.point with
  | .outside => if x.left = 0 then (x, w) else x.acquire p w
  | .entered id =>
      match (readContent id).run w with
      | (.ok v, w) => ({ x with point := .read id v }, w)
      | (.error f, w) => ({ x with point := .leaving (.error f) }, w)
  | .read id v =>
      match (writeSum p.amount id v).run w with
      | (r, w) => ({ x with point := .leaving r }, w)
  | .leaving outcome => x.release p outcome w
  | .failed _ => (x, w)

/-!
## What a step does
-/

variable {p : Plan} {x : Worker} {w w' : World} {g : Guard} {id : VariableId}

theorem step_finished (hpoint : x.point = .outside) (hleft : x.left = 0) :
    x.step p w = (x, w) := by
  unfold step
  rw [hpoint, hleft]
  rfl

theorem step_failed {f : Failure} (hpoint : x.point = .failed f) : x.step p w = (x, w) := by
  unfold step
  rw [hpoint]

theorem step_outside (hpoint : x.point = .outside) (hleft : x.left ≠ 0)
    (hg : w.guarded.get? p.name = some g) :
    x.step p w =
      if g.enter x.thread = .busy then ({ x with wait := w.settings.nextWait x.wait }, w)
      else
        match (enterGuard x.thread p.name g).run w with
        | (.error f, w) => ({ x with point := .failed (f.withName p.name) }, w)
        | (.ok (), w) =>
            ({ x with point := .entered g.var, wait := w.settings.minBackoff }, w) := by
  unfold step acquire
  rw [hpoint, World.run_guardOf hg]
  simp only [if_neg hleft]

theorem step_busy (hpoint : x.point = .outside) (hleft : x.left ≠ 0)
    (hg : w.guarded.get? p.name = some g) (hbusy : g.enter x.thread = .busy) :
    x.step p w = ({ x with wait := w.settings.nextWait x.wait }, w) := by
  rw [step_outside hpoint hleft hg, if_pos hbusy]

theorem step_enter (hpoint : x.point = .outside) (hleft : x.left ≠ 0)
    (hg : w.guarded.get? p.name = some g) (hfree : g.IsFree) :
    x.step p w =
      ({ x with point := .entered g.var, wait := w.settings.minBackoff },
        w.hold p.name g x.thread) := by
  have henter := Guard.enter_free hfree x.thread
  rw [step_outside hpoint hleft hg, if_neg (by rw [henter]; exact nofun)]
  unfold enterGuard
  rw [henter]
  rfl

theorem step_entered {v : Value} (hpoint : x.point = .entered id)
    (hread : (readContent id).run w = (.ok v, w')) :
    x.step p w = ({ x with point := .read id v }, w') := by
  unfold step
  rw [hpoint]
  simp only [hread]

theorem step_read {v : Value} {r : Except Failure Unit} (hpoint : x.point = .read id v)
    (hwrite : (writeSum p.amount id v).run w = (r, w')) :
    x.step p w = ({ x with point := .leaving r }, w') := by
  unfold step
  rw [hpoint]
  simp only [hwrite]

theorem step_leaving (hpoint : x.point = .leaving (.ok ())) :
    x.step p w = ({ x with left := x.left - 1, point := .outside }, w.release p.name false) := by
  unfold step
  rw [hpoint]
  rfl

/-!
## An update without a break
-/

def steps (p : Plan) : Nat → Worker × World → Worker × World
  | 0, s => s
  | n + 1, s => steps p n (s.1.step p s.2)

def Concluded (x : Worker) (left : Nat) : Except Failure Unit → Prop
  | .ok () => x.point = .outside ∧ x.left = left
  | .error f => x.point = .failed f

theorem steps_failed {f : Failure} (hpoint : x.point = .failed f) (n : Nat) :
    steps p n (x, w) = (x, w) := by
  induction n with
  | zero => rfl
  | succ n ih => rw [steps, step_failed hpoint, ih]

theorem step_released {r : Except Failure Unit} (hpoint : x.point = .leaving r) (w₁ : World) :
    ∃ x', x.step p w = (x', w.release p.name (isPanic r)) ∧
      x'.Concluded (x.left - 1) (Op.named p.name (r, w₁)).1 := by
  unfold step
  rw [hpoint]
  cases r with
  | ok _ => exact ⟨_, rfl, rfl, rfl⟩
  | error f => exact ⟨_, rfl, rfl⟩

theorem steps_away {y : Worker} {f : Failure} (hstep : x.step p w = (y, w'))
    (hfailed : y.point = .failed f) (left : Nat) :
    ∃ x', steps p 4 (x, w) = (x', w') ∧ x'.Concluded left (.error f) := by
  refine ⟨y, ?_, hfailed⟩
  rw [steps, hstep, steps_failed hfailed]

theorem steps_inside (hpoint : x.point = .outside) (hleft : x.left ≠ 0)
    (hg : w.guarded.get? p.name = some g) (hfree : g.IsFree) {r : Except Failure Unit} {w₁ : World}
    (hwork : (increase p.amount g.var).run (w.hold p.name g x.thread) = (r, w₁)) :
    ∃ x', steps p 4 (x, w) = (x', w₁.release p.name (isPanic r)) ∧
      x'.Concluded (x.left - 1) (Op.named p.name (r, w₁)).1 := by
  have henter := step_enter hpoint hleft hg hfree
  rw [World.increase_eq] at hwork
  rcases Op.bind_cases hwork with ⟨f, hread, rfl⟩ | ⟨v, w₂, hread, hwrite⟩
  · -- the update is given up after three steps
    let x₁ : Worker := { x with point := .entered g.var, wait := w.settings.minBackoff }
    have hstop : x₁.step p (w.hold p.name g x.thread) =
        ({ x₁ with point := .leaving (.error f) }, w₁) := by
      unfold step
      simp only [x₁, hread]
    rcases step_released (p := p) (x := { x₁ with point := .leaving (.error f) }) (w := w₁) rfl w₁
      with ⟨x', hleave, hconcluded⟩
    refine ⟨x', ?_, hconcluded⟩
    rw [steps, henter, steps, hstop, steps, hleave, steps_failed hconcluded]
  · have hentered := step_entered (p := p)
      (x := { x with point := .entered g.var, wait := w.settings.minBackoff }) rfl hread
    have hwritten := step_read (p := p)
      (x := { x with point := .read g.var v, wait := w.settings.minBackoff }) rfl hwrite
    rcases step_released (p := p)
      (x := { x with point := .leaving r, wait := w.settings.minBackoff }) (w := w₁) rfl w₁
      with ⟨x', hleave, hconcluded⟩
    refine ⟨x', ?_, hconcluded⟩
    rw [steps, henter, steps, hentered, steps, hwritten, steps, hleave, steps]

theorem steps_update (hpoint : x.point = .outside) (hleft : x.left ≠ 0)
    (hbusy : ∀ g, w.guarded.get? p.name = some g → g.enter x.thread ≠ .busy)
    {r : Except Failure Unit}
    (hrun : (withMutableGlobal x.thread p.name (increase p.amount)).run w = (r, w')) :
    ∃ x', steps p 4 (x, w) = (x', w') ∧ x'.Concluded (x.left - 1) r := by
  cases hg : w.guarded.get? p.name with
  | none =>
      rw [World.run_withMutableGlobal_none hg] at hrun
      cases hrun
      have hstep : x.step p w =
          ({ x with point := .failed (.error (World.unguardedFault p.name)) }, w) := by
        unfold step acquire
        rw [hpoint, World.run_guardOf_none hg]
        simp only [if_neg hleft]
      exact steps_away hstep rfl _
  | some g =>
      rw [World.run_withMutableGlobal hg, Op.run_withName] at hrun
      by_cases hfree : g.IsFree
      · rw [World.run_withGuard_free hfree] at hrun
        rcases hwork : (increase p.amount g.var).run (w.hold p.name g x.thread) with ⟨r₁, w₁⟩
        rw [hwork] at hrun
        rcases steps_inside hpoint hleft hg hfree hwork with ⟨x', hsteps, hconcluded⟩
        cases r₁ with
        | ok _ =>
            cases hrun
            exact ⟨x', hsteps, hconcluded⟩
        | error f =>
            cases hrun
            exact ⟨x', hsteps, hconcluded⟩
      · have haway : ∃ f, (enterGuard x.thread p.name g).run w = (.error f, w) := by
          unfold enterGuard
          rcases Guard.enter_not_free hfree x.thread with henter | henter | henter
          · rw [henter]
            exact ⟨_, rfl⟩
          · rw [henter]
            exact ⟨_, rfl⟩
          · exact absurd henter (hbusy g hg)
        rcases haway with ⟨f, haway⟩
        unfold World.withGuard at hrun
        rw [Op.run_bind, haway, Op.next_error, Op.named_error] at hrun
        cases hrun
        have hstep := step_outside hpoint hleft hg
        rw [if_neg (hbusy g hg), haway] at hstep
        exact steps_away hstep rfl _

end Worker
end ScriptCore
