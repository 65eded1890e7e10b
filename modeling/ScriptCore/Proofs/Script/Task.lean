import ScriptCore.Proofs.Operation
import ScriptCore.Script.Session

/-!
# What tasks do to a state

A task hands its state over whenever it waits, starts another task or opens a
gate, and goes on in the state that it is given back.  What it does is told
under an assumption on the states that it is given back.
-/

namespace ScriptCore
namespace Task

variable {σ α β γ : Type} {P : σ → Prop} {t : Task σ α} {s u : σ} {a : α}

/-- Every state that the task hands over or ends in has the property, if it is given back only such
states.  The same holds for all tasks that it starts. -/
def Keeps (P : σ → Prop) : {α : Type} → Task σ α → Prop
  | _, .done s _ => P s
  | _, .wait _ s next => P s ∧ ∀ s, P s → (next s).Keeps P
  | _, .start s job next =>
      P s ∧ (∀ s, P s → (job s).Keeps P) ∧ ∀ s, P s → (next s).Keeps P
  | _, .wake _ s next => P s ∧ ∀ s, P s → (next s).Keeps P

/-- The task can end in a state with a result, if it is given back only states with the property. -/
inductive Ends (P : σ → Prop) : Task σ α → σ → α → Prop where
  | done (s : σ) (a : α) : Ends P (.done s a) s a
  | wait {gate : String} {s s' u : σ} {next : σ → Task σ α} {a : α} (hs : P s')
      (hends : Ends P (next s') u a) : Ends P (.wait gate s next) u a
  | start {s s' u : σ} {job : σ → Task σ Unit} {next : σ → Task σ α} {a : α} (hs : P s')
      (hends : Ends P (next s') u a) : Ends P (.start s job next) u a
  | wake {gate : String} {s s' u : σ} {next : σ → Task σ α} {a : α} (hs : P s')
      (hends : Ends P (next s') u a) : Ends P (.wake gate s next) u a

theorem andThen_assoc (t : Task σ α) (f : σ → α → Task σ β) (g : σ → β → Task σ γ) :
    (t.andThen f).andThen g = t.andThen fun s a => (f s a).andThen g := by
  induction t with
  | done s a => rfl
  | wait gate s next ih => simp only [andThen, ih]
  | start s job next _ ih => simp only [andThen, ih]
  | wake gate s next ih => simp only [andThen, ih]

theorem andThen_done (t : Task σ α) : t.andThen (fun s a => .done s a) = t := by
  induction t with
  | done s a => rfl
  | wait gate s next ih => simp only [andThen, ih]
  | start s job next _ ih => simp only [andThen, ih]
  | wake gate s next ih => simp only [andThen, ih]

theorem Keeps.andThen_ends {f : σ → α → Task σ β} (ht : t.Keeps P)
    (hf : ∀ s a, P s → t.Ends P s a → (f s a).Keeps P) : (t.andThen f).Keeps P := by
  induction t with
  | done s a => exact hf s a ht (.done s a)
  | wait gate s next ih =>
      exact ⟨ht.1, fun s hs => ih s (ht.2 s hs) fun u a hu hends => hf u a hu (.wait hs hends)⟩
  | start s job next _ ih =>
      exact ⟨ht.1, ht.2.1, fun s hs => ih s (ht.2.2 s hs) fun u a hu hends =>
        hf u a hu (.start hs hends)⟩
  | wake gate s next ih =>
      exact ⟨ht.1, fun s hs => ih s (ht.2 s hs) fun u a hu hends => hf u a hu (.wake hs hends)⟩

theorem Keeps.andThen {f : σ → α → Task σ β} (ht : t.Keeps P)
    (hf : ∀ s a, P s → (f s a).Keeps P) : (t.andThen f).Keeps P :=
  ht.andThen_ends fun s a hs _ => hf s a hs

theorem Ends.andThen {f : σ → α → Task σ β} {v : σ} {b : β} (ht : t.Ends P u a)
    (hf : (f u a).Ends P v b) : (t.andThen f).Ends P v b := by
  induction ht with
  | done s a => exact hf
  | wait hs _ ih => exact .wait hs (ih hf)
  | start hs _ ih => exact .start hs (ih hf)
  | wake hs _ ih => exact .wake hs (ih hf)

theorem Ends.of_andThen {f : σ → α → Task σ β} {v : σ} {b : β}
    (hends : (t.andThen f).Ends P v b) : ∃ u a, t.Ends P u a ∧ (f u a).Ends P v b := by
  induction t with
  | done s a => exact ⟨s, a, .done s a, hends⟩
  | wait gate s next ih =>
      cases hends with
      | wait hs hnext =>
          rcases ih _ hnext with ⟨u, a, ht, hf⟩
          exact ⟨u, a, .wait hs ht, hf⟩
  | start s job next _ ih =>
      cases hends with
      | start hs hnext =>
          rcases ih _ hnext with ⟨u, a, ht, hf⟩
          exact ⟨u, a, .start hs ht, hf⟩
  | wake gate s next ih =>
      cases hends with
      | wake hs hnext =>
          rcases ih _ hnext with ⟨u, a, ht, hf⟩
          exact ⟨u, a, .wake hs ht, hf⟩

theorem Keeps.ends (ht : t.Keeps P) (hends : t.Ends P u a) : P u := by
  induction hends with
  | done s a => exact ht
  | wait hs _ ih => exact ih (ht.2 _ hs)
  | start hs _ ih => exact ih (ht.2.2 _ hs)
  | wake hs _ ih => exact ih (ht.2 _ hs)

/-!
## Tasks beside each other
-/

def Waiting.Keep (P : σ → Prop) (waiting : Waiting σ) : Prop :=
  ∀ e ∈ waiting, ∀ s, P s → (e.2 s).Keeps P

def Waker.Keeps (P : σ → Prop) (waker : Waker σ) : Prop :=
  ∀ gate s waiting, P s → Waiting.Keep P waiting →
    P (waker gate s waiting).1 ∧ Waiting.Keep P (waker gate s waiting).2

theorem Waiting.keep_nil : Waiting.Keep P [] := by
  intro e he
  cases he

theorem Waiting.Keep.join {waiting : Waiting σ} (hwaiting : waiting.Keep P) (gate : String)
    {next : σ → Task σ Unit} (hnext : ∀ s, P s → (next s).Keeps P) :
    Waiting.Keep P (Task.join gate next waiting) := by
  intro e he
  rcases List.mem_append.mp he with he | he
  · exact hwaiting e he
  · cases List.mem_singleton.mp he
    exact hnext

theorem Keeps.run {waker : Waker σ} (hwaker : waker.Keeps P) {park : Parking σ α}
    {waiting : Waiting σ} (ht : t.Keeps P) (hwaiting : waiting.Keep P)
    (hpark : ∀ gate (next : σ → Task σ α) waiting, (∀ s, P s → (next s).Keeps P) →
      Waiting.Keep P waiting → Waiting.Keep P (park gate next waiting)) :
    P (run waker park t waiting).1 ∧ Waiting.Keep P (run waker park t waiting).2.1 := by
  induction t generalizing waiting with
  | done s a => exact ⟨ht, hwaiting⟩
  | wait gate s next _ => exact ⟨ht.1, hpark gate next waiting ht.2 hwaiting⟩
  | start s job next ihjob ihnext =>
      have hjob := ihjob s (ht.2.1 s ht.1) hwaiting fun gate next waiting hnext hwaiting =>
        hwaiting.join gate hnext
      exact ihnext _ (ht.2.2 _ hjob.1) hjob.2 hpark
  | wake gate s next ih =>
      have hwoken := hwaker gate s waiting ht.1 hwaiting
      exact ih _ (ht.2 _ hwoken.1) hwoken.2 hpark

theorem keeps_wakeAll (depth : Nat) : (wakeAll depth).Keeps P := by
  induction depth with
  | zero =>
      intro gate s waiting hs hwaiting
      exact ⟨hs, hwaiting⟩
  | succ depth ih =>
      intro gate s waiting hs hwaiting
      -- one woken task after another leaves a state with the property
      refine List.foldlRecOn
        (motive := fun acc : σ × Waiting σ => P acc.1 ∧ Waiting.Keep P acc.2) _ _ ⟨hs, ?_⟩ ?_
      · intro e he
        exact hwaiting e (List.mem_filter.mp he).1
      · intro acc hacc e he
        have hkeeps := hwaiting e (List.mem_filter.mp he).1 acc.1 hacc.1
        exact hkeeps.run ih hacc.2 fun gate next waiting hnext hwaiting => hwaiting.join gate hnext

end Task

instance {σ : Type} : LawfulMonad (Interruptible σ) :=
  LawfulMonad.mk' _
    (fun x => funext fun s => (x s).andThen_done)
    (fun _ _ => rfl)
    (fun x f g => funext fun s => (x s).andThen_assoc _ _)

/-!
## Running scripts
-/

namespace Exec

variable {α β : Type}

def next (f : α → Exec β) (s : Session) : Except Failure α → Task Session (Except Failure β)
  | .ok a => (f a).run s
  | .error e => .done s (.error e)

theorem run_bind (x : Exec α) (f : α → Exec β) (s : Session) :
    (x >>= f).run s = (x.run s).andThen (next f) := by
  show (x.run s).andThen (fun s r => ExceptT.bindCont f r s) = _
  congr 1
  funext s r
  cases r with
  | ok a => rfl
  | error e => rfl

theorem run_get (s : Session) : (get : Exec Session).run s = .done s (.ok s) := rfl

theorem run_op (o : Op α) (s : Session) :
    (op o).run s = .done { s with world := (o.run s.world).2 } (o.run s.world).1 := by
  unfold op
  rw [run_bind, run_get, Task.andThen, next]
  rcases o.run s.world with ⟨r, w⟩
  cases r with
  | ok a => rfl
  | error e => rfl

theorem run_outcome (x : Exec α) (s : Session) :
    (outcome x).run s = (x.run s).andThen fun s r => .done s (.ok r) := by
  show ((x.run s).andThen _).andThen _ = _
  rw [Task.andThen_assoc]
  congr 1
  funext s r
  cases r with
  | ok a => rfl
  | error e => rfl

/-!
## Keeping a property of the world
-/

/-- The script keeps a property of the world, at whatever points it is interrupted. -/
def Keeps (P : World → Prop) (x : Exec α) : Prop :=
  ∀ s, P s.world → (x.run s).Keeps fun s => P s.world

variable {P : World → Prop} {x : Exec α} {f : α → Exec β}

@[grind ←] theorem keeps_pure (a : α) : Keeps P (pure a : Exec α) := by
  intro s hs
  exact hs

@[grind ←] theorem keeps_throw (e : Failure) : Keeps P (throw e : Exec α) := by
  intro s hs
  exact hs

@[grind ←] theorem keeps_fail (e : Error) : Keeps P (fail e : Exec α) :=
  keeps_throw (.error e)

@[grind ←] theorem keeps_stop (p : Panic) : Keeps P (stop p : Exec α) :=
  keeps_throw (.panic p)

@[grind ←] theorem Keeps.bind (hx : Keeps P x) (hf : ∀ a, Keeps P (f a)) : Keeps P (x >>= f) := by
  intro s hs
  rw [run_bind]
  apply (hx s hs).andThen
  intro s r hs
  cases r with
  | ok a => exact hf a s hs
  | error e => exact hs

@[grind ←] theorem keeps_get : Keeps P (get : Exec Session) := by
  intro s hs
  exact hs

@[grind ←] theorem keeps_modify {change : Session → Session}
    (hchange : ∀ s, P s.world → P (change s).world) : Keeps P (modify change : Exec Unit) := by
  intro s hs
  exact hchange s hs

@[grind ←] theorem keeps_op {o : Op α} (ho : Op.Keeps P o) : Keeps P (op o) := by
  intro s hs
  rw [run_op]
  exact ho s.world _ _ hs rfl

theorem keeps_op_bind {o : Op α} (ho : Op.Keeps P o)
    (hf : ∀ (s : Session) a w, P s.world → o.run s.world = (.ok a, w) →
      ((f a).run { s with world := w }).Keeps fun s => P s.world) : Keeps P (op o >>= f) := by
  intro s hs
  rw [run_bind, run_op]
  rcases hrun : o.run s.world with ⟨r, w⟩
  cases r with
  | ok a => exact hf s a w hs hrun
  | error e => exact ho s.world _ w hs hrun

@[grind ←] theorem Keeps.outcome (hx : Keeps P x) : Keeps P (outcome x) := by
  intro s hs
  rw [run_outcome]
  apply (hx s hs).andThen
  intro s r hs
  exact hs

@[grind ←] theorem keeps_wait (gate : String) : Keeps P (interrupt (.wait gate)) := by
  intro s hs
  exact ⟨hs, fun s hs => hs⟩

@[grind ←] theorem keeps_wake (gate : String) : Keeps P (interrupt (.wake gate)) := by
  intro s hs
  exact ⟨hs, fun s hs => hs⟩

@[grind ←] theorem Keeps.map (hx : Keeps P x) (g : α → β) : Keeps P (g <$> x) := by
  rw [← bind_pure_comp]
  exact hx.bind fun a => keeps_pure (g a)

@[grind ←] theorem Keeps.mapM (hf : ∀ a, Keeps P (f a)) (l : List α) : Keeps P (l.mapM f) := by
  induction l with
  | nil =>
      rw [List.mapM_nil]
      exact keeps_pure []
  | cons a rest ih =>
      rw [List.mapM_cons]
      exact (hf a).bind fun b => ih.bind fun bs => keeps_pure (b :: bs)

/-!
## Properties of results
-/

/-- Every result of the script has the property `V`, if the script is given back only worlds with
the property `P`. -/
def Yields (P : World → Prop) (V : α → Prop) (x : Exec α) : Prop :=
  ∀ s, P s.world → ∀ u a, (x.run s).Ends (fun s => P s.world) u (.ok a) → V a

variable {V : α → Prop} {V' : β → Prop}

theorem yields_pure {a : α} (ha : V a) : Yields P V (pure a : Exec α) := by
  intro s _ u b hends
  cases hends
  exact ha

theorem yields_throw (e : Failure) : Yields P V (throw e : Exec α) := by
  intro s _ u b hends
  cases hends

theorem yields_op {o : Op α} (ho : ∀ w a w', P w → o.run w = (.ok a, w') → V a) :
    Yields P V (op o) := by
  intro s hs u a hends
  rw [run_op] at hends
  rcases hrun : o.run s.world with ⟨r, w⟩
  rw [hrun] at hends
  cases hends
  exact ho s.world a w hs hrun

theorem Keeps.yields_bind (hx : Keeps P x) (hf : ∀ a, Yields P V' (f a)) :
    Yields P V' (x >>= f) := by
  intro s hs v b hends
  rw [run_bind] at hends
  rcases hends.of_andThen with ⟨u, r, hfirst, hrest⟩
  have hu : P u.world := (hx s hs).ends hfirst
  cases r with
  | ok a => exact hf a u hu v b hrest
  | error e => cases hrest

theorem Keeps.bind_yields (hx : Keeps P x) (hresult : Yields P V x)
    (hf : ∀ a, V a → Keeps P (f a)) : Keeps P (x >>= f) := by
  intro s hs
  rw [run_bind]
  apply (hx s hs).andThen_ends
  intro u r hu hends
  cases r with
  | ok a => exact hf a (hresult s hs u a hends) u hu
  | error e => exact hu

end Exec
end ScriptCore
