import ScriptCore.World.Basic

/-!
# Running operations

An operation takes a world to an outcome and a world.  The equations below run
it step by step, and the rules for outcomes carry a property of worlds through
a whole operation.
-/

namespace ScriptCore
namespace Op

variable {α β : Type}

def next (r : Except Failure α × World) (f : α → Op β) : Except Failure β × World :=
  match r with
  | (.ok a, w) => (f a).run w
  | (.error e, w) => (.error e, w)

@[simp] theorem next_ok (a : α) (w : World) (f : α → Op β) :
    next (.ok a, w) f = (f a).run w := rfl

@[simp] theorem next_error (e : Failure) (w : World) (f : α → Op β) :
    next (.error e, w) f = (.error e, w) := rfl

/-!
## Equations
-/

@[simp] theorem run_pure (a : α) (w : World) :
    (pure a : Op α).run w = (.ok a, w) := rfl

@[simp] theorem run_bind (x : Op α) (f : α → Op β) (w : World) :
    (x >>= f).run w = next (x.run w) f := by
  change (match x.run w with
    | (r, w') => (ExceptT.bindCont f r : StateM World _) w') = _
  rcases x.run w with ⟨r, w'⟩
  cases r with
  | error e => rfl
  | ok a => rfl

@[simp] theorem run_get (w : World) : (get : Op World).run w = (.ok w, w) := rfl

@[simp] theorem run_set (w w' : World) : (set w' : Op Unit).run w = (.ok (), w') := rfl

@[simp] theorem run_modify (f : World → World) (w : World) :
    (modify f : Op Unit).run w = (.ok (), f w) := rfl

@[simp] theorem run_throw (f : Failure) (w : World) :
    (throw f : Op α).run w = (.error f, w) := rfl

@[simp] theorem run_fail (e : Error) (w : World) :
    (fail e : Op α).run w = (.error (.error e), w) := rfl

@[simp] theorem run_stop (p : Panic) (w : World) :
    (stop p : Op α).run w = (.error (.panic p), w) := rfl

theorem run_tryCatch (x : Op α) (f : Failure → Op α) (w : World) :
    (tryCatch x f).run w =
      match x.run w with
      | (.ok a, w') => (.ok a, w')
      | (.error e, w') => (f e).run w' := by
  rcases hx : x.run w with ⟨r, w'⟩
  have hrun : x w = (r, w') := hx
  change (ExceptT.tryCatch x f).run w = _
  simp only [ExceptT.tryCatch, ExceptT.run, ExceptT.mk, bind, StateT.bind, hrun]
  cases r with
  | error e => rfl
  | ok a => rfl

@[simp] theorem run_map (g : α → β) (x : Op α) (w : World) :
    (g <$> x).run w = next (x.run w) fun a => pure (g a) := by
  rw [← run_bind, bind_pure_comp]

theorem run_map_of {g : α → β} {x : Op α} {w w' : World} {r : Except Failure α}
    (hx : x.run w = (r, w')) : (g <$> x).run w = (r.map g, w') := by
  rw [run_map, hx]
  cases r with
  | error e => rfl
  | ok a => rfl

def named (name : String) (r : Except Failure α × World) : Except Failure α × World :=
  match r with
  | (.ok a, w) => (.ok a, w)
  | (.error f, w) => (.error (f.withName name), w)

@[simp] theorem named_ok (name : String) (a : α) (w : World) :
    named name (.ok a, w) = (.ok a, w) := rfl

@[simp] theorem named_error (name : String) (f : Failure) (w : World) :
    named name ((.error f, w) : Except Failure α × World) = (.error (f.withName name), w) := rfl

@[simp] theorem run_withName (name : String) (x : Op α) (w : World) :
    (withName name x).run w = named name (x.run w) := by
  rw [withName, run_tryCatch]
  rcases x.run w with ⟨r, w'⟩
  cases r with
  | error e => rfl
  | ok a => rfl

theorem run_look (view : Heap → Except Panic α) (w : World) :
    (look view).run w =
      match view w.heap with
      | .ok a => (.ok a, w)
      | .error p => (.error (.panic p), w) := by
  unfold look
  rw [run_bind, run_get, next_ok]
  cases view w.heap with
  | error p => rfl
  | ok a => rfl

theorem run_build (b : Heap.Building α) (w : World) :
    (build b).run w =
      match b.run w.heap with
      | .ok (a, heap) => (.ok a, { w with heap })
      | .error f => (.error f, w) := by
  unfold build
  rw [run_bind, run_get, next_ok]
  cases b.run w.heap with
  | error f => rfl
  | ok r => rfl

/-!
## Outcomes

An outcome of an operation in two steps comes from its first step or from its
second one.
-/

variable {w w' : World}

theorem bind_cases {x : Op α} {f : α → Op β} {r : Except Failure β}
    (hrun : (x >>= f).run w = (r, w')) :
    (∃ e, x.run w = (.error e, w') ∧ r = .error e) ∨
      ∃ a w₁, x.run w = (.ok a, w₁) ∧ (f a).run w₁ = (r, w') := by
  rw [run_bind] at hrun
  rcases hx : x.run w with ⟨r₁, w₁⟩
  rw [hx] at hrun
  cases r₁ with
  | error e =>
      cases hrun
      exact Or.inl ⟨e, rfl, rfl⟩
  | ok a => exact Or.inr ⟨a, w₁, rfl, hrun⟩

theorem withName_cases {name : String} {x : Op α} {r : Except Failure α}
    (hrun : (withName name x).run w = (r, w')) :
    (∃ e, x.run w = (.error e, w') ∧ r = .error (e.withName name)) ∨
      ∃ a, x.run w = (.ok a, w') ∧ r = .ok a := by
  rw [run_withName] at hrun
  rcases hx : x.run w with ⟨r₁, w₁⟩
  rw [hx] at hrun
  cases r₁ with
  | error e =>
      cases hrun
      exact Or.inl ⟨e, rfl, rfl⟩
  | ok a =>
      cases hrun
      exact Or.inr ⟨a, rfl, rfl⟩

theorem build_cases {b : Heap.Building α} {r : Except Failure α}
    (hrun : (build b).run w = (r, w')) :
    (∃ f, b.run w.heap = .error f ∧ r = .error f ∧ w' = w) ∨
      ∃ a h, b.run w.heap = .ok (a, h) ∧ r = .ok a ∧ w' = { w with heap := h } := by
  rw [run_build] at hrun
  cases hb : b.run w.heap with
  | error f =>
      rw [hb] at hrun
      cases hrun
      exact Or.inl ⟨f, rfl, rfl, rfl⟩
  | ok p =>
      rw [hb] at hrun
      cases hrun
      exact Or.inr ⟨p.1, p.2, rfl, rfl, rfl⟩

/-!
## Keeping a property

A property of worlds that every step of an operation keeps is kept by the whole
operation, whether it fails or not.
-/

def Keeps (P : World → Prop) (x : Op α) : Prop :=
  ∀ w r w', P w → x.run w = (r, w') → P w'

variable {P : World → Prop}

@[grind ←] theorem keeps_pure (a : α) : Keeps P (pure a : Op α) := by
  intro w r w' hw hrun
  cases hrun
  exact hw

@[grind ←] theorem keeps_throw (f : Failure) : Keeps P (throw f : Op α) := by
  intro w r w' hw hrun
  cases hrun
  exact hw

@[grind ←] theorem keeps_fail (e : Error) : Keeps P (fail e : Op α) :=
  keeps_throw (.error e)

@[grind ←] theorem keeps_stop (p : Panic) : Keeps P (stop p : Op α) :=
  keeps_throw (.panic p)

@[grind ←] theorem keeps_set {w : World} (hw : P w) : Keeps P (set w : Op Unit) := by
  intro w₁ r w' _ hrun
  cases hrun
  exact hw

@[grind ←] theorem keeps_modify {f : World → World} (hf : ∀ w, P w → P (f w)) :
    Keeps P (modify f : Op Unit) := by
  intro w r w' hw hrun
  cases hrun
  exact hf w hw

@[grind ←] theorem Keeps.bind {x : Op α} {f : α → Op β} (hx : Keeps P x) (hf : ∀ a, Keeps P (f a)) :
    Keeps P (x >>= f) := by
  intro w r w' hw hrun
  rcases bind_cases hrun with ⟨e, hfirst, _⟩ | ⟨a, w₁, hfirst, hrest⟩
  · exact hx w _ w' hw hfirst
  · exact hf a w₁ r w' (hx w _ w₁ hw hfirst) hrest

theorem keeps_get_bind {f : World → Op α} (hf : ∀ w, Keeps P (f w)) : Keeps P (get >>= f) := by
  intro w r w' hw hrun
  exact hf w w r w' hw hrun

@[grind ←] theorem keeps_update {f : World → Op α} (hf : ∀ w, P w → Keeps P (f w)) :
    Keeps P (get >>= f) := by
  intro w r w' hw hrun
  exact hf w hw w r w' hw hrun

@[grind ←] theorem keeps_look (view : Heap → Except Panic α) : Keeps P (look view) := by
  apply keeps_get_bind
  intro w
  cases view w.heap with
  | ok a => exact keeps_pure a
  | error p => exact keeps_stop p

@[grind ←] theorem Keeps.withName {x : Op α} (hx : Keeps P x) (name : String) :
    Keeps P (withName name x) := by
  intro w r w' hw hrun
  rcases withName_cases hrun with ⟨e, hrun', _⟩ | ⟨a, hrun', _⟩
  · exact hx w _ w' hw hrun'
  · exact hx w _ w' hw hrun'

@[grind ←] theorem Keeps.tryCatch {x : Op α} {f : Failure → Op α} (hx : Keeps P x)
    (hf : ∀ e, Keeps P (f e)) : Keeps P (tryCatch x f) := by
  intro w r w' hw hrun
  rw [run_tryCatch] at hrun
  rcases hfirst : x.run w with ⟨r₁, w₁⟩
  have hw₁ := hx w r₁ w₁ hw hfirst
  rw [hfirst] at hrun
  cases r₁ with
  | error e => exact hf e w₁ r w' hw₁ hrun
  | ok a =>
      cases hrun
      exact hw₁

@[grind ←] theorem Keeps.map {x : Op α} (hx : Keeps P x) (g : α → β) : Keeps P (g <$> x) := by
  rw [← bind_pure_comp]
  exact hx.bind fun a => keeps_pure (g a)

@[grind ←] theorem Keeps.mapM {f : α → Op β} (hf : ∀ a, Keeps P (f a)) (l : List α) :
    Keeps P (l.mapM f) := by
  induction l with
  | nil =>
      rw [List.mapM_nil]
      exact keeps_pure []
  | cons a rest ih =>
      rw [List.mapM_cons]
      exact (hf a).bind fun b => ih.bind fun bs => keeps_pure (b :: bs)

@[grind ←] theorem Keeps.forM {f : α → Op PUnit} {l : List α} (hf : ∀ a ∈ l, Keeps P (f a)) :
    Keeps P (l.forM f) := by
  induction l with
  | nil => exact keeps_pure PUnit.unit
  | cons a rest ih =>
      apply (hf a List.mem_cons_self).bind
      intro _
      apply ih
      intro b hb
      exact hf b (List.mem_cons_of_mem a hb)

end Op
end ScriptCore
