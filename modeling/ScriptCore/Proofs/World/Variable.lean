import ScriptCore.Proofs.Heap.Copy
import ScriptCore.Proofs.Operation
import ScriptCore.World.Variable

/-!
# What operations on variables do

Each operation either fails and leaves the world as it was, or does one thing:
add a variable, or store a value in the cell of a variable.  The statements
say which, and what has been checked before.
-/

namespace ScriptCore
namespace World

variable {w w' : World} {id : VariableId} {v : Variable}

theorem run_slot (hv : w.vars[id]? = some v) : (slot id).run w = (.ok v.slot, w) := by
  unfold slot varAt?
  rw [Op.run_bind, Op.run_get, Op.next_ok, hv]
  rfl

theorem run_slot_none (hv : w.vars[id]? = none) :
    (slot id).run w = (.error (.panic .absentValue), w) := by
  unfold slot varAt?
  rw [Op.run_bind, Op.run_get, Op.next_ok, hv]
  rfl

theorem run_declared (hv : w.vars[id]? = some v) :
    (declared id).run w = (.ok v.declared, w) := by
  unfold declared varAt?
  rw [Op.run_bind, Op.run_get, Op.next_ok, hv]
  rfl

theorem run_declared_none (hv : w.vars[id]? = none) :
    (declared id).run w = (.error (.panic .absentValue), w) := by
  unfold declared varAt?
  rw [Op.run_bind, Op.run_get, Op.next_ok, hv]
  rfl

theorem typeOf_cases {value : Value} {r : Except Failure Ty}
    (hrun : (typeOf value).run w = (r, w')) :
    w' = w ∧ ((∃ p, r = .error (.panic p)) ∨
      ∃ type, r = .ok type ∧ w.heap.typeOf value = .ok type) := by
  unfold typeOf at hrun
  rw [Op.run_look] at hrun
  cases htype : w.heap.typeOf value with
  | error p =>
      simp only [htype] at hrun
      cases hrun
      exact ⟨rfl, Or.inl ⟨p, rfl⟩⟩
  | ok type =>
      simp only [htype] at hrun
      cases hrun
      exact ⟨rfl, Or.inr ⟨type, rfl, rfl⟩⟩

@[simp] theorem run_contentOf (w : World) (value : Value) :
    (contentOf value).run w = (.ok (w.heap.contentOf value), w) := rfl

theorem run_addVariable (w : World) (v : Variable) :
    (addVariable v).run w = (.ok w.vars.size, { w with vars := w.vars.push v }) := rfl

def Accepts (expected actual : Ty) : Prop :=
  expected.isMissing = true ∨ expected.equal actual = true

theorem check_ok_iff {expected actual : Ty} :
    Ty.check expected actual = .ok () ↔ Accepts expected actual := by
  unfold Ty.check Accepts
  cases expected.isMissing <;> cases expected.equal actual <;> simp

theorem require_cases {name detail : String} {expected actual : Ty} {r : Except Failure Unit}
    (hrun : (require name detail expected actual).run w = (r, w')) :
    w' = w ∧ ((∃ e, r = .error (.error e)) ∨ r = .ok () ∧ Accepts expected actual) := by
  unfold require at hrun
  cases hcheck : Ty.check expected actual with
  | error m =>
      rw [hcheck] at hrun
      cases hrun
      exact ⟨rfl, Or.inl ⟨_, rfl⟩⟩
  | ok u =>
      rw [hcheck] at hrun
      cases hrun
      exact ⟨rfl, Or.inr ⟨rfl, check_ok_iff.mp hcheck⟩⟩

theorem run_typeOf {value : Value} {type : Ty} (htype : w.heap.typeOf value = .ok type) :
    (typeOf value).run w = (.ok type, w) := by
  unfold typeOf
  rw [Op.run_look]
  simp only [htype]

theorem run_require (w : World) (name detail : String) {expected actual : Ty}
    (haccepts : Accepts expected actual) :
    (require name detail expected actual).run w = (.ok (), w) := by
  unfold require
  rw [check_ok_iff.mpr haccepts]
  rfl

/-!
## Binding
-/

def Bindable (h : Heap) (declared : Ty) (value : Value) : Prop :=
  value.isAbsent = false ∧ ∃ type, h.typeOf value = .ok type ∧ Accepts declared type

theorem checkBinding_cases {declared : Ty} {value : Value} {r : Except Failure Unit}
    (hrun : (checkBinding declared value).run w = (r, w')) :
    w' = w ∧ ((∃ f, r = .error f) ∨ r = .ok () ∧ Bindable w.heap declared value) := by
  unfold checkBinding at hrun
  by_cases habsent : value.isAbsent = true
  · rw [if_pos habsent] at hrun
    cases hrun
    exact ⟨rfl, Or.inl ⟨_, rfl⟩⟩
  · rw [if_neg habsent] at hrun
    rcases Op.bind_cases hrun with ⟨f, htype, hr⟩ | ⟨actual, w₁, htype, hrest⟩
    · exact ⟨(typeOf_cases htype).1, Or.inl ⟨f, hr⟩⟩
    · rcases typeOf_cases htype with ⟨hw₁, ⟨p, hp⟩ | ⟨type, hok, htypeOf⟩⟩
      · cases hp
      · cases hok
        subst hw₁
        rcases require_cases hrest with ⟨hw, ⟨e, hr⟩ | ⟨hr, haccepts⟩⟩
        · exact ⟨hw, Or.inl ⟨_, hr⟩⟩
        · exact ⟨hw, Or.inr ⟨hr, by simpa using habsent, actual, htypeOf, haccepts⟩⟩

theorem bindValue_cases {declared : Ty} {value : Value} {r : Except Failure VariableId}
    (hrun : (bindValue declared value).run w = (r, w')) :
    (∃ f, r = .error f ∧ w' = w) ∨
      r = .ok w.vars.size ∧ Bindable w.heap declared value ∧
        w' = { w with vars := w.vars.push { declared, slot := value } } := by
  unfold bindValue at hrun
  rcases Op.bind_cases hrun with ⟨f, hcheck, hr⟩ | ⟨_, w₁, hcheck, hrest⟩
  · exact Or.inl ⟨f, hr, (checkBinding_cases hcheck).1⟩
  · rcases checkBinding_cases hcheck with ⟨hw₁, ⟨f, hf⟩ | ⟨_, hbindable⟩⟩
    · cases hf
    · subst hw₁
      rw [run_addVariable] at hrest
      cases hrest
      exact Or.inr ⟨rfl, hbindable, rfl⟩

theorem run_bindValue {declared : Ty} {value : Value} (hbindable : Bindable w.heap declared value) :
    (bindValue declared value).run w =
      (.ok w.vars.size, { w with vars := w.vars.push { declared, slot := value } }) := by
  rcases hbindable with ⟨hpresent, type, htype, haccepts⟩
  have hcheck : (checkBinding declared value).run w = (.ok (), w) := by
    unfold checkBinding
    rw [if_neg (by simp [hpresent])]
    rw [Op.run_bind, run_typeOf htype, Op.next_ok, run_require w _ _ haccepts]
  unfold bindValue
  rw [Op.run_bind, hcheck, Op.next_ok, run_addVariable]

/-!
## Copying
-/

theorem copyOf_cases {r : Except Failure Value} (hv : w.vars[id]? = some v)
    (hrun : (copyOf id).run w = (r, w')) :
    (∃ f, (Heap.copyContent v.slot).run w.heap = .error f ∧ r = .error f ∧ w' = w) ∨
      ∃ x h, (Heap.copyContent v.slot).run w.heap = .ok (x, h) ∧ r = .ok x ∧
        w' = { w with heap := h } := by
  unfold copyOf at hrun
  rw [Op.run_bind, run_slot hv, Op.next_ok] at hrun
  exact Op.build_cases hrun

theorem snapshot_cases {r : Except Failure VariableId} (hv : w.vars[id]? = some v)
    (hrun : (snapshot id).run w = (r, w')) :
    (∃ f, (Heap.copyContent v.slot).run w.heap = .error f ∧ r = .error f ∧ w' = w) ∨
      ∃ x h, (Heap.copyContent v.slot).run w.heap = .ok (x, h) ∧ r = .ok w.vars.size ∧
        w' = { w with heap := h, vars := w.vars.push { declared := v.declared, slot := x } } := by
  unfold snapshot at hrun
  rcases Op.bind_cases hrun with ⟨f, hcopy, hr⟩ | ⟨x, w₁, hcopy, hrest⟩
  · rcases copyOf_cases hv hcopy with ⟨f', hf, hr', hw⟩ | ⟨x, h, _, hr', _⟩
    · cases hr'
      exact Or.inl ⟨f, hf, hr, hw⟩
    · cases hr'
  · rcases copyOf_cases hv hcopy with ⟨f', _, hr', _⟩ | ⟨x', h, hx, hr', hw₁⟩
    · cases hr'
    · cases hr'
      subst hw₁
      have hv₁ : ({ w with heap := h } : World).vars[id]? = some v := hv
      rw [Op.run_bind, run_declared hv₁, Op.next_ok, run_addVariable] at hrest
      cases hrest
      exact Or.inr ⟨x, h, hx, rfl, rfl⟩

theorem snapshot_none {r : Except Failure VariableId} (hv : w.vars[id]? = none)
    (hrun : (snapshot id).run w = (r, w')) : r = .error (.panic .absentValue) ∧ w' = w := by
  unfold snapshot copyOf at hrun
  rw [Op.run_bind, Op.run_bind, run_slot_none hv] at hrun
  cases hrun
  exact ⟨rfl, rfl⟩

/-!
## Assigning
-/

/-- The type that the next content of a variable is checked against: the declared one, or that of
its present content. -/
def Expects (w : World) (v : Variable) (cell : CellId) (expected : Ty) : Prop :=
  if v.declared.isMissing then w.heap.typeOf (w.heap.load cell) = .ok expected
  else expected = v.declared

/-- The value can be assigned to the variable, whose content is in the cell. -/
structure Assignable (w : World) (id : VariableId) (value : Value) (cell : CellId) : Prop where
  present : (w.heap.contentOf value).isAbsent = false
  fits : ∃ v expected actual, w.vars[id]? = some v ∧ v.slot = .reference cell ∧
    Expects w v cell expected ∧ w.heap.typeOf (w.heap.contentOf value) = .ok actual ∧
    Accepts expected actual

theorem cellOf_cases {r : Except Failure CellId} (hrun : (cellOf id).run w = (r, w')) :
    w' = w ∧ ((∃ f, r = .error f) ∨
      ∃ v cell, r = .ok cell ∧ w.vars[id]? = some v ∧ v.slot = .reference cell) := by
  unfold cellOf at hrun
  cases hv : w.vars[id]? with
  | none =>
      rw [Op.run_bind, run_slot_none hv] at hrun
      cases hrun
      exact ⟨rfl, Or.inl ⟨_, rfl⟩⟩
  | some v =>
      rw [Op.run_bind, run_slot hv, Op.next_ok] at hrun
      cases hslot : v.slot with
      | reference cell =>
          rw [hslot] at hrun
          cases hrun
          exact ⟨rfl, Or.inr ⟨v, cell, rfl, rfl, hslot⟩⟩
      | _ =>
          rw [hslot] at hrun
          cases hrun
          exact ⟨rfl, Or.inl ⟨_, rfl⟩⟩

theorem checkedStore_cases {value : Value} {cell : CellId} {expected : Ty}
    {r : Except Failure Unit}
    (hrun : (do
        let actual ← typeOf value
        require "" "cannot assign value" expected actual
        modify fun w => { w with heap := w.heap.store cell value } : Op Unit).run w = (r, w')) :
    (∃ f, r = .error f ∧ w' = w) ∨
      ∃ actual, w.heap.typeOf value = .ok actual ∧ Accepts expected actual := by
  rcases Op.bind_cases hrun with ⟨f, htype, hr⟩ | ⟨actual, w₁, htype, hrest⟩
  · exact Or.inl ⟨f, hr, (typeOf_cases htype).1⟩
  rcases typeOf_cases htype with ⟨hw₁, ⟨p, hp⟩ | ⟨type, hok, htypeOf⟩⟩
  · cases hp
  cases hok
  subst hw₁
  rcases Op.bind_cases hrest with ⟨f, hreq, hr⟩ | ⟨_, w₂, hreq, hstore⟩
  · exact Or.inl ⟨f, hr, (require_cases hreq).1⟩
  rcases require_cases hreq with ⟨hw₂, ⟨e, he⟩ | ⟨_, haccepts⟩⟩
  · cases he
  exact Or.inr ⟨actual, htypeOf, haccepts⟩

theorem assignValue_cases {value : Value} {r : Except Failure Unit}
    (hrun : (assignValue id value).run w = (r, w')) :
    (∃ f, r = .error f ∧ w' = w) ∨ ∃ cell, Assignable w id value cell := by
  unfold assignValue at hrun
  rcases Op.bind_cases hrun with ⟨f, hcell, hr⟩ | ⟨cell, w₁, hcell, hrest⟩
  · exact Or.inl ⟨f, hr, (cellOf_cases hcell).1⟩
  rcases cellOf_cases hcell with ⟨hw₁, ⟨f, hf⟩ | ⟨v, cell', hok, hv, hslot⟩⟩
  · cases hf
  cases hok
  subst hw₁
  rw [Op.run_bind, run_contentOf, Op.next_ok] at hrest
  by_cases habsent : (w₁.heap.contentOf value).isAbsent = true
  · rw [if_pos habsent] at hrest
    cases hrest
    exact Or.inl ⟨_, rfl, rfl⟩
  rw [if_neg habsent, Op.run_bind, run_declared hv, Op.next_ok] at hrest
  have hpresent : (w₁.heap.contentOf value).isAbsent = false := by simpa using habsent
  have hfits : ∀ expected, Expects w₁ v cell expected →
      (∃ actual, w₁.heap.typeOf (w₁.heap.contentOf value) = .ok actual ∧
        Accepts expected actual) → Assignable w₁ id value cell := by
    intro expected hexpects ⟨actual, hactual, haccepts⟩
    exact ⟨hpresent, v, expected, actual, hv, hslot, hexpects, hactual, haccepts⟩
  -- Without a declared type the present content is asked for its type first.
  by_cases hmissing : v.declared.isMissing = true
  · simp only [hmissing, if_true, Op.run_bind, Op.run_get, Op.next_ok] at hrest
    rw [← Op.run_bind] at hrest
    rcases Op.bind_cases hrest with ⟨f, hold, hr⟩ | ⟨expected, w₂, hold, hstore⟩
    · exact Or.inl ⟨f, hr, (typeOf_cases hold).1⟩
    rcases typeOf_cases hold with ⟨hw₂, ⟨p, hp⟩ | ⟨type, hok, htypeOf⟩⟩
    · cases hp
    cases hok
    subst hw₂
    have hexpects : Expects w₂ v cell expected := by simpa [Expects, hmissing] using htypeOf
    rcases checkedStore_cases hstore with hfailed | hfit
    · exact Or.inl hfailed
    · exact Or.inr ⟨cell, hfits expected hexpects hfit⟩
  · simp only [hmissing, Bool.false_eq_true, if_false, pure_bind] at hrest
    have hexpects : Expects w₁ v cell v.declared := by simp [Expects, hmissing]
    rcases checkedStore_cases hrest with hfailed | hfit
    · exact Or.inl hfailed
    · exact Or.inr ⟨cell, hfits v.declared hexpects hfit⟩

theorem run_assignValue {value : Value} {cell : CellId} (hassign : Assignable w id value cell) :
    (assignValue id value).run w =
      (.ok (), { w with heap := w.heap.store cell (w.heap.contentOf value) }) := by
  rcases hassign.fits with ⟨v, expected, actual, hv, hslot, hexpects, hactual, haccepts⟩
  have hcell : (cellOf id).run w = (.ok cell, w) := by
    unfold cellOf
    rw [Op.run_bind, run_slot hv, Op.next_ok, hslot]
    rfl
  unfold assignValue
  rw [Op.run_bind, hcell, Op.next_ok, Op.run_bind, run_contentOf, Op.next_ok,
    if_neg (by simp [hassign.present]), Op.run_bind, run_declared hv, Op.next_ok]
  by_cases hmissing : v.declared.isMissing = true
  · have hold : w.heap.typeOf (w.heap.load cell) = .ok expected := by
      simpa [Expects, hmissing] using hexpects
    simp only [hmissing, if_true, Op.run_bind, Op.run_get, Op.next_ok, run_typeOf hold,
      run_typeOf hactual, run_require w _ _ haccepts, Op.run_modify]
  · have hold : expected = v.declared := by simpa [Expects, hmissing] using hexpects
    subst hold
    simp only [hmissing, Bool.false_eq_true, if_false, pure_bind, Op.run_bind, Op.next_ok,
      run_typeOf hactual, run_require w _ _ haccepts, Op.run_modify]

inductive Updated (w : World) (id : VariableId) (value : Value) :
    Except Failure Unit → World → Prop where
  | refused (f : Failure) (hno : ∀ cell, ¬ Assignable w id value cell) :
      Updated w id value (.error f) w
  | stored {cell : CellId} (hassign : Assignable w id value cell) :
      Updated w id value (.ok ()) { w with heap := w.heap.store cell (w.heap.contentOf value) }

theorem assignValue_updated {value : Value} {r : Except Failure Unit}
    (hrun : (assignValue id value).run w = (r, w')) : Updated w id value r w' := by
  by_cases hassign : ∃ cell, Assignable w id value cell
  · rcases hassign with ⟨cell, hassign⟩
    rw [run_assignValue hassign] at hrun
    cases hrun
    exact Updated.stored hassign
  · rcases assignValue_cases hrun with ⟨f, hr, hw⟩ | hfits
    · subst hr hw
      exact Updated.refused f fun cell hcell => hassign ⟨cell, hcell⟩
    · exact absurd hfits hassign

end World
end ScriptCore
