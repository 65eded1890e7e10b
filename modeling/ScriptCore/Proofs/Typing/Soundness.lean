import ScriptCore.Proofs.Typing.Preservation

/-!
# Types throughout a run

An assignment is checked against the type of the variable that it names, but
the cell may be seen by other variables as well.  The types hold throughout a
run exactly if every assignment in it respects all variables that see the cell.
-/

namespace ScriptCore
namespace World

/-- If the command stores a value in a cell, then every annotated variable that sees the cell still
has a content of its type. -/
def Command.Respectful (w : World) (c : Command) : Prop :=
  ∀ (id : VariableId) (value : Value) (cell : CellId), Targets w c id value →
    Assignable w id value cell → ∀ (j : VariableId) (v : Variable), w.vars[j]? = some v →
      w.heap.Sees cell v.slot → Fits (w.heap.store cell (w.heap.contentOf value)) v

/-- The cell that the command stores to is seen by nothing but the variables that stand for it. -/
def Command.IsDirect (w : World) (c : Command) : Prop :=
  ∀ (id : VariableId) (value : Value) (cell : CellId), Targets w c id value →
    Assignable w id value cell → ¬ w.heap.Sees cell (w.heap.contentOf value) ∧
      ∀ (j : VariableId) (v : Variable), w.vars[j]? = some v → w.heap.Sees cell v.slot →
        v.slot = .reference cell

/-- All variables that stand for the cell accept the new content, and not only the variable that
the command names. -/
def Command.IsAccepted (w : World) (c : Command) : Prop :=
  ∀ (id : VariableId) (value : Value) (cell : CellId) (type : Ty), Targets w c id value →
    Assignable w id value cell → w.heap.typeOf (w.heap.contentOf value) = .ok type →
    ∀ (j : VariableId) (v : Variable), w.vars[j]? = some v → v.slot = .reference cell →
      Accepts v.declared type

variable {w w' : World} {id : VariableId} {v : Variable}
variable {c : Command} {value : Value} {cell : CellId}

theorem Good.stored (hgood : w.Good) (hlive : w.heap.Live value)
    (hseen : ∀ (j : VariableId) (v : Variable), w.vars[j]? = some v → w.heap.Sees cell v.slot →
      Fits (w.heap.store cell (w.heap.contentOf value)) v) : (w.stored cell value).Good where
  sane := hgood.sane.store cell (hgood.sane.closed.contentOf hlive)
    (hgood.sane.flat.contentOf value)
  sound j v hv := by
    by_cases hsees : w.heap.Sees cell v.slot
    · exact hseen j v hv hsees
    · exact (hgood.sound j v hv).store _ hsees

/-!
## Whole runs
-/

theorem good_fresh (hfresh : w.IsFresh) : w.Good := by
  rcases hfresh with ⟨settings, logger, sources, hasEvaluator, rfl⟩
  exact
    { sane :=
        { flat := fun cell => rfl
          closed := fun cell => trivial
          live := fun id v hv => nomatch hv }
      sound := fun id v hv => nomatch hv }

theorem good_of_respectful {past : List (World × Command)} (hpast : History past w)
    (hrespectful : ∀ e ∈ past, e.2.Respectful e.1) : (∀ e ∈ past, e.1.Good) ∧ w.Good := by
  refine good_invariant.of_history good_fresh ?_ hpast hrespectful
  intro w c hgood hvalid hrespectful id value cell htarget hassign
  exact hgood.stored (htarget.live hvalid) (hrespectful id value cell htarget hassign)

theorem respectful_of_sound (hsound : (c.after w).Sound) : c.Respectful w := by
  intro id value cell htarget hassign j v hv _
  rw [htarget.after hassign] at hsound
  exact hsound j v hv

theorem respectful_of_history {past : List (World × Command)} (hpast : History past w)
    (hsound : (∀ e ∈ past, e.1.Sound) ∧ w.Sound) : ∀ e ∈ past, e.2.Respectful e.1 :=
  hpast.all_of (fun _ hafter => respectful_of_sound hafter) hsound

theorem fits_store_iff {h : Heap} {x : Value} {type : Ty} (hunseen : ¬ h.Sees cell x)
    (hcell : cell < h.cells.size) (htype : h.typeOf x = .ok type)
    (hslot : v.slot = .reference cell) :
    Fits (h.store cell x) v ↔ Accepts v.declared type := by
  have hcontent : (h.store cell x).contentOf v.slot = x := by
    rw [hslot]
    exact Heap.load_store_self _ _ hcell
  unfold Fits
  rw [hcontent, Heap.typeOf_store hunseen htype]
  constructor
  · intro hfits
    cases hmissing : v.declared.isMissing with
    | true => exact Or.inl hmissing
    | false =>
        rcases hfits hmissing with ⟨type', heq, hequal⟩
        cases heq
        exact Or.inr hequal
  · intro haccepts hdeclared
    rcases haccepts with hmissing | hequal
    · rw [hdeclared] at hmissing
      cases hmissing
    · exact ⟨type, rfl, hequal⟩

theorem Good.respectful_iff_accepted (hgood : w.Good) (hdirect : c.IsDirect w) :
    c.Respectful w ↔ c.IsAccepted w := by
  have hcell (j : VariableId) (v : Variable) (cell : CellId) (hv : w.vars[j]? = some v)
      (hslot : v.slot = .reference cell) : cell < w.heap.cells.size := by
    have hlive := hgood.sane.live j v hv
    rw [hslot] at hlive
    exact hlive
  constructor
  · intro hrespectful id value cell type htarget hassign htype j v hv hslot
    have hsees : w.heap.Sees cell v.slot := by
      rw [hslot]
      exact Heap.Sees.here
    have hunseen := (hdirect id value cell htarget hassign).1
    have hfits := hrespectful id value cell htarget hassign j v hv hsees
    exact (fits_store_iff hunseen (hcell j v cell hv hslot) htype hslot).mp hfits
  · intro haccepted id value cell htarget hassign j v hv hsees
    rcases hdirect id value cell htarget hassign with ⟨hunseen, hnames⟩
    rcases hassign.fits with ⟨_, _, type, _, _, _, htype, _⟩
    have hslot := hnames j v hv hsees
    have haccepts := haccepted id value cell type htarget hassign htype j v hv hslot
    exact (fits_store_iff hunseen (hcell j v cell hv hslot) htype hslot).mpr haccepts

/-- All contents have their declared types throughout a run exactly if every assignment in it
respects the variables that see the cell it stores to.  Where these are the variables that stand
for the cell, this is to say that all of them accept the type of the new content. -/
theorem sound_iff_respectful {past : List (World × Command)} (hpast : History past w) :
    (((∀ e ∈ past, e.1.Sound) ∧ w.Sound) ↔ ∀ e ∈ past, e.2.Respectful e.1) ∧
    ((∀ e ∈ past, e.2.Respectful e.1) → ∀ c : Command, c.IsDirect w →
      (c.Respectful w ↔ c.IsAccepted w)) := by
  refine ⟨⟨respectful_of_history hpast, fun hrespectful => ?_⟩, fun hrespectful c hdirect => ?_⟩
  · rcases good_of_respectful hpast hrespectful with ⟨hall, hlast⟩
    exact ⟨fun e he => (hall e he).sound, hlast.sound⟩
  · exact (good_of_respectful hpast hrespectful).2.respectful_iff_accepted hdirect

/-!
## An assignment that respects nobody

A variable of integers is passed for a reference parameter of any type, and
the body assigns a text to the parameter.
-/

def anyReference : Function where
  signature :=
    { name := "set", spawn := false, params := [{ name := "n", type := .ref .any }], effects := [],
      result := .missing }
  closure := none
  body := .none

def passedByReference : World :=
  (Command.call anyReference [some 0]).after
    ((Command.define 0 "x" .int (.int 1) true).after ((Command.newScope none).after {}))

theorem history_passedByReference :
    History
      [((Command.define 0 "x" .int (.int 1) true).after ((Command.newScope none).after {}),
          .call anyReference [some 0]),
        ((Command.newScope none).after {}, .define 0 "x" .int (.int 1) true),
        ({}, .newScope none)] passedByReference := by
  have hfresh : History [] {} := History.fresh ⟨_, _, _, _, rfl⟩
  have hscope := hfresh.step (.newScope none) fun _ hs => nomatch hs
  have hdefined := hscope.step (.define 0 "x" .int (.int 1) true) ⟨Nat.one_pos, trivial⟩
  exact hdefined.step (.call anyReference [some 0]) trivial

def assignText : Command :=
  .assign 0 (some 1) "n" (.ofText 0 "no")

theorem valid_assignText : assignText.Valid passedByReference :=
  ⟨Nat.one_pos, (fun s hs => by cases hs; exact Nat.one_lt_two), trivial, trivial, trivial⟩

theorem owner_misfits :
    ¬ Fits (assignText.after passedByReference).heap
      { declared := .int, slot := .reference 0 } := by
  intro hfits
  rcases hfits rfl with ⟨type, htype, hequal⟩
  cases htype
  cases hequal

theorem unsound_after_assignment_by_reference :
    ∃ past, History past (assignText.after passedByReference) ∧
      ¬ (assignText.after passedByReference).Sound := by
  refine ⟨_, history_passedByReference.step assignText valid_assignText, fun hsound => ?_⟩
  exact owner_misfits (hsound 0 _ rfl)

theorem not_respectful_assignment_by_reference : ¬ assignText.Respectful passedByReference := by
  intro hrespectful
  have hpast := history_passedByReference.step assignText valid_assignText
  have hsound := (sound_iff_respectful hpast).1.mpr ?_
  · exact owner_misfits (hsound.2 0 _ rfl)
  intro e he
  rcases List.mem_cons.mp he with rfl | he
  · exact hrespectful
  rcases List.mem_cons.mp he with rfl | he
  · exact fun id value cell htarget => nomatch htarget
  rcases List.mem_cons.mp he with rfl | he
  · exact fun id value cell htarget => nomatch htarget
  rcases List.mem_cons.mp he with rfl | he
  · exact fun id value cell htarget => nomatch htarget
  · cases he

end World
end ScriptCore
