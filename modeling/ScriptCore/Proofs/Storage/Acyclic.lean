import ScriptCore.Proofs.Heap.Observation
import ScriptCore.Proofs.World.Invariant

/-!
# Cycles of cells

Only an assignment can make a cell reachable from its own content, and it does
so exactly if the assigned content leads to the cell that it is stored in.  No
check stands in its way: a reference on its own is replaced by its content,
but not a reference inside of a list, a tuple or a variant.  As long as there
is no cycle, every way to look at a variable comes to an end.
-/

namespace ScriptCore
namespace World

/-- Nothing that the command stores leads to the cell that it is stored in. -/
def Command.IsUnknotted (w : World) (c : Command) : Prop :=
  ∀ (id : VariableId) (value : Value) (cell : CellId), Targets w c id value →
    Assignable w id value cell → ¬ w.heap.Leads (w.heap.contentOf value) cell

/-- All that is held exists, and no cell is reachable from its own content. -/
structure Tame (w : World) : Prop where
  sane : w.Sane
  acyclic : w.heap.Acyclic

variable {w w' : World} {c : Command} {value : Value} {id : VariableId} {cell : CellId}

theorem Sane.stored (hsane : w.Sane) (hlive : w.heap.Live value) : (w.stored cell value).Sane :=
  hsane.store cell (hsane.closed.contentOf hlive) (hsane.flat.contentOf value)

theorem Sane.of_unmoved (hsane : w.Sane) (hunmoved : Unmoved w w') : w'.Sane where
  flat := by rw [hunmoved.1]; exact hsane.flat
  closed := by rw [hunmoved.1]; exact hsane.closed
  live := by rw [hunmoved.1, hunmoved.2]; exact hsane.live

theorem sane_invariant : Invariant Sane where
  sane hsane := hsane
  same hsane hunmoved := hsane.of_unmoved hunmoved
  grown hsane hgrows hcells := hsane.withSameCells hgrows hcells
  boxed hsane hlive hflat := hsane.withCell (Heap.Widens.refl _) hlive hflat
  bound hsane hlive _ := hsane.push hlive
  copied hsane _ hcopied :=
    (hsane.withSameCells hcopied.heap.grows hcopied.heap.cells).push hcopied.live

theorem tame_invariant : Invariant Tame where
  sane htame := htame.sane
  same htame hunmoved :=
    { sane := sane_invariant.same htame.sane hunmoved
      acyclic := by rw [hunmoved.1]; exact htame.acyclic }
  grown htame hgrows hcells :=
    { sane := sane_invariant.grown htame.sane hgrows hcells
      acyclic := htame.acyclic.of_cells_eq hcells }
  boxed htame hlive hflat :=
    { sane := sane_invariant.boxed htame.sane hlive hflat
      acyclic := htame.acyclic.newCell htame.sane.closed hlive }
  bound htame hlive hbindable :=
    { sane := sane_invariant.bound htame.sane hlive hbindable
      acyclic := htame.acyclic }
  copied htame hv hcopied :=
    { sane := sane_invariant.copied htame.sane hv hcopied
      acyclic := htame.acyclic.of_cells_eq hcopied.heap.cells }

theorem sane_fresh (hfresh : w.IsFresh) : w.Sane := by
  rcases hfresh with ⟨settings, logger, sources, hasEvaluator, rfl⟩
  exact
    { flat := fun cell => rfl
      closed := fun cell => trivial
      live := fun id v hv => nomatch hv }

theorem tame_fresh (hfresh : w.IsFresh) : w.Tame where
  sane := sane_fresh hfresh
  acyclic := by
    rcases hfresh with ⟨settings, logger, sources, hasEvaluator, rfl⟩
    intro cell
    exact Heap.not_leads_of_no_cells rfl

/-!
## Stores
-/

theorem Assignable.cell_lt (hsane : w.Sane) (hassign : Assignable w id value cell) :
    cell < w.heap.cells.size := by
  rcases hassign.fits with ⟨v, _, _, hv, hslot, _⟩
  have hlive := hsane.live id v hv
  rw [hslot] at hlive
  exact hlive

theorem Tame.stored (htame : w.Tame) (hvalid : c.Valid w) (hunknotted : c.IsUnknotted w)
    (htarget : Targets w c id value) (hassign : Assignable w id value cell) :
    (w.stored cell value).Tame where
  sane := htame.sane.stored (htarget.live hvalid)
  acyclic :=
    (htame.acyclic.store_iff (hassign.cell_lt htame.sane)).mpr
      (hunknotted id value cell htarget hassign)

theorem Tame.isUnknotted (htame : w.Tame) (hafter : (c.after w).Tame) : c.IsUnknotted w := by
  intro id value cell htarget hassign
  rw [htarget.after hassign] at hafter
  exact (htame.acyclic.store_iff (hassign.cell_lt htame.sane)).mp hafter.acyclic

/-!
## Whole runs
-/

theorem sane_of_history {past : List (World × Command)} (hpast : History past w) :
    (∀ e ∈ past, e.1.Sane) ∧ w.Sane := by
  apply sane_invariant.of_history sane_fresh (S := fun _ _ => True) _ hpast fun _ _ => trivial
  intro w c hsane hvalid _ id value cell htarget _
  exact hsane.stored (htarget.live hvalid)

theorem acyclic_of_unknotted {past : List (World × Command)} (hpast : History past w)
    (hunknotted : ∀ e ∈ past, e.2.IsUnknotted e.1) :
    (∀ e ∈ past, e.1.heap.Acyclic) ∧ w.heap.Acyclic := by
  have htame : (∀ e ∈ past, e.1.Tame) ∧ w.Tame := by
    apply tame_invariant.of_history tame_fresh _ hpast hunknotted
    intro w c htame hvalid hunknotted id value cell htarget hassign
    exact htame.stored hvalid hunknotted htarget hassign
  exact ⟨fun e he => (htame.1 e he).acyclic, htame.2.acyclic⟩

theorem unknotted_of_acyclic {past : List (World × Command)} (hpast : History past w)
    (hacyclic : (∀ e ∈ past, e.1.heap.Acyclic) ∧ w.heap.Acyclic) :
    ∀ e ∈ past, e.2.IsUnknotted e.1 := by
  have hsane := sane_of_history hpast
  apply hpast.all_of (P := Tame) fun htame hafter => htame.isUnknotted hafter
  exact ⟨fun e he => ⟨hsane.1 e he, hacyclic.1 e he⟩, hsane.2, hacyclic.2⟩

/-- There is no cycle of cells throughout a run exactly if no assignment in it stores a content that
leads to the cell.  Without a cycle, the type, the written form, the truth and the YAML data of all
variables come to an end. -/
theorem acyclic_iff_unknotted {past : List (World × Command)} (hpast : History past w) :
    (((∀ e ∈ past, e.1.heap.Acyclic) ∧ w.heap.Acyclic) ↔ ∀ e ∈ past, e.2.IsUnknotted e.1) ∧
    (w.heap.Acyclic → ∀ (id : VariableId) (v : Variable), w.vars[id]? = some v →
      w.heap.Observable v.slot) := by
  constructor
  · exact ⟨unknotted_of_acyclic hpast, acyclic_of_unknotted hpast⟩
  · intro hacyclic id v hv
    have hsane := (sane_of_history hpast).2
    exact hacyclic.observable hsane.closed (hsane.live id v hv)

/-!
## A list that holds itself

A variable holds an empty list, and a list with a reference to the variable is
assigned to it.
-/

def selfless : World :=
  (Command.define 0 "x" .missing (.list 0 .any []) true).after ((Command.newScope none).after {})

theorem history_selfless :
    History
      [((Command.newScope none).after {}, .define 0 "x" .missing (.list 0 .any []) true),
        ({}, .newScope none)] selfless := by
  have hfresh : History [] {} := History.fresh ⟨_, _, _, _, rfl⟩
  have hscope := hfresh.step (.newScope none) fun _ hs => nomatch hs
  exact hscope.step (.define 0 "x" .missing (.list 0 .any []) true) ⟨Nat.one_pos, trivial⟩

def assignSelf : Command :=
  .assign 0 (some 0) "x" (.list 0 .any [.reference 0])

theorem valid_assignSelf : assignSelf.Valid selfless :=
  ⟨Nat.one_pos, (fun s hs => by cases hs; exact Nat.one_pos), Nat.one_pos, trivial⟩

theorem load_assignSelf :
    (assignSelf.after selfless).heap.load 0 = .list 0 .any [.reference 0] := rfl

theorem not_acyclic_assignSelf : ¬ (assignSelf.after selfless).heap.Acyclic := by
  intro hacyclic
  apply hacyclic 0
  rw [load_assignSelf]
  exact Heap.Leads.here List.mem_cons_self

theorem displayVia_self {h : Heap} {cellText : CellId → Except Panic String}
    (hcell : cellText 0 = .error .bottomless) :
    h.displayVia cellText (.list 0 .any [.reference 0]) = .error .bottomless := by
  rw [Heap.displayVia, if_neg (by decide), Heap.displayAllVia, Heap.displayVia, hcell]
  rfl

theorem display_assignSelf (depth : Nat) :
    (assignSelf.after selfless).heap.follow .bottomless (assignSelf.after selfless).heap.displayVia
      depth (.reference 0) = .error .bottomless := by
  have hlist : ∀ n, (assignSelf.after selfless).heap.follow .bottomless
      (assignSelf.after selfless).heap.displayVia n (.list 0 .any [.reference 0]) =
        .error .bottomless := by
    intro n
    induction n with
    | zero => exact displayVia_self rfl
    | succ n ih =>
        apply displayVia_self
        rw [load_assignSelf]
        exact ih
  cases depth with
  | zero => rfl
  | succ n =>
      rw [Heap.follow, Heap.displayVia, load_assignSelf, hlist n]
      rfl

theorem cyclic_after_assignment_of_list :
    ∃ past, History past (assignSelf.after selfless) ∧
      ¬ (assignSelf.after selfless).heap.Acyclic ∧
      (assignSelf.after selfless).vars[0]? = some { declared := .missing, slot := .reference 0 } ∧
      ∀ depth, (assignSelf.after selfless).heap.follow .bottomless
        (assignSelf.after selfless).heap.displayVia depth (.reference 0) =
          .error .bottomless := by
  refine ⟨_, history_selfless.step assignSelf valid_assignSelf, not_acyclic_assignSelf, rfl, ?_⟩
  exact display_assignSelf

/-- Before the assignment everything comes to an end, and the assignment is to blame. -/
theorem knotted_assignment_of_list :
    selfless.heap.Observable (.reference 0) ∧ ¬ assignSelf.IsUnknotted selfless := by
  have hunknotted : ∀ e ∈ [((Command.newScope none).after {},
      Command.define 0 "x" .missing (.list 0 .any []) true), ({}, .newScope none)],
      e.2.IsUnknotted e.1 := by
    intro e he id value cell htarget
    rcases List.mem_cons.mp he with rfl | he
    · cases htarget
    · cases List.mem_singleton.mp he
      cases htarget
  have hacyclic := (acyclic_iff_unknotted history_selfless).1.mpr hunknotted
  constructor
  · exact (acyclic_iff_unknotted history_selfless).2 hacyclic.2 0 _ rfl
  · intro hself
    apply not_acyclic_assignSelf
    have hpast := history_selfless.step assignSelf valid_assignSelf
    refine ((acyclic_iff_unknotted hpast).1.mpr ?_).2
    intro e he
    rcases List.mem_cons.mp he with rfl | he
    · exact hself
    · exact hunknotted e he

end World
end ScriptCore
