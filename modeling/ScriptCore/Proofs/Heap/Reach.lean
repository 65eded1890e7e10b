import ScriptCore.Proofs.Heap.Copy

/-!
# Cells that a value leads to

The tree of a value refers to some cells, their contents refer to others, and
so on.  A store matters only to values that lead to its cell.  A heap is
acyclic if the content of no cell leads back to the cell; a new cell never
closes a cycle, and a store does so exactly if the stored value leads to the
cell.
-/

namespace ScriptCore

namespace Value

mutual

def cells : Value → List CellId
  | .list _ _ items => cellsIn items
  | .tuple _ items => cellsIn items
  | .algebraic _ _ fields => cellsInFields fields
  | .alias _ _ _ content => cells content
  | .reference cell => [cell]
  | _ => []

def cellsIn : List Value → List CellId
  | [] => []
  | v :: rest => cells v ++ cellsIn rest

def cellsInFields : List (String × Value) → List CellId
  | [] => []
  | (_, v) :: rest => cells v ++ cellsInFields rest

end

end Value

namespace Heap

/-- The cell is reached from the value, in its tree or through the contents of cells. -/
inductive Leads (h : Heap) : Value → CellId → Prop where
  | here {v : Value} {k : CellId} (hk : k ∈ v.cells) : Leads h v k
  | through {v : Value} {cell k : CellId} (hcell : cell ∈ v.cells)
      (hrest : Leads h (h.load cell) k) : Leads h v k

variable {h h' : Heap} {v x : Value} {k cell : CellId}

theorem Leads.trans (hcell : h.Leads v cell) (hk : h.Leads (h.load cell) k) : h.Leads v k := by
  induction hcell with
  | here hmem => exact Leads.through hmem hk
  | through hmem _ ih => exact Leads.through hmem (ih hk)

theorem not_leads_of_no_cells (hv : v.cells = []) : ¬ h.Leads v k := by
  intro hleads
  cases hleads with
  | here hk =>
      rw [hv] at hk
      cases hk
  | through hcell _ =>
      rw [hv] at hcell
      cases hcell

theorem Leads.carried (hleads : h.Leads v k)
    (hsame : ∀ c, h.Leads v c → h'.load c = h.load c) : h'.Leads v k := by
  induction hleads with
  | here hk => exact Leads.here hk
  | @through v cell k hcell _ ih =>
      apply Leads.through hcell
      rw [hsame cell (Leads.here hcell)]
      apply ih
      intro c hc
      exact hsame c (Leads.through hcell hc)

theorem Leads.carried_back (hleads : h'.Leads v k)
    (hsame : ∀ c, h.Leads v c → h'.load c = h.load c) : h.Leads v k := by
  induction hleads with
  | here hk => exact Leads.here hk
  | @through v cell k hcell _ ih =>
      have hload := hsame cell (Leads.here hcell)
      apply Leads.through hcell
      rw [hload] at ih
      apply ih
      intro c hc
      exact hsame c (Leads.through hcell hc)

theorem leads_iff_of_cells_eq (hcells : h'.cells = h.cells) : h'.Leads v k ↔ h.Leads v k := by
  have hsame : ∀ c, h.Leads v c → h'.load c = h.load c := fun c _ => load_of_cells_eq hcells c
  exact ⟨fun hleads => hleads.carried_back hsame, fun hleads => hleads.carried hsame⟩

/-!
## Live values
-/

mutual

theorem Live.lt_of_mem_cells : (v : Value) → h.Live v → k ∈ v.cells → k < h.cells.size
  | .list _ _ items, hlive, hk => LiveAll.lt_of_mem_cells items hlive hk
  | .tuple _ items, hlive, hk => LiveAll.lt_of_mem_cells items hlive hk
  | .algebraic _ _ fields, hlive, hk => LiveFields.lt_of_mem_cells fields hlive hk
  | .alias _ _ _ content, hlive, hk => Live.lt_of_mem_cells content hlive hk
  | .reference cell, hlive, hk => by
      cases List.mem_singleton.mp hk
      exact hlive

theorem LiveAll.lt_of_mem_cells :
    (vs : List Value) → h.LiveAll vs → k ∈ Value.cellsIn vs → k < h.cells.size
  | v :: rest, hlive, hk => by
      cases List.mem_append.mp hk with
      | inl hv => exact Live.lt_of_mem_cells v hlive.1 hv
      | inr hrest => exact LiveAll.lt_of_mem_cells rest hlive.2 hrest

theorem LiveFields.lt_of_mem_cells :
    (fs : List (String × Value)) → h.LiveFields fs → k ∈ Value.cellsInFields fs →
      k < h.cells.size
  | (_, v) :: rest, hlive, hk => by
      cases List.mem_append.mp hk with
      | inl hv => exact Live.lt_of_mem_cells v hlive.1 hv
      | inr hrest => exact LiveFields.lt_of_mem_cells rest hlive.2 hrest

end

theorem Closed.leads_lt (hclosed : h.Closed) (hlive : h.Live v) (hleads : h.Leads v k) :
    k < h.cells.size := by
  induction hleads with
  | here hk => exact Live.lt_of_mem_cells _ hlive hk
  | @through v cell k _ _ ih => exact ih (hclosed cell)

/-!
## Stores
-/

theorem leads_store_self : (h.store k x).Leads v k ↔ h.Leads v k := by
  -- in both directions, the first visit of the cell ends the way to it
  have hback : ∀ {v target}, (h.store k x).Leads v target → target = k → h.Leads v k := by
    intro v target hleads htarget
    induction hleads with
    | here hk => exact Leads.here (htarget ▸ hk)
    | @through v cell target hcell _ ih =>
        by_cases heq : cell = k
        · exact Leads.here (heq ▸ hcell)
        · have hrest := ih htarget
          rw [load_store_ne h x heq] at hrest
          exact Leads.through hcell hrest
  have hforth : ∀ {v target}, h.Leads v target → target = k → (h.store k x).Leads v k := by
    intro v target hleads htarget
    induction hleads with
    | here hk => exact Leads.here (htarget ▸ hk)
    | @through v cell target hcell _ ih =>
        by_cases heq : cell = k
        · exact Leads.here (heq ▸ hcell)
        · apply Leads.through hcell
          rw [load_store_ne h x heq]
          exact ih htarget
  exact ⟨fun hleads => hback hleads rfl, fun hleads => hforth hleads rfl⟩

theorem load_store_of_not_leads (x : Value) (hunreached : ¬ h.Leads v k)
    (hcell : h.Leads v cell) : (h.store k x).load cell = h.load cell := by
  apply load_store_ne
  intro heq
  rw [heq] at hcell
  exact hunreached hcell

theorem leads_store_of_not_leads (x : Value) (hunreached : ¬ h.Leads v k) :
    (h.store k x).Leads v cell ↔ h.Leads v cell := by
  have hsame : ∀ c, h.Leads v c → (h.store k x).load c = h.load c :=
    fun _ hc => load_store_of_not_leads x hunreached hc
  exact ⟨fun hleads => hleads.carried_back hsame, fun hleads => hleads.carried hsame⟩

/-- After a store, a way to another cell is an old one, or it goes through the changed cell. -/
theorem leads_store_cases (hk : k < h.cells.size) (hleads : (h.store k x).Leads v cell) :
    h.Leads v cell ∨ (h.store k x).Leads v k ∧ (h.store k x).Leads x cell := by
  induction hleads with
  | here hmem => exact Or.inl (Leads.here hmem)
  | @through v next cell hnext hrest ih =>
      by_cases heq : next = k
      · subst heq
        rw [load_store_self h x hk] at hrest
        exact Or.inr ⟨Leads.here hnext, hrest⟩
      · rw [load_store_ne h x heq] at ih
        rcases ih with hold | ⟨hto, hfrom⟩
        · exact Or.inl (Leads.through hnext hold)
        · refine Or.inr ⟨?_, hfrom⟩
          apply Leads.through hnext
          rw [load_store_ne h x heq]
          exact hto

/-!
## Acyclic heaps
-/

def Acyclic (h : Heap) : Prop :=
  ∀ cell, ¬ h.Leads (h.load cell) cell

theorem Acyclic.of_cells_eq (hacyclic : h.Acyclic) (hcells : h'.cells = h.cells) :
    h'.Acyclic := by
  intro cell hleads
  rw [load_of_cells_eq hcells] at hleads
  exact hacyclic cell ((leads_iff_of_cells_eq hcells).mp hleads)

theorem Acyclic.newCell (hacyclic : h.Acyclic) (hclosed : h.Closed) (hlive : h.Live x) :
    (h.newCell x).2.Acyclic := by
  -- live values lead to old cells only, and these are as they were
  have hold : ∀ v, h.Live v → ∀ k, (h.newCell x).2.Leads v k → h.Leads v k := by
    intro v hv k hleads
    apply hleads.carried_back
    intro c hc
    apply load_newCell_ne
    exact Nat.ne_of_lt (hclosed.leads_lt hv hc)
  intro cell hleads
  by_cases hnew : cell = h.cells.size
  · subst hnew
    rw [load_newCell_self] at hleads
    exact Nat.lt_irrefl _ (hclosed.leads_lt hlive (hold x hlive _ hleads))
  · rw [load_newCell_ne h x hnew] at hleads
    exact hacyclic cell (hold _ (hclosed cell) _ hleads)

theorem Acyclic.store_iff (hacyclic : h.Acyclic) (hk : k < h.cells.size) :
    (h.store k x).Acyclic ↔ ¬ h.Leads x k := by
  constructor
  · intro hstored hleads
    apply hstored k
    rw [load_store_self h x hk]
    exact leads_store_self.mpr hleads
  · intro hunreached cell hleads
    by_cases heq : cell = k
    · subst heq
      rw [load_store_self h x hk] at hleads
      exact hunreached (leads_store_self.mp hleads)
    · -- a cycle that goes through the changed cell brings the stored value back to it
      have hload := load_store_ne h x heq
      rw [hload] at hleads
      rcases leads_store_cases hk hleads with hold | ⟨hto, hfrom⟩
      · exact hacyclic cell hold
      · rw [← hload] at hto
        exact hunreached (leads_store_self.mp (hfrom.trans hto))

/-!
## Copies
-/

mutual

theorem copy_cells {h h' : Heap} {x : Value} :
    (v : Value) → (copy v).run h = .ok (x, h') → x.cells = [] ∧ h'.cells = h.cells
  | .list mark element items, hrun => by
      rw [copy] at hrun
      rcases build_bind hrun with ⟨xs, h₁, hitems, hrest⟩
      cases hrest
      have hinside := copyAll_cells items hitems
      exact hinside
  | .tuple mark items, hrun => by
      rw [copy] at hrun
      rcases build_bind hrun with ⟨xs, h₁, hitems, hrest⟩
      cases hrest
      have hinside := copyAll_cells items hitems
      exact hinside
  | .algebraic mark shape fields, hrun => by
      rw [copy] at hrun
      rcases build_bind hrun with ⟨xs, h₁, hfields, hrest⟩
      cases hrest
      have hinside := copyFields_cells fields hfields
      exact hinside
  | .alias mark name target content, hrun => by
      rw [copy] at hrun
      rcases build_bind hrun with ⟨c, h₁, hinner, hrest⟩
      cases hrest
      have hinside := copy_cells content hinner
      exact hinside
  | .function id, hrun => by
      rw [copy] at hrun
      cases hf : h.functions[id]? with
      | none =>
          rw [run_copyFunction_none hf] at hrun
          cases hrun
          exact ⟨rfl, rfl⟩
      | some f =>
          rw [run_copyFunction hf] at hrun
          cases hrun
          exact ⟨rfl, rfl⟩
  | .absent, hrun => by rw [copy] at hrun; cases hrun
  | .reference _, hrun => by rw [copy] at hrun; cases hrun
  | .promise _, hrun => by rw [copy] at hrun; cases hrun
  | .int _, hrun => by cases hrun; exact ⟨rfl, rfl⟩
  | .uint _, hrun => by cases hrun; exact ⟨rfl, rfl⟩
  | .float _, hrun => by cases hrun; exact ⟨rfl, rfl⟩
  | .char _, hrun => by cases hrun; exact ⟨rfl, rfl⟩
  | .byte _, hrun => by cases hrun; exact ⟨rfl, rfl⟩
  | .bool _, hrun => by cases hrun; exact ⟨rfl, rfl⟩

theorem copyAll_cells {h h' : Heap} {xs : List Value} :
    (vs : List Value) → (copyAll vs).run h = .ok (xs, h') →
      Value.cellsIn xs = [] ∧ h'.cells = h.cells
  | [], hrun => by cases hrun; exact ⟨rfl, rfl⟩
  | v :: rest, hrun => by
      rw [copyAll] at hrun
      rcases build_bind hrun with ⟨x, h₁, hhead, hrun⟩
      rcases build_bind hrun with ⟨ys, h₂, htail, hrest⟩
      cases hrest
      rcases copy_cells v hhead with ⟨hx, hfirst⟩
      rcases copyAll_cells rest htail with ⟨hys, hsecond⟩
      exact ⟨by simp [Value.cellsIn, hx, hys], hsecond.trans hfirst⟩

theorem copyFields_cells {h h' : Heap} {xs : List (String × Value)} :
    (fs : List (String × Value)) → (copyFields fs).run h = .ok (xs, h') →
      Value.cellsInFields xs = [] ∧ h'.cells = h.cells
  | [], hrun => by cases hrun; exact ⟨rfl, rfl⟩
  | (name, v) :: rest, hrun => by
      rw [copyFields] at hrun
      rcases build_bind hrun with ⟨x, h₁, hhead, hrun⟩
      rcases build_bind hrun with ⟨ys, h₂, htail, hrest⟩
      cases hrest
      rcases copy_cells v hhead with ⟨hx, hfirst⟩
      rcases copyFields_cells rest htail with ⟨hys, hsecond⟩
      exact ⟨by simp [Value.cellsInFields, hx, hys], hsecond.trans hfirst⟩

end

theorem copyContent_cells (hrun : (copyContent v).run h = .ok (x, h')) :
    x.cells = [] ∧ h'.cells = h.cells := by
  rw [run_copyContent] at hrun
  by_cases habsent : (h.contentOf v).isAbsent = true
  · rw [if_pos habsent] at hrun
    cases hrun
  · rw [if_neg habsent] at hrun
    exact copy_cells _ hrun

end Heap
end ScriptCore
