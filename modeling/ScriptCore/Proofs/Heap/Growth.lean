import ScriptCore.Heap.Basic

/-!
# Growth of the heap

Nothing is ever removed from a heap: it grows, or one of its cells gets a new
content.  This module has the equations for cells and the two notions that
later modules rest on.  A heap has grown into another one if everything in it
is still there, and a value is live if all it refers to exists.
-/

namespace ScriptCore
namespace Heap

/-!
## Cells
-/

theorem load_store_self (h : Heap) {cell : CellId} (value : Value)
    (hcell : cell < h.cells.size) : (h.store cell value).load cell = value := by
  simp [load, store, Array.getD_eq_getD_getElem?, hcell]

theorem load_store_ne (h : Heap) {cell other : CellId} (value : Value)
    (hne : other ≠ cell) : (h.store cell value).load other = h.load other := by
  have hne' : cell ≠ other := fun heq => hne heq.symm
  simp [load, store, Array.getD_eq_getD_getElem?, hne']

@[simp] theorem size_cells_store (h : Heap) (cell : CellId) (value : Value) :
    (h.store cell value).cells.size = h.cells.size := by
  simp [store]

theorem load_of_size_le (h : Heap) {cell : CellId} (hcell : h.cells.size ≤ cell) :
    h.load cell = .absent := by
  simp [load, Array.getD_eq_getD_getElem?, hcell]

theorem load_newCell_self (h : Heap) (value : Value) :
    (h.newCell value).2.load h.cells.size = value := by
  simp [load, newCell, Array.getD_eq_getD_getElem?]

theorem load_newCell_ne (h : Heap) (value : Value) {cell : CellId}
    (hne : cell ≠ h.cells.size) : (h.newCell value).2.load cell = h.load cell := by
  simp [load, newCell, Array.getD_eq_getD_getElem?, Array.getElem?_push, hne]

@[simp] theorem size_cells_newCell (h : Heap) (value : Value) :
    (h.newCell value).2.cells.size = h.cells.size + 1 := by
  simp [newCell]

theorem load_of_cells_eq {h h' : Heap} (hcells : h'.cells = h.cells) (cell : CellId) :
    h'.load cell = h.load cell := by
  unfold load
  rw [hcells]

def Flat (h : Heap) : Prop :=
  ∀ cell, (h.load cell).isReference = false

theorem Flat.store {h : Heap} (hflat : h.Flat) (cell : CellId) {value : Value}
    (hvalue : value.isReference = false) : (h.store cell value).Flat := by
  intro other
  by_cases hother : other = cell
  · subst hother
    by_cases hcell : other < h.cells.size
    · rw [load_store_self h value hcell]
      exact hvalue
    · rw [load_of_size_le _ (by simpa using hcell)]
      rfl
  · rw [load_store_ne h value hother]
    exact hflat other

theorem Flat.newCell {h : Heap} (hflat : h.Flat) {value : Value}
    (hvalue : value.isReference = false) : (h.newCell value).2.Flat := by
  intro cell
  by_cases hcell : cell = h.cells.size
  · subst hcell
    rw [load_newCell_self]
    exact hvalue
  · rw [load_newCell_ne h value hcell]
    exact hflat cell

theorem Flat.of_cells_eq {h h' : Heap} (hflat : h.Flat) (hcells : h'.cells = h.cells) :
    h'.Flat := by
  intro cell
  rw [load_of_cells_eq hcells]
  exact hflat cell

theorem Flat.contentOf {h : Heap} (hflat : h.Flat) (value : Value) :
    (h.contentOf value).isReference = false := by
  cases value with
  | reference cell => exact hflat cell
  | _ => rfl

/-!
## Growth
-/

/-- Everything in the first heap is in the second one; promises may have come further. -/
structure Grows (h h' : Heap) : Prop where
  cells : ∀ cell : CellId, cell < h.cells.size → h'.load cell = h.load cell
  size_cells : h.cells.size ≤ h'.cells.size
  functions : ∀ (id : FunctionId) (f : Function), h.functions[id]? = some f →
    h'.functions[id]? = some f
  promises : ∀ (id : PromiseId) (p : Promise), h.promises[id]? = some p →
    ∃ p', h'.promises[id]? = some p' ∧ p'.returnType = p.returnType

namespace Grows

theorem refl (h : Heap) : h.Grows h where
  cells _ _ := rfl
  size_cells := Nat.le_refl _
  functions _ _ hf := hf
  promises _ p hp := ⟨p, hp, rfl⟩

theorem trans {h h₁ h₂ : Heap} (first : h.Grows h₁) (second : h₁.Grows h₂) : h.Grows h₂ where
  cells cell hcell := by
    have hcell' : cell < h₁.cells.size := Nat.lt_of_lt_of_le hcell first.size_cells
    rw [second.cells cell hcell', first.cells cell hcell]
  size_cells := Nat.le_trans first.size_cells second.size_cells
  functions id f hf := second.functions id f (first.functions id f hf)
  promises id p hp := by
    rcases first.promises id p hp with ⟨p₁, hp₁, htype₁⟩
    rcases second.promises id p₁ hp₁ with ⟨p₂, hp₂, htype₂⟩
    exact ⟨p₂, hp₂, htype₂.trans htype₁⟩

theorem newCell (h : Heap) (value : Value) : h.Grows (h.newCell value).2 where
  cells cell hcell := load_newCell_ne h value (Nat.ne_of_lt hcell)
  size_cells := by simp
  functions _ _ hf := hf
  promises _ p hp := ⟨p, hp, rfl⟩

theorem newFunction (h : Heap) (f : Function) : h.Grows (h.newFunction f).2 where
  cells _ _ := rfl
  size_cells := Nat.le_refl _
  functions id g hg := by
    have hid : id < h.functions.size := (Array.getElem?_eq_some_iff.mp hg).1
    simpa [Heap.newFunction, Array.getElem?_push, Nat.ne_of_lt hid] using hg
  promises _ p hp := ⟨p, hp, rfl⟩

theorem newPromise (h : Heap) (p : Promise) : h.Grows (h.newPromise p).2 where
  cells _ _ := rfl
  size_cells := Nat.le_refl _
  functions _ _ hf := hf
  promises id q hq := by
    have hid : id < h.promises.size := (Array.getElem?_eq_some_iff.mp hq).1
    exact ⟨q, by simpa [Heap.newPromise, Array.getElem?_push, Nat.ne_of_lt hid] using hq, rfl⟩

theorem setPromise (h : Heap) {id : PromiseId} {p p' : Promise} (hp : h.promises[id]? = some p)
    (htype : p'.returnType = p.returnType) : h.Grows (h.setPromise id p') where
  cells _ _ := rfl
  size_cells := Nat.le_refl _
  functions _ _ hf := hf
  promises other q hq := by
    by_cases hother : id = other
    · subst hother
      have hid : id < h.promises.size := (Array.getElem?_eq_some_iff.mp hp).1
      have hqp : q = p := Option.some.inj (hq.symm.trans hp)
      subst hqp
      exact ⟨p', by simp [Heap.setPromise, hid], htype⟩
    · exact ⟨q, by simpa [Heap.setPromise, Array.getElem?_setIfInBounds, hother] using hq, rfl⟩

theorem newMark (h : Heap) : h.Grows h.newMark.2 where
  cells _ _ := rfl
  size_cells := Nat.le_refl _
  functions _ _ hf := hf
  promises _ p hp := ⟨p, hp, rfl⟩

end Grows

/-!
## Live values
-/

mutual

def Live (h : Heap) : Value → Prop
  | .list _ _ items => LiveAll h items
  | .tuple _ items => LiveAll h items
  | .algebraic _ _ fields => LiveFields h fields
  | .alias _ _ _ content => Live h content
  | .reference cell => cell < h.cells.size
  | .function id => id < h.functions.size
  | .promise id => id < h.promises.size
  | _ => True

def LiveAll (h : Heap) : List Value → Prop
  | [] => True
  | v :: rest => Live h v ∧ LiveAll h rest

def LiveFields (h : Heap) : List (String × Value) → Prop
  | [] => True
  | (_, v) :: rest => Live h v ∧ LiveFields h rest

end

theorem Grows.size_functions {h h' : Heap} (hgrows : h.Grows h') :
    h.functions.size ≤ h'.functions.size := by
  refine Nat.le_of_not_lt fun hlt => ?_
  have hlast := hgrows.functions h'.functions.size (h.functions[h'.functions.size])
    (Array.getElem?_eq_getElem hlt)
  simp at hlast

theorem Grows.size_promises {h h' : Heap} (hgrows : h.Grows h') :
    h.promises.size ≤ h'.promises.size := by
  refine Nat.le_of_not_lt fun hlt => ?_
  rcases hgrows.promises h'.promises.size (h.promises[h'.promises.size])
    (Array.getElem?_eq_getElem hlt) with ⟨p, hp, _⟩
  simp at hp

/-- The second heap has at least as many cells, functions and promises. -/
structure Wider (h h' : Heap) : Prop where
  cells : h.cells.size ≤ h'.cells.size
  functions : h.functions.size ≤ h'.functions.size
  promises : h.promises.size ≤ h'.promises.size

theorem Grows.wider {h h' : Heap} (hgrows : h.Grows h') : h.Wider h' where
  cells := hgrows.size_cells
  functions := hgrows.size_functions
  promises := hgrows.size_promises

theorem wider_store (h : Heap) (cell : CellId) (value : Value) : h.Wider (h.store cell value) where
  cells := by simp
  functions := Nat.le_refl _
  promises := Nat.le_refl _

mutual

theorem Live.wider {h h' : Heap} (hwider : h.Wider h') :
    (v : Value) → h.Live v → h'.Live v
  | .list _ _ items, hlive => LiveAll.wider hwider items hlive
  | .tuple _ items, hlive => LiveAll.wider hwider items hlive
  | .algebraic _ _ fields, hlive => LiveFields.wider hwider fields hlive
  | .alias _ _ _ content, hlive => Live.wider hwider content hlive
  | .reference _, hlive => Nat.lt_of_lt_of_le hlive hwider.cells
  | .function _, hlive => Nat.lt_of_lt_of_le hlive hwider.functions
  | .promise _, hlive => Nat.lt_of_lt_of_le hlive hwider.promises
  | .absent, _ => trivial
  | .int _, _ => trivial
  | .uint _, _ => trivial
  | .float _, _ => trivial
  | .char _, _ => trivial
  | .byte _, _ => trivial
  | .bool _, _ => trivial

theorem LiveAll.wider {h h' : Heap} (hwider : h.Wider h') :
    (vs : List Value) → h.LiveAll vs → h'.LiveAll vs
  | [], _ => trivial
  | v :: rest, hlive => ⟨Live.wider hwider v hlive.1, LiveAll.wider hwider rest hlive.2⟩

theorem LiveFields.wider {h h' : Heap} (hwider : h.Wider h') :
    (fs : List (String × Value)) → h.LiveFields fs → h'.LiveFields fs
  | [], _ => trivial
  | (_, v) :: rest, hlive => ⟨Live.wider hwider v hlive.1, LiveFields.wider hwider rest hlive.2⟩

end

theorem LiveAll.of_mem {h : Heap} {v : Value} {vs : List Value} (hlive : h.LiveAll vs)
    (hv : v ∈ vs) : h.Live v := by
  induction vs with
  | nil => cases hv
  | cons x rest ih =>
      cases hv with
      | head => exact hlive.1
      | tail _ hrest => exact ih hlive.2 hrest

def Closed (h : Heap) : Prop :=
  ∀ cell, h.Live (h.load cell)

theorem Closed.contentOf {h : Heap} (hclosed : h.Closed) {v : Value} (hlive : h.Live v) :
    h.Live (h.contentOf v) := by
  cases v with
  | reference cell => exact hclosed cell
  | _ => exact hlive

theorem Closed.store {h : Heap} (hclosed : h.Closed) (cell : CellId) {value : Value}
    (hlive : h.Live value) : (h.store cell value).Closed := by
  intro other
  have hwider := wider_store h cell value
  by_cases hother : other = cell
  · subst hother
    by_cases hcell : other < h.cells.size
    · rw [load_store_self h value hcell]
      exact hlive.wider hwider
    · rw [load_of_size_le _ (by simpa using hcell)]
      trivial
  · rw [load_store_ne h value hother]
    exact (hclosed other).wider hwider

theorem Closed.grows {h h' : Heap} (hclosed : h.Closed) (hgrows : h.Grows h')
    (hnew : ∀ cell, h.cells.size ≤ cell → cell < h'.cells.size → h'.Live (h'.load cell)) :
    h'.Closed := by
  intro cell
  by_cases hold : cell < h.cells.size
  · rw [hgrows.cells cell hold]
    exact (hclosed cell).wider hgrows.wider
  · by_cases hcell : cell < h'.cells.size
    · exact hnew cell (Nat.le_of_not_lt hold) hcell
    · rw [load_of_size_le _ (Nat.le_of_not_lt hcell)]
      trivial

end Heap
end ScriptCore
