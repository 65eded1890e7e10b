import ScriptCore.Proofs.World.Place
import ScriptCore.Proofs.World.Variable

/-!
# How variables come into being

Every binding goes the same way: a reference is replaced by a copy of its
content, a mutable variable gets a cell of its own, and the declared type is
checked.  Until the new variable is bound to a name, the world has only grown.
-/

namespace ScriptCore
namespace World

/-!
## Grown worlds
-/

/-- The second world has more variables and a grown heap.  Names are bound as before. -/
structure Extends (w w' : World) : Prop where
  scopes : w'.scopes = w.scopes
  threads : w'.threads = w.threads
  frozen : w'.frozen = w.frozen
  guarded : w'.guarded = w.guarded
  vars : ∀ (id : VariableId) (v : Variable), w.vars[id]? = some v → w'.vars[id]? = some v
  heap : w.heap.Grows w'.heap

theorem Extends.refl (w : World) : w.Extends w where
  scopes := rfl
  threads := rfl
  frozen := rfl
  guarded := rfl
  vars _ _ hv := hv
  heap := Heap.Grows.refl _

theorem Extends.trans {w w₁ w₂ : World} (first : w.Extends w₁) (second : w₁.Extends w₂) :
    w.Extends w₂ where
  scopes := second.scopes.trans first.scopes
  threads := second.threads.trans first.threads
  frozen := second.frozen.trans first.frozen
  guarded := second.guarded.trans first.guarded
  vars id v hv := second.vars id v (first.vars id v hv)
  heap := first.heap.trans second.heap

theorem getElem?_push_old {vars : Array Variable} {id : VariableId} {v : Variable}
    (hv : vars[id]? = some v) (new : Variable) : (vars.push new)[id]? = some v := by
  have hid : id < vars.size := (Array.getElem?_eq_some_iff.mp hv).1
  rw [Array.getElem?_push, if_neg (Nat.ne_of_lt hid), hv]

theorem Extends.withHeap (w : World) {h : Heap} (hgrows : w.heap.Grows h) :
    w.Extends { w with heap := h } where
  scopes := rfl
  threads := rfl
  frozen := rfl
  guarded := rfl
  vars _ _ hv := hv
  heap := hgrows

theorem Extends.withVariable (w : World) {h : Heap} (hgrows : w.heap.Grows h) (v : Variable) :
    w.Extends { w with heap := h, vars := w.vars.push v } where
  scopes := rfl
  threads := rfl
  frozen := rfl
  guarded := rfl
  vars _ _ hv := getElem?_push_old hv v
  heap := hgrows

/-- All that cells and variables hold exists, and no cell holds a reference directly. -/
structure Sane (w : World) : Prop where
  flat : w.heap.Flat
  closed : w.heap.Closed
  live : ∀ (id : VariableId) (v : Variable), w.vars[id]? = some v → w.heap.Live v.slot

theorem Sane.withHeap {w : World} (hsane : w.Sane) {h : Heap} (hgrows : w.heap.Grows h)
    (hflat : h.Flat) (hclosed : h.Closed) : Sane { w with heap := h } where
  flat := hflat
  closed := hclosed
  live id v hv := (hsane.live id v hv).wider hgrows.wider

theorem Sane.withSameCells {w : World} (hsane : w.Sane) {h : Heap} (hgrows : w.heap.Grows h)
    (hcells : h.cells = w.heap.cells) : Sane { w with heap := h } := by
  refine hsane.withHeap hgrows (hsane.flat.of_cells_eq hcells) (hsane.closed.grows hgrows ?_)
  intro cell hold hnew
  rw [hcells] at hnew
  exact absurd hnew (Nat.not_lt.mpr hold)

theorem Sane.withCell {w : World} (hsane : w.Sane) {h : Heap} (hwidens : w.heap.Widens h)
    {content : Value} (hlive : h.Live content) (hflat : content.isReference = false) :
    Sane { w with heap := (h.newCell content).2 } := by
  have hgrows := Heap.Grows.newCell h content
  have hsane' := hsane.withSameCells hwidens.grows hwidens.cells
  refine hsane'.withHeap hgrows (hsane'.flat.newCell hflat) (hsane'.closed.grows hgrows ?_)
  intro cell hold hnew
  have hcell : cell = h.cells.size := by
    rw [Heap.size_cells_newCell] at hnew
    exact Nat.le_antisymm (Nat.le_of_lt_succ hnew) hold
  rw [hcell, Heap.load_newCell_self]
  exact hlive.wider hgrows.wider

theorem Sane.newReference {w w' : World} (hsane : w.Sane) {value : Value}
    (hlive : w.heap.Live value) {r : Except Failure Value}
    (hrun : (Op.build (Heap.newReference value)).run w = (r, w')) :
    ∃ h, w.heap.Grows h ∧ Sane { w with heap := h } ∧ w' = { w with heap := h } := by
  rcases Op.build_cases hrun with ⟨f, _, _, hw⟩ | ⟨x, h, hx, _, hw⟩
  · exact ⟨w.heap, Heap.Grows.refl _, hsane, hw⟩
  · rcases Heap.newReference_ok hsane.closed hlive hx with
      ⟨content, h₁, hwidens, hcontent, hflat, _, hheap⟩
    subst hheap
    have hgrows := hwidens.grows.trans (Heap.Grows.newCell h₁ content)
    exact ⟨_, hgrows, hsane.withCell hwidens hcontent (hflat hsane.flat), hw⟩

theorem Sane.store {w : World} (hsane : w.Sane) (cell : CellId) {x : Value}
    (hlive : w.heap.Live x) (hflat : x.isReference = false) :
    Sane { w with heap := w.heap.store cell x } where
  flat := hsane.flat.store cell hflat
  closed := hsane.closed.store cell hlive
  live id v hv := (hsane.live id v hv).wider (Heap.wider_store w.heap cell x)

theorem Sane.push {w : World} (hsane : w.Sane) {v : Variable} (hv : w.heap.Live v.slot) :
    Sane { w with vars := w.vars.push v } where
  flat := hsane.flat
  closed := hsane.closed
  live id u hu := by
    change (w.vars.push v)[id]? = some u at hu
    rw [Array.getElem?_push] at hu
    by_cases hid : id = w.vars.size
    · rw [if_pos hid] at hu
      cases hu
      exact hv
    · rw [if_neg hid] at hu
      exact hsane.live id u hu

/-!
## New variables
-/

def slotFor (isMutable : Bool) (h : Heap) (x : Value) : Value × Heap :=
  if isMutable then (.reference h.cells.size, (h.newCell x).2) else (x, h)

section SlotFor

variable {h₀ h : Heap} {value x : Value} (isMutable : Bool)

theorem slotFor_grows (hx : h₀.Detached h value x) : h₀.Grows (slotFor isMutable h x).2 := by
  cases isMutable with
  | false => exact hx.heap.grows
  | true => exact hx.heap.grows.trans (Heap.Grows.newCell h x)

theorem slotFor_live (hx : h₀.Detached h value x) (hlive : h₀.Live value) :
    (slotFor isMutable h x).2.Live (slotFor isMutable h x).1 := by
  cases isMutable with
  | false => exact hx.live hlive
  | true =>
      change h.cells.size < (h.newCell x).2.cells.size
      simp

theorem slotFor_isReference (hx : h₀.Detached h value x) :
    (slotFor isMutable h x).1.isReference = isMutable := by
  cases isMutable with
  | false => exact hx.isReference
  | true => rfl

theorem slotFor_content (hx : h₀.Detached h value x) (hlive : h₀.Live value) :
    (slotFor isMutable h x).2.read (slotFor isMutable h x).1 = h₀.read value := by
  cases isMutable with
  | false =>
      change h.read x = _
      rw [Heap.read, h.contentOf_of_not_reference hx.isReference, hx.content]
  | true =>
      change (h.newCell x).2.reveal ((h.newCell x).2.load h.cells.size) = _
      rw [Heap.load_newCell_self, Heap.reveal_grows (Heap.Grows.newCell h x) x (hx.live hlive),
        hx.content]

theorem Sane.slotFor {w : World} (hsane : w.Sane) (hx : w.heap.Detached h value x)
    (hlive : w.heap.Live value) : Sane { w with heap := (slotFor isMutable h x).2 } := by
  cases isMutable with
  | false => exact hsane.withSameCells hx.heap.grows hx.heap.cells
  | true => exact hsane.withCell hx.heap (hx.live hlive) hx.isReference

end SlotFor

/-- The outcomes of making a variable for a value. -/
inductive Made (w : World) (declared : Ty) (value : Value) (isMutable : Bool) :
    Except Failure VariableId → World → Prop where
  | refused (f : Failure) : Made w declared value isMutable (.error f) w
  | misfit (f : Failure) {x : Value} {h : Heap} (hx : w.heap.Detached h value x) :
      Made w declared value isMutable (.error f) { w with heap := (slotFor isMutable h x).2 }
  | made {x : Value} {h : Heap} (hx : w.heap.Detached h value x)
      (hbindable : Bindable (slotFor isMutable h x).2 declared (slotFor isMutable h x).1) :
      Made w declared value isMutable (.ok w.vars.size)
        { w with
          heap := (slotFor isMutable h x).2
          vars := w.vars.push { declared, slot := (slotFor isMutable h x).1 } }

variable {w w' : World} {declared : Ty} {value x : Value} {isMutable : Bool} {h : Heap}

theorem made_of_bindValue {r : Except Failure VariableId} (hx : w.heap.Detached h value x)
    (hrun : (bindValue declared (slotFor isMutable h x).1).run
      { w with heap := (slotFor isMutable h x).2 } = (r, w')) :
    Made w declared value isMutable r w' := by
  rcases bindValue_cases hrun with ⟨f, hr, hw⟩ | ⟨hr, hbindable, hw⟩
  · subst hr hw
    exact Made.misfit f hx
  · subst hr hw
    exact Made.made hx hbindable

theorem bindMutable_made {r : Except Failure VariableId} (hclosed : w.heap.Closed)
    (hlive : w.heap.Live value) (hrun : (bindMutable declared value).run w = (r, w')) :
    Made w declared value true r w' := by
  unfold bindMutable at hrun
  rcases Op.bind_cases hrun with ⟨f, hdetach, hr⟩ | ⟨x, w₁, hdetach, hrest⟩
  · rcases Op.build_cases hdetach with ⟨f', _, hr', hw⟩ | ⟨x, h, _, hr', _⟩
    · subst hr hw
      exact Made.refused f
    · cases hr'
  · rcases Op.build_cases hdetach with ⟨f', _, hr', _⟩ | ⟨x', h, hx, hr', hw₁⟩
    · cases hr'
    · cases hr'
      subst hw₁
      have hdetached := Heap.detach_ok hclosed hlive hx
      rw [Op.run_bind, Op.run_build, Heap.run_newReference h hdetached.isReference] at hrest
      exact made_of_bindValue hdetached hrest

theorem Made.extends {r : Except Failure VariableId}
    (hmade : Made w declared value isMutable r w') : w.Extends w' := by
  cases hmade with
  | refused f => exact Extends.refl w
  | misfit f hx => exact Extends.withHeap w (slotFor_grows isMutable hx)
  | made hx _ => exact Extends.withVariable w (slotFor_grows isMutable hx) _

theorem Made.sane {r : Except Failure VariableId} (hmade : Made w declared value isMutable r w')
    (hsane : w.Sane) (hlive : w.heap.Live value) : w'.Sane := by
  cases hmade with
  | refused f => exact hsane
  | misfit f hx => exact hsane.slotFor isMutable hx hlive
  | made hx _ => exact (hsane.slotFor isMutable hx hlive).push (slotFor_live isMutable hx hlive)

/-- The variable of the second world shows the value as it was in the first one. -/
structure Holds (w w' : World) (declared : Ty) (value : Value) (isMutable : Bool)
    (id : VariableId) (v : Variable) : Prop where
  var : w'.vars[id]? = some v
  declared : v.declared = declared
  isMutable : v.slot.isReference = isMutable
  content : w'.heap.read v.slot = w.heap.read value
  present : (w'.heap.contentOf v.slot).isAbsent = false
  ownCell : ∀ cell, v.slot = .reference cell → w.heap.cells.size ≤ cell

theorem typeOf_absent_cell {h : Heap} {cell : CellId} (habsent : (h.load cell).isAbsent = true)
    (type : Ty) : h.typeOf (.reference cell) ≠ .ok type := by
  have hload : h.load cell = .absent := by
    cases hl : h.load cell with
    | absent => rfl
    | _ =>
        rw [hl] at habsent
        cases habsent
  unfold Heap.typeOf Heap.explore
  intro htype
  cases hsize : h.cells.size with
  | zero =>
      rw [hsize] at htype
      cases htype
  | succ n =>
      rw [hsize, Heap.follow, Heap.typeVia, hload] at htype
      cases n with
      | zero => cases htype
      | succ m => cases htype

theorem Bindable.present {h : Heap} {declared : Ty} {slot : Value}
    (hbindable : Bindable h declared slot) : (h.contentOf slot).isAbsent = false := by
  rcases hbindable with ⟨hslot, type, htype, _⟩
  cases slot with
  | reference cell =>
      change (h.load cell).isAbsent = false
      by_cases habsent : (h.load cell).isAbsent = true
      · exact absurd htype (typeOf_absent_cell habsent type)
      · simpa using habsent
  | _ => exact hslot

theorem Made.holds {id : VariableId} (hmade : Made w declared value isMutable (.ok id) w')
    (hlive : w.heap.Live value) : ∃ v, Holds w w' declared value isMutable id v := by
  cases hmade with
  | @made x h hx hbindable =>
      refine ⟨{ declared, slot := (slotFor isMutable h x).1 }, ?_⟩
      exact
        { var := by simp
          declared := rfl
          isMutable := slotFor_isReference isMutable hx
          content := slotFor_content isMutable hx hlive
          present := hbindable.present
          ownCell := by
            intro cell hslot
            cases isMutable with
            | false =>
                have href := hx.isReference
                change x = .reference cell at hslot
                rw [hslot] at href
                cases href
            | true =>
                change Value.reference h.cells.size = .reference cell at hslot
                cases hslot
                exact Nat.le_of_eq (by rw [hx.heap.cells]) }

/-!
## Definitions in a scope
-/

/-- The outcomes of making a variable for a value and binding it at a place. -/
inductive Placed (w : World) (p : Place) (declared : Ty) (value : Value) (isMutable : Bool) :
    Except Failure VariableId → World → Prop where
  | failed {r₁ : Except Failure VariableId} {w₁ : World} (f : Failure)
      (hmade : Made w declared value isMutable r₁ w₁) :
      Placed w p declared value isMutable (.error f) w₁
  | bound {id : VariableId} {w₁ : World} (hmade : Made w declared value isMutable (.ok id) w₁) :
      Placed w p declared value isMutable (.ok id) (w₁.bindAt id p)

theorem bindName_cases {scope : ScopeId} {name : String} {id : VariableId}
    {r : Except Failure Unit} (hrun : (bindName (some scope) name id).run w = (r, w')) :
    (∃ f, r = .error f ∧ w' = w) ∨ r = .ok () ∧ w' = w.bindAt id (.inScope scope name) := by
  unfold bindName at hrun
  rw [Op.run_bind, Op.run_get, Op.next_ok] at hrun
  cases hfound : w.scopes[scope]? with
  | none =>
      simp only [Option.bind_some, hfound, Option.map_none] at hrun
      cases hrun
      exact Or.inl ⟨_, rfl, rfl⟩
  | some found =>
      simp only [Option.bind_some, hfound, Option.map_some] at hrun
      rw [bindAt_inScope w id hfound]
      cases hrun
      exact Or.inr ⟨rfl, rfl⟩

theorem placed_of_bindValue {scope : ScopeId} {name : String} {r : Except Failure VariableId}
    (hx : w.heap.Detached h value x)
    (hrun : (do
        let id ← Op.withName name (bindValue declared (slotFor isMutable h x).1)
        bindName (some scope) name id
        return id : Op VariableId).run { w with heap := (slotFor isMutable h x).2 } = (r, w')) :
    Placed w (.inScope scope name) declared value isMutable r w' := by
  rcases Op.bind_cases hrun with ⟨f, hbind, hr⟩ | ⟨id, w₁, hbind, hrest⟩
  · subst hr
    rcases Op.withName_cases hbind with ⟨f', hbind', _⟩ | ⟨id, _, hr'⟩
    · exact Placed.failed f (made_of_bindValue hx hbind')
    · cases hr'
  rcases Op.withName_cases hbind with ⟨f', _, hr'⟩ | ⟨id', hbind', hr'⟩
  · cases hr'
  cases hr'
  have hmade := made_of_bindValue hx hbind'
  rcases Op.bind_cases hrest with ⟨f, hname, hr⟩ | ⟨_, w₂, hname, hpure⟩
  · subst hr
    rcases bindName_cases hname with ⟨_, _, hw⟩ | ⟨hok, _⟩
    · subst hw
      exact Placed.failed f hmade
    · cases hok
  · cases hpure
    rcases bindName_cases hname with ⟨_, hf, _⟩ | ⟨_, hw⟩
    · cases hf
    · subst hw
      exact Placed.bound hmade

theorem define_cases {scope : ScopeId} {name : String} {r : Except Failure VariableId}
    (hclosed : w.heap.Closed) (hlive : w.heap.Live value)
    (hrun : (define (some scope) name declared value isMutable).run w = (r, w')) :
    Placed w (.inScope scope name) declared value isMutable r w' := by
  unfold define at hrun
  rcases Op.bind_cases hrun with ⟨f, hdetach, hr⟩ | ⟨x, w₁, hdetach, hrest⟩
  · subst hr
    rcases Op.withName_cases hdetach with ⟨f', hdetach', _⟩ | ⟨x, _, hr'⟩
    · rcases Op.build_cases hdetach' with ⟨_, _, _, hw⟩ | ⟨_, _, _, hr', _⟩
      · subst hw
        exact Placed.failed f (Made.refused f)
      · cases hr'
    · cases hr'
  rcases Op.withName_cases hdetach with ⟨f', _, hr'⟩ | ⟨x', hdetach', hr'⟩
  · cases hr'
  cases hr'
  rcases Op.build_cases hdetach' with ⟨f', _, hr', _⟩ | ⟨x', h, hx, hr', hw₁⟩
  · cases hr'
  cases hr'
  subst hw₁
  have hdetached := Heap.detach_ok hclosed hlive hx
  cases isMutable with
  | false => exact placed_of_bindValue hdetached hrest
  | true =>
      simp only [if_true] at hrest
      rw [Op.run_bind, Op.run_build, Heap.run_newReference h hdetached.isReference] at hrest
      exact placed_of_bindValue hdetached hrest

end World
end ScriptCore
