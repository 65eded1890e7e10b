import ScriptCore.Proofs.Storage.Slots

/-!
# Tidy worlds

The invariant behind the slots.  No two places share a cell, no lock is taken,
and every place shows what a store says.  It is kept by growth, by binding a
new variable at a place, and by storing a value in the cell of one place.
-/

namespace ScriptCore
namespace World

/-- The world shows the slots of the store, and no two of its places share a cell. -/
structure Tidy (m : Store) (w : World) : Prop where
  sane : w.Sane
  slots : ∀ p, w.slotAt? p = m.slots p
  bound : ∀ (p : Place) (id : VariableId), w.varIn? p = some id →
    ∃ v, w.vars[id]? = some v ∧ (w.heap.contentOf v.slot).isAbsent = false
  owned : ∀ (p q : Place) (i j : VariableId) (u v : Variable) (cell : CellId),
    w.varIn? p = some i → w.varIn? q = some j → w.vars[i]? = some u → w.vars[j]? = some v →
    u.slot = .reference cell → v.slot = .reference cell → p = q
  free : ∀ (name : String) (g : Guard), w.guarded.get? name = some g → g.IsFree
  paths_length : m.paths.length = w.scopes.size
  paths : ∀ (s : ScopeId) (scope : Scope), w.scopes[s]? = some scope →
    m.paths[s]? = some (s :: m.path scope.outer)
  nested : ∀ (s o : ScopeId) (scope : Scope), w.scopes[s]? = some scope →
    scope.outer = some o → o < s

variable {m : Store} {w w' : World} {p : Place} {id : VariableId} {v : Variable}

theorem slotAt?_eq (hp : w.varIn? p = some id) (hv : w.vars[id]? = some v) :
    w.slotAt? p = some (shown w.heap v) := by
  simp [slotAt?, slotOf?, hp, hv]

theorem slotAt?_none (hp : w.varIn? p = none) : w.slotAt? p = none := by
  simp [slotAt?, hp]

theorem Tidy.slot (h : Tidy m w) (hp : w.varIn? p = some id) (hv : w.vars[id]? = some v) :
    m.slots p = some (shown w.heap v) := by
  rw [← h.slots, slotAt?_eq hp hv]

theorem Tidy.isSome (h : Tidy m w) (p : Place) : (m.slots p).isSome = (w.varIn? p).isSome := by
  rw [← h.slots]
  cases hp : w.varIn? p with
  | none => rw [slotAt?_none hp]; rfl
  | some id =>
      rcases h.bound p id hp with ⟨v, hv, _⟩
      rw [slotAt?_eq hp hv]
      rfl

/-!
## Growth
-/

theorem Extends.varIn? (hext : w.Extends w') (p : Place) : w'.varIn? p = w.varIn? p := by
  cases p with
  | inScope scope name => simp only [World.varIn?, hext.scopes]
  | threadLocal thread name => simp only [World.varIn?, locals, hext.threads]
  | frozen name => simp only [World.varIn?, hext.frozen]
  | guarded name => simp only [World.varIn?, hext.guarded]

theorem Sane.shown_extends (hsane : w.Sane) (hext : w.Extends w') (hv : w.vars[id]? = some v) :
    shown w'.heap v = shown w.heap v := by
  have hread := Heap.read_grows hext.heap hsane.closed (hsane.live id v hv)
  simp only [shown, hread]

theorem Tidy.extends (h : Tidy m w) (hext : w.Extends w') (hsane : w'.Sane) : Tidy m w' where
  sane := hsane
  slots q := by
    rw [← h.slots q]
    cases hq : w.varIn? q with
    | none =>
        rw [slotAt?_none hq, slotAt?_none (by rw [hext.varIn?, hq])]
    | some i =>
        rcases h.bound q i hq with ⟨u, hu, _⟩
        rw [slotAt?_eq hq hu, slotAt?_eq (by rw [hext.varIn?, hq]) (hext.vars i u hu),
          h.sane.shown_extends hext hu]
  bound q i hq := by
    rw [hext.varIn?] at hq
    rcases h.bound q i hq with ⟨u, hu, hpresent⟩
    refine ⟨u, hext.vars i u hu, ?_⟩
    rw [Heap.contentOf_grows hext.heap (h.sane.live i u hu)]
    exact hpresent
  owned q q' i j u u' cell hq hq' hu hu' hcell hcell' := by
    rw [hext.varIn?] at hq hq'
    rcases h.bound q i hq with ⟨u₀, hu₀, _⟩
    rcases h.bound q' j hq' with ⟨u₁, hu₁, _⟩
    have heq : u₀ = u := Option.some.inj ((hext.vars i u₀ hu₀).symm.trans hu)
    have heq' : u₁ = u' := Option.some.inj ((hext.vars j u₁ hu₁).symm.trans hu')
    subst heq heq'
    exact h.owned q q' i j u₀ u₁ cell hq hq' hu₀ hu₁ hcell hcell'
  free name g hg := by
    rw [hext.guarded] at hg
    exact h.free name g hg
  paths_length := by rw [hext.scopes, h.paths_length]
  paths s scope hs := by
    rw [hext.scopes] at hs
    exact h.paths s scope hs
  nested s o scope hs := by
    rw [hext.scopes] at hs
    exact h.nested s o scope hs

/-!
## Binding
-/

def OwnsCell (w : World) (v : Variable) : Prop :=
  ∀ (q : Place) (j : VariableId) (u : Variable) (cell : CellId), w.varIn? q = some j →
    w.vars[j]? = some u → u.slot = .reference cell → v.slot ≠ .reference cell

theorem free_bindAt (hfree : ∀ (name : String) (g : Guard), w.guarded.get? name = some g → g.IsFree)
    (p : Place) (name : String) (g : Guard) (hg : (w.bindAt id p).guarded.get? name = some g) :
    g.IsFree := by
  cases p with
  | guarded name' =>
      change (w.guarded.insert name' { var := id }).get? name = some g at hg
      rw [NameMap.get?_insert] at hg
      by_cases hname : name = name'
      · rw [if_pos hname] at hg
        cases hg
        exact ⟨rfl, rfl⟩
      · rw [if_neg hname] at hg
        exact hfree name g hg
  | _ => exact hfree name g hg

theorem size_scopes_bindAt (w : World) (id : VariableId) (p : Place) :
    (w.bindAt id p).scopes.size = w.scopes.size := by
  cases p with
  | inScope scope name => simp [bindAt]
  | _ => rfl

theorem Tidy.bindAt (h : Tidy m w) (hp : w.HasPlace p) (hv : w.vars[id]? = some v)
    (hpresent : (w.heap.contentOf v.slot).isAbsent = false) (hown : w.OwnsCell v) :
    Tidy (m.put p (shown w.heap v)) (w.bindAt id p) where
  sane :=
    { flat := by rw [heap_bindAt]; exact h.sane.flat
      closed := by rw [heap_bindAt]; exact h.sane.closed
      live := by
        intro i u hu
        rw [vars_bindAt] at hu
        rw [heap_bindAt]
        exact h.sane.live i u hu }
  slots q := by
    by_cases hq : q = p
    · subst hq
      have hhere : (w.bindAt id q).varIn? q = some id := by rw [varIn?_bindAt w id hp, if_pos rfl]
      rw [slotAt?_eq hhere (by rw [vars_bindAt]; exact hv), heap_bindAt]
      simp [Store.put]
    · have hthere : (w.bindAt id p).varIn? q = w.varIn? q := by
        rw [varIn?_bindAt w id hp, if_neg hq]
      simp only [Store.put, if_neg hq]
      rw [← h.slots q]
      unfold slotAt? slotOf?
      rw [hthere, vars_bindAt, heap_bindAt]
  bound q i hq := by
    rw [varIn?_bindAt w id hp] at hq
    rw [vars_bindAt, heap_bindAt]
    by_cases heq : q = p
    · rw [if_pos heq] at hq
      cases hq
      exact ⟨v, hv, hpresent⟩
    · rw [if_neg heq] at hq
      exact h.bound q i hq
  owned q q' i j u u' cell hq hq' hu hu' hcell hcell' := by
    rw [varIn?_bindAt w id hp] at hq hq'
    rw [vars_bindAt] at hu hu'
    -- A cell that is shared would belong to the new variable and to an old place.
    by_cases heq : q = p
    · by_cases heq' : q' = p
      · rw [heq, heq']
      · rw [if_pos heq] at hq
        rw [if_neg heq'] at hq'
        cases hq
        cases hv.symm.trans hu
        exact absurd hcell (hown q' j u' cell hq' hu' hcell')
    · rw [if_neg heq] at hq
      by_cases heq' : q' = p
      · rw [if_pos heq'] at hq'
        cases hq'
        cases hv.symm.trans hu'
        exact absurd hcell' (hown q i u cell hq hu hcell)
      · rw [if_neg heq'] at hq'
        exact h.owned q q' i j u u' cell hq hq' hu hu' hcell hcell'
  free name g hg := free_bindAt h.free p name g hg
  paths_length := by
    rw [size_scopes_bindAt]
    exact h.paths_length
  paths s scope hs := by
    have houter := outer_bindAt w id p s
    rw [hs] at houter
    cases hs' : w.scopes[s]? with
    | none =>
        rw [hs'] at houter
        cases houter
    | some scope' =>
        rw [hs', Option.map_some, Option.map_some] at houter
        have hpath := h.paths s scope' hs'
        rw [← Option.some.inj houter] at hpath
        exact hpath
  nested s o scope hs ho := by
    have houter := outer_bindAt w id p s
    rw [hs] at houter
    cases hs' : w.scopes[s]? with
    | none =>
        rw [hs'] at houter
        cases houter
    | some scope' =>
        rw [hs', Option.map_some, Option.map_some] at houter
        exact h.nested s o scope' hs' ((Option.some.inj houter).symm.trans ho)

/-!
## Storing
-/

theorem shown_store_self (hsane : w.Sane) {cell : CellId} {x : Value} (hv : w.vars[id]? = some v)
    (hslot : v.slot = .reference cell) (hlive : w.heap.Live x) :
    shown (w.heap.store cell x) v = { shown w.heap v with content := w.heap.reveal x } := by
  have hcell : cell < w.heap.cells.size := by
    have hvlive := hsane.live id v hv
    rw [hslot] at hvlive
    exact hvlive
  have hread : (w.heap.store cell x).read v.slot = w.heap.reveal x := by
    rw [hslot]
    change (w.heap.store cell x).reveal ((w.heap.store cell x).load cell) = _
    rw [Heap.load_store_self _ _ hcell, Heap.reveal_store w.heap cell x hlive]
  simp only [shown, hread]

theorem contentOf_store_ne (h : Heap) {cell : CellId} (x : Value) {slot : Value}
    (hslot : slot ≠ .reference cell) : (h.store cell x).contentOf slot = h.contentOf slot := by
  cases slot with
  | reference other =>
      have hother : other ≠ cell := fun heq => hslot (by rw [heq])
      exact h.load_store_ne x hother
  | _ => rfl

theorem shown_store_ne (hsane : w.Sane) {cell : CellId} {x : Value} (hv : w.vars[id]? = some v)
    (hslot : v.slot ≠ .reference cell) :
    shown (w.heap.store cell x) v = shown w.heap v := by
  have hread : (w.heap.store cell x).read v.slot = w.heap.read v.slot := by
    unfold Heap.read
    rw [contentOf_store_ne w.heap x hslot,
      Heap.reveal_store w.heap cell x (hsane.closed.contentOf (hsane.live id v hv))]
  simp only [shown, hread]

theorem varIn?_withHeap (w : World) (h : Heap) (q : Place) :
    ({ w with heap := h } : World).varIn? q = w.varIn? q := by
  cases q <;> rfl

theorem Tidy.store (h : Tidy m w) {cell : CellId} {x : Value} (hp : w.varIn? p = some id)
    (hv : w.vars[id]? = some v) (hslot : v.slot = .reference cell) (hlive : w.heap.Live x)
    (hflat : x.isReference = false) (hpresent : x.isAbsent = false) :
    Tidy (m.setContent p (w.heap.reveal x)) { w with heap := w.heap.store cell x } := by
  have hcell : cell < w.heap.cells.size := by
    have hvlive := h.sane.live id v hv
    rw [hslot] at hvlive
    exact hvlive
  have hother : ∀ (q : Place) (j : VariableId) (u : Variable), q ≠ p → w.varIn? q = some j →
      w.vars[j]? = some u → u.slot ≠ .reference cell := by
    intro q j u hq hj hu hucell
    exact hq (h.owned q p j id u v cell hj hp hu hv hucell hslot)
  rw [Store.setContent_eq (h.slot hp hv)]
  exact
    { sane := h.sane.store cell hlive hflat
      slots := by
        intro q
        by_cases hq : q = p
        · subst hq
          have hself := shown_store_self h.sane hv hslot hlive
          rw [slotAt?_eq ((varIn?_withHeap w (w.heap.store cell x) q).trans hp) hv, hself]
          simp [Store.put]
        · simp only [Store.put, if_neg hq]
          rw [← h.slots q]
          have hsame := varIn?_withHeap w (w.heap.store cell x) q
          cases hj : w.varIn? q with
          | none => rw [slotAt?_none hj, slotAt?_none (hsame.trans hj)]
          | some j =>
              rcases h.bound q j hj with ⟨u, hu, _⟩
              rw [slotAt?_eq hj hu, slotAt?_eq (hsame.trans hj) hu,
                shown_store_ne h.sane hu (hother q j u hq hj hu)]
      bound := by
        intro q j hj
        rw [varIn?_withHeap] at hj
        rcases h.bound q j hj with ⟨u, hu, hupresent⟩
        refine ⟨u, hu, ?_⟩
        by_cases hucell : u.slot = .reference cell
        · rw [hucell]
          change ((w.heap.store cell x).load cell).isAbsent = false
          rw [Heap.load_store_self _ _ hcell]
          exact hpresent
        · change ((w.heap.store cell x).contentOf u.slot).isAbsent = false
          rw [contentOf_store_ne w.heap x hucell]
          exact hupresent
      owned := by
        intro q q' i j u u' c hq hq'
        rw [varIn?_withHeap] at hq hq'
        exact h.owned q q' i j u u' c hq hq'
      free := h.free
      paths_length := h.paths_length
      paths := h.paths
      nested := h.nested }

/-!
## New scopes and threads
-/

theorem varIn?_newScope (w : World) (outer : Option ScopeId) (q : Place) :
    ({ w with scopes := w.scopes.push { outer } } : World).varIn? q = w.varIn? q := by
  cases q with
  | inScope scope name =>
      change ((w.scopes.push { outer })[scope]?.bind _) = w.scopes[scope]?.bind _
      rw [Array.getElem?_push]
      by_cases hscope : scope = w.scopes.size
      · subst hscope
        simp [NameMap.get?]
      · rw [if_neg hscope]
  | _ => rfl

theorem Tidy.newScope (h : Tidy m w) {outer : Option ScopeId}
    (houter : Command.ScopeExists w outer) :
    Tidy (m.addScope outer) { w with scopes := w.scopes.push { outer } } := by
  have hpath : ∀ scope : Option ScopeId, (∀ s, scope = some s → s < w.scopes.size) →
      (m.addScope outer).path scope = m.path scope := by
    intro scope hscope
    apply Store.path_addScope
    intro s hs
    rw [h.paths_length]
    exact hscope s hs
  exact
    { sane := ⟨h.sane.flat, h.sane.closed, h.sane.live⟩
      slots := by
        intro q
        change _ = m.slots q
        rw [← h.slots q]
        unfold slotAt? slotOf?
        rw [varIn?_newScope]
      bound := by
        intro q i hq
        rw [varIn?_newScope] at hq
        exact h.bound q i hq
      owned := by
        intro q q' i j u u' c hq hq'
        rw [varIn?_newScope] at hq hq'
        exact h.owned q q' i j u u' c hq hq'
      free := h.free
      paths_length := by simp [Store.addScope, h.paths_length]
      paths := by
        -- the new scope comes last, and no other scope has it on its path
        intro s scope hs
        change (w.scopes.push { outer })[s]? = some scope at hs
        rw [Array.getElem?_push] at hs
        by_cases hnew : s = w.scopes.size
        · rw [if_pos hnew] at hs
          cases hs
          subst hnew
          rw [hpath outer houter]
          simp [Store.addScope, ← h.paths_length]
        · rw [if_neg hnew] at hs
          have hlt : s < w.scopes.size := (Array.getElem?_eq_some_iff.mp hs).1
          have hlt' : s < m.paths.length := by rw [h.paths_length]; exact hlt
          have hold := h.paths s scope hs
          rw [hpath scope.outer (fun o ho => Nat.lt_trans (h.nested s o scope hs ho) hlt)]
          simpa [Store.addScope, List.getElem?_append_left hlt'] using hold
      nested := by
        intro s o scope hs ho
        change (w.scopes.push { outer })[s]? = some scope at hs
        rw [Array.getElem?_push] at hs
        by_cases hnew : s = w.scopes.size
        · rw [if_pos hnew] at hs
          cases hs
          rw [hnew]
          exact houter o ho
        · rw [if_neg hnew] at hs
          exact h.nested s o scope hs ho }

theorem varIn?_newThread (w : World) (lines : List String) (q : Place) :
    ({ w with threads := w.threads.push {}, lines } : World).varIn? q = w.varIn? q := by
  cases q with
  | threadLocal thread name => simp only [varIn?, locals_newThread]
  | _ => rfl

theorem Tidy.newThread (h : Tidy m w) (lines : List String) :
    Tidy m { w with threads := w.threads.push {}, lines } where
  sane := ⟨h.sane.flat, h.sane.closed, h.sane.live⟩
  slots q := by
    rw [← h.slots q]
    unfold slotAt? slotOf?
    rw [varIn?_newThread]
  bound q i hq := by
    rw [varIn?_newThread] at hq
    exact h.bound q i hq
  owned q q' i j u u' c hq hq' := by
    rw [varIn?_newThread] at hq hq'
    exact h.owned q q' i j u u' c hq hq'
  free := h.free
  paths_length := h.paths_length
  paths := h.paths
  nested := h.nested

end World
end ScriptCore
