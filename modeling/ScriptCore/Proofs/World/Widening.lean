import ScriptCore.Proofs.Heap.Reach
import ScriptCore.Proofs.Heap.Snapshot
import ScriptCore.Proofs.World.Binding

/-!
# Worlds that only get wider

While copies are made and bound, a world gets more functions and marks and more
variables, and what the old variables hold does not change.  So a question about
an old variable has the answer that it had at first: what the variable holds,
which type that has, and whether there is a copy of it.
-/

namespace ScriptCore

namespace Value

theorem Whole.isAbsent {v : Value} (hwhole : v.Whole) : v.isAbsent = false := by
  cases v with
  | absent => exact absurd Part.self hwhole
  | _ => rfl

end Value

namespace Heap

variable {h h' h'' : Heap} {v x : Value}

theorem Widens.closed (hwidens : h.Widens h') (hclosed : h.Closed) : h'.Closed := by
  intro cell
  rw [load_of_cells_eq hwidens.cells]
  exact (hclosed cell).wider hwidens.grows.wider

theorem present_of_content (hcontent : (h.contentOf v).isAbsent = false) : v.isAbsent = false := by
  cases v with
  | absent => exact hcontent
  | _ => rfl

/-!
## Types

A value that exists has the same type in a wider heap, and if it has none, the
same failure.
-/

section

variable {P : Value → Prop} {ct ct' : CellId → Except Panic Ty}

mutual

theorem typeVia_agree (hcarries : h.Carries h' P)
    (hcells : ∀ cell, P (.reference cell) → ct' cell = ct cell) :
    (v : Value) → P v → h'.typeVia ct' v = h.typeVia ct v
  | .tuple _ items, hv => by
      rw [typeVia, typeVia, typesVia_agree hcarries hcells items (hcarries.item hv)]
  | .alias _ name target content, hv => by
      rw [typeVia, typeVia]
      by_cases hmissing : target.isMissing = true
      · rw [if_pos hmissing, if_pos hmissing,
          typeVia_agree hcarries hcells content (hcarries.content hmissing hv)]
      · rw [if_neg hmissing, if_neg hmissing]
  | .reference cell, hv => by rw [typeVia, typeVia, hcells cell hv]
  | .function id, hv => by rw [typeVia, typeVia, hcarries.function hv]
  | .promise id, hv => by rw [typeVia, typeVia, hcarries.promise hv]
  | .list _ _ _, _ => rfl
  | .algebraic _ _ _, _ => rfl
  | .absent, _ => rfl
  | .int _, _ => rfl
  | .uint _, _ => rfl
  | .float _, _ => rfl
  | .char _, _ => rfl
  | .byte _, _ => rfl
  | .bool _, _ => rfl

theorem typesVia_agree (hcarries : h.Carries h' P)
    (hcells : ∀ cell, P (.reference cell) → ct' cell = ct cell) :
    (vs : List Value) → (∀ v ∈ vs, P v) → h'.typesVia ct' vs = h.typesVia ct vs
  | [], _ => rfl
  | v :: rest, hvs => by
      rw [typesVia, typesVia, typeVia_agree hcarries hcells v (hvs v List.mem_cons_self),
        typesVia_agree hcarries hcells rest fun u hu => hvs u (List.mem_cons_of_mem v hu)]

end

theorem follow_agree (hcarries : h.Carries h' P) (depth : Nat) {v : Value} (hv : P v) :
    h'.follow .bottomless h'.typeVia depth v = h.follow .bottomless h.typeVia depth v := by
  induction depth generalizing v with
  | zero => exact typeVia_agree hcarries (fun _ _ => rfl) v hv
  | succ depth ih =>
      refine typeVia_agree hcarries ?_ v hv
      intro cell hcell
      rcases hcarries.cell hcell with ⟨hload, hP⟩
      rw [hload]
      exact ih hP

end

theorem Widens.typeOf (hwidens : h.Widens h') (hclosed : h.Closed) (hlive : h.Live v) :
    h'.typeOf v = h.typeOf v := by
  unfold Heap.typeOf explore
  rw [hwidens.cells]
  exact follow_agree (hwidens.grows.carries hclosed) h.cells.size hlive

/-!
## Copies
-/

theorem Copied.of_widens (hcopied : h'.Copied h'' v x) (hwidens : h.Widens h')
    (hlive : h.Live v) : h.Copied h'' v x where
  heap := hwidens.trans hcopied.heap
  live := hcopied.live
  content := hcopied.content.trans (reveal_grows hwidens.grows v hlive)
  duplicable := hcopied.duplicable

theorem Copied.widens (hcopied : h.Copied h' v x) (hwidens : h'.Widens h'') :
    h.Copied h'' v x where
  heap := hcopied.heap.trans hwidens
  live := hcopied.live.wider hwidens.grows.wider
  content := (reveal_grows hwidens.grows x hcopied.live).trans hcopied.content
  duplicable := hcopied.duplicable

theorem Widens.obstacle? (hwidens : h.Widens h') (hclosed : h.Closed) (hlive : h.Live v) :
    (h'.read v).obstacle? h'.promiseName = (h.read v).obstacle? h.promiseName := by
  rw [read_grows hwidens.grows hclosed hlive, hwidens.promiseName]

theorem copyContent_cases (hclosed : h.Closed) (hlive : h.Live v)
    (hwhole : (h.contentOf v).Whole) :
    ((h.contentOf v).isDuplicable = true ∧ ∃ x h', (copyContent v).run h = .ok (x, h') ∧
      h.Copied h' (h.contentOf v) x ∧ x.cells = []) ∨
    ((h.contentOf v).isDuplicable = false ∧ ∃ e, (copyContent v).run h = .error (.error e) ∧
      Uncopyable e ∧ (h.read v).obstacle? h.promiseName = some (.error e)) := by
  have hfails := failure?_copyContent hclosed hlive hwhole.isAbsent
  have hrun := run_copyContent h v
  rw [if_neg (by simp [hwhole.isAbsent])] at hrun
  rcases copy_cases (hclosed.contentOf hlive) hwhole with
    ⟨hdup, x, h', hcopy, hcopied⟩ | ⟨hdup, e, hcopy, hkind⟩
  · exact Or.inl ⟨hdup, x, h', hrun.trans hcopy, hcopied, (copy_cells _ hcopy).1⟩
  · refine Or.inr ⟨hdup, e, hrun.trans hcopy, hkind, ?_⟩
    rw [← hfails, failure?, hrun, hcopy]

end Heap

namespace World

/-!
## Wider worlds
-/

/-- All that cells and variables hold exists. -/
structure Grounded (w : World) : Prop where
  closed : w.heap.Closed
  live : ∀ (id : VariableId) (v : Variable), w.vars[id]? = some v → w.heap.Live v.slot

/-- The second world has the variables of the first one, and its heap has got wider. -/
structure Retains (w w' : World) : Prop where
  heap : w.heap.Widens w'.heap
  vars : ∀ (id : VariableId) (v : Variable), w.vars[id]? = some v → w'.vars[id]? = some v

variable {w w₁ w₂ : World} {id : VariableId} {v : Variable}

theorem Retains.refl (w : World) : w.Retains w where
  heap := Heap.Widens.refl w.heap
  vars _ _ hv := hv

theorem Retains.trans (first : w.Retains w₁) (second : w₁.Retains w₂) : w.Retains w₂ where
  heap := first.heap.trans second.heap
  vars id v hv := second.vars id v (first.vars id v hv)

theorem Retains.withVariable {h : Heap} (hheap : w.heap.Widens h) (v : Variable) :
    w.Retains { w with heap := h, vars := w.vars.push v } where
  heap := hheap
  vars _ _ hv := getElem?_push_old hv v

/-!
## Questions about old variables
-/

theorem run_valueType (hv : w.vars[id]? = some v) (hpresent : v.slot.isAbsent = false) :
    (valueType id).run w = (typeOf v.slot).run w := by
  unfold valueType
  rw [Op.run_bind, run_slot hv, Op.next_ok, if_neg (by simp [hpresent])]

theorem run_copyOf (hv : w.vars[id]? = some v) :
    (copyOf id).run w = (Op.build (Heap.copyContent v.slot)).run w := by
  unfold copyOf
  rw [Op.run_bind, run_slot hv, Op.next_ok]

theorem Retains.contentOf (hretains : w.Retains w₁) (hground : w.Grounded)
    (hv : w.vars[id]? = some v) : w₁.heap.contentOf v.slot = w.heap.contentOf v.slot :=
  Heap.contentOf_grows hretains.heap.grows (hground.live id v hv)

theorem Retains.typeOf (hretains : w.Retains w₁) (hground : w.Grounded)
    (hv : w.vars[id]? = some v) : w₁.heap.typeOf v.slot = w.heap.typeOf v.slot :=
  hretains.heap.typeOf hground.closed (hground.live id v hv)

theorem Retains.copyOf_cases (hretains : w.Retains w₁) (hground : w.Grounded)
    (hv : w.vars[id]? = some v) (hwhole : (w.heap.contentOf v.slot).Whole) :
    ((w.heap.contentOf v.slot).isDuplicable = true ∧ ∃ x h,
      (copyOf id).run w₁ = (.ok x, { w₁ with heap := h }) ∧ w₁.heap.Widens h ∧
      w.heap.Copied h (w.heap.contentOf v.slot) x ∧ x.cells = []) ∨
    ((w.heap.contentOf v.slot).isDuplicable = false ∧ ∃ e,
      (copyOf id).run w₁ = (.error (.error e), w₁) ∧ Heap.Uncopyable e ∧
      (w.heap.read v.slot).obstacle? w.heap.promiseName = some (.error e)) := by
  have hlive := hground.live id v hv
  have hclosed := hretains.heap.closed hground.closed
  have hcontent := hretains.contentOf hground hv
  rw [run_copyOf (hretains.vars id v hv), Op.run_build,
    ← hretains.heap.obstacle? hground.closed hlive]
  rw [← hcontent] at hwhole
  rcases Heap.copyContent_cases hclosed (hlive.wider hretains.heap.grows.wider) hwhole with
    ⟨hdup, x, h, hrun, hcopied, hcells⟩ | ⟨hdup, e, hrun, hkind, hobstacle⟩
  · rw [hcontent] at hdup hcopied
    refine Or.inl ⟨hdup, x, h, ?_, hcopied.heap, ?_, hcells⟩
    · rw [hrun]
    · exact hcopied.of_widens hretains.heap (hground.closed.contentOf hlive)
  · rw [hcontent] at hdup
    refine Or.inr ⟨hdup, e, ?_, hkind, hobstacle⟩
    rw [hrun]

end World
end ScriptCore
