import ScriptCore.Proofs.Contention.Worker
import ScriptCore.Proofs.Heap.Typing

/-!
# A shared counter

A shared mutable variable that has been declared with an integer can be read,
added to and looked up, and nothing of this fails while its lock is free.
-/

namespace ScriptCore
namespace World

variable {w w' : World} {name : String} {id : VariableId} {n : Int64} {holder : Option ThreadId}
  {thread : ThreadId}

/-- A shared mutable variable holds an integer, and can hold others. -/
structure Counter (w : World) (name : String) (id : VariableId) (n : Int64)
    (holder : Option ThreadId) : Prop where
  guard : w.guarded.get? name = some { var := id, holder, isPoisoned := false }
  frozen : w.frozen.get? name = none
  content : ∃ v cell, w.vars[id]? = some v ∧ v.slot = .reference cell ∧
    cell < w.heap.cells.size ∧ w.heap.load cell = .int n ∧ Accepts v.declared .int

theorem typeOf_int (h : Heap) (n : Int64) : h.typeOf (.int n) = .ok .int := by
  unfold Heap.typeOf Heap.explore
  cases h.cells.size with
  | zero => rfl
  | succ depth => rfl

namespace Counter

theorem hold (h : w.Counter name id n none) (thread : ThreadId) :
    (w.hold name { var := id } thread).Counter name id n (some thread) where
  guard := NameMap.get?_insert_self _ _ _
  frozen := h.frozen
  content := h.content

theorem release (h : w.Counter name id n holder) :
    (w.release name false).Counter name id n none := by
  rw [release_regular h.guard]
  exact { guard := NameMap.get?_insert_self _ _ _, frozen := h.frozen, content := h.content }

theorem read (h : w.Counter name id n holder) : (readContent id).run w = (.ok (.int n), w) := by
  rcases h.content with ⟨v, cell, hv, hslot, _, hload, _⟩
  unfold readContent
  rw [Op.run_bind, run_slot hv, Op.next_ok, run_contentOf, hslot]
  rw [show w.heap.contentOf (.reference cell) = .int n from hload]

theorem write (h : w.Counter name id n holder) (amount : Int64) :
    ∃ heap, (writeSum amount id (.int n)).run w = (.ok (), { w with heap }) ∧
      ({ w with heap } : World).Counter name id (n + amount) holder := by
  rcases h.content with ⟨v, cell, hv, hslot, hcell, hload, haccepts⟩
  have hassign : Assignable w id (.int (n + amount)) cell := by
    refine ⟨rfl, v, ?_⟩
    by_cases hmissing : v.declared.isMissing = true
    · refine ⟨.int, .int, hv, hslot, ?_, typeOf_int _ _, Or.inr (by decide)⟩
      unfold Expects
      rw [if_pos hmissing, hload, typeOf_int]
    · refine ⟨v.declared, .int, hv, hslot, ?_, typeOf_int _ _, haccepts⟩
      unfold Expects
      rw [if_neg hmissing]
  refine ⟨_, run_assignValue hassign, h.guard, h.frozen, v, cell, hv, hslot, ?_, ?_, haccepts⟩
  · rw [Heap.size_cells_store]
    exact hcell
  · exact Heap.load_store_self _ _ hcell

theorem lookup (h : w.Counter name id n none) (hlocal : (w.locals thread).get? name = none) :
    ∃ found w' v, (World.lookup thread none name).run w = (.ok found, w') ∧
      w'.vars[found]? = some v ∧ v.slot = .int n := by
  rcases h.content with ⟨v, cell, hv, hslot, _, hload, _⟩
  have hscope : w.find? none name = none := by
    unfold find? scopeChain
    cases w.scopes.size with
    | zero => rfl
    | succ fuel => rfl
  have hcopy : (Heap.copyContent v.slot).run w.heap = .ok (.int n, w.heap) := by
    have hcontent : w.heap.contentOf v.slot = .int n := by
      rw [hslot]
      exact hload
    rw [Heap.run_copyContent, hcontent]
    rfl
  have hv' : (w.hold name { var := id } thread).vars[id]? = some v := hv
  rcases hsnapshot : (snapshot id).run (w.hold name { var := id } thread) with ⟨r, w₁⟩
  rcases snapshot_cases hv' hsnapshot with ⟨f, hf, _⟩ | ⟨x, heap, hx, rfl, rfl⟩
  · cases hcopy.symm.trans hf
  cases hcopy.symm.trans hx
  have hrun := run_lookup_guarded hscope hlocal h.frozen h.guard
  rw [Op.run_withName, run_withGuard_free ⟨rfl, rfl⟩, hsnapshot, Op.named_ok] at hrun
  refine ⟨w.vars.size, _, { declared := v.declared, slot := .int n }, hrun, ?_, rfl⟩
  rcases release_cases _ name false with ⟨guarded, lines, hrelease⟩
  rw [show isPanic (.ok _ : Except Failure VariableId) = false from rfl, hrelease]
  exact Array.getElem?_push_size

end Counter

theorem counter_of_declareGlobal {declared : Ty}
    (hdeclare : (declareGlobal thread name 2 declared (.int n)).run w = (.ok (), w')) :
    ∃ id, w'.Counter name id n none ∧ w'.threads = w.threads := by
  unfold declareGlobal at hdeclare
  rcases Op.bind_cases hdeclare with ⟨f, _, hf⟩ | ⟨_, w₁, hshared, hlog⟩
  · cases hf
  rcases run_log w₁ .debug "global declared"
    [("name", .text name), ("tier", .text (Tier.textOfCode 2))] with ⟨lines, hlines⟩
  rw [hlines] at hlog
  cases hlog
  cases hfrozen : w.frozen.get? name with
  | some frozen =>
      rw [run_declare_frozen hfrozen] at hshared
      cases hshared
  | none =>
      rw [run_declare_shared hfrozen, declareGuarded_eq] at hshared
      rcases Op.bind_cases hshared with ⟨f, _, hf⟩ | ⟨id, w₂, hbind, hrebind⟩
      · cases hf
      rcases Op.withName_cases hbind with ⟨f, _, hf⟩ | ⟨id', hvalue, hid⟩
      · cases hf
      cases hid
      rcases rebind_cases hrebind with ⟨f, hf, _⟩ | ⟨_, rfl⟩
      · cases hf
      change (bindValue declared (.reference w.heap.cells.size)).run
        { w with heap := (w.heap.newCell (.int n)).2 } = _ at hvalue
      rcases bindValue_cases hvalue with ⟨f, hf, _⟩ | ⟨hid, ⟨_, type, htype, haccepts⟩, rfl⟩
      · cases hf
      cases hid
      have hload : (w.heap.newCell (.int n)).2.load w.heap.cells.size = .int n :=
        Heap.load_newCell_self _ _
      rcases Heap.typeOf_reference htype with ⟨inner, rfl, hinner⟩
      rw [hload, typeOf_int] at hinner
      cases hinner
      have haccepts' : Accepts declared .int := by
        unfold Accepts at haccepts ⊢
        rwa [Ty.equal_ref_right] at haccepts
      refine ⟨w.vars.size, ⟨NameMap.get?_insert_self _ _ _, hfrozen, ?_⟩, rfl⟩
      refine ⟨{ declared, slot := .reference w.heap.cells.size }, w.heap.cells.size, ?_, rfl, ?_,
        hload, haccepts'⟩
      · exact Array.getElem?_push_size
      · change w.heap.cells.size < (w.heap.newCell (.int n)).2.cells.size
        rw [Heap.size_cells_newCell]
        exact Nat.lt_succ_self _

end World
end ScriptCore
