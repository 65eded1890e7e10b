import ScriptCore.Heap.Observe
import ScriptCore.Proofs.Heap.Copy

/-!
# When a value keeps its type

The type of a value depends on the cells that are seen through its references,
and on the signatures of its functions and promises.  So a value keeps its type
while the heap grows, when a cell changes that it does not see, and in a copy.
-/

namespace ScriptCore

theorem Ty.equal_ref_right : (a b : Ty) → a.equal (.ref b) = a.equal b
  | .ref target, b => by
      rw [equal, equal]
      exact equal_ref_right target b
  | .alias _ target, b => by
      rw [equal, equal]
      exact equal_ref_right target b
  | .missing, _ => rfl
  | .named _, _ => rfl
  | .tuple _, _ => rfl
  | .func _ _ _, _ => rfl
  | .app _ _, _ => rfl
  | .unit, _ => rfl

namespace Content

mutual

def type : Content → Except Panic Ty
  | .absent => .error .absentValue
  | .int _ => .ok .int
  | .uint _ => .ok .uint
  | .float _ => .ok .float
  | .char _ => .ok .char
  | .byte _ => .ok .byte
  | .bool _ => .ok .bool
  | .list element _ => .ok (.listOf element.orAny)
  | .tuple items => do
      let types ← typeAll items
      return if types.isEmpty then .unit else .tuple types
  | .algebraic shape _ => .ok (Heap.shapeType shape)
  | .alias name target content =>
      if target.isMissing then do
        let inner ← type content
        return .alias name inner
      else .ok (.alias name target)
  | .reference _ => .error .bottomless
  | .function (some f) => .ok f.signature.type
  | .function none => .ok .any
  | .promise _ => .error .bottomless

def typeAll : List Content → Except Panic (List Ty)
  | [] => .ok []
  | c :: rest => do
      let first ← type c
      let types ← typeAll rest
      return first :: types

end

end Content

namespace Heap

/-!
## Carrying types from one heap to another
-/

/-- What the typing of a value with the property reads in the first heap, it finds in the second
one. -/
structure Carries (h h' : Heap) (P : Value → Prop) : Prop where
  item : ∀ {mark : Mark} {items : List Value}, P (.tuple mark items) → ∀ v ∈ items, P v
  content : ∀ {mark : Mark} {name target : Ty} {content : Value}, target.isMissing = true →
    P (.alias mark name target content) → P content
  cell : ∀ {cell : CellId}, P (.reference cell) → h'.load cell = h.load cell ∧ P (h.load cell)
  function : ∀ {id : FunctionId}, P (.function id) → h'.functionType id = h.functionType id
  promise : ∀ {id : PromiseId}, P (.promise id) → h'.promiseType id = h.promiseType id

variable {h h' : Heap} {P : Value → Prop} {ct ct' : CellId → Except Panic Ty}

mutual

theorem typeVia_carried (hcarries : h.Carries h' P)
    (hcells : ∀ cell type, P (.reference cell) → ct cell = .ok type → ct' cell = .ok type) :
    (v : Value) → (type : Ty) → P v → h.typeVia ct v = .ok type → h'.typeVia ct' v = .ok type
  | .tuple _ items, type, hv, htype => by
      rw [typeVia] at htype
      cases htypes : h.typesVia ct items with
      | error p =>
          rw [htypes] at htype
          cases htype
      | ok types =>
          rw [typeVia, typesVia_carried hcarries hcells items types (hcarries.item hv) htypes]
          rw [htypes] at htype
          exact htype
  | .alias _ name target content, type, hv, htype => by
      rw [typeVia] at htype ⊢
      by_cases hmissing : target.isMissing = true
      · rw [if_pos hmissing] at htype ⊢
        cases hcontent : h.typeVia ct content with
        | error p =>
            rw [hcontent] at htype
            cases htype
        | ok inner =>
            rw [typeVia_carried hcarries hcells content inner (hcarries.content hmissing hv)
              hcontent]
            rw [hcontent] at htype
            exact htype
      · rw [if_neg hmissing] at htype ⊢
        exact htype
  | .reference cell, type, hv, htype => by
      rw [typeVia] at htype ⊢
      cases hcell : ct cell with
      | error p =>
          rw [hcell] at htype
          cases htype
      | ok inner =>
          rw [hcells cell inner hv hcell]
          rw [hcell] at htype
          exact htype
  | .function id, type, hv, htype => by
      rw [typeVia] at htype ⊢
      rw [hcarries.function hv]
      exact htype
  | .promise id, type, hv, htype => by
      rw [typeVia] at htype ⊢
      rw [hcarries.promise hv]
      exact htype
  | .list _ _ _, _, _, htype => htype
  | .algebraic _ _ _, _, _, htype => htype
  | .absent, _, _, htype => htype
  | .int _, _, _, htype => htype
  | .uint _, _, _, htype => htype
  | .float _, _, _, htype => htype
  | .char _, _, _, htype => htype
  | .byte _, _, _, htype => htype
  | .bool _, _, _, htype => htype

theorem typesVia_carried (hcarries : h.Carries h' P)
    (hcells : ∀ cell type, P (.reference cell) → ct cell = .ok type → ct' cell = .ok type) :
    (vs : List Value) → (types : List Ty) → (∀ v ∈ vs, P v) → h.typesVia ct vs = .ok types →
      h'.typesVia ct' vs = .ok types
  | [], _, _, htypes => htypes
  | v :: rest, types, hvs, htypes => by
      rw [typesVia] at htypes ⊢
      cases hv : h.typeVia ct v with
      | error p =>
          rw [hv] at htypes
          cases htypes
      | ok type =>
          cases hrest : h.typesVia ct rest with
          | error p =>
              rw [hv, hrest] at htypes
              cases htypes
          | ok others =>
              rw [typeVia_carried hcarries hcells v type (hvs v List.mem_cons_self) hv,
                typesVia_carried hcarries hcells rest others
                  (fun u hu => hvs u (List.mem_cons_of_mem v hu)) hrest]
              rw [hv, hrest] at htypes
              exact htypes

end

theorem follow_carried (hcarries : h.Carries h' P) (depth : Nat) :
    ∀ (depth' : Nat) (v : Value) (type : Ty), depth ≤ depth' → P v →
      h.follow .bottomless h.typeVia depth v = .ok type →
        h'.follow .bottomless h'.typeVia depth' v = .ok type := by
  induction depth with
  | zero =>
      intro depth' v type _ hv htype
      have hcells : ∀ (ct' : CellId → Except Panic Ty) (cell : CellId) (type : Ty),
          P (.reference cell) → (Except.error Panic.bottomless : Except Panic Ty) = .ok type →
            ct' cell = .ok type := by
        intro ct' cell type _ herror
        cases herror
      cases depth' with
      | zero => exact typeVia_carried hcarries (hcells _) v type hv htype
      | succ n => exact typeVia_carried hcarries (hcells _) v type hv htype
  | succ depth ih =>
      intro depth' v type hdepth hv htype
      cases depth' with
      | zero => exact absurd hdepth (Nat.not_succ_le_zero depth)
      | succ n =>
          refine typeVia_carried hcarries ?_ v type hv htype
          intro cell inner hcell hinner
          rcases hcarries.cell hcell with ⟨hload, hP⟩
          rw [hload]
          exact ih n (h.load cell) inner (Nat.le_of_succ_le_succ hdepth) hP hinner

theorem typeOf_carried (hcarries : h.Carries h' P) (hsize : h.cells.size ≤ h'.cells.size)
    {v : Value} {type : Ty} (hv : P v) (htype : h.typeOf v = .ok type) :
    h'.typeOf v = .ok type :=
  follow_carried hcarries h.cells.size h'.cells.size v type hsize hv htype

theorem typeOf_absent (h : Heap) : h.typeOf .absent = .error .absentValue := by
  unfold typeOf explore
  cases h.cells.size with
  | zero => rfl
  | succ depth => rfl

theorem Grows.functionType (hgrows : h.Grows h') {id : FunctionId} (hid : id < h.functions.size) :
    h'.functionType id = h.functionType id := by
  unfold Heap.functionType
  rw [hgrows.sameFunctions id hid]

theorem Grows.promiseType (hgrows : h.Grows h') {id : PromiseId} (hid : id < h.promises.size) :
    h'.promiseType id = h.promiseType id := by
  have hp : h.promises[id]? = some h.promises[id] := Array.getElem?_eq_getElem hid
  rcases hgrows.promises id _ hp with ⟨p', hp', hreturn⟩
  unfold Heap.promiseType
  rw [hp, hp']
  simp only [hreturn]

theorem Grows.carries (hgrows : h.Grows h') (hclosed : h.Closed) : h.Carries h' h.Live where
  item hlive _ hv := LiveAll.of_mem hlive hv
  content _ hlive := hlive
  cell hlive := ⟨hgrows.cells _ hlive, hclosed _⟩
  function hlive := hgrows.functionType hlive
  promise hlive := hgrows.promiseType hlive

theorem typeOf_grows (hgrows : h.Grows h') (hclosed : h.Closed) {v : Value} {type : Ty}
    (hlive : h.Live v) (htype : h.typeOf v = .ok type) : h'.typeOf v = .ok type :=
  typeOf_carried (hgrows.carries hclosed) hgrows.size_cells hlive htype

/-!
## Seeing a cell
-/

/-- The typing of the value reads the cell. -/
inductive Sees (h : Heap) (k : CellId) : Value → Prop where
  | here : Sees h k (.reference k)
  | through {cell : CellId} (hcell : Sees h k (h.load cell)) : Sees h k (.reference cell)
  | item {mark : Mark} {items : List Value} {v : Value} (hmem : v ∈ items) (hv : Sees h k v) :
      Sees h k (.tuple mark items)
  | content {mark : Mark} {name target : Ty} {content : Value} (hmissing : target.isMissing = true)
      (hcontent : Sees h k content) : Sees h k (.alias mark name target content)

theorem carries_store (h : Heap) (k : CellId) (x : Value) :
    h.Carries (h.store k x) fun v => ¬ h.Sees k v where
  item hunseen _ hmem hv := hunseen (Sees.item hmem hv)
  content hmissing hunseen hcontent := hunseen (Sees.content hmissing hcontent)
  cell {cell} hunseen := by
    have hne : cell ≠ k := by
      intro heq
      rw [heq] at hunseen
      exact hunseen Sees.here
    exact ⟨h.load_store_ne x hne, fun hcell => hunseen (Sees.through hcell)⟩
  function _ := rfl
  promise _ := rfl

theorem typeOf_store {k : CellId} {v x : Value} {type : Ty} (hunseen : ¬ h.Sees k v)
    (htype : h.typeOf v = .ok type) : (h.store k x).typeOf v = .ok type :=
  typeOf_carried (carries_store h k x) (by simp) hunseen htype

/-!
## The type of a reference
-/

theorem carries_self (h : Heap) : h.Carries h fun _ => True where
  item _ _ _ := trivial
  content _ _ := trivial
  cell _ := ⟨rfl, trivial⟩
  function _ := rfl
  promise _ := rfl

theorem typeOf_reference {cell : CellId} {type : Ty}
    (htype : h.typeOf (.reference cell) = .ok type) :
    ∃ inner, type = .ref inner ∧ h.typeOf (h.load cell) = .ok inner := by
  unfold typeOf explore at htype ⊢
  cases hsize : h.cells.size with
  | zero =>
      rw [hsize] at htype
      cases htype
  | succ n =>
      rw [hsize, follow, typeVia] at htype
      cases hinner : h.follow .bottomless h.typeVia n (h.load cell) with
      | error p =>
          rw [hinner] at htype
          cases htype
      | ok inner =>
          rw [hinner] at htype
          cases htype
          refine ⟨inner, rfl, ?_⟩
          exact follow_carried (carries_self h) n (n + 1) _ inner (Nat.le_succ n) trivial hinner

/-!
## The type of a copy
-/

mutual

theorem typeVia_reveal (h : Heap) (ct : CellId → Except Panic Ty) :
    (v : Value) → v.isDuplicable = true → h.typeVia ct v = (h.reveal v).type
  | .tuple _ items, hdup => by
      rw [typeVia, reveal, Content.type, typesVia_reveal h ct items hdup]
  | .alias _ name target content, hdup => by
      rw [typeVia, reveal, Content.type, typeVia_reveal h ct content hdup]
  | .function id, _ => by
      rw [typeVia, reveal, functionType]
      cases h.functions[id]? <;> rfl
  | .list _ _ _, _ => rfl
  | .algebraic _ _ _, _ => rfl
  | .reference _, hdup => nomatch hdup
  | .promise _, hdup => nomatch hdup
  | .absent, _ => rfl
  | .int _, _ => rfl
  | .uint _, _ => rfl
  | .float _, _ => rfl
  | .char _, _ => rfl
  | .byte _, _ => rfl
  | .bool _, _ => rfl

theorem typesVia_reveal (h : Heap) (ct : CellId → Except Panic Ty) :
    (vs : List Value) → Value.allDuplicable vs = true →
      h.typesVia ct vs = Content.typeAll (h.revealAll vs)
  | [], _ => rfl
  | v :: rest, hdup => by
      rw [Value.allDuplicable, Bool.and_eq_true] at hdup
      rw [typesVia, revealAll, Content.typeAll, typeVia_reveal h ct v hdup.1,
        typesVia_reveal h ct rest hdup.2]

end

theorem typeOf_reveal (h : Heap) {v : Value} (hdup : v.isDuplicable = true) :
    h.typeOf v = (h.reveal v).type := by
  unfold typeOf explore
  cases h.cells.size with
  | zero => exact typeVia_reveal h _ v hdup
  | succ n => exact typeVia_reveal h _ v hdup

theorem Copied.typeOf {h h' : Heap} {v x : Value} (hcopied : h.Copied h' v x) :
    h'.typeOf x = h.typeOf v := by
  have hdup : x.isDuplicable = true :=
    (isDuplicable_of_reveal hcopied.content).trans hcopied.duplicable
  rw [typeOf_reveal h' hdup, typeOf_reveal h hcopied.duplicable, hcopied.content]

end Heap
end ScriptCore
