import ScriptCore.Proofs.Heap.Obstacle
import ScriptCore.Proofs.Heap.Typing

/-!
# Plain data

A content is plain data if there is no handle in it and nothing is missing.
Plain data refers to nothing in the heap, always has a copy and always has a
type.
-/

namespace ScriptCore

namespace Content

mutual

/-- There are no references, functions and promises in the content, and no value is absent. -/
def IsData : Content → Prop
  | .absent => False
  | .list _ items => AllData items
  | .tuple items => AllData items
  | .algebraic _ fields => FieldsData fields
  | .alias _ _ content => IsData content
  | .reference _ => False
  | .function _ => False
  | .promise _ => False
  | _ => True

def AllData : List Content → Prop
  | [] => True
  | c :: rest => IsData c ∧ AllData rest

def FieldsData : List (String × Content) → Prop
  | [] => True
  | (_, c) :: rest => IsData c ∧ FieldsData rest

end

section

variable {names : PromiseId → String}

mutual

theorem IsData.obstacle? : (c : Content) → c.IsData → c.obstacle? names = none
  | .list _ items, hdata => AllData.obstacleIn? items hdata
  | .tuple items, hdata => AllData.obstacleIn? items hdata
  | .algebraic _ fields, hdata => FieldsData.obstacleInFields? fields hdata
  | .alias _ _ content, hdata => IsData.obstacle? content hdata
  | .int _, _ => rfl
  | .uint _, _ => rfl
  | .float _, _ => rfl
  | .char _, _ => rfl
  | .byte _, _ => rfl
  | .bool _, _ => rfl

theorem AllData.obstacleIn? :
    (cs : List Content) → AllData cs → Content.obstacleIn? names cs = none
  | [], _ => rfl
  | c :: rest, hdata => by
      rw [Content.obstacleIn?, IsData.obstacle? c hdata.1, AllData.obstacleIn? rest hdata.2]
      rfl

theorem FieldsData.obstacleInFields? :
    (fs : List (String × Content)) → FieldsData fs → Content.obstacleInFields? names fs = none
  | [], _ => rfl
  | (_, c) :: rest, hdata => by
      rw [Content.obstacleInFields?, IsData.obstacle? c hdata.1,
        FieldsData.obstacleInFields? rest hdata.2]
      rfl

end

end

end Content

namespace Heap

variable {h h' : Heap}

mutual

theorem live_of_isData : (v : Value) → (h.reveal v).IsData → h'.Live v
  | .list _ _ items, hdata => liveAll_of_isData items hdata
  | .tuple _ items, hdata => liveAll_of_isData items hdata
  | .algebraic _ _ fields, hdata => liveFields_of_isData fields hdata
  | .alias _ _ _ content, hdata => live_of_isData content hdata
  | .int _, _ => trivial
  | .uint _, _ => trivial
  | .float _, _ => trivial
  | .char _, _ => trivial
  | .byte _, _ => trivial
  | .bool _, _ => trivial

theorem liveAll_of_isData : (vs : List Value) → Content.AllData (h.revealAll vs) → h'.LiveAll vs
  | [], _ => trivial
  | v :: rest, hdata => ⟨live_of_isData v hdata.1, liveAll_of_isData rest hdata.2⟩

theorem liveFields_of_isData :
    (fs : List (String × Value)) → Content.FieldsData (h.revealFields fs) → h'.LiveFields fs
  | [], _ => trivial
  | (_, v) :: rest, hdata => ⟨live_of_isData v hdata.1, liveFields_of_isData rest hdata.2⟩

end

theorem reveal_of_isData {v : Value} (hdata : (({} : Heap).reveal v).IsData) :
    h.reveal v = ({} : Heap).reveal v :=
  reveal_live (fun _ hid => absurd hid (Nat.not_lt_zero _)) v (live_of_isData v hdata)

mutual

theorem typeVia_of_isData (f : CellId → Except Panic Ty) :
    (v : Value) → (h.reveal v).IsData → ∃ type, h.typeVia f v = .ok type
  | .list .., _ => ⟨_, rfl⟩
  | .tuple _ items, hdata => by
      rcases typesVia_of_isData f items hdata with ⟨types, htypes⟩
      rw [typeVia, htypes]
      exact ⟨_, rfl⟩
  | .algebraic .., _ => ⟨_, rfl⟩
  | .alias _ name target content, hdata => by
      rcases typeVia_of_isData f content hdata with ⟨type, htype⟩
      rw [typeVia, htype]
      cases target.isMissing with
      | true => exact ⟨_, rfl⟩
      | false => exact ⟨_, rfl⟩
  | .int _, _ => ⟨_, rfl⟩
  | .uint _, _ => ⟨_, rfl⟩
  | .float _, _ => ⟨_, rfl⟩
  | .char _, _ => ⟨_, rfl⟩
  | .byte _, _ => ⟨_, rfl⟩
  | .bool _, _ => ⟨_, rfl⟩

theorem typesVia_of_isData (f : CellId → Except Panic Ty) :
    (vs : List Value) → Content.AllData (h.revealAll vs) → ∃ types, h.typesVia f vs = .ok types
  | [], _ => ⟨_, rfl⟩
  | v :: rest, hdata => by
      rcases typeVia_of_isData f v hdata.1 with ⟨type, htype⟩
      rcases typesVia_of_isData f rest hdata.2 with ⟨types, htypes⟩
      rw [typesVia, htype, htypes]
      exact ⟨_, rfl⟩

end

variable {v : Value}

theorem typeOf_of_isData (hdata : (h.reveal v).IsData) : ∃ type, h.typeOf v = .ok type := by
  unfold typeOf explore
  cases h.cells.size with
  | zero => exact typeVia_of_isData _ v hdata
  | succ n => exact typeVia_of_isData _ v hdata

theorem typeOf_reference_of_isData {cell : CellId} (hcell : cell < h.cells.size)
    (hdata : (h.reveal (h.load cell)).IsData) : ∃ type, h.typeOf (.reference cell) = .ok type := by
  unfold typeOf explore
  cases hsize : h.cells.size with
  | zero =>
      rw [hsize] at hcell
      exact absurd hcell (Nat.not_lt_zero cell)
  | succ n =>
      have hinner : ∃ type, h.follow .bottomless h.typeVia n (h.load cell) = .ok type := by
        cases n with
        | zero => exact typeVia_of_isData _ _ hdata
        | succ n => exact typeVia_of_isData _ _ hdata
      rcases hinner with ⟨type, htype⟩
      rw [follow, typeVia, htype]
      exact ⟨_, rfl⟩

theorem isReference_of_isData (hdata : (h.reveal v).IsData) : v.isReference = false := by
  cases v with
  | reference cell => cases hdata
  | _ => rfl

theorem isAbsent_of_isData (hdata : (h.reveal v).IsData) : v.isAbsent = false := by
  cases v with
  | absent => cases hdata
  | _ => rfl

theorem copy_of_isData (hdata : (h.reveal v).IsData) : ∃ x h', (copy v).run h = .ok (x, h') := by
  have hlive : h.Live v := live_of_isData v hdata
  have hnone := failure?_copy v hlive
  rw [hdata.obstacle?] at hnone
  unfold failure? at hnone
  cases hrun : (copy v).run h with
  | error f =>
      rw [hrun] at hnone
      cases hnone
  | ok p => exact ⟨p.1, p.2, rfl⟩

theorem copyContent_of_isData (hdata : (h.read v).IsData) :
    ∃ x h', (copyContent v).run h = .ok (x, h') := by
  have hpresent := isAbsent_of_isData hdata
  rw [run_copyContent, if_neg (by simp [hpresent])]
  exact copy_of_isData hdata

end Heap
end ScriptCore
