import ScriptCore.Heap.Copy
import ScriptCore.Proofs.Heap.Growth

/-!
# Copies are faithful

A value has a copy exactly if there is no reference and no promise in its tree.
The copy reads the same as the original: it differs in the identity of its
objects only.  Copying adds functions and marks to the heap and leaves its
cells and promises as they are.
-/

namespace ScriptCore

/-- A value without the identity of its objects. -/
inductive Content where
  | absent
  | int (n : Int64)
  | uint (n : UInt64)
  | float (x : Float)
  | char (code : Int32)
  | byte (b : UInt8)
  | bool (b : Bool)
  | list (element : Ty) (items : List Content)
  | tuple (items : List Content)
  | algebraic (shape : Shape) (fields : List (String × Content))
  | alias (name target : Ty) (content : Content)
  | reference (cell : CellId)
  | function (f : Option Function)
  | promise (id : PromiseId)

namespace Content

mutual

def isDuplicable : Content → Bool
  | .list _ items => allDuplicable items
  | .tuple items => allDuplicable items
  | .algebraic _ fields => fieldsDuplicable fields
  | .alias _ _ content => isDuplicable content
  | .reference _ => false
  | .promise _ => false
  | _ => true

def allDuplicable : List Content → Bool
  | [] => true
  | c :: rest => isDuplicable c && allDuplicable rest

def fieldsDuplicable : List (String × Content) → Bool
  | [] => true
  | (_, c) :: rest => isDuplicable c && fieldsDuplicable rest

end

end Content

namespace Value

mutual

def isDuplicable : Value → Bool
  | .list _ _ items => allDuplicable items
  | .tuple _ items => allDuplicable items
  | .algebraic _ _ fields => fieldsDuplicable fields
  | .alias _ _ _ content => isDuplicable content
  | .reference _ => false
  | .promise _ => false
  | _ => true

def allDuplicable : List Value → Bool
  | [] => true
  | v :: rest => isDuplicable v && allDuplicable rest

def fieldsDuplicable : List (String × Value) → Bool
  | [] => true
  | (_, v) :: rest => isDuplicable v && fieldsDuplicable rest

end

end Value

namespace Heap

mutual

def reveal (h : Heap) : Value → Content
  | .absent => .absent
  | .int n => .int n
  | .uint n => .uint n
  | .float x => .float x
  | .char code => .char code
  | .byte b => .byte b
  | .bool b => .bool b
  | .list _ element items => .list element (revealAll h items)
  | .tuple _ items => .tuple (revealAll h items)
  | .algebraic _ shape fields => .algebraic shape (revealFields h fields)
  | .alias _ name target content => .alias name target (reveal h content)
  | .reference cell => .reference cell
  | .function id => .function h.functions[id]?
  | .promise id => .promise id

def revealAll (h : Heap) : List Value → List Content
  | [] => []
  | v :: rest => reveal h v :: revealAll h rest

def revealFields (h : Heap) : List (String × Value) → List (String × Content)
  | [] => []
  | (name, v) :: rest => (name, reveal h v) :: revealFields h rest

end

mutual

theorem isDuplicable_reveal (h : Heap) :
    (v : Value) → (h.reveal v).isDuplicable = v.isDuplicable
  | .list _ _ items => allDuplicable_reveal h items
  | .tuple _ items => allDuplicable_reveal h items
  | .algebraic _ _ fields => fieldsDuplicable_reveal h fields
  | .alias _ _ _ content => isDuplicable_reveal h content
  | .reference _ => rfl
  | .function _ => rfl
  | .promise _ => rfl
  | .absent => rfl
  | .int _ => rfl
  | .uint _ => rfl
  | .float _ => rfl
  | .char _ => rfl
  | .byte _ => rfl
  | .bool _ => rfl

theorem allDuplicable_reveal (h : Heap) :
    (vs : List Value) → Content.allDuplicable (h.revealAll vs) = Value.allDuplicable vs
  | [] => rfl
  | v :: rest => by
      simp only [revealAll, Content.allDuplicable, Value.allDuplicable, isDuplicable_reveal h v,
        allDuplicable_reveal h rest]

theorem fieldsDuplicable_reveal (h : Heap) :
    (fs : List (String × Value)) →
      Content.fieldsDuplicable (h.revealFields fs) = Value.fieldsDuplicable fs
  | [] => rfl
  | (_, v) :: rest => by
      simp only [revealFields, Content.fieldsDuplicable, Value.fieldsDuplicable,
        isDuplicable_reveal h v, fieldsDuplicable_reveal h rest]

end

theorem isDuplicable_of_reveal {h h' : Heap} {v x : Value} (hcontent : h'.reveal x = h.reveal v) :
    x.isDuplicable = v.isDuplicable := by
  rw [← isDuplicable_reveal h' x, hcontent, isDuplicable_reveal]

/-!
## Reading a live value in a grown heap
-/

/-- The functions of the first heap are the same in the second one. -/
def SameFunctions (h h' : Heap) : Prop :=
  ∀ id : FunctionId, id < h.functions.size → h'.functions[id]? = h.functions[id]?

mutual

theorem reveal_live {h h' : Heap} (hsame : h.SameFunctions h') :
    (v : Value) → h.Live v → h'.reveal v = h.reveal v
  | .list _ _ items, hlive => by simp only [reveal, revealAll_live hsame items hlive]
  | .tuple _ items, hlive => by simp only [reveal, revealAll_live hsame items hlive]
  | .algebraic _ _ fields, hlive => by simp only [reveal, revealFields_live hsame fields hlive]
  | .alias _ _ _ content, hlive => by simp only [reveal, reveal_live hsame content hlive]
  | .function id, hlive => by simp only [reveal, hsame id hlive]
  | .reference _, _ => rfl
  | .promise _, _ => rfl
  | .absent, _ => rfl
  | .int _, _ => rfl
  | .uint _, _ => rfl
  | .float _, _ => rfl
  | .char _, _ => rfl
  | .byte _, _ => rfl
  | .bool _, _ => rfl

theorem revealAll_live {h h' : Heap} (hsame : h.SameFunctions h') :
    (vs : List Value) → h.LiveAll vs → h'.revealAll vs = h.revealAll vs
  | [], _ => rfl
  | v :: rest, hlive => by
      simp only [revealAll, reveal_live hsame v hlive.1, revealAll_live hsame rest hlive.2]

theorem revealFields_live {h h' : Heap} (hsame : h.SameFunctions h') :
    (fs : List (String × Value)) → h.LiveFields fs → h'.revealFields fs = h.revealFields fs
  | [], _ => rfl
  | (_, v) :: rest, hlive => by
      simp only [revealFields, reveal_live hsame v hlive.1, revealFields_live hsame rest hlive.2]

end

theorem Grows.sameFunctions {h h' : Heap} (hgrows : h.Grows h') : h.SameFunctions h' := by
  intro id hid
  have hf : h.functions[id]? = some h.functions[id] := Array.getElem?_eq_getElem hid
  rw [hf]
  exact hgrows.functions id _ hf

theorem reveal_grows {h h' : Heap} (hgrows : h.Grows h') (v : Value) (hlive : h.Live v) :
    h'.reveal v = h.reveal v :=
  reveal_live hgrows.sameFunctions v hlive

theorem reveal_store (h : Heap) (cell : CellId) (x : Value) {v : Value} (hlive : h.Live v) :
    (h.store cell x).reveal v = h.reveal v := by
  have hsame : h.SameFunctions (h.store cell x) := fun _ _ => rfl
  exact reveal_live hsame v hlive

/-!
## Building
-/

theorem build_bind {α β : Type} {x : Building α} {f : α → Building β} {h h' : Heap} {b : β}
    (hrun : (x >>= f).run h = .ok (b, h')) :
    ∃ a h₁, x.run h = .ok (a, h₁) ∧ (f a).run h₁ = .ok (b, h') := by
  rw [StateT.run_bind] at hrun
  cases hx : x.run h with
  | error e =>
      rw [hx] at hrun
      cases hrun
  | ok r =>
      rw [hx] at hrun
      exact ⟨r.1, r.2, rfl, hrun⟩

theorem build_bind_error {α β : Type} {x : Building α} {f : α → Building β} {h : Heap}
    {e : Failure} (hrun : (x >>= f).run h = .error e) :
    x.run h = .error e ∨ ∃ a h₁, x.run h = .ok (a, h₁) ∧ (f a).run h₁ = .error e := by
  rw [StateT.run_bind] at hrun
  cases hx : x.run h with
  | error e' =>
      rw [hx] at hrun
      cases hrun
      exact Or.inl rfl
  | ok r =>
      rw [hx] at hrun
      exact Or.inr ⟨r.1, r.2, rfl, hrun⟩

/-- The second heap is the first one with more functions and marks. -/
structure Widens (h h' : Heap) : Prop where
  grows : h.Grows h'
  cells : h'.cells = h.cells
  promises : h'.promises = h.promises

theorem Widens.refl (h : Heap) : h.Widens h where
  grows := Grows.refl h
  cells := rfl
  promises := rfl

theorem Widens.trans {h h₁ h₂ : Heap} (first : h.Widens h₁) (second : h₁.Widens h₂) :
    h.Widens h₂ where
  grows := first.grows.trans second.grows
  cells := second.cells.trans first.cells
  promises := second.promises.trans first.promises

theorem Widens.newMark (h : Heap) : h.Widens h.newMark.2 where
  grows := Grows.newMark h
  cells := rfl
  promises := rfl

/-!
## Copies
-/

/-- The value `x` of the second heap is a copy of the value `v` of the first one. -/
structure Copied (h h' : Heap) (v x : Value) : Prop where
  heap : h.Widens h'
  live : h'.Live x
  content : h'.reveal x = h.reveal v
  duplicable : v.isDuplicable = true

structure CopiedAll (h h' : Heap) (vs xs : List Value) : Prop where
  heap : h.Widens h'
  live : h'.LiveAll xs
  content : h'.revealAll xs = h.revealAll vs
  duplicable : Value.allDuplicable vs = true

structure CopiedFields (h h' : Heap) (fs xs : List (String × Value)) : Prop where
  heap : h.Widens h'
  live : h'.LiveFields xs
  content : h'.revealFields xs = h.revealFields fs
  duplicable : Value.fieldsDuplicable fs = true

theorem Copied.self {h : Heap} {v : Value} (hlive : h.Live v) (hdup : v.isDuplicable = true) :
    h.Copied h v v where
  heap := Widens.refl h
  live := hlive
  content := rfl
  duplicable := hdup

theorem run_copyFunction {h : Heap} {id : FunctionId} {f : Function}
    (hf : h.functions[id]? = some f) :
    (copyFunction id).run h = .ok (.function h.functions.size, (h.newFunction f).2) := by
  unfold copyFunction
  rw [StateT.run_bind, StateT.run_get, pure_bind, hf]
  rfl

theorem run_copyFunction_none {h : Heap} {id : FunctionId} (hf : h.functions[id]? = none) :
    (copyFunction id).run h = .ok (.function id, h) := by
  unfold copyFunction
  rw [StateT.run_bind, StateT.run_get, pure_bind, hf]
  rfl

theorem copyFunction_ok {h h' : Heap} {id : FunctionId} {x : Value} (hid : id < h.functions.size)
    (hrun : (copyFunction id).run h = .ok (x, h')) : h.Copied h' (.function id) x := by
  have hf : h.functions[id]? = some h.functions[id] := Array.getElem?_eq_getElem hid
  rw [run_copyFunction hf] at hrun
  cases hrun
  exact
    { heap :=
        { grows := Grows.newFunction h _
          cells := rfl
          promises := rfl }
      live := by simp [Live, newFunction]
      content := by simp [reveal, newFunction, hf]
      duplicable := rfl }

-- A fresh mark changes neither what a value refers to nor what it reads as.
theorem Copied.marked {h h₁ : Heap} {v x : Value} (hheap : h.Widens h₁)
    (hlive : h₁.Live x) (hcontent : h₁.reveal x = h.reveal v) (hdup : v.isDuplicable = true) :
    h.Copied h₁.newMark.2 v x where
  heap := hheap.trans (Widens.newMark h₁)
  live := hlive.wider (Grows.newMark h₁).wider
  content := (reveal_grows (Grows.newMark h₁) x hlive).trans hcontent
  duplicable := hdup

mutual

theorem copy_ok {h h' : Heap} {x : Value} :
    (v : Value) → h.Live v → (copy v).run h = .ok (x, h') → h.Copied h' v x
  | .list mark element items, hlive, hrun => by
      rw [copy] at hrun
      rcases build_bind hrun with ⟨xs, h₁, hitems, hrest⟩
      cases hrest
      have hcopied := copyAll_ok items hlive hitems
      refine Copied.marked hcopied.heap hcopied.live ?_ hcopied.duplicable
      simp only [reveal, hcopied.content]
  | .tuple mark items, hlive, hrun => by
      rw [copy] at hrun
      rcases build_bind hrun with ⟨xs, h₁, hitems, hrest⟩
      cases hrest
      have hcopied := copyAll_ok items hlive hitems
      refine Copied.marked hcopied.heap hcopied.live ?_ hcopied.duplicable
      simp only [reveal, hcopied.content]
  | .algebraic mark shape fields, hlive, hrun => by
      rw [copy] at hrun
      rcases build_bind hrun with ⟨xs, h₁, hfields, hrest⟩
      cases hrest
      have hcopied := copyFields_ok fields hlive hfields
      refine Copied.marked hcopied.heap hcopied.live ?_ hcopied.duplicable
      simp only [reveal, hcopied.content]
  | .alias mark name target content, hlive, hrun => by
      rw [copy] at hrun
      rcases build_bind hrun with ⟨c, h₁, hinner, hrest⟩
      cases hrest
      have hcopied := copy_ok content hlive hinner
      refine Copied.marked hcopied.heap hcopied.live ?_ hcopied.duplicable
      simp only [reveal, hcopied.content]
  | .function id, hlive, hrun => by
      rw [copy] at hrun
      exact copyFunction_ok hlive hrun
  | .absent, _, hrun => by rw [copy] at hrun; cases hrun
  | .reference _, _, hrun => by rw [copy] at hrun; cases hrun
  | .promise _, _, hrun => by rw [copy] at hrun; cases hrun
  | .int _, hlive, hrun => by cases hrun; exact Copied.self hlive rfl
  | .uint _, hlive, hrun => by cases hrun; exact Copied.self hlive rfl
  | .float _, hlive, hrun => by cases hrun; exact Copied.self hlive rfl
  | .char _, hlive, hrun => by cases hrun; exact Copied.self hlive rfl
  | .byte _, hlive, hrun => by cases hrun; exact Copied.self hlive rfl
  | .bool _, hlive, hrun => by cases hrun; exact Copied.self hlive rfl

theorem copyAll_ok {h h' : Heap} {xs : List Value} :
    (vs : List Value) → h.LiveAll vs → (copyAll vs).run h = .ok (xs, h') → h.CopiedAll h' vs xs
  | [], _, hrun => by
      cases hrun
      exact
        { heap := Widens.refl h
          live := trivial
          content := rfl
          duplicable := rfl }
  | v :: rest, hlive, hrun => by
      rw [copyAll] at hrun
      rcases build_bind hrun with ⟨x, h₁, hhead, hrun⟩
      rcases build_bind hrun with ⟨ys, h₂, htail, hrest⟩
      cases hrest
      have hv := copy_ok v hlive.1 hhead
      have hys := copyAll_ok rest (hlive.2.wider hv.heap.grows.wider) htail
      exact
        { heap := hv.heap.trans hys.heap
          live := ⟨hv.live.wider hys.heap.grows.wider, hys.live⟩
          content := by
            simp only [revealAll, hys.content, reveal_grows hys.heap.grows x hv.live,
              revealAll_live hv.heap.grows.sameFunctions rest hlive.2, hv.content]
          duplicable := by simp only [Value.allDuplicable, hv.duplicable, hys.duplicable]; rfl }

theorem copyFields_ok {h h' : Heap} {xs : List (String × Value)} :
    (fs : List (String × Value)) → h.LiveFields fs → (copyFields fs).run h = .ok (xs, h') →
      h.CopiedFields h' fs xs
  | [], _, hrun => by
      cases hrun
      exact
        { heap := Widens.refl h
          live := trivial
          content := rfl
          duplicable := rfl }
  | (name, v) :: rest, hlive, hrun => by
      rw [copyFields] at hrun
      rcases build_bind hrun with ⟨x, h₁, hhead, hrun⟩
      rcases build_bind hrun with ⟨ys, h₂, htail, hrest⟩
      cases hrest
      have hv := copy_ok v hlive.1 hhead
      have hys := copyFields_ok rest (hlive.2.wider hv.heap.grows.wider) htail
      exact
        { heap := hv.heap.trans hys.heap
          live := ⟨hv.live.wider hys.heap.grows.wider, hys.live⟩
          content := by
            simp only [revealFields, hys.content, reveal_grows hys.heap.grows x hv.live,
              revealFields_live hv.heap.grows.sameFunctions rest hlive.2, hv.content]
          duplicable := by
            simp only [Value.fieldsDuplicable, hv.duplicable, hys.duplicable]; rfl }

end

theorem copyFunction_ne_error {h : Heap} {id : FunctionId} {e : Failure} :
    (copyFunction id).run h ≠ .error e := by
  intro hrun
  cases hf : h.functions[id]? with
  | none =>
      rw [run_copyFunction_none hf] at hrun
      cases hrun
  | some f =>
      rw [run_copyFunction hf] at hrun
      cases hrun

def Uncopyable (e : Error) : Prop :=
  e.kinds = [.nonDuplicable]

mutual

theorem copy_error {h : Heap} {e : Error} :
    (v : Value) → (copy v).run h = .error (.error e) →
      Uncopyable e ∧ v.isDuplicable = false
  | .list mark element items, hrun => by
      rw [copy] at hrun
      rcases build_bind_error hrun with hitems | ⟨xs, h₁, _, hrest⟩
      · exact copyAll_error items hitems
      · cases hrest
  | .tuple mark items, hrun => by
      rw [copy] at hrun
      rcases build_bind_error hrun with hitems | ⟨xs, h₁, _, hrest⟩
      · exact copyAll_error items hitems
      · cases hrest
  | .algebraic mark shape fields, hrun => by
      rw [copy] at hrun
      rcases build_bind_error hrun with hfields | ⟨xs, h₁, _, hrest⟩
      · exact copyFields_error fields hfields
      · cases hrest
  | .alias mark name target content, hrun => by
      rw [copy] at hrun
      rcases build_bind_error hrun with hinner | ⟨c, h₁, _, hrest⟩
      · exact copy_error content hinner
      · cases hrest
  | .function id, hrun => by
      rw [copy] at hrun
      exact absurd hrun copyFunction_ne_error
  | .reference _, hrun => by
      rw [copy] at hrun
      cases hrun
      exact ⟨rfl, rfl⟩
  | .promise _, hrun => by
      rw [copy] at hrun
      cases hrun
      exact ⟨rfl, rfl⟩
  | .absent, hrun => by rw [copy] at hrun; cases hrun
  | .int _, hrun => by cases hrun
  | .uint _, hrun => by cases hrun
  | .float _, hrun => by cases hrun
  | .char _, hrun => by cases hrun
  | .byte _, hrun => by cases hrun
  | .bool _, hrun => by cases hrun

theorem copyAll_error {h : Heap} {e : Error} :
    (vs : List Value) → (copyAll vs).run h = .error (.error e) →
      Uncopyable e ∧ Value.allDuplicable vs = false
  | [], hrun => by cases hrun
  | v :: rest, hrun => by
      rw [copyAll] at hrun
      rcases build_bind_error hrun with hhead | ⟨x, h₁, _, hrun⟩
      · have hv := copy_error v hhead
        exact ⟨hv.1, by simp only [Value.allDuplicable, hv.2, Bool.false_and]⟩
      · rcases build_bind_error hrun with htail | ⟨ys, h₂, _, hrest⟩
        · have hys := copyAll_error rest htail
          exact ⟨hys.1, by simp only [Value.allDuplicable, hys.2, Bool.and_false]⟩
        · cases hrest

theorem copyFields_error {h : Heap} {e : Error} :
    (fs : List (String × Value)) → (copyFields fs).run h = .error (.error e) →
      Uncopyable e ∧ Value.fieldsDuplicable fs = false
  | [], hrun => by cases hrun
  | (name, v) :: rest, hrun => by
      rw [copyFields] at hrun
      rcases build_bind_error hrun with hhead | ⟨x, h₁, _, hrun⟩
      · have hv := copy_error v hhead
        exact ⟨hv.1, by simp only [Value.fieldsDuplicable, hv.2, Bool.false_and]⟩
      · rcases build_bind_error hrun with htail | ⟨ys, h₂, _, hrest⟩
        · have hys := copyFields_error rest htail
          exact ⟨hys.1, by simp only [Value.fieldsDuplicable, hys.2, Bool.and_false]⟩
        · cases hrest

end

/-!
## Detaching and boxing
-/

/-- What a value reads as; of a reference, what its cell reads as. -/
def read (h : Heap) (v : Value) : Content :=
  h.reveal (h.contentOf v)

theorem contentOf_grows {h h' : Heap} (hgrows : h.Grows h') {v : Value} (hlive : h.Live v) :
    h'.contentOf v = h.contentOf v := by
  cases v with
  | reference cell => exact hgrows.cells cell hlive
  | _ => rfl

theorem read_grows {h h' : Heap} (hgrows : h.Grows h') (hclosed : h.Closed) {v : Value}
    (hlive : h.Live v) : h'.read v = h.read v := by
  unfold read
  rw [contentOf_grows hgrows hlive, reveal_grows hgrows _ (hclosed.contentOf hlive)]

theorem contentOf_of_not_reference (h : Heap) {v : Value} (hv : v.isReference = false) :
    h.contentOf v = v := by
  cases v with
  | reference cell => cases hv
  | _ => rfl

theorem run_copyContent (h : Heap) (v : Value) :
    (copyContent v).run h =
      if (h.contentOf v).isAbsent then
        .error (.error (.ofKind .unboundName "" "binding has no value"))
      else (copy (h.contentOf v)).run h := by
  unfold copyContent
  by_cases habsent : (h.contentOf v).isAbsent = true
  · simp [habsent]
    rfl
  · simp [habsent]

theorem copyContent_ok {h h' : Heap} {v x : Value} (hclosed : h.Closed) (hlive : h.Live v)
    (hrun : (copyContent v).run h = .ok (x, h')) : h.Copied h' (h.contentOf v) x := by
  rw [run_copyContent] at hrun
  by_cases habsent : (h.contentOf v).isAbsent = true
  · rw [if_pos habsent] at hrun
    cases hrun
  · rw [if_neg habsent] at hrun
    exact copy_ok _ (hclosed.contentOf hlive) hrun

/-- What stands for a value in a binding: the value, or a copy of what it refers to. -/
inductive Detached (h h' : Heap) (v x : Value) : Prop where
  | plain (hv : v.isReference = false) (hx : x = v) (hh : h' = h)
  | copied (hv : v.isReference = true) (hx : h.Copied h' (h.contentOf v) x)

theorem detach_ok {h h' : Heap} {v x : Value} (hclosed : h.Closed) (hlive : h.Live v)
    (hrun : (detach v).run h = .ok (x, h')) : h.Detached h' v x := by
  unfold detach at hrun
  by_cases hv : v.isReference = true
  · rw [if_pos hv] at hrun
    exact Detached.copied hv (copyContent_ok hclosed hlive hrun)
  · rw [if_neg hv] at hrun
    cases hrun
    exact Detached.plain (by simpa using hv) rfl rfl

namespace Detached

variable {h h' : Heap} {v x : Value}

theorem heap (hd : h.Detached h' v x) : h.Widens h' := by
  cases hd with
  | plain _ _ hh =>
      subst hh
      exact Widens.refl h'
  | copied _ hx => exact hx.heap

theorem live (hd : h.Detached h' v x) (hlive : h.Live v) : h'.Live x := by
  cases hd with
  | plain _ hx hh =>
      subst hx hh
      exact hlive
  | copied _ hx => exact hx.live

theorem content (hd : h.Detached h' v x) : h'.reveal x = h.read v := by
  cases hd with
  | plain hv hx hh =>
      subst hx hh
      cases x with
      | reference cell => cases hv
      | _ => rfl
  | copied _ hx => exact hx.content

end Detached

theorem Copied.isReference {h h' : Heap} {v x : Value} (hcopied : h.Copied h' v x) :
    x.isReference = false := by
  have hdup := hcopied.duplicable
  have hcontent := hcopied.content
  cases x with
  | reference cell => cases v <;> simp [reveal, Value.isDuplicable] at hcontent hdup
  | _ => rfl

theorem Detached.isReference {h h' : Heap} {v x : Value} (hd : h.Detached h' v x) :
    x.isReference = false := by
  cases hd with
  | plain hv hx _ =>
      subst hx
      exact hv
  | copied _ hx => exact hx.isReference

theorem run_newReference_ok {h h' : Heap} {v content : Value}
    (hdetach : (detach v).run h = .ok (content, h')) :
    (newReference v).run h = .ok (.reference h'.cells.size, (h'.newCell content).2) := by
  unfold newReference
  rw [StateT.run_bind, StateT.run_get, pure_bind, hdetach]
  rfl

theorem run_newReference_moved {h : Heap} {v : Value} {e : Error}
    (hdetach : (detach v).run h = .error (.error e)) :
    (newReference v).run h = .ok (.reference h.cells.size, (h.newCell (h.contentOf v)).2) := by
  unfold newReference
  rw [StateT.run_bind, StateT.run_get, pure_bind, hdetach]
  rfl

theorem run_newReference_panic {h : Heap} {v : Value} {p : Panic}
    (hdetach : (detach v).run h = .error (.panic p)) :
    (newReference v).run h = .error (.panic p) := by
  unfold newReference
  rw [StateT.run_bind, StateT.run_get, pure_bind, hdetach]
  rfl

theorem run_newReference {v : Value} (h : Heap) (hv : v.isReference = false) :
    (newReference v).run h = .ok (.reference h.cells.size, (h.newCell v).2) := by
  apply run_newReference_ok
  unfold detach
  rw [if_neg (by simp [hv])]
  rfl

/-- Whatever gets a cell, the rest of the heap is as before.  It is no reference where no cell
holds one. -/
theorem newReference_ok {h h' : Heap} {v x : Value} (hclosed : h.Closed) (hlive : h.Live v)
    (hrun : (newReference v).run h = .ok (x, h')) :
    ∃ content h₁, h.Widens h₁ ∧ h₁.Live content ∧ (h.Flat → content.isReference = false) ∧
      x = .reference h₁.cells.size ∧ h' = (h₁.newCell content).2 := by
  cases hdetach : (detach v).run h with
  | ok p =>
      rw [run_newReference_ok hdetach] at hrun
      cases hrun
      have hd := detach_ok hclosed hlive hdetach
      exact ⟨p.1, p.2, hd.heap, hd.live hlive, fun _ => hd.isReference, rfl, rfl⟩
  | error f =>
      cases f with
      | panic p =>
          rw [run_newReference_panic hdetach] at hrun
          cases hrun
      | error e =>
          rw [run_newReference_moved hdetach] at hrun
          cases hrun
          exact ⟨h.contentOf v, h, Widens.refl h, hclosed.contentOf hlive,
            fun hflat => hflat.contentOf v, rfl, rfl⟩

end Heap
end ScriptCore
