import ScriptCore.Exchange
import ScriptCore.Proofs.Heap.Obstacle
import ScriptCore.Proofs.Heap.Typing

/-!
# A copy is a stable snapshot

Copying goes through the parts of a value.  It fails at a reference or a
promise, and at nothing else where no part is absent.  A value without
references and promises looks as its content says, whatever the cells of the
heap hold; so its copy looks like the value at the time of copying, also after
any stores.
-/

namespace ScriptCore

/-!
## Parts of a value
-/

namespace Value

/-- The first value occurs in the second one, at any depth of items, fields and contents of
aliases.  The closure of a function is not entered. -/
inductive Part (x : Value) : Value → Prop where
  | self : Part x x
  | item {mark : Mark} {element : Ty} {items : List Value} {v : Value} (hmem : v ∈ items)
      (hpart : Part x v) : Part x (.list mark element items)
  | component {mark : Mark} {items : List Value} {v : Value} (hmem : v ∈ items)
      (hpart : Part x v) : Part x (.tuple mark items)
  | field {mark : Mark} {shape : Shape} {fields : List (String × Value)} {name : String}
      {v : Value} (hmem : (name, v) ∈ fields) (hpart : Part x v) :
      Part x (.algebraic mark shape fields)
  | content {mark : Mark} {name target : Ty} {v : Value} (hpart : Part x v) :
      Part x (.alias mark name target v)

def isUnique : Value → Bool
  | .reference _ => true
  | .promise _ => true
  | _ => false

def Whole (v : Value) : Prop :=
  ¬ Part .absent v

theorem allDuplicable_iff (vs : List Value) :
    allDuplicable vs = true ↔ ∀ v ∈ vs, v.isDuplicable = true := by
  induction vs with
  | nil => simp [allDuplicable]
  | cons v rest ih => simp [allDuplicable, ih]

theorem fieldsDuplicable_iff (fs : List (String × Value)) :
    fieldsDuplicable fs = true ↔ ∀ name v, (name, v) ∈ fs → v.isDuplicable = true := by
  induction fs with
  | nil => simp [fieldsDuplicable]
  | cons e rest ih =>
      rw [fieldsDuplicable, Bool.and_eq_true, ih]
      constructor
      · rintro ⟨hfirst, hrest⟩ name v hmem
        cases hmem with
        | head => exact hfirst
        | tail _ hmem => exact hrest name v hmem
      · intro hall
        exact ⟨hall _ _ List.mem_cons_self, fun name v hmem =>
          hall name v (List.mem_cons_of_mem e hmem)⟩

theorem Part.isDuplicable {x v : Value} (hpart : Part x v) (hdup : v.isDuplicable = true) :
    x.isDuplicable = true := by
  induction hpart with
  | self => exact hdup
  | item hmem _ ih => exact ih ((allDuplicable_iff _).mp hdup _ hmem)
  | component hmem _ ih => exact ih ((allDuplicable_iff _).mp hdup _ hmem)
  | field hmem _ ih => exact ih ((fieldsDuplicable_iff _).mp hdup _ _ hmem)
  | content _ ih => exact ih hdup

mutual

theorem isDuplicable_of_parts :
    (v : Value) → (∀ x, Part x v → x.isUnique = false) → v.isDuplicable = true
  | .list _ _ items, hparts =>
      allDuplicable_of_parts items fun _ hmem x hx => hparts x (Part.item hmem hx)
  | .tuple _ items, hparts =>
      allDuplicable_of_parts items fun _ hmem x hx => hparts x (Part.component hmem hx)
  | .algebraic _ _ fields, hparts =>
      fieldsDuplicable_of_parts fields fun _ _ hmem x hx => hparts x (Part.field hmem hx)
  | .alias _ _ _ content, hparts =>
      isDuplicable_of_parts content fun x hx => hparts x (Part.content hx)
  | .reference _, hparts => nomatch hparts _ Part.self
  | .promise _, hparts => nomatch hparts _ Part.self
  | .function _, _ => rfl
  | .absent, _ => rfl
  | .int _, _ => rfl
  | .uint _, _ => rfl
  | .float _, _ => rfl
  | .char _, _ => rfl
  | .byte _, _ => rfl
  | .bool _, _ => rfl

theorem allDuplicable_of_parts :
    (vs : List Value) → (∀ v ∈ vs, ∀ x, Part x v → x.isUnique = false) →
      allDuplicable vs = true
  | [], _ => rfl
  | v :: rest, hparts => by
      rw [allDuplicable, isDuplicable_of_parts v (hparts v List.mem_cons_self),
        allDuplicable_of_parts rest fun u hu => hparts u (List.mem_cons_of_mem v hu)]
      rfl

theorem fieldsDuplicable_of_parts :
    (fs : List (String × Value)) →
      (∀ name v, (name, v) ∈ fs → ∀ x, Part x v → x.isUnique = false) →
      fieldsDuplicable fs = true
  | [], _ => rfl
  | (name, v) :: rest, hparts => by
      rw [fieldsDuplicable, isDuplicable_of_parts v (hparts name v List.mem_cons_self),
        fieldsDuplicable_of_parts rest fun other u hu =>
          hparts other u (List.mem_cons_of_mem (name, v) hu)]
      rfl

end

theorem isDuplicable_iff {v : Value} :
    v.isDuplicable = true ↔ ∀ x, Part x v → x.isUnique = false := by
  constructor
  · intro hdup x hpart
    have hx := hpart.isDuplicable hdup
    cases x with
    | reference cell => cases hx
    | promise id => cases hx
    | _ => rfl
  · exact isDuplicable_of_parts v

end Value

/-!
## When there is a copy
-/

namespace Heap

mutual

theorem copy_panic {h : Heap} {p : Panic} :
    (v : Value) → (copy v).run h = .error (.panic p) → Value.Part .absent v
  | .list _ _ items, hrun => by
      rw [copy] at hrun
      rcases build_bind_error hrun with hitems | ⟨_, _, _, hrest⟩
      · rcases copyAll_panic items hitems with ⟨v, hmem, hpart⟩
        exact Value.Part.item hmem hpart
      · cases hrest
  | .tuple _ items, hrun => by
      rw [copy] at hrun
      rcases build_bind_error hrun with hitems | ⟨_, _, _, hrest⟩
      · rcases copyAll_panic items hitems with ⟨v, hmem, hpart⟩
        exact Value.Part.component hmem hpart
      · cases hrest
  | .algebraic _ _ fields, hrun => by
      rw [copy] at hrun
      rcases build_bind_error hrun with hfields | ⟨_, _, _, hrest⟩
      · rcases copyFields_panic fields hfields with ⟨name, v, hmem, hpart⟩
        exact Value.Part.field hmem hpart
      · cases hrest
  | .alias _ _ _ content, hrun => by
      rw [copy] at hrun
      rcases build_bind_error hrun with hinner | ⟨_, _, _, hrest⟩
      · exact Value.Part.content (copy_panic content hinner)
      · cases hrest
  | .absent, _ => Value.Part.self
  | .function _, hrun => by
      rw [copy] at hrun
      exact absurd hrun copyFunction_ne_error
  | .reference _, hrun => by rw [copy] at hrun; cases hrun
  | .promise _, hrun => by rw [copy] at hrun; cases hrun
  | .int _, hrun => by cases hrun
  | .uint _, hrun => by cases hrun
  | .float _, hrun => by cases hrun
  | .char _, hrun => by cases hrun
  | .byte _, hrun => by cases hrun
  | .bool _, hrun => by cases hrun

theorem copyAll_panic {h : Heap} {p : Panic} :
    (vs : List Value) → (copyAll vs).run h = .error (.panic p) →
      ∃ v ∈ vs, Value.Part .absent v
  | [], hrun => by cases hrun
  | v :: rest, hrun => by
      rw [copyAll] at hrun
      rcases build_bind_error hrun with hhead | ⟨_, _, _, hrun⟩
      · exact ⟨v, List.mem_cons_self, copy_panic v hhead⟩
      · rcases build_bind_error hrun with htail | ⟨_, _, _, hrest⟩
        · rcases copyAll_panic rest htail with ⟨u, hmem, hpart⟩
          exact ⟨u, List.mem_cons_of_mem v hmem, hpart⟩
        · cases hrest

theorem copyFields_panic {h : Heap} {p : Panic} :
    (fs : List (String × Value)) → (copyFields fs).run h = .error (.panic p) →
      ∃ name v, (name, v) ∈ fs ∧ Value.Part .absent v
  | [], hrun => by cases hrun
  | (name, v) :: rest, hrun => by
      rw [copyFields] at hrun
      rcases build_bind_error hrun with hhead | ⟨_, _, _, hrun⟩
      · exact ⟨name, v, List.mem_cons_self, copy_panic v hhead⟩
      · rcases build_bind_error hrun with htail | ⟨_, _, _, hrest⟩
        · rcases copyFields_panic rest htail with ⟨other, u, hmem, hpart⟩
          exact ⟨other, u, List.mem_cons_of_mem _ hmem, hpart⟩
        · cases hrest

end

theorem copy_cases {h : Heap} {v : Value} (hlive : h.Live v) (hwhole : v.Whole) :
    (v.isDuplicable = true ∧ ∃ c h', (copy v).run h = .ok (c, h') ∧ h.Copied h' v c) ∨
      (v.isDuplicable = false ∧ ∃ e, (copy v).run h = .error (.error e) ∧ Uncopyable e) := by
  cases hrun : (copy v).run h with
  | ok p =>
      have hcopied := copy_ok v hlive hrun
      exact Or.inl ⟨hcopied.duplicable, p.1, p.2, rfl, hcopied⟩
  | error f =>
      cases f with
      | panic p => exact absurd (copy_panic v hrun) hwhole
      | error e =>
          rcases copy_error v hrun with ⟨hkind, hdup⟩
          exact Or.inr ⟨hdup, e, rfl, hkind⟩

end Heap

/-!
## Looking at contents

The written form, the truth and the YAML data of a content in which there is no
reference and no promise.
-/

namespace Content

def isChar : Content → Bool
  | .char _ => true
  | _ => false

def isTextList (element : Ty) (items : List Content) : Bool :=
  (!element.isMissing && element.key == "Char") || (!items.isEmpty && items.all isChar)

def itemsText (items : List Content) : String :=
  String.ofList <| items.filterMap fun
    | .char code => some (Value.charOfCode code)
    | _ => none

mutual

def display : Content → Except Panic String
  | .absent => .error .absentValue
  | .int n => .ok (toString n.toInt)
  | .uint n => .ok (toString n.toNat ++ "u")
  | .float x => .ok (Decimal.display.render x)
  | .char code => .ok (String.ofList ['\'', Value.charOfCode code, '\''])
  | .byte b => .ok (Heap.byteText b)
  | .bool b => .ok (if b then "true" else "false")
  | .list element items =>
      if isTextList element items then .ok ("\"" ++ itemsText items ++ "\"")
      else do
        let parts ← displayAll items
        return "[" ++ ", ".intercalate parts ++ "]"
  | .tuple items => do
      let parts ← displayAll items
      return "(" ++ ", ".intercalate parts ++ ")"
  | .algebraic shape fields => do
      let parts ← displayFields fields
      return Heap.fieldsText (if shape.tag.isEmpty then shape.typeName else shape.tag) parts
  | .alias name _ content => do
      if name.isMissing then throw .absentValue
      let inner ← display content
      return name.display ++ "(" ++ inner ++ ")"
  | .reference _ => .error .bottomless
  | .function (some f) => .ok f.signature.display
  | .function none => .ok ""
  | .promise _ => .error .bottomless

def displayAll : List Content → Except Panic (List String)
  | [] => .ok []
  | c :: rest => do
      let part ← display c
      let parts ← displayAll rest
      return part :: parts

def displayFields : List (String × Content) → Except Panic (List String)
  | [] => .ok []
  | (name, c) :: rest => do
      let part ← display c
      let parts ← displayFields rest
      return (name ++ ": " ++ part) :: parts

end

def truth : Content → Bool
  | .absent => false
  | .int n => n != 0
  | .uint n => n != 0
  | .float x => x != 0
  | .byte b => b != 0
  | .bool b => b
  | .alias _ _ content => truth content
  | _ => true

mutual

def yaml : Content → Except Failure Yaml
  | .int n => .ok (.int { value := n, width := .fixed })
  | .uint n => .ok (.uint n)
  | .float x => .ok (.float x)
  | .bool b => .ok (.bool b)
  | .char code => .ok (.text (String.ofList [Value.charOfCode code]))
  | .byte b => .ok (.int (Int64.ofNat b.toNat))
  | .list element items =>
      if isTextList element items then .ok (.text (itemsText items))
      else do
        let data ← yamlAll items
        return .seq data
  | .tuple items => do
      let data ← yamlAll items
      return if data.isEmpty then .null else .seq data
  | .algebraic shape fields => do
      let entries ← yamlFields fields
      return if entries.isEmpty && !shape.tag.isEmpty then .text shape.tag else .map entries
  | .alias _ _ content => yaml content
  | .reference _ => .error (.panic .bottomless)
  | .absent => .error (Heap.unwritable .absent)
  | .function _ => .error (Heap.unwritable (.function 0))
  | .promise id => .error (Heap.unwritable (.promise id))

def yamlAll : List Content → Except Failure (List Yaml)
  | [] => .ok []
  | c :: rest => do
      let item ← yaml c
      let items ← yamlAll rest
      return item :: items

def yamlFields : List (String × Content) → Except Failure (List (Yaml × Yaml))
  | [] => .ok []
  | (name, c) :: rest => do
      let item ← yaml c
      let entries ← yamlFields rest
      return (.text name, item) :: entries

end

end Content

namespace Heap

theorem isChar_reveal (h : Heap) (v : Value) : (h.reveal v).isChar = v.isChar := by
  cases v <;> rfl

theorem isTextList_reveal (h : Heap) (element : Ty) (items : List Value) :
    Content.isTextList element (h.revealAll items) = Value.isTextList element items := by
  have hall : (h.revealAll items).all Content.isChar = items.all Value.isChar := by
    induction items with
    | nil => rfl
    | cons v rest ih => rw [revealAll, List.all_cons, List.all_cons, ih, isChar_reveal]
  have hempty : (h.revealAll items).isEmpty = items.isEmpty := by
    cases items <;> rfl
  rw [Content.isTextList, Value.isTextList, hall, hempty]

theorem itemsText_reveal (h : Heap) (items : List Value) :
    Content.itemsText (h.revealAll items) = Value.itemsText items := by
  unfold Content.itemsText Value.itemsText
  congr 1
  induction items with
  | nil => rfl
  | cons v rest ih =>
      rw [revealAll, List.filterMap_cons, List.filterMap_cons, ih]
      cases v <;> rfl

mutual

theorem displayVia_reveal (h : Heap) (f : CellId → Except Panic String) :
    (v : Value) → v.isDuplicable = true → h.displayVia f v = (h.reveal v).display
  | .list _ element items, hdup => by
      rw [displayVia, reveal, Content.display, isTextList_reveal, itemsText_reveal,
        displayAllVia_reveal h f items hdup]
  | .tuple _ items, hdup => by
      rw [displayVia, reveal, Content.display, displayAllVia_reveal h f items hdup]
  | .algebraic _ shape fields, hdup => by
      rw [displayVia, reveal, Content.display, displayFieldsVia_reveal h f fields hdup]
  | .alias _ name _ content, hdup => by
      rw [displayVia, reveal, Content.display, displayVia_reveal h f content hdup]
  | .function id, _ => by
      rw [displayVia, reveal, functionText]
      cases h.functions[id]? <;> rfl
  | .reference _, hdup => nomatch hdup
  | .promise _, hdup => nomatch hdup
  | .absent, _ => rfl
  | .int _, _ => rfl
  | .uint _, _ => rfl
  | .float _, _ => rfl
  | .char _, _ => rfl
  | .byte _, _ => rfl
  | .bool _, _ => rfl

theorem displayAllVia_reveal (h : Heap) (f : CellId → Except Panic String) :
    (vs : List Value) → Value.allDuplicable vs = true →
      h.displayAllVia f vs = Content.displayAll (h.revealAll vs)
  | [], _ => rfl
  | v :: rest, hdup => by
      rw [Value.allDuplicable, Bool.and_eq_true] at hdup
      rw [displayAllVia, revealAll, Content.displayAll, displayVia_reveal h f v hdup.1,
        displayAllVia_reveal h f rest hdup.2]

theorem displayFieldsVia_reveal (h : Heap) (f : CellId → Except Panic String) :
    (fs : List (String × Value)) → Value.fieldsDuplicable fs = true →
      h.displayFieldsVia f fs = Content.displayFields (h.revealFields fs)
  | [], _ => rfl
  | (_, v) :: rest, hdup => by
      rw [Value.fieldsDuplicable, Bool.and_eq_true] at hdup
      rw [displayFieldsVia, revealFields, Content.displayFields, displayVia_reveal h f v hdup.1,
        displayFieldsVia_reveal h f rest hdup.2]

end

theorem truthVia_reveal (h : Heap) (f : CellId → Except Panic Bool) :
    (v : Value) → v.isDuplicable = true → truthVia f v = .ok (h.reveal v).truth
  | .alias _ _ _ content, hdup => truthVia_reveal h f content hdup
  | .reference _, hdup => nomatch hdup
  | .promise _, hdup => nomatch hdup
  | .function _, _ => rfl
  | .list .., _ => rfl
  | .tuple .., _ => rfl
  | .algebraic .., _ => rfl
  | .absent, _ => rfl
  | .int _, _ => rfl
  | .uint _, _ => rfl
  | .float _, _ => rfl
  | .char _, _ => rfl
  | .byte _, _ => rfl
  | .bool _, _ => rfl

mutual

theorem yamlVia_reveal (h : Heap) (f : CellId → Except Failure Yaml) :
    (v : Value) → v.isDuplicable = true → yamlVia f v = (h.reveal v).yaml
  | .list _ element items, hdup => by
      rw [yamlVia, reveal, Content.yaml, isTextList_reveal, itemsText_reveal,
        yamlAllVia_reveal h f items hdup]
  | .tuple _ items, hdup => by
      rw [yamlVia, reveal, Content.yaml, yamlAllVia_reveal h f items hdup]
  | .algebraic _ shape fields, hdup => by
      rw [yamlVia, reveal, Content.yaml, yamlFieldsVia_reveal h f fields hdup]
  | .alias _ _ _ content, hdup => by
      rw [yamlVia, reveal, Content.yaml, yamlVia_reveal h f content hdup]
  | .reference _, hdup => nomatch hdup
  | .promise _, hdup => nomatch hdup
  | .function _, _ => rfl
  | .absent, _ => rfl
  | .int _, _ => rfl
  | .uint _, _ => rfl
  | .float _, _ => rfl
  | .char _, _ => rfl
  | .byte _, _ => rfl
  | .bool _, _ => rfl

theorem yamlAllVia_reveal (h : Heap) (f : CellId → Except Failure Yaml) :
    (vs : List Value) → Value.allDuplicable vs = true →
      yamlAllVia f vs = Content.yamlAll (h.revealAll vs)
  | [], _ => rfl
  | v :: rest, hdup => by
      rw [Value.allDuplicable, Bool.and_eq_true] at hdup
      rw [yamlAllVia, revealAll, Content.yamlAll, yamlVia_reveal h f v hdup.1,
        yamlAllVia_reveal h f rest hdup.2]

theorem yamlFieldsVia_reveal (h : Heap) (f : CellId → Except Failure Yaml) :
    (fs : List (String × Value)) → Value.fieldsDuplicable fs = true →
      yamlFieldsVia f fs = Content.yamlFields (h.revealFields fs)
  | [], _ => rfl
  | (_, v) :: rest, hdup => by
      rw [Value.fieldsDuplicable, Bool.and_eq_true] at hdup
      rw [yamlFieldsVia, revealFields, Content.yamlFields, yamlVia_reveal h f v hdup.1,
        yamlFieldsVia_reveal h f rest hdup.2]

end

theorem follow_of_visit {ε α : Type} (h : Heap) {bottom : ε} {r : Except ε α} {v : Value}
    {visit : (CellId → Except ε α) → Value → Except ε α} (hvisit : ∀ f, visit f v = r)
    (depth : Nat) : h.follow bottom visit depth v = r := by
  cases depth with
  | zero => exact hvisit _
  | succ n => exact hvisit _

/-!
## Looking alike
-/

/-- The second value, in the second heap, looks like the first value in the first heap. -/
structure LooksLike (h : Heap) (v : Value) (h' : Heap) (x : Value) : Prop where
  type : h'.typeOf x = h.typeOf v
  display : h'.display x = h.display v
  truth : h'.isTruthy x = h.isTruthy v
  data : h'.toYaml x = h.toYaml v
  yaml : h'.yamlText x = h.yamlText v

theorem looksLike_of_reveal {h h' : Heap} {v x : Value} (hdup : v.isDuplicable = true)
    (hcontent : h'.reveal x = h.reveal v) : h.LooksLike v h' x := by
  have hdup' : x.isDuplicable = true := (isDuplicable_of_reveal hcontent).trans hdup
  have hdisplay : ∀ (h : Heap) (v : Value), v.isDuplicable = true →
      h.display v = (h.reveal v).display :=
    fun h v hdup => h.follow_of_visit (fun f => displayVia_reveal h f v hdup) _
  have htruth : ∀ (h : Heap) (v : Value), v.isDuplicable = true →
      h.isTruthy v = .ok (h.reveal v).truth :=
    fun h v hdup => h.follow_of_visit (fun f => truthVia_reveal h f v hdup) _
  have hyaml : ∀ (h : Heap) (v : Value), v.isDuplicable = true →
      h.toYaml v = (h.reveal v).yaml :=
    fun h v hdup => h.follow_of_visit (fun f => yamlVia_reveal h f v hdup) _
  have hdata : h'.toYaml x = h.toYaml v := by
    rw [hyaml h' x hdup', hyaml h v hdup, hcontent]
  constructor
  · rw [typeOf_reveal h' hdup', typeOf_reveal h hdup, hcontent]
  · rw [hdisplay h' x hdup', hdisplay h v hdup, hcontent]
  · rw [htruth h' x hdup', htruth h v hdup, hcontent]
  · exact hdata
  · rw [yamlText, yamlText, hdata]

def storeAll (h : Heap) (stores : List (CellId × Value)) : Heap :=
  stores.foldl (fun h e => h.store e.1 e.2) h

theorem functions_storeAll (h : Heap) (stores : List (CellId × Value)) :
    (h.storeAll stores).functions = h.functions := by
  induction stores generalizing h with
  | nil => rfl
  | cons e rest ih => exact ih (h.store e.1 e.2)

theorem reveal_storeAll (h : Heap) (stores : List (CellId × Value)) {v : Value}
    (hlive : h.Live v) : (h.storeAll stores).reveal v = h.reveal v := by
  apply reveal_live _ v hlive
  intro id _
  rw [functions_storeAll]

/-- A whole value has a copy exactly if no reference and no promise occurs in it; otherwise the
error says so.  Whatever is stored in cells afterwards, the copy looks as the value did when it was
copied. -/
theorem copy_is_stable_snapshot {h : Heap} {v : Value} (hlive : h.Live v) (hwhole : v.Whole) :
    ((∃ c h', (copy v).run h = .ok (c, h')) ↔ ∀ x : Value, x.Part v → x.isUnique = false) ∧
    ((∃ x : Value, x.Part v ∧ x.isUnique = true) →
      ∃ e, (copy v).run h = .error (.error e) ∧ e.kinds = [.nonDuplicable]) ∧
    (∀ c h', (copy v).run h = .ok (c, h') →
      ∀ stores : List (CellId × Value), h.LooksLike v (h'.storeAll stores) c) := by
  rw [← Value.isDuplicable_iff]
  refine ⟨?_, ?_, ?_⟩
  · rcases copy_cases hlive hwhole with ⟨hdup, c, h', hrun, _⟩ | ⟨hdup, e, hrun, _⟩
    · exact iff_of_true ⟨c, h', hrun⟩ hdup
    · refine iff_of_false ?_ (by simp [hdup])
      rintro ⟨c, h', hok⟩
      rw [hrun] at hok
      cases hok
  · rintro ⟨x, hpart, hunique⟩
    rcases copy_cases hlive hwhole with ⟨hdup, _⟩ | ⟨_, e, hrun, hkind⟩
    · rw [Value.isDuplicable_iff.mp hdup x hpart] at hunique
      cases hunique
    · exact ⟨e, hrun, hkind⟩
  · intro c h' hrun stores
    have hcopied := copy_ok v hlive hrun
    apply looksLike_of_reveal hcopied.duplicable
    rw [reveal_storeAll h' stores hcopied.live, hcopied.content]

def workshop : Heap where
  cells := #[.int 1]
  functions :=
    #[{ signature := { name := "f", spawn := false, params := [], effects := [], result := .int }
        closure := none
        body := .none }]

def tool : Value :=
  .tuple 0 [.int 7, .alias 0 (.named "Tool") .missing (.function 0)]

theorem whole_tool : tool.Whole := by
  intro hpart
  cases hpart with
  | component hmem hinner =>
      rcases List.mem_cons.mp hmem with rfl | hmem
      · cases hinner
      · cases List.mem_singleton.mp hmem
        cases hinner with
        | content hfunction => cases hfunction

/-- The tool has a copy, which is written as before after the cell has changed. -/
theorem tool_copied_before_store :
    (workshop.Live tool ∧ tool.Whole) ∧
      ∃ c h', (copy tool).run workshop = .ok (c, h') ∧
        (h'.storeAll [(0, .reference 0)]).display c = workshop.display tool := by
  have hlive : workshop.Live tool := ⟨trivial, Nat.one_pos, trivial⟩
  refine ⟨⟨hlive, whole_tool⟩, _, _, rfl, ?_⟩
  exact ((copy_is_stable_snapshot hlive whole_tool).2.2 _ _ rfl [(0, .reference 0)]).display

end Heap
end ScriptCore
