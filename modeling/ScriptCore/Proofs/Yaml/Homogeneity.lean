import Mathlib.Data.List.Induction
import ScriptCore.Proofs.Ty.Equality
import ScriptCore.Proofs.World.Parameters
import ScriptCore.Proofs.Yaml.Reading

/-!
# Lists of one type

A sequence is read as a list of the type of its first item, whatever the other
items are.  So the list is homogeneous exactly if the types of all items are
equal to that of the first one.

Equality of types is not transitive, and this is not yet enough for those who
rely on the type of the list.  The first item of `[[], [1]]` is a list of any
type, so the whole is taken as a list of lists of booleans.  What is taken as a
list of some type has items of that type exactly if the type of the first item
is an instance of the types of all items.
-/

namespace ScriptCore

/-!
## Types of data
-/

namespace Ty

variable {a b t : Ty}

/-- The types of YAML data: lists of lists of scalars or records, or of a type left open. -/
inductive IsDataType : Ty → Prop where
  | any : IsDataType any
  | named {name : String} (hname : isWildcard name = false) : IsDataType (.named name)
  | unit : IsDataType .unit
  | listOf {t : Ty} (ht : IsDataType t) : IsDataType (listOf t)

theorem equal_listOf (a b : Ty) : (listOf a).equal (listOf b) = a.equal b := by
  simp [listOf, equal, equalAll, resolve]

theorem IsDataType.isPlain (ht : IsDataType t) : t.isPlain = true := by
  induction ht with
  | any => rfl
  | named => rfl
  | unit => rfl
  | listOf _ ih => simp [Ty.listOf, Ty.isPlain, allPlain, ih]

theorem IsDataType.orAny_eq (ht : IsDataType t) : t.orAny = t := by
  cases ht with
  | any => rfl
  | named => rfl
  | unit => rfl
  | listOf => rfl

theorem equal_listOf_mono (hmono : ∀ t, b.equal t = true → a.equal t = true) (t : Ty)
    (hequal : (listOf b).equal t = true) : (listOf a).equal t = true := by
  rw [listOf, equal] at hequal ⊢
  cases hresolve : t.resolve with
  | named other =>
      rw [hresolve] at hequal
      exact hequal
  | app head args =>
      rw [hresolve] at hequal
      cases args with
      | nil => simp [equalAll] at hequal
      | cons first rest =>
          simp only [equalAll, Bool.and_eq_true] at hequal ⊢
          exact ⟨hequal.1, hmono first hequal.2.1, hequal.2.2⟩
  | _ =>
      rw [hresolve] at hequal
      cases hequal

theorem IsDataType.equal_of_isInstance (ha : IsDataType a) (hinst : IsInstance a b) :
    ∀ t, b.equal t = true → a.equal t = true := by
  induction ha generalizing b with
  | any => exact fun t _ => rfl
  | named hname =>
      cases hinst with
      | wildcard hwild _ =>
          rw [hname] at hwild
          cases hwild
      | named => exact fun t hequal => hequal
  | unit =>
      cases hinst
      exact fun t hequal => hequal
  | listOf _ ih =>
      cases hinst with
      | app hhead hargs =>
          cases hhead with
          | wildcard hwild _ => exact absurd hwild (by decide)
          | named =>
              cases hargs with
              | cons hitem hrest =>
                  cases hrest
                  exact equal_listOf_mono (ih hitem)

theorem IsDataType.isInstance_of_equal (hb : IsDataType b) (ha : IsDataType a)
    (hmono : ∀ t, b.equal t = true → a.equal t = true) : IsInstance a b := by
  have hself := hmono b (equal_self b)
  induction hb generalizing a with
  | any =>
      -- what is open on the right is open on the left: units and integers fit the right
      cases ha with
      | any => exact .named "Any"
      | named hname => simpa [equal, resolve, hname] using hmono .unit rfl
      | unit => exact absurd (hmono int rfl) (by decide)
      | listOf ha => simpa [Ty.listOf, equal, resolve] using hmono .unit rfl
  | named hname =>
      cases ha with
      | any => exact .wildcard rfl rfl
      | named hname' =>
          simp only [equal, resolve, hname, hname', Bool.false_or, beq_iff_eq] at hself
          rw [hself]
          exact .named _
      | unit => simp [equal, resolve, hname] at hself
      | listOf ha => simp [Ty.listOf, equal, resolve, hname] at hself
  | unit =>
      cases ha with
      | any => exact .wildcard rfl rfl
      | named hname => simp [equal, resolve, hname] at hself
      | unit => exact .unit
      | listOf ha => simp [Ty.listOf, equal, resolve] at hself
  | listOf hb ih =>
      cases ha with
      | any => exact .wildcard rfl (IsDataType.listOf hb).isPlain
      | named hname => simp [Ty.listOf, equal, resolve, hname] at hself
      | unit => simp [Ty.listOf, equal, resolve] at hself
      | listOf ha =>
          refine .app (.named "List") (.cons (ih ha ?_ ?_) .nil)
          · intro t hequal
            rw [← equal_listOf] at hequal ⊢
            exact hmono _ hequal
          · rw [← equal_listOf]
            exact hself

/-- Whatever is equal to the second type is equal to the first one, exactly if the second type is an
instance of the first one. -/
theorem IsDataType.equal_mono_iff (ha : IsDataType a) (hb : IsDataType b) :
    (∀ t : Ty, t.equal b = true → t.equal a = true) ↔ IsInstance a b := by
  constructor
  · intro hmono
    apply hb.isInstance_of_equal ha
    intro t hequal
    rw [equal_comm] at hequal ⊢
    exact hmono t hequal
  · intro hinst t hequal
    rw [equal_comm] at hequal ⊢
    exact ha.equal_of_isInstance hinst t hequal

theorem equal_orAny (t element : Ty) : t.equal element.orAny = t.equal element := by
  cases element with
  | missing => exact equal_normalize_right t .missing
  | _ => rfl

end Ty

namespace Heap

variable {h : Heap} {v : Value} {type : Ty}

theorem typeOf_of_typeVia (hvia : ∀ f, h.typeVia f v = .ok type) : h.typeOf v = .ok type := by
  unfold typeOf explore
  cases h.cells.size with
  | zero => exact hvia _
  | succ n => exact hvia _

/-- The value may be bound to a variable of a type, or be the argument for a parameter of that
type. -/
def Takes (h : Heap) (declared : Ty) (v : Value) : Prop :=
  World.Bindable h declared v ∨
    ∃ w f p id x, World.Suits w f p (some id) ∧ w.heap = h ∧ p.type = declared ∧
      w.vars[id]? = some x ∧ x.slot = v

theorem takes_listOf_iff {mark : Mark} {element t : Ty} {items : List Value} :
    h.Takes (.listOf t) (.list mark element items) ↔ t.equal element = true := by
  have htype : h.typeOf (.list mark element items) = .ok (.listOf element.orAny) :=
    typeOf_of_typeVia fun _ => rfl
  rw [← Ty.equal_orAny, ← Ty.equal_listOf]
  constructor
  · rintro (hbindable | ⟨w, f, p, id, x, hsuits, hheap, hdeclared, hx, hslot⟩)
    · rcases hbindable with ⟨_, type, htype', hmissing | hequal⟩
      · cases hmissing
      · rw [htype] at htype'
        cases htype'
        exact hequal
    · rcases hsuits with ⟨_, x', type, hid, hx', htype', hequal, _⟩
      cases hid
      rw [hx] at hx'
      cases hx'
      rw [hslot, hheap, htype] at htype'
      cases htype'
      rw [hdeclared] at hequal
      exact hequal
  · intro hequal
    exact Or.inl ⟨rfl, _, htype, Or.inr hequal⟩

end Heap

/-!
## Types of values
-/

namespace Yaml

variable {d x : Yaml} {items : List Yaml} {entries : List (Yaml × Yaml)} {v : Value} {h : Heap}

theorem isDataType_valueType (d : Yaml) : d.valueType.IsDataType := by
  induction d using collections_induct with
  | scalar d hscalar =>
      cases d with
      | null => exact .unit
      | bool b => exact .named (by decide)
      | int n => exact .named (by decide)
      | uint n => exact .named (by decide)
      | float x => exact .named (by decide)
      | text s => exact .listOf (.named (by decide))
      | time t => exact .any
      | seq items => cases hscalar
      | map entries => cases hscalar
  | seq items ih =>
      cases items with
      | nil => exact .listOf .any
      | cons item rest => exact .listOf (ih item List.mem_cons_self)
  | map entries ih => exact .named (by decide)

theorem isDataType_elementType (items : List Yaml) : (elementType items).IsDataType := by
  cases items with
  | nil => exact .any
  | cons item rest => exact item.isDataType_valueType

theorem typeOf_toValue (h : Heap) (hvalue : d.toValue = .ok v) :
    h.typeOf v = .ok d.valueType := by
  apply Heap.typeOf_of_typeVia
  intro f
  cases d with
  | seq items =>
      rcases toValue_seq_iff.mp hvalue with ⟨vs, _, rfl⟩
      rw [Heap.typeVia, (isDataType_elementType items).orAny_eq, valueType_seq]
  | map entries =>
      rcases toValue_map_iff.mp hvalue with ⟨_, fields, rfl, _⟩
      rfl
  | time t => cases hvalue
  | _ =>
      cases hvalue
      rfl

theorem exists_last {name : String} {r : Except Error Value}
    (hlookup : (entries.map reading).reverse.lookup name = some r) :
    ∃ front e back, entries = front ++ e :: back ∧ e.1.keyText = name ∧ e.2.toValue = r ∧
      ∀ later ∈ back, later.1.keyText ≠ e.1.keyText := by
  induction entries using List.reverseRecOn with
  | nil => cases hlookup
  | append_singleton front e ih =>
      rw [List.map_append, List.reverse_append, List.map_singleton, List.reverse_singleton,
        List.singleton_append, reading, NameMap.lookup_first] at hlookup
      by_cases hname : name = e.1.keyText
      · rw [if_pos hname] at hlookup
        exact ⟨front, e, [], rfl, hname.symm, Option.some.inj hlookup, List.forall_mem_nil _⟩
      · rw [if_neg hname] at hlookup
        rcases ih hlookup with ⟨front', e', back, rfl, hname', hitem, hback⟩
        refine ⟨front', e', back ++ [e], ?_, hname', hitem, ?_⟩
        · rw [List.append_assoc, List.cons_append]
        · intro later hlater
          rcases List.mem_append.mp hlater with hlater | hlater
          · exact hback later hlater
          · rw [List.mem_singleton.mp hlater, hname']
            exact fun heq => hname heq.symm

theorem kept_of_part {u : Value} (hpart : Value.Part u v) (hvalue : d.toValue = .ok v) :
    (∃ x, Kept x d ∧ x.toValue = .ok u) ∨ ∃ code, u = .char code := by
  induction d using collections_induct generalizing v with
  | scalar d hscalar =>
      cases d with
      | null =>
          cases hvalue
          cases hpart with
          | self => exact Or.inl ⟨.null, .self, rfl⟩
          | component hmem => cases hmem
      | text s =>
          cases hvalue
          cases hpart with
          | self => exact Or.inl ⟨.text s, .self, rfl⟩
          | item hmem hpart =>
              rcases List.mem_map.mp hmem with ⟨c, _, rfl⟩
              cases hpart
              exact Or.inr ⟨_, rfl⟩
      | seq items => cases hscalar
      | map entries => cases hscalar
      | time t => cases hvalue
      | _ =>
          cases hvalue
          cases hpart
          exact Or.inl ⟨_, .self, rfl⟩
  | seq items ih =>
      rcases toValue_seq_iff.mp hvalue with ⟨vs, hmap, rfl⟩
      cases hpart with
      | self => exact Or.inl ⟨.seq items, .self, hvalue⟩
      | item hmem hpart =>
          rcases exists_item_of_value hmap hmem with ⟨x, hx, hitem⟩
          rcases ih x hx hpart hitem with ⟨y, hkept, hy⟩ | hchar
          · exact Or.inl ⟨y, .item hx hkept, hy⟩
          · exact Or.inr hchar
  | map entries ih =>
      rcases toValue_map_iff.mp hvalue with ⟨_, fields, rfl, hasc, hlookup⟩
      cases hpart with
      | self => exact Or.inl ⟨.map entries, .self, hvalue⟩
      | @field _ _ _ name _ hmem hpart =>
          have hread := hlookup name
          rw [hasc.distinct.lookup_eq_some_iff.mpr hmem] at hread
          rcases exists_last hread.symm with ⟨front, e, back, rfl, _, hitem, hlast⟩
          have he : e ∈ front ++ e :: back := List.mem_append_right _ List.mem_cons_self
          rcases ih e he hpart hitem with ⟨y, hkept, hy⟩ | hchar
          · exact Or.inl ⟨y, .entry hlast hkept, hy⟩
          · exact Or.inr hchar

/-!
## Lists and sequences
-/

/-- The type of the first item of each sequence that is kept is so related to the types of all its
items. -/
def SeqsAre (R : Ty → Ty → Prop) (d : Yaml) : Prop :=
  ∀ items, Kept (.seq items) d → ∀ item ∈ items, R (elementType items) item.valueType

theorem seqsAre_scalar {R : Ty → Ty → Prop} (hscalar : d.isCollection = false) : d.SeqsAre R := by
  intro items hkept
  cases hkept with
  | self => cases hscalar
  | item => cases hscalar
  | entry => cases hscalar

theorem seqsAre_seq {R : Ty → Ty → Prop} :
    (Yaml.seq items).SeqsAre R ↔
      (∀ item ∈ items, R (elementType items) item.valueType) ∧ ∀ item ∈ items, item.SeqsAre R := by
  constructor
  · intro hseqs
    exact ⟨hseqs items .self, fun item hmem others hkept => hseqs others (.item hmem hkept)⟩
  · rintro ⟨htypes, hitems⟩ others hkept
    cases hkept with
    | self => exact htypes
    | item hmem hkept => exact hitems _ hmem others hkept

def Uniform : Yaml → Prop :=
  SeqsAre fun element type => type.equal element = true

/-- The type of the first item is an instance of the types of all items. -/
def Regular : Yaml → Prop :=
  SeqsAre fun element type => Ty.IsInstance type element

end Yaml

namespace Value

/-- The element type of each list in the value is so related to the types of all its elements. -/
def ListsAre (h : Heap) (R : Ty → Ty → Prop) (v : Value) : Prop :=
  ∀ mark element items, Part (.list mark element items) v →
    ∀ u ∈ items, ∃ type, h.typeOf u = .ok type ∧ R element type

def Homogeneous (h : Heap) : Value → Prop :=
  ListsAre h fun element type => type.equal element = true

/-- Where one of the lists is taken as a list of some type, its elements are of that type. -/
def Reliable (h : Heap) (v : Value) : Prop :=
  ∀ mark element items, Part (.list mark element items) v →
    ∀ u ∈ items, ∃ type, h.typeOf u = .ok type ∧
      ∀ t, h.Takes (.listOf t) (.list mark element items) → t.equal type = true

end Value

namespace Yaml

variable {d : Yaml} {v : Value} {h : Heap} {R : Ty → Ty → Prop}

theorem listsAre_iff_seqsAre (hchar : R .char .char) (hvalue : d.toValue = .ok v) :
    v.ListsAre h R ↔ d.SeqsAre R := by
  constructor
  · intro hlists items hkept item hmem
    rcases hkept.value hvalue with ⟨u, hu, hpart⟩
    rcases toValue_seq_iff.mp hu with ⟨vs, hmap, rfl⟩
    rcases exists_value_of_item hmap hmem with ⟨w, hw, hitem⟩
    rcases hlists _ _ _ hpart w hw with ⟨type, htype, hrel⟩
    rw [typeOf_toValue h hitem] at htype
    cases htype
    exact hrel
  · intro hseqs mark element items hpart u hmem
    rcases kept_of_part hpart hvalue with ⟨x, hkept, hx⟩ | ⟨code, hcode⟩
    · cases x with
      | text s =>
          cases hx
          rcases List.mem_map.mp hmem with ⟨c, _, rfl⟩
          exact ⟨.char, Heap.typeOf_of_typeVia fun _ => rfl, hchar⟩
      | seq items' =>
          rcases toValue_seq_iff.mp hx with ⟨vs, hmap, heq⟩
          cases heq
          rcases exists_item_of_value hmap hmem with ⟨y, hy, hitem⟩
          exact ⟨y.valueType, typeOf_toValue h hitem, hseqs items' hkept y hy⟩
      | map entries =>
          rcases toValue_map_iff.mp hx with ⟨_, fields, heq, _⟩
          cases heq
      | _ => cases hx
    · cases hcode

theorem homogeneous_iff (hvalue : d.toValue = .ok v) : v.Homogeneous h ↔ d.Uniform :=
  listsAre_iff_seqsAre (Ty.equal_self .char) hvalue

theorem reliable_iff (hvalue : d.toValue = .ok v) : v.Reliable h ↔ d.Regular := by
  have hlists : v.Reliable h ↔
      v.ListsAre h fun element type => ∀ t : Ty, t.equal element = true → t.equal type = true := by
    simp only [Value.Reliable, Heap.takes_listOf_iff, Value.ListsAre]
  rw [hlists, listsAre_iff_seqsAre (fun _ hequal => hequal) hvalue]
  unfold Regular SeqsAre
  constructor
  · intro hseqs items hkept item hmem
    exact (item.isDataType_valueType.equal_mono_iff (isDataType_elementType items)).mp
      (hseqs items hkept item hmem)
  · intro hseqs items hkept item hmem
    exact (item.isDataType_valueType.equal_mono_iff (isDataType_elementType items)).mpr
      (hseqs items hkept item hmem)

theorem Regular.uniform (hregular : d.Regular) : d.Uniform := by
  intro items hkept item hmem
  exact item.isDataType_valueType.equal_of_isInstance (hregular items hkept item hmem) _
    (Ty.equal_self _)

/-- The value of data has the type of the data.  All its lists are homogeneous if and only if in
each sequence that is kept the types of all items are equal to that of the first one.  A variable or
parameter that takes one of its lists as a list of some type gets elements of that type if and only
if in each sequence that is kept the type of the first item is an instance of the types of all
items; and then the lists are homogeneous too. -/
theorem homogeneous_iff_uniform (h : Heap) {d : Yaml} {v : Value} (hvalue : d.toValue = .ok v) :
    h.typeOf v = .ok d.valueType ∧
    (v.Homogeneous h ↔ d.Uniform) ∧
    (v.Reliable h ↔ d.Regular) ∧
    (d.Regular → d.Uniform) :=
  ⟨typeOf_toValue h hvalue, homogeneous_iff hvalue, reliable_iff hvalue, Regular.uniform⟩

/-- The lists in the value of `[[], [1]]` are homogeneous, but the whole is taken as a list of lists
of booleans. -/
theorem homogeneous_but_unreliable :
    let v : Value := .list 0 (.listOf .any) [.list 0 .any [], .list 0 .int [.int 1]]
    (Yaml.seq [.seq [], .seq [.int 1]]).toValue = .ok v ∧
      v.Homogeneous {} ∧ ¬ v.Reliable {} ∧ Heap.Takes {} (.listOf (.listOf .bool)) v := by
  intro v
  have hvalue : (Yaml.seq [.seq [], .seq [.int 1]]).toValue = .ok v := rfl
  have hall := homogeneous_iff_uniform {} hvalue
  refine ⟨hvalue, hall.2.1.mpr ?_, ?_, Heap.takes_listOf_iff.mpr (by decide)⟩
  · refine seqsAre_seq.mpr ⟨by decide, List.forall_mem_cons.mpr ⟨?_, ?_⟩⟩
    · exact seqsAre_seq.mpr ⟨List.forall_mem_nil _, List.forall_mem_nil _⟩
    · refine List.forall_mem_singleton.mpr (seqsAre_seq.mpr ⟨by decide, ?_⟩)
      exact List.forall_mem_singleton.mpr (seqsAre_scalar rfl)
  · intro hreliable
    have hinst := hall.2.2.1.mp hreliable _ .self (.seq [.int 1]) (by simp)
    have hequal := (isDataType_valueType _).equal_of_isInstance hinst (.listOf .bool) rfl
    exact absurd hequal (by decide)

/-- A number and a text are read as a list of integers, and the list is taken as one. -/
theorem text_in_list_of_integers :
    let v : Value := .list 0 .int [.int 1, .ofText 0 "a"]
    (Yaml.seq [.int 1, .text "a"]).toValue = .ok v ∧
      Heap.Takes {} (.listOf .int) v ∧
      Heap.typeOf {} (.ofText 0 "a") = .ok (.listOf .char) ∧
      (Ty.listOf .char).equal .int = false ∧ ¬ v.Homogeneous {} := by
  refine ⟨rfl, Heap.takes_listOf_iff.mpr (by decide), rfl, by decide, ?_⟩
  intro hhomogeneous
  rcases hhomogeneous _ _ _ .self (.ofText 0 "a") (by simp) with ⟨type, htype, hequal⟩
  cases htype
  exact absurd hequal (by decide)

end Yaml
end ScriptCore
