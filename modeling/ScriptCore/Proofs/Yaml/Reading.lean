import Mathlib.Data.List.Nodup
import Mathlib.Data.Set.List
import ScriptCore.Proofs.Heap.Snapshot
import ScriptCore.Proofs.Settings.Acceptance

/-!
# Reading YAML data

The value of a mapping has its fields in ascending order of their names, and
the field of a name holds the value of the last entry whose key has this text.
So a reading is known by what it says for each name.
-/

namespace ScriptCore

/-!
## Bindings that agree
-/

namespace NameMap

variable {α β : Type} {name : String} {value : α} {pairs others : List (String × α)}

def Consistent (pairs : List (String × α)) : Prop :=
  ∀ a ∈ pairs, ∀ b ∈ pairs, a.1 = b.1 → a.2 = b.2

theorem Consistent.perm (hcons : Consistent pairs) (hperm : pairs.Perm others) :
    Consistent others := by
  intro a ha b hb
  exact hcons a (hperm.mem_iff.mpr ha) b (hperm.mem_iff.mpr hb)

theorem Distinct.consistent (hdistinct : Distinct pairs) : Consistent pairs := by
  intro a ha b hb hname
  have ha' := hdistinct.lookup_eq_some_iff.mpr ha
  have hb' := hdistinct.lookup_eq_some_iff.mpr hb
  rw [hname, hb'] at ha'
  exact (Option.some.inj ha').symm

theorem Consistent.lookup_eq_some_iff (hcons : Consistent pairs) :
    pairs.lookup name = some value ↔ (name, value) ∈ pairs := by
  constructor
  · exact mem_of_lookup
  · intro hmem
    cases hlookup : pairs.lookup name with
    | none => exact absurd (List.mem_map.mpr ⟨_, hmem, rfl⟩) (lookup_eq_none_iff.mp hlookup)
    | some other => exact congrArg some (hcons _ (mem_of_lookup hlookup) _ hmem rfl)

theorem Consistent.lookup_perm (hcons : Consistent pairs) (hperm : pairs.Perm others) :
    pairs.lookup name = others.lookup name := by
  apply Option.ext
  intro value
  rw [hcons.lookup_eq_some_iff, (hcons.perm hperm).lookup_eq_some_iff]
  exact hperm.mem_iff

theorem lookup_first {first : String} :
    ((first, value) :: pairs).lookup name =
      if name = first then some value else pairs.lookup name := by
  rw [List.lookup_cons]
  by_cases heq : name = first
  · rw [if_pos heq, beq_iff_eq.mpr heq]
  · rw [if_neg heq, beq_eq_false_iff_ne.mpr heq]

theorem lookup_map (f : α → β) (pairs : List (String × α)) :
    (pairs.map fun e => (e.1, f e.2)).lookup name = (pairs.lookup name).map f := by
  induction pairs with
  | nil => rfl
  | cons e rest ih =>
      rw [List.map_cons, List.lookup_cons, List.lookup_cons, ih]
      cases name == e.1 <;> rfl

theorem lookup_reverse_last {front back : List (String × α)} (hback : ∀ e ∈ back, e.1 ≠ name) :
    (front ++ (name, value) :: back).reverse.lookup name = some value := by
  have hnone : back.reverse.lookup name = none := by
    apply lookup_eq_none_iff.mpr
    intro hmem
    rcases List.mem_map.mp hmem with ⟨e, he, hname⟩
    exact hback e (List.mem_reverse.mp he) hname
  rw [List.reverse_append, List.reverse_cons, List.append_assoc, List.lookup_append, hnone,
    Option.none_or, List.singleton_append, List.lookup_cons, beq_self_eq_true]

end NameMap

/-!
## Fields in ascending order
-/

namespace Value

/-- The fields are in the order of their names, and no name stands twice. -/
def Ascending (fields : List (String × Value)) : Prop :=
  fields.Pairwise fun a b => a.1 < b.1

variable {name : String} {value : Value} {fields others : List (String × Value)}

theorem Ascending.distinct (hasc : Ascending fields) : NameMap.Distinct fields := by
  apply List.pairwise_map.mpr
  exact hasc.imp fun hlt => String.ne_of_lt hlt

theorem ascending_putField (hasc : Ascending fields) :
    Ascending (putField name value fields) := by
  induction fields with
  | nil => exact List.pairwise_singleton _ _
  | cons e rest ih =>
      obtain ⟨other, old⟩ := e
      rcases List.pairwise_cons.mp hasc with ⟨hfirst, hrest⟩
      rw [putField]
      by_cases heq : name == other
      · rw [if_pos heq, beq_iff_eq.mp heq]
        exact List.pairwise_cons.mpr ⟨hfirst, hrest⟩
      rw [if_neg heq]
      by_cases hlt : name < other
      · rw [if_pos hlt]
        apply List.pairwise_cons.mpr
        refine ⟨?_, hasc⟩
        intro e he
        cases he with
        | head => exact hlt
        | tail _ he => exact String.lt_trans hlt (hfirst e he)
      · have hgt : other < name := by
          apply String.not_le.mp
          intro hle
          exact heq (beq_iff_eq.mpr (String.le_antisymm hle (String.not_lt.mp hlt)))
        rw [if_neg hlt]
        apply List.pairwise_cons.mpr
        refine ⟨?_, ih hrest⟩
        intro e he
        rcases mem_putField he with rfl | he
        · exact hgt
        · exact hfirst e he

theorem lookup_putField (other : String) :
    (putField name value fields).lookup other =
      if other = name then some value else fields.lookup other := by
  induction fields with
  | nil => exact NameMap.lookup_first
  | cons e rest ih =>
      obtain ⟨first, old⟩ := e
      rw [putField, NameMap.lookup_first]
      by_cases hfirst : name == first
      · rw [if_pos hfirst, NameMap.lookup_first, ← beq_iff_eq.mp hfirst]
        split <;> rfl
      rw [if_neg hfirst]
      by_cases hlt : name < first
      · rw [if_pos hlt, NameMap.lookup_first, NameMap.lookup_first]
      · rw [if_neg hlt, NameMap.lookup_first, ih]
        by_cases heq : other = name
        · have hne : other ≠ first := fun h => hfirst (beq_iff_eq.mpr (heq.symm.trans h))
          rw [if_neg hne, if_pos heq, if_pos heq]
        · rw [if_neg heq, if_neg heq]

theorem lookup_foldl_putField (fields : List (String × Value)) (acc : List (String × Value)) :
    (fields.foldl (fun acc f => putField f.1 f.2 acc) acc).lookup name =
      (fields.reverse.lookup name).or (acc.lookup name) := by
  induction fields generalizing acc with
  | nil => rfl
  | cons e rest ih =>
      rw [List.foldl_cons, ih, List.reverse_cons, List.lookup_append, Option.or_assoc,
        lookup_putField, NameMap.lookup_first]
      split <;> rfl

theorem lookup_sortFields (fields : List (String × Value)) :
    (sortFields fields).lookup name = fields.reverse.lookup name := by
  rw [sortFields, lookup_foldl_putField, List.lookup_nil, Option.or_none]

theorem ascending_sortFields (fields : List (String × Value)) : Ascending (sortFields fields) := by
  have hfold : ∀ acc, Ascending acc →
      Ascending (fields.foldl (fun acc f => putField f.1 f.2 acc) acc) := by
    induction fields with
    | nil => exact fun acc hasc => hasc
    | cons e rest ih => exact fun acc hasc => ih _ (ascending_putField hasc)
  exact hfold [] List.Pairwise.nil

theorem Ascending.ext (hasc : Ascending fields) (hasc' : Ascending others)
    (hlookup : ∀ name, fields.lookup name = others.lookup name) : fields = others := by
  have hmem : ∀ e, e ∈ fields ↔ e ∈ others := by
    intro e
    rw [← hasc.distinct.lookup_eq_some_iff, ← hasc'.distinct.lookup_eq_some_iff, hlookup]
  have hperm : fields.Perm others :=
    (List.perm_ext_iff_of_nodup (List.Nodup.of_map _ hasc.distinct)
      (List.Nodup.of_map _ hasc'.distinct)).mpr hmem
  exact hperm.eq_of_pairwise (fun a b _ _ hab hba => absurd hba (String.lt_asymm hab)) hasc hasc'

end Value

/-!
## Values of collections
-/

namespace Yaml

variable {d x item : Yaml} {items : List Yaml} {entries others : List (Yaml × Yaml)}
  {v u : Value} {name : String}

def reading (e : Yaml × Yaml) : String × Except Error Value :=
  (e.1.keyText, e.2.toValue)

theorem toValues_eq_ok_iff {vs : List Value} :
    toValues items = .ok vs ↔ items.map toValue = vs.map .ok := by
  induction items generalizing vs with
  | nil =>
      rw [toValues]
      cases vs with
      | nil => simp
      | cons v vs => simp
  | cons item rest ih =>
      rw [toValues]
      constructor
      · intro hrun
        rcases except_bind hrun with ⟨v, hitem, hrun⟩
        rcases except_bind hrun with ⟨vs', hrest, hrun⟩
        cases hrun
        rw [List.map_cons, List.map_cons, hitem, ih.mp hrest]
      · intro hmap
        cases vs with
        | nil => cases hmap
        | cons v vs =>
            rw [List.map_cons, List.map_cons] at hmap
            rcases List.cons.inj hmap with ⟨hitem, hrest⟩
            rw [hitem, ih.mpr hrest]
            rfl

theorem toFields_eq_ok_iff {fields : List (String × Value)} :
    toFields entries = .ok fields ↔
      entries.map reading = fields.map fun f => (f.1, .ok f.2) := by
  induction entries generalizing fields with
  | nil =>
      rw [toFields]
      cases fields with
      | nil => simp
      | cons f fields => simp
  | cons e rest ih =>
      rw [toFields]
      constructor
      · intro hrun
        rcases except_bind hrun with ⟨v, hitem, hrun⟩
        rcases except_bind hrun with ⟨fields', hrest, hrun⟩
        cases hrun
        rw [List.map_cons, List.map_cons, reading, hitem, ih.mp hrest]
      · intro hmap
        cases fields with
        | nil => cases hmap
        | cons f fields =>
            rw [List.map_cons, List.map_cons] at hmap
            rcases List.cons.inj hmap with ⟨hhead, hrest⟩
            rcases Prod.mk.inj hhead with ⟨hname, hitem⟩
            rw [hitem, ih.mpr hrest, hname]
            rfl

theorem valueType_seq : (Yaml.seq items).valueType = .listOf (elementType items) := by
  cases items with
  | nil => rfl
  | cons item rest => rfl

theorem toValue_seq_iff :
    (Yaml.seq items).toValue = .ok v ↔
      ∃ vs, items.map toValue = vs.map .ok ∧ v = .list 0 (elementType items) vs := by
  rw [toValue]
  constructor
  · intro hrun
    rcases except_bind hrun with ⟨vs, hvalues, hrun⟩
    cases hrun
    exact ⟨vs, toValues_eq_ok_iff.mp hvalues, rfl⟩
  · rintro ⟨vs, hmap, rfl⟩
    rw [toValues_eq_ok_iff.mpr hmap]
    rfl

theorem exists_value_of_item {vs : List Value} (hmap : items.map toValue = vs.map .ok)
    (hmem : item ∈ items) : ∃ u ∈ vs, item.toValue = .ok u := by
  have hvalue : item.toValue ∈ vs.map .ok := by
    rw [← hmap]
    exact List.mem_map_of_mem hmem
  rcases List.mem_map.mp hvalue with ⟨u, hu, heq⟩
  exact ⟨u, hu, heq.symm⟩

theorem exists_item_of_value {vs : List Value} (hmap : items.map toValue = vs.map .ok)
    (hmem : u ∈ vs) : ∃ item ∈ items, item.toValue = .ok u := by
  have hitem : .ok u ∈ items.map toValue := by
    rw [hmap]
    exact List.mem_map_of_mem hmem
  exact List.mem_map.mp hitem

theorem lookup_readings {fields : List (String × Value)}
    (hmap : entries.map reading = fields.map fun f => (f.1, .ok f.2)) :
    ((Value.sortFields fields).lookup name).map .ok =
      (entries.map reading).reverse.lookup name := by
  rw [Value.lookup_sortFields, hmap, ← List.map_reverse, NameMap.lookup_map]

theorem exists_toFields (hitems : ∀ e ∈ entries, ∃ u, e.2.toValue = .ok u) :
    ∃ fields, toFields entries = .ok fields := by
  have hrange : entries.map reading ∈
      Set.range (List.map fun f : String × Value => (f.1, .ok f.2)) := by
    rw [Set.range_list_map]
    intro r hr
    rcases List.mem_map.mp hr with ⟨e, he, rfl⟩
    rcases hitems e he with ⟨u, hu⟩
    exact ⟨(e.1.keyText, u), by rw [reading, hu]⟩
  rcases hrange with ⟨fields, hfields⟩
  exact ⟨fields, toFields_eq_ok_iff.mpr hfields.symm⟩

theorem toValue_map_iff :
    (Yaml.map entries).toValue = .ok v ↔
      (∀ e ∈ entries, ∃ u, e.2.toValue = .ok u) ∧
      ∃ fields, v = .algebraic 0 .record fields ∧ Value.Ascending fields ∧
        ∀ name, (fields.lookup name).map .ok = (entries.map reading).reverse.lookup name := by
  rw [toValue]
  constructor
  · intro hrun
    rcases except_bind hrun with ⟨fields, hfields, hrun⟩
    cases hrun
    have hmap := toFields_eq_ok_iff.mp hfields
    constructor
    · intro e he
      have hreading : reading e ∈ fields.map fun f => (f.1, .ok f.2) :=
        hmap ▸ List.mem_map_of_mem he
      rcases List.mem_map.mp hreading with ⟨f, _, hf⟩
      exact ⟨f.2, (Prod.mk.inj hf).2.symm⟩
    · exact ⟨_, rfl, Value.ascending_sortFields fields, fun name => lookup_readings hmap⟩
  · rintro ⟨hitems, fields, rfl, hasc, hlookup⟩
    rcases exists_toFields hitems with ⟨given, hgiven⟩
    have hmap := toFields_eq_ok_iff.mp hgiven
    rw [hgiven]
    have hsame : Value.sortFields given = fields := by
      apply (Value.ascending_sortFields given).ext hasc
      intro name
      have hboth := (lookup_readings hmap).trans (hlookup name).symm
      exact Option.map_injective (fun _ _ h => Except.ok.inj h) hboth
    rw [← hsame]
    rfl

theorem exists_value_seq_iff :
    (∃ v, (Yaml.seq items).toValue = .ok v) ↔ ∀ item ∈ items, ∃ u, item.toValue = .ok u := by
  constructor
  · rintro ⟨v, hvalue⟩ item hmem
    rcases toValue_seq_iff.mp hvalue with ⟨vs, hmap, _⟩
    rcases exists_value_of_item hmap hmem with ⟨u, _, hu⟩
    exact ⟨u, hu⟩
  · intro hitems
    have hrange : items.map toValue ∈ Set.range (List.map Except.ok) := by
      rw [Set.range_list_map]
      intro r hr
      rcases List.mem_map.mp hr with ⟨item, hmem, rfl⟩
      rcases hitems item hmem with ⟨u, hu⟩
      exact ⟨u, hu.symm⟩
    rcases hrange with ⟨vs, hvs⟩
    exact ⟨_, toValue_seq_iff.mpr ⟨vs, hvs.symm, rfl⟩⟩

theorem exists_value_map_iff :
    (∃ v, (Yaml.map entries).toValue = .ok v) ↔ ∀ e ∈ entries, ∃ u, e.2.toValue = .ok u := by
  constructor
  · rintro ⟨v, hvalue⟩
    exact (toValue_map_iff.mp hvalue).1
  · intro hitems
    rcases exists_toFields hitems with ⟨fields, hfields⟩
    refine ⟨.record 0 fields, ?_⟩
    rw [toValue, hfields]
    rfl

/-!
## Parts of YAML data
-/

theorem collections_induct {motive : Yaml → Prop}
    (scalar : ∀ d, d.isCollection = false → motive d)
    (seq : ∀ items, (∀ item ∈ items, motive item) → motive (.seq items))
    (map : ∀ entries, (∀ e ∈ entries, motive e.2) → motive (.map entries)) : (d : Yaml) → motive d
  | .seq items => seq items fun item _ => collections_induct scalar seq map item
  | .map entries => map entries fun e _ => collections_induct scalar seq map e.2
  | .null => scalar _ rfl
  | .bool _ => scalar _ rfl
  | .int _ => scalar _ rfl
  | .uint _ => scalar _ rfl
  | .float _ => scalar _ rfl
  | .text _ => scalar _ rfl
  | .time _ => scalar _ rfl
termination_by d => sizeOf d
decreasing_by
  · have hitem := List.sizeOf_lt_of_mem ‹item ∈ items›
    rw [Yaml.seq.sizeOf_spec]
    omega
  · have hentry := List.sizeOf_lt_of_mem ‹e ∈ entries›
    have hsecond : sizeOf e = 1 + sizeOf e.1 + sizeOf e.2 := Prod.mk.sizeOf_spec e.1 e.2
    rw [Yaml.map.sizeOf_spec]
    omega

/-- The first data occurs in the second, at any depth of items and entries. -/
inductive Part (x : Yaml) : Yaml → Prop where
  | self : Part x x
  | item {items : List Yaml} {item : Yaml} (hmem : item ∈ items) (hpart : Part x item) :
      Part x (.seq items)
  | entry {entries : List (Yaml × Yaml)} {e : Yaml × Yaml} (hmem : e ∈ entries)
      (hpart : Part x e.2) : Part x (.map entries)

/-- The first data occurs in the second, and no entry on the way is followed by one with the same
text for a key. -/
inductive Kept (x : Yaml) : Yaml → Prop where
  | self : Kept x x
  | item {items : List Yaml} {item : Yaml} (hmem : item ∈ items) (hkept : Kept x item) :
      Kept x (.seq items)
  | entry {front back : List (Yaml × Yaml)} {e : Yaml × Yaml}
      (hlast : ∀ later ∈ back, later.1.keyText ≠ e.1.keyText) (hkept : Kept x e.2) :
      Kept x (.map (front ++ e :: back))

theorem exists_value_iff : (∃ v, d.toValue = .ok v) ↔ ∀ t, ¬ Part (.time t) d := by
  constructor
  · rintro ⟨v, hvalue⟩ t hpart
    induction hpart generalizing v with
    | self => cases hvalue
    | item hmem _ ih =>
        rcases exists_value_seq_iff.mp ⟨v, hvalue⟩ _ hmem with ⟨u, hu⟩
        exact ih u hu
    | entry hmem _ ih =>
        rcases exists_value_map_iff.mp ⟨v, hvalue⟩ _ hmem with ⟨u, hu⟩
        exact ih u hu
  · intro htimeless
    induction d using collections_induct with
    | scalar d hscalar =>
        cases d with
        | time t => exact absurd Part.self (htimeless t)
        | seq items => cases hscalar
        | map entries => cases hscalar
        | _ => exact ⟨_, rfl⟩
    | seq items ih =>
        apply exists_value_seq_iff.mpr
        intro item hmem
        exact ih item hmem fun t hpart => htimeless t (.item hmem hpart)
    | map entries ih =>
        apply exists_value_map_iff.mpr
        intro e hmem
        exact ih e hmem fun t hpart => htimeless t (.entry hmem hpart)

theorem lookup_last {front back : List (Yaml × Yaml)} {e : Yaml × Yaml}
    (hlast : ∀ later ∈ back, later.1.keyText ≠ e.1.keyText) :
    ((front ++ e :: back).map reading).reverse.lookup e.1.keyText = some e.2.toValue := by
  rw [List.map_append, List.map_cons, reading]
  apply NameMap.lookup_reverse_last
  intro r hr
  rcases List.mem_map.mp hr with ⟨later, hlater, rfl⟩
  exact hlast later hlater

theorem Kept.value (hkept : Kept x d) (hvalue : d.toValue = .ok v) :
    ∃ u, x.toValue = .ok u ∧ Value.Part u v := by
  induction hkept generalizing v with
  | self => exact ⟨v, hvalue, .self⟩
  | item hmem _ ih =>
      rcases toValue_seq_iff.mp hvalue with ⟨vs, hmap, rfl⟩
      rcases exists_value_of_item hmap hmem with ⟨w, hw, hitem⟩
      rcases ih hitem with ⟨u, hu, hpart⟩
      exact ⟨u, hu, .item hw hpart⟩
  | entry hlast _ ih =>
      rcases toValue_map_iff.mp hvalue with ⟨_, fields, rfl, _, hlookup⟩
      rcases Option.map_eq_some_iff.mp ((hlookup _).trans (lookup_last hlast)) with ⟨w, hw, hitem⟩
      rcases ih hitem.symm with ⟨u, hu, hpart⟩
      exact ⟨u, hu, .field (NameMap.mem_of_lookup hw) hpart⟩

end Yaml
end ScriptCore
