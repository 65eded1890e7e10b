import Mathlib.Data.List.Perm.Subperm
import ScriptCore.Proofs.Yaml.Reading

/-!
# Entries of mappings

The keys of a mapping are of any scalar kind, but the fields of its value have
the texts of the keys for names.  Different keys may have the same text: the
number `1` and the text `1`, the numbers `1` and `1.0`, null and the text
`<nil>`.  Of such entries only the last one is kept, and the order in which the
entries are listed decides which one this is.

Where the keys of each mapping have different texts nothing is lost, and the
value is the same for all orders.  This is so for different texts, and also for
different nulls, booleans and integers.
-/

namespace ScriptCore
namespace Yaml

variable {d d' x x' a b : Yaml} {items : List Yaml} {entries others : List (Yaml × Yaml)}
  {v : Value}

/-!
## Keys with different texts
-/

/-- The key is null, a boolean or an integer, of this type if it is signed; and an integer is
unsigned only if it is beyond the signed range. -/
def isPlainKey (width : Width) : Yaml → Bool
  | .null => true
  | .bool _ => true
  | .int n => n.width = width
  | .uint n => Int64.maxValue.toInt < n.toNat
  | _ => false

def isTextKey : Yaml → Bool
  | .text _ => true
  | _ => false

/-- The keys are both texts, or both null, boolean or integer, with integers of one type. -/
def areComparable (a b : Yaml) : Bool :=
  a.isTextKey && b.isTextKey ||
    [Width.machine, .fixed].any fun width => a.isPlainKey width && b.isPlainKey width

/-- The integer with these digits, after a sign if it is negative. -/
def numeral (cs : List Char) : Int :=
  if cs.head? = some '-' then -(Nat.ofDigitChars 10 cs.tail 0) else Nat.ofDigitChars 10 cs 0

theorem isDigit_head_toDigits {n : Nat} {c : Char} (hhead : (Nat.toDigits 10 n).head? = some c) :
    c.isDigit = true :=
  Nat.isDigit_of_mem_toDigits (by decide) (by decide) (List.mem_of_head? hhead)

theorem numeral_toString (n : Int) : numeral (toString n).toList = n := by
  rw [Int.toString_eq_repr, Int.repr_eq_if]
  by_cases hn : 0 ≤ n
  · have hsign : (Nat.toDigits 10 n.toNat).head? ≠ some '-' :=
      fun hhead => absurd (isDigit_head_toDigits hhead) (by decide)
    rw [if_pos hn, Nat.toList_repr, numeral, if_neg hsign, Nat.ofDigitChars_ten_toDigits,
      Int.toNat_of_nonneg hn]
  · have hneg : 0 ≤ -n := by omega
    have htext : ("-" ++ (-n).toNat.repr).toList = '-' :: Nat.toDigits 10 (-n).toNat := by
      rw [String.toList_append, Nat.toList_repr]
      rfl
    rw [if_neg hn, htext, numeral, List.head?_cons, if_pos rfl, List.tail_cons,
      Nat.ofDigitChars_ten_toDigits, Int.toNat_of_nonneg hneg, Int.neg_neg]

theorem head_toString {n : Int} {c : Char} (hhead : (toString n).toList.head? = some c) :
    (c == '-' || c.isDigit) = true := by
  rw [Int.toString_eq_repr, Int.repr_eq_if] at hhead
  by_cases hn : 0 ≤ n
  · rw [if_pos hn, Nat.toList_repr] at hhead
    rw [isDigit_head_toDigits hhead, Bool.or_true]
  · rw [if_neg hn, String.toList_append] at hhead
    cases hhead
    rfl

theorem toString_natCast (n : Nat) : toString (n : Int) = toString n := by
  rw [Int.toString_eq_repr, Int.repr_eq_if, if_pos (Int.natCast_nonneg n), Int.toNat_natCast,
    Nat.toString_eq_repr]

/-- The null, the boolean or the integer that is written so. -/
def plainKey (width : Width) (s : String) : Yaml :=
  if s = keyText .null then .null
  else if s = keyText (.bool true) then .bool true
  else if s = keyText (.bool false) then .bool false
  else
    let n := numeral s.toList
    if n ≤ Int64.maxValue.toInt then .int { value := .ofInt n, width } else .uint (.ofNat n.toNat)

theorem plainKey_toString (width : Width) (n : Int) : plainKey width (toString n) =
    if n ≤ Int64.maxValue.toInt then .int { value := .ofInt n, width }
    else .uint (.ofNat n.toNat) := by
  have hother : ∀ (c : Char) (s : String), (c == '-' || c.isDigit) = false →
      s.toList.head? = some c → toString n ≠ s := by
    rintro c s hc hhead rfl
    rw [head_toString hhead] at hc
    cases hc
  unfold plainKey
  rw [if_neg (hother '<' _ rfl rfl), if_neg (hother 't' _ rfl rfl), if_neg (hother 'f' _ rfl rfl),
    numeral_toString]

theorem plainKey_keyText {width : Width} (hplain : a.isPlainKey width = true) :
    plainKey width a.keyText = a := by
  cases a with
  | null => rfl
  | bool b => cases b <;> rfl
  | int n =>
      rw [keyText, Integer.toInt, plainKey_toString, if_pos (Int64.toInt_le n.value),
        Int64.ofInt_toInt, ← of_decide_eq_true hplain]
  | uint n =>
      have hbeyond : ¬ (n.toNat : Int) ≤ Int64.maxValue.toInt :=
        Int.not_le.mpr (of_decide_eq_true hplain)
      rw [keyText, ← toString_natCast, plainKey_toString, if_neg hbeyond, Int.toNat_natCast,
        UInt64.ofNat_toNat]
  | _ => cases hplain

theorem sameKey_of_keyText_eq (hcomparable : areComparable a b = true)
    (htext : a.keyText = b.keyText) : sameKey a b = true := by
  rcases Bool.or_eq_true_iff.mp hcomparable with htexts | hplain
  · cases a with
    | text s =>
        cases b with
        | text s' => exact beq_iff_eq.mpr htext
        | _ => cases htexts
    | _ => cases htexts
  · rcases List.any_eq_true.mp hplain with ⟨width, _, hplain⟩
    rcases Bool.and_eq_true_iff.mp hplain with ⟨ha, hb⟩
    have heq : a = b := by rw [← plainKey_keyText ha, htext, plainKey_keyText hb]
    subst heq
    cases a with
    | null => rfl
    | bool b => exact beq_self_eq_true b
    | int n => exact beq_self_eq_true n
    | uint n => exact beq_self_eq_true n
    | _ => cases ha

/-!
## Conditions on mappings
-/

def InMappings (P : List (Yaml × Yaml) → Prop) (d : Yaml) : Prop :=
  ∀ entries, Part (.map entries) d → P entries

def Apart : Yaml → Prop :=
  InMappings fun entries => (entries.map (·.1.keyText)).Nodup

/-- Entries of one mapping whose keys have the same text have the same value. -/
def Settled : Yaml → Prop :=
  InMappings fun entries => NameMap.Consistent (entries.map reading)

section InMappings

variable {P Q : List (Yaml × Yaml) → Prop}

theorem InMappings.imp (himp : ∀ entries, P entries → Q entries) (hd : d.InMappings P) :
    d.InMappings Q :=
  fun entries hpart => himp entries (hd entries hpart)

theorem inMappings_scalar (hscalar : d.isCollection = false) : d.InMappings P := by
  intro entries hpart
  cases hpart with
  | self => cases hscalar
  | item => cases hscalar
  | entry => cases hscalar

theorem inMappings_seq : (Yaml.seq items).InMappings P ↔ ∀ item ∈ items, item.InMappings P := by
  constructor
  · intro hd item hmem entries hpart
    exact hd entries (.item hmem hpart)
  · intro hitems entries hpart
    cases hpart with
    | item hmem hpart => exact hitems _ hmem entries hpart

theorem inMappings_map :
    (Yaml.map entries).InMappings P ↔ P entries ∧ ∀ e ∈ entries, e.2.InMappings P := by
  constructor
  · intro hd
    exact ⟨hd entries .self, fun e hmem others hpart => hd others (.entry hmem hpart)⟩
  · rintro ⟨hentries, hitems⟩ others hpart
    cases hpart with
    | self => exact hentries
    | entry hmem hpart => exact hitems _ hmem others hpart

theorem InMappings.replace_item {front back : List Yaml}
    (hd : (Yaml.seq (front ++ x :: back)).InMappings P) (hx : x'.InMappings P) :
    (Yaml.seq (front ++ x' :: back)).InMappings P := by
  rw [inMappings_seq, List.forall_mem_append, List.forall_mem_cons] at hd ⊢
  exact ⟨hd.1, hx, hd.2.2⟩

theorem InMappings.replace_entry {front back : List (Yaml × Yaml)} {key : Yaml}
    (hd : (Yaml.map (front ++ (key, x) :: back)).InMappings P) (hx : x'.InMappings P)
    (hentries : P (front ++ (key, x') :: back)) :
    (Yaml.map (front ++ (key, x') :: back)).InMappings P := by
  rw [inMappings_map, List.forall_mem_append, List.forall_mem_cons] at hd ⊢
  exact ⟨hentries, hd.2.1, hx, hd.2.2.2⟩

end InMappings

theorem Apart.settled (hapart : d.Apart) : d.Settled := by
  refine InMappings.imp ?_ hapart
  intro entries hnodup
  apply NameMap.Distinct.consistent
  rw [NameMap.Distinct, List.map_map]
  exact hnodup

theorem apart_of_comparable
    (hkeys : d.InMappings fun entries =>
      entries.Pairwise fun a b => areComparable a.1 b.1 = true ∧ sameKey a.1 b.1 = false) :
    d.Apart := by
  refine InMappings.imp ?_ hkeys
  intro entries hpairwise
  apply List.pairwise_map.mpr
  apply hpairwise.imp
  rintro a b ⟨hcomparable, hdifferent⟩ htext
  rw [sameKey_of_keyText_eq hcomparable htext] at hdifferent
  cases hdifferent

/-!
## Nothing is lost
-/

/-- Each mapping in the data has a record in the value with one field for each entry, which holds
the value of that entry. -/
def RetainedIn (d : Yaml) (v : Value) : Prop :=
  d.InMappings fun entries => ∃ fields,
    (Yaml.map entries).toValue = .ok (.algebraic 0 .record fields) ∧
    Value.Part (.algebraic 0 .record fields) v ∧
    fields.length = entries.length ∧
    ∀ e ∈ entries, ∃ u, e.2.toValue = .ok u ∧ fields.lookup e.1.keyText = some u

theorem Part.kept (hpart : Part x d) (hapart : d.Apart) : Kept x d := by
  induction hpart with
  | self => exact .self
  | item hmem _ ih => exact .item hmem (ih (inMappings_seq.mp hapart _ hmem))
  | entry hmem _ ih =>
      rcases inMappings_map.mp hapart with ⟨hnodup, hitems⟩
      rcases List.append_of_mem hmem with ⟨front, back, rfl⟩
      refine .entry ?_ (ih (hitems _ hmem))
      intro later hlater htext
      rw [List.map_append, List.map_cons, List.nodup_append, List.nodup_cons] at hnodup
      exact hnodup.2.1.1 (List.mem_map.mpr ⟨later, hlater, htext⟩)

theorem mem_names_iff {fields : List (String × Value)}
    (hvalue : (Yaml.map entries).toValue = .ok (.algebraic 0 .record fields)) (name : String) :
    name ∈ fields.map (·.1) ↔ name ∈ entries.map (·.1.keyText) := by
  rcases toValue_map_iff.mp hvalue with ⟨_, fields', heq, _, hlookup⟩
  cases heq
  have hnone : fields.lookup name = none ↔ (entries.map reading).reverse.lookup name = none := by
    rw [← hlookup, Option.map_eq_none_iff]
  rw [NameMap.lookup_eq_none_iff, NameMap.lookup_eq_none_iff, not_iff_not] at hnone
  rw [hnone, List.map_reverse, List.mem_reverse, List.map_map]
  rfl

theorem length_fields_iff {fields : List (String × Value)}
    (hvalue : (Yaml.map entries).toValue = .ok (.algebraic 0 .record fields)) :
    fields.length = entries.length ↔ (entries.map (·.1.keyText)).Nodup := by
  have hnames := mem_names_iff hvalue
  rcases toValue_map_iff.mp hvalue with ⟨_, fields', heq, hasc, _⟩
  cases heq
  have hlength : (fields.map (·.1)).length = (entries.map (·.1.keyText)).length ↔
      fields.length = entries.length := by rw [List.length_map, List.length_map]
  rw [← hlength]
  constructor
  · intro hlen
    have hsub := hasc.distinct.subperm fun name hname => (hnames name).mp hname
    exact (hsub.perm_of_length_le hlen.ge).nodup_iff.mp hasc.distinct
  · intro hnodup
    exact ((List.perm_ext_iff_of_nodup hasc.distinct hnodup).mpr hnames).length_eq

theorem retainedIn_iff_apart (hvalue : d.toValue = .ok v) : d.RetainedIn v ↔ d.Apart := by
  constructor
  · apply InMappings.imp
    rintro entries ⟨fields, hfields, _, hlength, _⟩
    exact (length_fields_iff hfields).mp hlength
  · intro hapart entries hpart
    rcases (hpart.kept hapart).value hvalue with ⟨u, hu, hpartv⟩
    rcases toValue_map_iff.mp hu with ⟨hitems, fields, rfl, _, hlookup⟩
    refine ⟨fields, hu, hpartv, (length_fields_iff hu).mpr (hapart entries hpart), ?_⟩
    intro e hmem
    have hreading : (entries.map reading).reverse.lookup e.1.keyText = some e.2.toValue := by
      have hcons := (hapart.settled entries hpart).perm (List.reverse_perm _).symm
      exact hcons.lookup_eq_some_iff.mpr (List.mem_reverse.mpr (List.mem_map_of_mem hmem))
    rcases Option.map_eq_some_iff.mp ((hlookup _).trans hreading) with ⟨w, hw, hitem⟩
    exact ⟨w, hitem.symm, hw⟩

/-!
## The order of entries
-/

/-- The second data lists the entries of one mapping of the first in another order. -/
inductive Reorder : Yaml → Yaml → Prop where
  | here {entries others : List (Yaml × Yaml)} (hperm : entries.Perm others) :
      Reorder (.map entries) (.map others)
  | item {x x' : Yaml} (front back : List Yaml) (hinside : Reorder x x') :
      Reorder (.seq (front ++ x :: back)) (.seq (front ++ x' :: back))
  | entry {x x' : Yaml} (front back : List (Yaml × Yaml)) (key : Yaml) (hinside : Reorder x x') :
      Reorder (.map (front ++ (key, x) :: back)) (.map (front ++ (key, x') :: back))

/-- The second data lists the entries of mappings of the first in other orders. -/
def Reordered : Yaml → Yaml → Prop :=
  Relation.ReflTransGen Reorder

theorem Reordered.item (horder : Reordered x x') (front back : List Yaml) :
    Reordered (.seq (front ++ x :: back)) (.seq (front ++ x' :: back)) :=
  Relation.ReflTransGen.lift (fun y => Yaml.seq (front ++ y :: back))
    (fun _ _ => Reorder.item front back) _ _ horder

theorem Reordered.entry (horder : Reordered x x') (front back : List (Yaml × Yaml)) (key : Yaml) :
    Reordered (.map (front ++ (key, x) :: back)) (.map (front ++ (key, x') :: back)) :=
  Relation.ReflTransGen.lift (fun y => Yaml.map (front ++ (key, y) :: back))
    (fun _ _ => Reorder.entry front back key) _ _ horder

theorem elementType_replace {front back : List Yaml} (htype : x'.valueType = x.valueType) :
    elementType (front ++ x' :: back) = elementType (front ++ x :: back) := by
  cases front with
  | nil => exact htype
  | cons first rest => rfl

theorem Reorder.valueType (hstep : Reorder d d') : d'.valueType = d.valueType := by
  induction hstep with
  | here hperm => rfl
  | item front back _ ih => rw [valueType_seq, valueType_seq, elementType_replace ih]
  | entry front back key _ ih => rfl

theorem readings_replace (front back : List (Yaml × Yaml)) (key : Yaml)
    (hitem : x'.toValue = x.toValue) :
    (front ++ (key, x') :: back).map reading = (front ++ (key, x) :: back).map reading := by
  rw [List.map_append, List.map_append, List.map_cons, List.map_cons, reading, reading, hitem]

theorem toValue_map_of_readings (hreadings : others.map reading = entries.map reading)
    (hvalue : (Yaml.map entries).toValue = .ok v) : (Yaml.map others).toValue = .ok v := by
  rw [toValue] at hvalue ⊢
  rcases except_bind hvalue with ⟨fields, hfields, hrest⟩
  rw [toFields_eq_ok_iff.mpr (hreadings.trans (toFields_eq_ok_iff.mp hfields))]
  exact hrest

/-- One step to another order changes nothing where the values of entries with one text agree, and
they agree after the step. -/
theorem Settled.reorder (hsettled : d.Settled) (hstep : Reorder d d') (hvalue : d.toValue = .ok v) :
    d'.Settled ∧ d'.toValue = .ok v := by
  induction hstep generalizing v with
  | here hperm =>
      rcases inMappings_map.mp hsettled with ⟨hcons, hitems⟩
      rcases toValue_map_iff.mp hvalue with ⟨hvalues, fields, hfields, hasc, hlookup⟩
      have hreadings := hperm.map reading
      constructor
      · exact inMappings_map.mpr
          ⟨hcons.perm hreadings, fun e hmem => hitems e (hperm.mem_iff.mpr hmem)⟩
      · apply toValue_map_iff.mpr
        refine ⟨fun e hmem => hvalues e (hperm.mem_iff.mpr hmem), fields, hfields, hasc, ?_⟩
        intro name
        have hreversed := hcons.perm (List.reverse_perm _).symm
        rw [hlookup]
        exact hreversed.lookup_perm
          ((List.reverse_perm _).trans (hreadings.trans (List.reverse_perm _).symm))
  | @item x x' front back hinside ih =>
      have hmem : x ∈ front ++ x :: back := List.mem_append_right _ List.mem_cons_self
      rcases toValue_seq_iff.mp hvalue with ⟨vs, hmap, rfl⟩
      rcases exists_value_of_item hmap hmem with ⟨u, _, hu⟩
      rcases ih (inMappings_seq.mp hsettled x hmem) hu with ⟨hsettled', hu'⟩
      refine ⟨hsettled.replace_item hsettled', toValue_seq_iff.mpr ⟨vs, ?_, ?_⟩⟩
      · rw [← hmap, List.map_append, List.map_append, List.map_cons, List.map_cons, hu', hu]
      · rw [elementType_replace hinside.valueType]
  | @entry x x' front back key hinside ih =>
      have hmem : (key, x) ∈ front ++ (key, x) :: back :=
        List.mem_append_right _ List.mem_cons_self
      rcases inMappings_map.mp hsettled with ⟨hcons, hitems⟩
      rcases exists_value_map_iff.mp ⟨v, hvalue⟩ _ hmem with ⟨u, hu⟩
      rcases ih (hitems _ hmem) hu with ⟨hsettled', hu'⟩
      have hreadings := readings_replace front back key (hu'.trans hu.symm)
      constructor
      · apply hsettled.replace_entry hsettled'
        rw [hreadings]
        exact hcons
      · exact toValue_map_of_readings hreadings hvalue

theorem Settled.reordered (hsettled : d.Settled) (horder : Reordered d d')
    (hvalue : d.toValue = .ok v) : d'.toValue = .ok v := by
  have hrun : d'.Settled ∧ d'.toValue = .ok v := by
    induction horder with
    | refl => exact ⟨hsettled, hvalue⟩
    | tail _ hstep ih => exact ih.1.reorder hstep ih.2
  exact hrun.2

/-- The data has this value in whatever order its entries are listed. -/
def AlwaysIs (d : Yaml) (v : Value) : Prop :=
  ∀ d', Reordered d d' → d'.toValue = .ok v

theorem exists_alwaysIs {found : Option Value}
    (hfound : ∀ x', Reordered x x' → found.map .ok = some x'.toValue) :
    ∃ u, found = some u ∧ x.AlwaysIs u := by
  rcases Option.map_eq_some_iff.mp (hfound x .refl) with ⟨u, rfl, _⟩
  refine ⟨u, rfl, ?_⟩
  intro x' horder
  exact (Option.some.inj (hfound x' horder)).symm

theorem AlwaysIs.item (halways : (Yaml.seq items).AlwaysIs v) (hmem : x ∈ items) :
    ∃ u, x.AlwaysIs u := by
  rcases List.append_of_mem hmem with ⟨front, back, rfl⟩
  rcases toValue_seq_iff.mp (halways _ .refl) with ⟨vs, _, hv⟩
  have hfound : ∀ x', Reordered x x' → vs[front.length]?.map .ok = some x'.toValue := by
    intro x' horder
    rcases toValue_seq_iff.mp (halways _ (horder.item front back)) with ⟨vs', hmap, hv'⟩
    obtain rfl : vs = vs' := (Value.list.inj (hv.symm.trans hv')).2.2
    rw [← List.getElem?_map, ← hmap, List.map_append, List.map_cons]
    simp
  rcases exists_alwaysIs hfound with ⟨u, _, hx⟩
  exact ⟨u, hx⟩

theorem AlwaysIs.entry {e : Yaml × Yaml} {fields : List (String × Value)}
    (halways : (Yaml.map entries).AlwaysIs (.algebraic 0 .record fields)) (hmem : e ∈ entries) :
    ∃ u, fields.lookup e.1.keyText = some u ∧ e.2.AlwaysIs u := by
  rcases List.append_of_mem hmem with ⟨front, back, rfl⟩
  have hmoved : Reorder (.map (front ++ e :: back)) (.map ((front ++ back) ++ [e])) :=
    .here (List.perm_middle.trans (List.perm_append_singleton e _).symm)
  apply exists_alwaysIs
  intro x' horder
  have hinside := horder.entry (front ++ back) [] e.1
  rcases toValue_map_iff.mp (halways _ (.head hmoved hinside)) with ⟨_, fields', hv, _, hlookup⟩
  cases hv
  rw [hlookup]
  exact lookup_last (e := (e.1, x')) (List.forall_mem_nil _)

/-- Where the value of the whole does not depend on the order, neither do the values of its
parts. -/
theorem AlwaysIs.part (hpart : Part x d) (halways : d.AlwaysIs v) : ∃ u, x.AlwaysIs u := by
  induction hpart generalizing v with
  | self => exact ⟨v, halways⟩
  | item hmem _ ih =>
      rcases halways.item hmem with ⟨u, hitem⟩
      exact ih hitem
  | entry hmem _ ih =>
      rcases toValue_map_iff.mp (halways _ .refl) with ⟨_, fields, rfl, _, _⟩
      rcases halways.entry hmem with ⟨u, _, hentry⟩
      exact ih hentry

theorem alwaysIs_iff_settled (hvalue : d.toValue = .ok v) : d.AlwaysIs v ↔ d.Settled := by
  constructor
  · intro halways entries hpart r hr r' hr' hname
    rcases List.mem_map.mp hr with ⟨e, he, rfl⟩
    rcases List.mem_map.mp hr' with ⟨e', he', rfl⟩
    rcases halways.part hpart with ⟨u, hmapping⟩
    rcases toValue_map_iff.mp (hmapping _ .refl) with ⟨_, fields, rfl, _, _⟩
    -- both entries can be moved to the end, so the field of the name holds the values of both
    rcases hmapping.entry he with ⟨u, hlookup, hitem⟩
    rcases hmapping.entry he' with ⟨u', hlookup', hitem'⟩
    have hsame : some u = some u' := by
      rw [← hlookup, ← hlookup']
      exact congrArg (List.lookup · fields) hname
    cases hsame
    exact (hitem _ .refl).trans (hitem' _ .refl).symm
  · intro hsettled d' horder
    exact hsettled.reordered horder hvalue

/-- Data has a value unless there is a timestamp in it.  One field for each entry of each mapping,
with the value of that entry, is in the value if and only if the keys of each mapping have different
texts.  The value is the same for all orders of the entries if and only if entries of one mapping
whose keys have the same text have the same value.  So both hold where the keys have different
texts, in particular where they are different and are all texts, or all nulls, booleans and
integers. -/
theorem entries_kept_iff_apart (d : Yaml) :
    ((∃ v, d.toValue = .ok v) ↔ ∀ t, ¬ Part (.time t) d) ∧
    (∀ v, d.toValue = .ok v → (d.RetainedIn v ↔ d.Apart) ∧ (d.AlwaysIs v ↔ d.Settled)) ∧
    (d.Apart → d.Settled) ∧
    ((d.InMappings fun entries => entries.Pairwise fun a b =>
      areComparable a.1 b.1 = true ∧ sameKey a.1 b.1 = false) → d.Apart) := by
  refine ⟨exists_value_iff, ?_, Apart.settled, apart_of_comparable⟩
  intro v hvalue
  exact ⟨retainedIn_iff_apart hvalue, alwaysIs_iff_settled hvalue⟩

/-- A null and an integer for keys, and texts in the mapping inside, one of them the text of that
integer. -/
theorem entries_kept_of_nested_mapping :
    let d : Yaml := .map [(.int 1, .map [(.text "<nil>", .null), (.text "1", .int 2)]),
      (.null, .seq [.bool true])]
    let v : Value := .algebraic 0 .record [("1", .algebraic 0 .record [("1", .int 2),
      ("<nil>", .unit)]), ("<nil>", .list 0 .bool [.bool true])]
    d.toValue = .ok v ∧ d.RetainedIn v ∧ d.AlwaysIs v := by
  intro d v
  have hkeys : d.InMappings fun entries => entries.Pairwise fun a b =>
      areComparable a.1 b.1 = true ∧ sameKey a.1 b.1 = false := by
    refine inMappings_map.mpr ⟨by decide, List.forall_mem_cons.mpr ⟨?_, ?_⟩⟩
    · refine inMappings_map.mpr ⟨by decide, List.forall_mem_cons.mpr ⟨?_, ?_⟩⟩
      · exact inMappings_scalar rfl
      · exact List.forall_mem_singleton.mpr (inMappings_scalar rfl)
    · refine List.forall_mem_singleton.mpr (inMappings_seq.mpr ?_)
      exact List.forall_mem_singleton.mpr (inMappings_scalar rfl)
  have hvalue : d.toValue = .ok v := by rfl
  have hall := entries_kept_iff_apart d
  have hapart := hall.2.2.2 hkeys
  rcases hall.2.1 v hvalue with ⟨hretained, halways⟩
  exact ⟨hvalue, hretained.mpr hapart, halways.mpr (hall.2.2.1 hapart)⟩

/-- The keys are different but have the same text: one of the entries is lost, and the order decides
which one. -/
theorem entry_lost_beside_integer :
    sameKey (.int 1) (.text "1") = false ∧
    (Yaml.map [(.int 1, .bool true), (.text "1", .bool false)]).toValue =
      .ok (.algebraic 0 .record [("1", .bool false)]) ∧
    (Yaml.map [(.text "1", .bool false), (.int 1, .bool true)]).toValue =
      .ok (.algebraic 0 .record [("1", .bool true)]) :=
  ⟨rfl, rfl, rfl⟩

end Yaml
end ScriptCore
