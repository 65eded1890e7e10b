import ScriptCore.Heap.Yaml
import ScriptCore.Proofs.NameMap
import ScriptCore.Yaml.Render.Document
import ScriptCore.Yaml.Value

/-!
# Values and YAML data

A tree of YAML data without timestamps, whose mappings have texts for keys and
no key twice, is read as a value and written again as it was, apart from the
order of the entries of mappings.  Conversely, a value that can be written is
written as such a tree, so that reading it and writing it once more changes
nothing.

Only the type of an integer may change.  The integers of a document and those
that bytes are written as have the machine's type, those that integers are
written as have a fixed size.  Both are read as integers and therefore written
as the second, which is the same number with the same text.  So where no byte
is written, not even the types change.
-/

namespace ScriptCore

theorem except_bind {ε α β : Type} {x : Except ε α} {f : α → Except ε β} {b : β}
    (hrun : x >>= f = .ok b) : ∃ a, x = .ok a ∧ f a = .ok b := by
  cases x with
  | error e => cases hrun
  | ok a => exact ⟨a, rfl, hrun⟩

/-!
## Fields in order
-/

namespace Value

variable {name : String} {value : Value} {fields : List (String × Value)}

theorem putField_perm (hnew : fields.lookup name = none) :
    (putField name value fields).Perm ((name, value) :: fields) := by
  induction fields with
  | nil => exact List.Perm.refl _
  | cons e rest ih =>
      obtain ⟨other, old⟩ := e
      have hne : ¬ name == other := by
        intro heq
        rw [List.lookup_cons, heq] at hnew
        cases hnew
      rw [List.lookup_cons] at hnew
      simp only [hne] at hnew
      rw [putField, if_neg hne]
      by_cases hlt : name < other
      · rw [if_pos hlt]
      · rw [if_neg hlt]
        exact ((ih hnew).cons (other, old)).trans (List.Perm.swap _ _ _)

theorem pairwise_putField (hnew : fields.lookup name = none)
    (hsorted : fields.Pairwise fun a b => a.1 ≤ b.1) :
    (putField name value fields).Pairwise fun a b => a.1 ≤ b.1 := by
  induction fields with
  | nil => exact List.pairwise_singleton _ _
  | cons e rest ih =>
      obtain ⟨other, old⟩ := e
      have hne : ¬ name == other := by
        intro heq
        rw [List.lookup_cons, heq] at hnew
        cases hnew
      rw [List.lookup_cons] at hnew
      simp only [hne] at hnew
      rw [putField, if_neg hne]
      rw [List.pairwise_cons] at hsorted
      by_cases hlt : name < other
      · have hle : name ≤ other := String.not_lt.mp (String.lt_asymm hlt)
        rw [if_pos hlt]
        apply List.pairwise_cons.mpr
        refine ⟨?_, List.pairwise_cons.mpr hsorted⟩
        intro e he
        cases he with
        | head => exact hle
        | tail _ he => exact String.le_trans hle (hsorted.1 e he)
      · rw [if_neg hlt]
        apply List.pairwise_cons.mpr
        refine ⟨?_, ih hnew hsorted.2⟩
        intro e he
        cases (putField_perm hnew).mem_iff.mp he with
        | head => exact String.not_lt.mp hlt
        | tail _ he => exact hsorted.1 e he

theorem foldl_putField (rest acc : List (String × Value))
    (hdistinct : NameMap.Distinct (acc ++ rest)) (hsorted : acc.Pairwise fun a b => a.1 ≤ b.1) :
    (rest.foldl (fun acc f => putField f.1 f.2 acc) acc).Pairwise (fun a b => a.1 ≤ b.1) ∧
      (rest.foldl (fun acc f => putField f.1 f.2 acc) acc).Perm (acc ++ rest) := by
  induction rest generalizing acc with
  | nil =>
      rw [List.append_nil]
      exact ⟨hsorted, List.Perm.refl acc⟩
  | cons e rest ih =>
      have hnew : acc.lookup e.1 = none := by
        apply NameMap.lookup_eq_none_iff.mpr
        intro hmem
        rw [NameMap.Distinct, List.map_append, List.nodup_append] at hdistinct
        exact hdistinct.2.2 e.1 hmem e.1 (List.mem_map.mpr ⟨e, List.mem_cons_self, rfl⟩) rfl
      have hmoved : (putField e.1 e.2 acc ++ rest).Perm (acc ++ e :: rest) :=
        ((putField_perm hnew).append_right rest).trans List.perm_middle.symm
      rcases ih _ (hdistinct.perm hmoved) (pairwise_putField hnew hsorted) with ⟨hpairwise, hperm⟩
      exact ⟨hpairwise, hperm.trans hmoved⟩

theorem sortFields_eq (hdistinct : NameMap.Distinct fields) :
    sortFields fields = NameMap.sortPairs fields := by
  rcases foldl_putField fields [] hdistinct List.Pairwise.nil with ⟨hsorted, hperm⟩
  have hpairs := NameMap.sortPairs_perm fields
  refine List.Perm.eq_of_pairwise ?_ hsorted (NameMap.pairwise_sortPairs fields)
    (hperm.trans hpairs.symm)
  intro a b ha hb hab hba
  -- a name determines its field
  have hname : a.1 = b.1 := String.le_antisymm hab hba
  have ha' := hdistinct.lookup_eq_some_iff.mpr (hperm.mem_iff.mp ha)
  have hb' := hdistinct.lookup_eq_some_iff.mpr (hpairs.mem_iff.mp hb)
  rw [hname, hb'] at ha'
  exact Prod.ext hname (Option.some.inj ha').symm

end Value

/-!
## Trees
-/

namespace Yaml

mutual

/-- There is no timestamp, the integers of the machine's type are such, the keys of mappings are
texts, and each of them is so related to those after it. -/
def Formed (R : String → String → Prop) (N : Int64 → Prop) : Yaml → Prop
  | .time _ => False
  | .int n => n.width = .machine → N n.value
  | .seq items => AllFormed R N items
  | .map entries => EntriesFormed R N entries ∧ (entries.map (·.1.keyText)).Pairwise R
  | _ => True

def AllFormed (R : String → String → Prop) (N : Int64 → Prop) : List Yaml → Prop
  | [] => True
  | item :: rest => Formed R N item ∧ AllFormed R N rest

def EntriesFormed (R : String → String → Prop) (N : Int64 → Prop) : List (Yaml × Yaml) → Prop
  | [] => True
  | (key, item) :: rest => key = .text key.keyText ∧ Formed R N item ∧ EntriesFormed R N rest

end

/-- Nulls, booleans, numbers and texts, sequences of trees, and mappings of different texts to
trees. -/
def IsTree (d : Yaml) : Prop :=
  d.Formed (· ≠ ·) fun _ => True

def orderEntries (entries : List (Yaml × Yaml)) : List (Yaml × Yaml) :=
  entries.mergeSort fun a b => decide (a.1.keyText ≤ b.1.keyText)

mutual

/-- The same data as a value gives it: the entries of all mappings are in the order of their keys,
and all integers are of the type that values have. -/
def arranged : Yaml → Yaml
  | .int n => .int { value := n.value, width := .fixed }
  | .seq items => .seq (arrangedAll items)
  | .map entries => .map (orderEntries (arrangedEntries entries))
  | d => d

def arrangedAll : List Yaml → List Yaml
  | [] => []
  | item :: rest => arranged item :: arrangedAll rest

def arrangedEntries : List (Yaml × Yaml) → List (Yaml × Yaml)
  | [] => []
  | (key, item) :: rest => (key, arranged item) :: arrangedEntries rest

end

variable {N : Int64 → Prop}

theorem orderEntries_of_sorted {entries : List (Yaml × Yaml)}
    (hsorted : (entries.map (·.1.keyText)).Pairwise (· ≤ ·)) : orderEntries entries = entries :=
  List.mergeSort_of_pairwise ((List.pairwise_map.mp hsorted).imp decide_eq_true)

mutual

/-- Nothing changes if the entries are in order already and no integer is of the machine's type. -/
theorem arranged_of_sorted (hnone : ∀ n, ¬ N n) :
    (d : Yaml) → d.Formed (· ≤ ·) N → d.arranged = d
  | .seq items, hformed => congrArg Yaml.seq (arrangedAll_of_sorted hnone items hformed)
  | .map entries, hformed => by
      rw [arranged, arrangedEntries_of_sorted hnone entries hformed.1,
        orderEntries_of_sorted hformed.2]
  | .int ⟨n, .machine⟩, hformed => absurd (hformed rfl) (hnone n)
  | .int ⟨_, .fixed⟩, _ => rfl
  | .null, _ => rfl
  | .bool _, _ => rfl
  | .uint _, _ => rfl
  | .float _, _ => rfl
  | .text _, _ => rfl
  | .time _, _ => rfl

theorem arrangedAll_of_sorted (hnone : ∀ n, ¬ N n) :
    (items : List Yaml) → AllFormed (· ≤ ·) N items → arrangedAll items = items
  | [], _ => rfl
  | item :: rest, hformed => by
      rw [arrangedAll, arranged_of_sorted hnone item hformed.1,
        arrangedAll_of_sorted hnone rest hformed.2]

theorem arrangedEntries_of_sorted (hnone : ∀ n, ¬ N n) :
    (entries : List (Yaml × Yaml)) → EntriesFormed (· ≤ ·) N entries →
      arrangedEntries entries = entries
  | [], _ => rfl
  | (key, item) :: rest, hformed => by
      rw [arrangedEntries, arranged_of_sorted hnone item hformed.2.1,
        arrangedEntries_of_sorted hnone rest hformed.2.2]

end

/-!
## Text
-/

/-- Both are written in the same way wherever they stand. -/
def Alike (a b : Yaml) : Prop :=
  ∀ indent inSequence w, Render.data indent inSequence w a = Render.data indent inSequence w b

theorem alike_map {zs : List (Yaml × Yaml × Yaml)} (hall : ∀ z ∈ zs, Alike z.2.1 z.2.2) :
    Alike (.map (sortEntries (zs.map fun z => (z.1, z.2.1))))
      (.map (sortEntries (zs.map fun z => (z.1, z.2.2)))) := by
  have hsort : ∀ side : Yaml × Yaml × Yaml → Yaml,
      sortEntries (zs.map fun z => (z.1, side z)) =
        (zs.mergeSort fun a b => !Render.KeyOrder.less b.1.keyText a.1.keyText).map
          fun z => (z.1, side z) := by
    intro side
    symm
    apply List.map_mergeSort
    intros
    rfl
  have hwrite : ∀ zs : List (Yaml × Yaml × Yaml), (∀ z ∈ zs, Alike z.2.1 z.2.2) →
      ∀ indent w, Render.entries indent w (zs.map fun z => (z.1, z.2.1)) =
        Render.entries indent w (zs.map fun z => (z.1, z.2.2)) := by
    intro zs hall indent
    induction zs with
    | nil => exact fun _ => rfl
    | cons z rest ih =>
        intro w
        rw [List.map_cons, List.map_cons, Render.entries, Render.entries,
          hall z List.mem_cons_self, ih fun z hz => hall z (List.mem_cons_of_mem _ hz)]
  intro indent inSequence w
  rw [hsort, hsort, Render.data, Render.data, List.isEmpty_map, List.isEmpty_map, hwrite]
  intro z hz
  exact hall z ((List.mergeSort_perm zs _).mem_iff.mp hz)

theorem keys_arrangedEntries (entries : List (Yaml × Yaml)) :
    (arrangedEntries entries).map (·.1.keyText) = entries.map (·.1.keyText) := by
  induction entries with
  | nil => rfl
  | cons e rest ih => exact congrArg (e.1.keyText :: ·) ih

mutual

theorem alike_arranged : (d : Yaml) → d.Formed (· ≤ ·) N → Alike d.arranged.sorted d.sorted
  | .seq items, hformed => by
      have hitems := items_arranged items hformed
      intro indent inSequence w
      rw [arranged, sorted, sorted, Render.data, Render.data, hitems.1, hitems.2]
  | .map entries, hformed => by
      rcases entries_arranged entries hformed.1 with ⟨zs, harranged, hsorted, hall⟩
      have hkeys := keys_arrangedEntries entries ▸ hformed.2
      rw [arranged, orderEntries_of_sorted hkeys, sorted, sorted, harranged, hsorted]
      exact alike_map hall
  | .int _, _ => fun _ _ _ => rfl
  | .null, _ => fun _ _ _ => rfl
  | .bool _, _ => fun _ _ _ => rfl
  | .uint _, _ => fun _ _ _ => rfl
  | .float _, _ => fun _ _ _ => rfl
  | .text _, _ => fun _ _ _ => rfl
  | .time _, _ => fun _ _ _ => rfl

theorem items_arranged : (items : List Yaml) → AllFormed (· ≤ ·) N items →
    (sortedItems (arrangedAll items)).isEmpty = (sortedItems items).isEmpty ∧
      ∀ indent w, Render.items indent w (sortedItems (arrangedAll items)) =
        Render.items indent w (sortedItems items)
  | [], _ => ⟨rfl, fun _ _ => rfl⟩
  | item :: rest, hformed => by
      refine ⟨rfl, fun indent w => ?_⟩
      rw [arrangedAll, sortedItems, sortedItems, Render.items, Render.items,
        alike_arranged item hformed.1, (items_arranged rest hformed.2).2]

theorem entries_arranged : (entries : List (Yaml × Yaml)) → EntriesFormed (· ≤ ·) N entries →
    ∃ zs : List (Yaml × Yaml × Yaml),
      sortedEntries (arrangedEntries entries) = zs.map (fun z => (z.1, z.2.1)) ∧
      sortedEntries entries = zs.map (fun z => (z.1, z.2.2)) ∧ ∀ z ∈ zs, Alike z.2.1 z.2.2
  | [], _ => ⟨[], rfl, rfl, fun z hz => nomatch hz⟩
  | (key, item) :: rest, hformed => by
      rcases entries_arranged rest hformed.2.2 with ⟨zs, harranged, hsorted, hall⟩
      refine ⟨(key, item.arranged.sorted, item.sorted) :: zs, ?_, ?_, ?_⟩
      · rw [arrangedEntries, sortedEntries, harranged, List.map_cons]
      · rw [sortedEntries, hsorted, List.map_cons]
      · exact List.forall_mem_cons.mpr ⟨alike_arranged item hformed.2.1, hall⟩

end

theorem render_arranged {d : Yaml} (hformed : d.Formed (· ≤ ·) N) :
    d.arranged.render = d.render := by
  unfold render
  rw [alike_arranged d hformed]

end Yaml

namespace Value

mutual

/-- The bytes in the tree are such, and the name of each field of an algebraic value is so related
to those after it. -/
def Formed (R : String → String → Prop) (B : UInt8 → Prop) : Value → Prop
  | .byte b => B b
  | .list _ _ items => AllFormed R B items
  | .tuple _ items => AllFormed R B items
  | .algebraic _ _ fields => PartsFormed R B fields ∧ (fields.map (·.1)).Pairwise R
  | .alias _ _ _ content => Formed R B content
  | _ => True

def AllFormed (R : String → String → Prop) (B : UInt8 → Prop) : List Value → Prop
  | [] => True
  | v :: rest => Formed R B v ∧ AllFormed R B rest

def PartsFormed (R : String → String → Prop) (B : UInt8 → Prop) : List (String × Value) → Prop
  | [] => True
  | (_, v) :: rest => Formed R B v ∧ PartsFormed R B rest

end

end Value

namespace Heap

def Formed (h : Heap) (R : String → String → Prop) (B : UInt8 → Prop) : Prop :=
  ∀ cell, (h.load cell).Formed R B

/-!
## Writing
-/

section Writing

variable {R : String → String → Prop} {B : UInt8 → Prop} {N : Int64 → Prop}
variable {f : CellId → Except Failure Yaml}

mutual

theorem yamlVia_formed (hbytes : ∀ b, B b → N (.ofNat b.toNat))
    (hcells : ∀ c d, f c = .ok d → d.Formed R N) :
    (v : Value) → {d : Yaml} → v.Formed R B → yamlVia f v = .ok d → d.Formed R N
  | .list _ element items, d, hfields, hrun => by
      rw [yamlVia] at hrun
      by_cases htext : Value.isTextList element items = true
      · rw [if_pos htext] at hrun
        cases hrun
        trivial
      · rw [if_neg htext] at hrun
        rcases except_bind hrun with ⟨ds, hitems, hrest⟩
        cases hrest
        exact yamlAllVia_formed hbytes hcells items hfields hitems
  | .tuple _ items, d, hfields, hrun => by
      rw [yamlVia] at hrun
      rcases except_bind hrun with ⟨ds, hitems, hrest⟩
      have hkeys := yamlAllVia_formed hbytes hcells items hfields hitems
      cases ds with
      | nil =>
          cases hrest
          trivial
      | cons d ds =>
          cases hrest
          exact hkeys
  | .algebraic _ shape fields, d, hfields, hrun => by
      rw [yamlVia] at hrun
      rcases except_bind hrun with ⟨entries, hentries, hrest⟩
      rcases yamlFieldsVia_formed hbytes hcells fields hfields.1 hentries with ⟨hkeys, hnames⟩
      by_cases htag : (entries.isEmpty && !shape.tag.isEmpty) = true
      · rw [if_pos htag] at hrest
        cases hrest
        trivial
      · rw [if_neg htag] at hrest
        cases hrest
        refine ⟨hkeys, ?_⟩
        rw [hnames]
        exact hfields.2
  | .alias _ _ _ content, d, hfields, hrun => yamlVia_formed hbytes hcells content hfields hrun
  | .reference cell, d, _, hrun => hcells cell d hrun
  | .function _, d, _, hrun => nomatch hrun
  | .promise _, d, _, hrun => nomatch hrun
  | .absent, d, _, hrun => nomatch hrun
  | .int _, d, _, hrun => by
      cases hrun
      intro hwidth
      cases hwidth
  | .uint _, d, _, hrun => by cases hrun; trivial
  | .float _, d, _, hrun => by cases hrun; trivial
  | .char _, d, _, hrun => by cases hrun; trivial
  | .byte b, d, hb, hrun => by
      cases hrun
      exact fun _ => hbytes b hb
  | .bool _, d, _, hrun => by cases hrun; trivial

theorem yamlAllVia_formed (hbytes : ∀ b, B b → N (.ofNat b.toNat))
    (hcells : ∀ c d, f c = .ok d → d.Formed R N) :
    (vs : List Value) → {ds : List Yaml} → Value.AllFormed R B vs → yamlAllVia f vs = .ok ds →
      Yaml.AllFormed R N ds
  | [], ds, _, hrun => by
      cases hrun
      trivial
  | v :: rest, ds, hfields, hrun => by
      rw [yamlAllVia] at hrun
      rcases except_bind hrun with ⟨d, hhead, hrun⟩
      rcases except_bind hrun with ⟨ds', htail, hrest⟩
      cases hrest
      constructor
      · exact yamlVia_formed hbytes hcells v hfields.1 hhead
      · exact yamlAllVia_formed hbytes hcells rest hfields.2 htail

theorem yamlFieldsVia_formed (hbytes : ∀ b, B b → N (.ofNat b.toNat))
    (hcells : ∀ c d, f c = .ok d → d.Formed R N) :
    (fs : List (String × Value)) → {entries : List (Yaml × Yaml)} → Value.PartsFormed R B fs →
      yamlFieldsVia f fs = .ok entries →
      Yaml.EntriesFormed R N entries ∧ entries.map (·.1.keyText) = fs.map (·.1)
  | [], entries, _, hrun => by
      cases hrun
      exact ⟨trivial, rfl⟩
  | (name, v) :: rest, entries, hfields, hrun => by
      rw [yamlFieldsVia] at hrun
      rcases except_bind hrun with ⟨d, hhead, hrun⟩
      rcases except_bind hrun with ⟨ds, htail, hrest⟩
      cases hrest
      rcases yamlFieldsVia_formed hbytes hcells rest hfields.2 htail with ⟨hkeys, hnames⟩
      constructor
      · exact ⟨rfl, yamlVia_formed hbytes hcells v hfields.1 hhead, hkeys⟩
      · exact congrArg (name :: ·) hnames

end

theorem toYaml_formed {h : Heap} {v : Value} {d : Yaml}
    (hbytes : ∀ b, B b → N (.ofNat b.toNat)) (hheap : h.Formed R B) (hv : v.Formed R B)
    (hrun : h.toYaml v = .ok d) : d.Formed R N := by
  have hfollow : ∀ n v d, v.Formed R B → h.follow (.panic .bottomless) yamlVia n v = .ok d →
      d.Formed R N := by
    intro n
    induction n with
    | zero =>
        intro v d hv hrun
        apply yamlVia_formed hbytes _ v hv hrun
        intro c d hbottom
        cases hbottom
    | succ n ih =>
        intro v d hv hrun
        exact yamlVia_formed hbytes (fun c d hcell => ih _ d (hheap c) hcell) v hv hrun
  exact hfollow _ v d hv hrun

theorem yamlFieldsVia_sortPairs {fs : List (String × Value)} {entries : List (Yaml × Yaml)}
    (hrun : yamlFieldsVia f fs = .ok entries) :
    yamlFieldsVia f (NameMap.sortPairs fs) = .ok (Yaml.orderEntries entries) := by
  -- both are the sorted list of the fields with their data
  have hzip : ∃ zs : List ((String × Value) × Yaml), fs = zs.map (·.1) ∧
      entries = zs.map (fun z => (.text z.1.1, z.2)) ∧ ∀ z ∈ zs, yamlVia f z.1.2 = .ok z.2 := by
    induction fs generalizing entries with
    | nil =>
        cases hrun
        exact ⟨[], rfl, rfl, fun z hz => nomatch hz⟩
    | cons e rest ih =>
        rw [yamlFieldsVia] at hrun
        rcases except_bind hrun with ⟨d, hhead, hrun⟩
        rcases except_bind hrun with ⟨ds, htail, hrest⟩
        cases hrest
        rcases ih htail with ⟨zs, hfs, hentries, hall⟩
        refine ⟨(e, d) :: zs, congrArg (e :: ·) hfs, congrArg (_ :: ·) hentries, ?_⟩
        intro z hz
        cases hz with
        | head => exact hhead
        | tail _ hz => exact hall z hz
  have hwrite : ∀ zs : List ((String × Value) × Yaml), (∀ z ∈ zs, yamlVia f z.1.2 = .ok z.2) →
      yamlFieldsVia f (zs.map (·.1)) = .ok (zs.map fun z => (.text z.1.1, z.2)) := by
    intro zs hall
    induction zs with
    | nil => rfl
    | cons z rest ih =>
        rw [List.map_cons, yamlFieldsVia, hall z List.mem_cons_self,
          ih fun z hz => hall z (List.mem_cons_of_mem _ hz)]
        rfl
  rcases hzip with ⟨zs, rfl, rfl, hall⟩
  have hpairs : NameMap.sortPairs (zs.map (·.1)) =
      (zs.mergeSort fun a b => decide (a.1.1 ≤ b.1.1)).map (·.1) := by
    symm
    apply List.map_mergeSort
    intros
    rfl
  have hentries : Yaml.orderEntries (zs.map fun z => (.text z.1.1, z.2)) =
      (zs.mergeSort fun a b => decide (a.1.1 ≤ b.1.1)).map fun z => (.text z.1.1, z.2) := by
    symm
    apply List.map_mergeSort
    intros
    rfl
  rw [hpairs, hentries]
  apply hwrite
  intro z hz
  exact hall z ((List.mergeSort_perm zs _).mem_iff.mp hz)

theorem yamlVia_record {fs : List (String × Value)} {entries : List (Yaml × Yaml)}
    (hrun : yamlFieldsVia f fs = .ok entries) :
    yamlVia f (.algebraic 0 .record fs) = .ok (.map entries) := by
  have htag : ¬ (entries.isEmpty && !Shape.record.tag.isEmpty) = true := by simp [Shape.record]
  rw [yamlVia, hrun]
  exact congrArg Except.ok (if_neg htag)

end Writing

/-!
## Reading
-/

theorem charOfCode_codeOfChar (c : Char) : Value.charOfCode (Value.codeOfChar c) = c := by
  have hvalid : c.toNat.isValidChar := c.valid
  have hcode : (Value.codeOfChar c).toInt = c.toNat := by
    apply Int32.toInt_ofNat_of_lt
    rcases hvalid with hlow | hhigh <;> omega
  have hnonneg : 0 ≤ (Value.codeOfChar c).toInt := by
    rw [hcode]
    exact Int.natCast_nonneg _
  have hnat : (Value.codeOfChar c).toInt.toNat = c.toNat := by
    rw [hcode, Int.toNat_natCast]
  rw [← hnat] at hvalid
  unfold Value.charOfCode
  rw [if_pos hnonneg, dif_pos hvalid]
  apply Char.ext
  exact UInt32.toNat_inj.mp hnat

theorem itemsText_chars (cs : List Char) :
    Value.itemsText (cs.map fun c => .char (Value.codeOfChar c)) = String.ofList cs := by
  unfold Value.itemsText
  congr 1
  induction cs with
  | nil => rfl
  | cons c rest ih =>
      rw [List.map_cons, List.filterMap_cons, ih]
      simp only [charOfCode_codeOfChar]

theorem yamlVia_ofText (f : CellId → Except Failure Yaml) (s : String) :
    yamlVia f (.ofText 0 s) = .ok (.text s) := by
  have htext : Value.isTextList .char (s.toList.map fun c => .char (Value.codeOfChar c)) = true :=
    rfl
  rw [Value.ofText, yamlVia, if_pos htext, itemsText_chars, String.ofList_toList]

theorem key_listOf_ne_char (element : Ty) : (Ty.listOf element).key ≠ "Char" := by
  intro hkey
  have hlist := congrArg String.toList hkey
  simp [Ty.key, Ty.listOf, Ty.normalize, Ty.normalizeAll, Ty.display, Ty.displayAll, Ty.appText]
    at hlist

theorem key_valueType_ne_char (d : Yaml) : d.valueType.key ≠ "Char" := by
  cases d with
  | seq items =>
      cases items with
      | nil => exact key_listOf_ne_char _
      | cons item rest => exact key_listOf_ne_char _
  | text s => exact key_listOf_ne_char _
  | null => exact (by decide : "()" ≠ "Char")
  | bool b => exact (by decide : "Bool" ≠ "Char")
  | int n => exact (by decide : "Int" ≠ "Char")
  | uint n => exact (by decide : "UInt" ≠ "Char")
  | float x => exact (by decide : "Float" ≠ "Char")
  | time t => exact (by decide : "Any" ≠ "Char")
  | map entries => exact (by decide : "Record" ≠ "Char")

theorem isTextList_elementType (items : List Yaml) {vs : List Value}
    (hvs : ∀ v ∈ vs, v.isChar = false) :
    Value.isTextList (Yaml.elementType items) vs = false := by
  have hkey : ((Yaml.elementType items).key == "Char") = false := by
    cases items with
    | nil => decide
    | cons item rest => exact beq_false_of_ne (key_valueType_ne_char item)
  have hitems : (!vs.isEmpty && vs.all Value.isChar) = false := by
    cases vs with
    | nil => rfl
    | cons v rest => simp [hvs v List.mem_cons_self]
  unfold Value.isTextList
  rw [hkey, hitems, Bool.and_false, Bool.or_false]

theorem formed_chars (R : String → String → Prop) (B : UInt8 → Prop) (cs : List Char) :
    Value.AllFormed R B (cs.map fun c => .char (Value.codeOfChar c)) := by
  induction cs with
  | nil => trivial
  | cons c rest ih => exact ⟨trivial, ih⟩

theorem partsFormed_of_forall {R : String → String → Prop} {B : UInt8 → Prop}
    (fs : List (String × Value))
    (hfields : ∀ p ∈ fs, p.2.Formed R B) : Value.PartsFormed R B fs := by
  induction fs with
  | nil => trivial
  | cons p rest ih =>
      constructor
      · exact hfields p List.mem_cons_self
      · exact ih fun q hq => hfields q (List.mem_cons_of_mem p hq)

/-- The value is written so whatever cells hold, and it is no character. -/
structure Written (v : Value) (d : Yaml) : Prop where
  yaml : ∀ f : CellId → Except Failure Yaml, yamlVia f v = .ok d
  formed : v.Formed (· < ·) fun _ => False
  notChar : v.isChar = false

variable {N : Int64 → Prop}

mutual

theorem toValue_written :
    (d : Yaml) → d.Formed (· ≠ ·) N → ∃ v, d.toValue = .ok v ∧ Written v d.arranged
  | .null, _ => ⟨_, rfl, fun _ => rfl, trivial, rfl⟩
  | .bool _, _ => ⟨_, rfl, fun _ => rfl, trivial, rfl⟩
  | .int _, _ => ⟨_, rfl, fun _ => rfl, trivial, rfl⟩
  | .uint _, _ => ⟨_, rfl, fun _ => rfl, trivial, rfl⟩
  | .float _, _ => ⟨_, rfl, fun _ => rfl, trivial, rfl⟩
  | .text s, _ => ⟨_, rfl, fun f => yamlVia_ofText f s, formed_chars _ _ s.toList, rfl⟩
  | .seq items, htree => by
      rcases toValues_written items htree with ⟨vs, hvalues, hyaml, hfields, hchars⟩
      refine ⟨.list 0 (Yaml.elementType items) vs, ?_, ?_, hfields, rfl⟩
      · rw [Yaml.toValue, hvalues]
        rfl
      · intro f
        have htext := isTextList_elementType items hchars
        rw [yamlVia, htext, if_neg Bool.false_ne_true, hyaml f]
        rfl
  | .map entries, htree => by
      rcases toFields_written entries htree.1 with ⟨fs, hvalues, hnames, hyaml, hfields⟩
      have hdistinct : NameMap.Distinct fs := by
        unfold NameMap.Distinct
        rw [hnames]
        exact htree.2
      refine ⟨.record 0 fs, ?_, ?_, ⟨?_, ?_⟩, rfl⟩
      · rw [Yaml.toValue, hvalues]
        rfl
      · intro f
        rw [Value.record, Value.sortFields_eq hdistinct]
        exact yamlVia_record (yamlFieldsVia_sortPairs (hyaml f))
      · rw [Value.sortFields_eq hdistinct]
        apply partsFormed_of_forall
        intro p hp
        exact hfields p ((NameMap.sortPairs_perm fs).mem_iff.mp hp)
      · rw [Value.sortFields_eq hdistinct]
        exact hdistinct.ascending

theorem toValues_written :
    (items : List Yaml) → Yaml.AllFormed (· ≠ ·) N items →
      ∃ vs, Yaml.toValues items = .ok vs ∧
        (∀ f : CellId → Except Failure Yaml,
          yamlAllVia f vs = .ok (Yaml.arrangedAll items)) ∧
        Value.AllFormed (· < ·) (fun _ => False) vs ∧ ∀ v ∈ vs, v.isChar = false
  | [], _ => ⟨[], rfl, fun _ => rfl, trivial, fun v hv => nomatch hv⟩
  | item :: rest, htree => by
      rcases toValue_written item htree.1 with ⟨v, hvalue, hwritten⟩
      rcases toValues_written rest htree.2 with ⟨vs, hvalues, hyaml, hfields, hchars⟩
      refine ⟨v :: vs, ?_, ?_, ⟨hwritten.formed, hfields⟩, ?_⟩
      · rw [Yaml.toValues, hvalue, hvalues]
        rfl
      · intro f
        rw [yamlAllVia, hwritten.yaml f, hyaml f]
        rfl
      · intro u hu
        cases hu with
        | head => exact hwritten.notChar
        | tail _ hu => exact hchars u hu

theorem toFields_written :
    (entries : List (Yaml × Yaml)) → Yaml.EntriesFormed (· ≠ ·) N entries →
      ∃ fs, Yaml.toFields entries = .ok fs ∧
        fs.map (·.1) = entries.map (·.1.keyText) ∧
        (∀ f : CellId → Except Failure Yaml,
          yamlFieldsVia f fs = .ok (Yaml.arrangedEntries entries)) ∧
        ∀ p ∈ fs, p.2.Formed (· < ·) fun _ => False
  | [], _ => ⟨[], rfl, rfl, fun _ => rfl, fun p hp => nomatch hp⟩
  | (key, item) :: rest, htree => by
      rcases toValue_written item htree.2.1 with ⟨v, hvalue, hwritten⟩
      rcases toFields_written rest htree.2.2 with ⟨fs, hvalues, hnames, hyaml, hfields⟩
      refine ⟨(key.keyText, v) :: fs, ?_, congrArg (key.keyText :: ·) hnames, ?_, ?_⟩
      · rw [Yaml.toFields, hvalue, hvalues]
        rfl
      · intro f
        rw [yamlFieldsVia, hwritten.yaml f, hyaml f, Yaml.arrangedEntries, ← htree.1]
        rfl
      · intro p hp
        cases hp with
        | head => exact hwritten.formed
        | tail _ hp => exact hfields p hp

end

theorem toYaml_of_written {v : Value} {d : Yaml} (hwritten : Written v d) (h : Heap) :
    h.toYaml v = .ok d := by
  unfold toYaml
  cases h.cells.size with
  | zero => exact hwritten.yaml _
  | succ n => exact hwritten.yaml _

/-- A byte is written as an integer of another type than the integer that it is read as. -/
example (h : Heap) :
    h.toYaml (.byte 5) = .ok (.int ⟨5, .machine⟩) ∧
      (Yaml.int ⟨5, .machine⟩).toValue = .ok (.int 5) ∧
      h.toYaml (.int 5) = .ok (.int ⟨5, .fixed⟩) := by
  unfold toYaml
  cases h.cells.size <;> exact ⟨rfl, rfl, rfl⟩

def emptyParts : Yaml :=
  .map [(.text "a", .null), (.text "b", .seq [.text "", .seq [], .map []])]

theorem emptyParts_formed {R : String → String → Prop} (N : Int64 → Prop) (hR : R "a" "b") :
    emptyParts.Formed R N := by
  have hparts : Yaml.AllFormed R N [.text "", .seq [], .map []] :=
    ⟨trivial, trivial, ⟨trivial, List.Pairwise.nil⟩, trivial⟩
  constructor
  · exact ⟨rfl, trivial, rfl, hparts, trivial⟩
  · exact List.pairwise_pair.mpr hR

end Heap
end ScriptCore
