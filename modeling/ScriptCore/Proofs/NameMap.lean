import ScriptCore.NameMap

/-!
# Maps with one binding for each name

A list of pairs may bind a name more than once, and then its first binding
counts.  Sorting by name keeps the first binding first.  Where each name is
bound once, the bindings are the pairs of the list, and the sorted listing
does not depend on the order in which they were made.
-/

namespace ScriptCore
namespace NameMap

variable {α β : Type} {name : String} {value : α} {pairs other : List (String × α)}

def Distinct (pairs : List (String × α)) : Prop :=
  (pairs.map (·.1)).Nodup

/-!
## Lookup
-/

theorem lookup_eq_find? (name : String) (pairs : List (String × α)) :
    pairs.lookup name = (pairs.find? fun e => name == e.1).map (·.2) := by
  induction pairs with
  | nil => rfl
  | cons e rest ih =>
      rw [List.lookup_cons, List.find?_cons, ih]
      cases name == e.1 <;> rfl

theorem lookup_eq_none_iff : pairs.lookup name = none ↔ name ∉ pairs.map (·.1) := by
  induction pairs with
  | nil => exact ⟨fun _ => List.not_mem_nil, fun _ => rfl⟩
  | cons e rest ih =>
      rw [List.lookup_cons, List.map_cons, List.mem_cons]
      by_cases heq : name = e.1
      · simp [heq]
      · have hne : (name == e.1) = false := by simpa using heq
        rw [hne]
        simpa [heq] using ih

theorem mem_of_lookup (hlookup : pairs.lookup name = some value) : (name, value) ∈ pairs := by
  induction pairs with
  | nil => cases hlookup
  | cons e rest ih =>
      rw [List.lookup_cons] at hlookup
      by_cases heq : name = e.1
      · subst heq
        rw [beq_self_eq_true] at hlookup
        cases hlookup
        exact List.mem_cons_self
      · have hne : (name == e.1) = false := by simpa using heq
        rw [hne] at hlookup
        exact List.mem_cons_of_mem e (ih hlookup)

theorem Distinct.lookup_eq_some_iff (hdistinct : Distinct pairs) :
    pairs.lookup name = some value ↔ (name, value) ∈ pairs := by
  constructor
  · exact mem_of_lookup
  · intro hmem
    induction pairs with
    | nil => cases hmem
    | cons e rest ih =>
        rw [Distinct, List.map_cons, List.nodup_cons] at hdistinct
        rw [List.lookup_cons]
        cases hmem with
        | head => rw [beq_self_eq_true]
        | tail _ hmem =>
            have hne : name ≠ e.1 := by
              intro heq
              rw [← heq] at hdistinct
              exact hdistinct.1 (List.mem_map.mpr ⟨(name, value), hmem, rfl⟩)
            have hfalse : (name == e.1) = false := by simpa using hne
            rw [hfalse]
            exact ih hdistinct.2 hmem

/-!
## New bindings
-/

theorem put_of_none (hlookup : pairs.lookup name = none) :
    put name value pairs = pairs ++ [(name, value)] := by
  induction pairs with
  | nil => rfl
  | cons e rest ih =>
      have hne : ¬ name == e.1 := by
        intro heq
        rw [List.lookup_cons, heq] at hlookup
        cases hlookup
      rw [List.lookup_cons] at hlookup
      simp only [hne] at hlookup
      rw [put, if_neg hne, ih hlookup]
      rfl

theorem insert_new {m : NameMap α} (hnew : name ∉ m.entries.map (·.1)) :
    m.insert name value = { entries := m.entries ++ [(name, value)] } := by
  rw [insert, put_of_none (lookup_eq_none_iff.mpr hnew)]

theorem mem_put {e : String × α} (hmem : e ∈ put name value pairs) :
    e = (name, value) ∨ e ∈ pairs := by
  induction pairs with
  | nil => exact Or.inl (List.mem_singleton.mp hmem)
  | cons first rest ih =>
      rw [put] at hmem
      by_cases heq : name == first.1
      · rw [if_pos heq] at hmem
        rcases List.mem_cons.mp hmem with hnew | hrest
        · exact Or.inl hnew
        · exact Or.inr (List.mem_cons_of_mem first hrest)
      · rw [if_neg heq] at hmem
        rcases List.mem_cons.mp hmem with hfirst | hrest
        · exact Or.inr (hfirst ▸ List.mem_cons_self)
        · rcases ih hrest with hnew | hold
          · exact Or.inl hnew
          · exact Or.inr (List.mem_cons_of_mem first hold)

theorem mem_foldl {insert : List β → β → List β}
    (hinsert : ∀ acc item, ∀ e ∈ insert acc item, e = item ∨ e ∈ acc) {items acc : List β} {e : β}
    (hmem : e ∈ items.foldl insert acc) : e ∈ acc ∨ e ∈ items := by
  induction items generalizing acc with
  | nil => exact Or.inl hmem
  | cons item rest ih =>
      rcases ih hmem with hinserted | hrest
      · rcases hinsert acc item e hinserted with hnew | hold
        · exact Or.inr (hnew ▸ List.mem_cons_self)
        · exact Or.inl hold
      · exact Or.inr (List.mem_cons_of_mem item hrest)

theorem mem_ofList {e : String × α} (hmem : e ∈ (ofList pairs).entries) : e ∈ pairs := by
  have hentries : pairs.foldl (fun acc e => put e.1 e.2 acc) [] = (ofList pairs).entries :=
    List.foldl_hom entries fun _ _ => rfl
  rw [← hentries] at hmem
  rcases mem_foldl (fun _ _ _ hput => mem_put hput) hmem with hempty | hpairs
  · cases hempty
  · exact hpairs

theorem get?_erase (m : NameMap α) (name other : String) :
    (m.erase name).get? other = if other = name then none else m.get? other := by
  unfold get? erase
  rw [lookup_eq_find?, lookup_eq_find?, List.find?_filter]
  by_cases heq : other = name
  · rw [if_pos heq, List.find?_eq_none.mpr, Option.map_none]
    intro e _
    simp [heq]
  · rw [if_neg heq]
    congr 2
    funext e
    by_cases he : other = e.1
    · have hne : name ≠ e.1 := fun hname => heq (he.trans hname.symm)
      simp [he, hne]
    · simp [he]

theorem Distinct.append (hdistinct : Distinct pairs) (hlookup : pairs.lookup name = none) :
    Distinct (pairs ++ [(name, value)]) := by
  unfold Distinct
  rw [List.map_append, List.map_singleton]
  apply List.nodup_append.mpr
  refine ⟨hdistinct, List.nodup_cons.mpr ⟨List.not_mem_nil, List.nodup_nil⟩, ?_⟩
  intro a ha b hb heq
  rw [List.mem_singleton.mp hb] at heq
  rw [heq] at ha
  exact lookup_eq_none_iff.mp hlookup ha

theorem Distinct.perm (hdistinct : Distinct pairs) (hperm : other.Perm pairs) : Distinct other :=
  (hperm.map _).nodup_iff.mpr hdistinct

/-!
## Sorting
-/

theorem name_le_trans (a b c : String × α) (hab : decide (a.1 ≤ b.1) = true)
    (hbc : decide (b.1 ≤ c.1) = true) : decide (a.1 ≤ c.1) = true :=
  decide_eq_true (String.le_trans (of_decide_eq_true hab) (of_decide_eq_true hbc))

theorem name_le_total (a b : String × α) :
    (decide (a.1 ≤ b.1) || decide (b.1 ≤ a.1)) = true := by
  rcases String.le_total a.1 b.1 with hab | hba
  · rw [decide_eq_true hab, Bool.true_or]
  · rw [decide_eq_true hba, Bool.or_true]

theorem sortPairs_perm (pairs : List (String × α)) : (sortPairs pairs).Perm pairs :=
  List.mergeSort_perm pairs _

theorem pairwise_sortPairs (pairs : List (String × α)) :
    (sortPairs pairs).Pairwise fun a b => a.1 ≤ b.1 := by
  have hsorted := List.pairwise_mergeSort name_le_trans name_le_total pairs
  apply hsorted.imp
  intro a b hab
  exact of_decide_eq_true hab

theorem Distinct.ascending (hdistinct : Distinct pairs) :
    ((sortPairs pairs).map (·.1)).Pairwise (· < ·) := by
  have hle : ((sortPairs pairs).map (·.1)).Pairwise (· ≤ ·) :=
    List.pairwise_map.mpr (pairwise_sortPairs pairs)
  have hne : ((sortPairs pairs).map (·.1)).Pairwise (· ≠ ·) :=
    hdistinct.perm (sortPairs_perm pairs)
  apply (hle.and hne).imp
  intro a b hab
  apply String.not_le.mp
  intro hba
  exact hab.2 (String.le_antisymm hab.1 hba)

theorem filter_sortPairs (name : String) (pairs : List (String × α)) :
    (sortPairs pairs).filter (fun e => name == e.1) = pairs.filter fun e => name == e.1 := by
  have hequal : (pairs.filter fun e => name == e.1).Pairwise
      fun a b => decide (a.1 ≤ b.1) = true := by
    apply List.pairwise_of_forall_mem_list
    intro a ha b hb
    have hname : ∀ e ∈ pairs.filter fun e => name == e.1, name = e.1 := by
      intro e he
      simpa using (List.mem_filter.mp he).2
    rw [← hname a ha, ← hname b hb]
    exact decide_eq_true (String.le_refl _)
  have hsublist : (pairs.filter fun e => name == e.1).Sublist (sortPairs pairs) :=
    List.sublist_mergeSort name_le_trans name_le_total hequal List.filter_sublist
  have hfiltered := hsublist.filter fun e => name == e.1
  rw [List.filter_filter] at hfiltered
  simp only [Bool.and_self] at hfiltered
  have hlength := ((sortPairs_perm pairs).filter fun e => name == e.1).length_eq
  exact (hfiltered.eq_of_length hlength.symm).symm

theorem lookup_sortPairs (name : String) (pairs : List (String × α)) :
    (sortPairs pairs).lookup name = pairs.lookup name := by
  rw [lookup_eq_find?, lookup_eq_find?, ← List.head?_filter, ← List.head?_filter,
    filter_sortPairs]

theorem sortNames_perm (names : List String) : (sortNames names).Perm names :=
  List.mergeSort_perm names _

theorem names_empty : ({} : NameMap α).names = [] := by
  simp [names, sortNames]

theorem get?_eq_none_iff {m : NameMap α} : m.get? name = none ↔ name ∉ m.names := by
  unfold names
  rw [(sortNames_perm _).mem_iff]
  exact lookup_eq_none_iff

theorem sortNames_eq_of_perm {names others : List String} (hperm : names.Perm others) :
    sortNames names = sortNames others := by
  have hsorted : ∀ names : List String, (sortNames names).Pairwise (· ≤ ·) := by
    intro names
    have hpairwise : (sortNames names).Pairwise fun a b => decide (a ≤ b) = true := by
      apply List.pairwise_mergeSort
      · exact fun a b c => name_le_trans (a, ()) (b, ()) (c, ())
      · exact fun a b => name_le_total (a, ()) (b, ())
    exact hpairwise.imp fun hab => of_decide_eq_true hab
  apply List.Perm.eq_of_pairwise _ (hsorted names) (hsorted others)
  · exact (sortNames_perm names).trans (hperm.trans (sortNames_perm others).symm)
  · intro a b _ _ hab hba
    exact String.le_antisymm hab hba

end NameMap
end ScriptCore
