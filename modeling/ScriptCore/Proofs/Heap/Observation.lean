import ScriptCore.Heap.Yaml
import ScriptCore.Proofs.Heap.Reach

/-!
# What an observation of a value depends on

The type, the written form, the truth and the YAML data of a value depend on
the cells that the value leads to and on nothing else in the cells of a heap.
In an acyclic heap each of them comes to an end: no way through the heap is
longer than the number of cells, so that an allowance of that many cells, or of
any more, gives one and the same outcome.
-/

namespace ScriptCore
namespace Heap

/-- The first outcome is `bottom`, and then the condition holds, or the second one is the same. -/
def Steady {ε α : Type} (bottom : ε) (p : Prop) (r s : Except ε α) : Prop :=
  r = .error bottom ∧ p ∨ s = r ∧ r ≠ .error bottom

namespace Steady

variable {ε α β : Type} {bottom : ε} {p q : Prop} {r s : Except ε α}

theorem ok (a : α) : Steady bottom p (.ok a : Except ε α) (.ok a) :=
  Or.inr ⟨rfl, nofun⟩

theorem error {e : ε} (he : e ≠ bottom) : Steady bottom p (.error e : Except ε α) (.error e) :=
  Or.inr ⟨rfl, fun heq => he (Except.error.inj heq)⟩

theorem imp (hsteady : Steady bottom p r s) (himp : p → q) : Steady bottom q r s := by
  rcases hsteady with ⟨hbottom, hp⟩ | hsame
  · exact Or.inl ⟨hbottom, himp hp⟩
  · exact Or.inr hsame

theorem bind {f g : α → Except ε β} (hsteady : Steady bottom p r s)
    (hnext : ∀ a, Steady bottom p (f a) (g a)) : Steady bottom p (r >>= f) (s >>= g) := by
  rcases hsteady with ⟨hbottom, hp⟩ | ⟨heq, hne⟩
  · subst hbottom
    exact Or.inl ⟨rfl, hp⟩
  · subst heq
    cases s with
    | ok a => exact hnext a
    | error e => exact error fun he => hne (congrArg Except.error he)

theorem ne_bottom (hsteady : Steady bottom p r s) (hp : ¬ p) : r ≠ .error bottom := by
  rcases hsteady with ⟨_, hp'⟩ | ⟨_, hne⟩
  · exact absurd hp' hp
  · exact hne

theorem eq_of_not (hsteady : Steady bottom p r s) (hp : ¬ p) : s = r := by
  rcases hsteady with ⟨_, hp'⟩ | ⟨heq, _⟩
  · exact absurd hp' hp
  · exact heq

theorem antisymm (hforth : Steady bottom p r s) (hback : Steady bottom q s r) : s = r := by
  rcases hforth with ⟨hr, _⟩ | ⟨heq, _⟩
  · rcases hback with ⟨hs, _⟩ | ⟨heq, _⟩
    · rw [hr, hs]
    · exact heq.symm
  · exact heq

end Steady

/-!
## Observers
-/

/-- The second way to read cells refines the first one on the given cells. -/
def Refines {ε α : Type} (bottom : ε) (f g : CellId → Except ε α) (cells : List CellId) : Prop :=
  ∀ c ∈ cells, f c = .error bottom ∨ g c = f c

def GivesUp {ε α : Type} (bottom : ε) (f : CellId → Except ε α) (cells : List CellId) : Prop :=
  ∃ c ∈ cells, f c = .error bottom

/-- An observer looks at the cells in the tree of a value only, and fails to come to an end only
where one of them does. -/
def Observes {ε α : Type} (bottom : ε)
    (visit visit' : (CellId → Except ε α) → Value → Except ε α) : Prop :=
  ∀ f g v, Refines bottom f g v.cells →
    Steady bottom (GivesUp bottom f v.cells) (visit f v) (visit' g v)

section Parts

variable {ε α : Type} {bottom : ε} {f g : CellId → Except ε α} {xs ys : List CellId} {cell : CellId}

theorem Refines.left (hrefines : Refines bottom f g (xs ++ ys)) : Refines bottom f g xs :=
  fun c hc => hrefines c (List.mem_append_left ys hc)

theorem Refines.right (hrefines : Refines bottom f g (xs ++ ys)) : Refines bottom f g ys :=
  fun c hc => hrefines c (List.mem_append_right xs hc)

theorem GivesUp.left (hgives : GivesUp bottom f xs) : GivesUp bottom f (xs ++ ys) := by
  rcases hgives with ⟨c, hc, hbottom⟩
  exact ⟨c, List.mem_append_left ys hc, hbottom⟩

theorem GivesUp.right (hgives : GivesUp bottom f ys) : GivesUp bottom f (xs ++ ys) := by
  rcases hgives with ⟨c, hc, hbottom⟩
  exact ⟨c, List.mem_append_right xs hc, hbottom⟩

theorem Refines.steady (hrefines : Refines bottom f g [cell]) :
    Steady bottom (GivesUp bottom f [cell]) (f cell) (g cell) := by
  have hcell : cell ∈ [cell] := List.mem_singleton.mpr rfl
  by_cases hbottom : f cell = .error bottom
  · exact Or.inl ⟨hbottom, cell, hcell, hbottom⟩
  · refine Or.inr ⟨?_, hbottom⟩
    exact (hrefines cell hcell).resolve_left hbottom

end Parts

def SameObjects (h h' : Heap) : Prop :=
  h'.functions = h.functions ∧ h'.promises = h.promises

section Observers

variable {h h' : Heap}

mutual

theorem typeVia_steady {f g : CellId → Except Panic Ty} (hsame : h.SameObjects h') :
    (v : Value) → Refines .bottomless f g v.cells →
      Steady .bottomless (GivesUp .bottomless f v.cells) (h.typeVia f v) (h'.typeVia g v)
  | .tuple _ items, hrefines => by
      rw [typeVia, typeVia]
      exact (typesVia_steady hsame items hrefines).bind fun _ => Steady.ok _
  | .alias _ name target content, hrefines => by
      rw [typeVia, typeVia]
      by_cases hmissing : target.isMissing = true
      · rw [if_pos hmissing, if_pos hmissing]
        exact (typeVia_steady hsame content hrefines).bind fun _ => Steady.ok _
      · rw [if_neg hmissing, if_neg hmissing]
        exact Steady.ok _
  | .reference cell, hrefines => by
      rw [typeVia, typeVia]
      exact (Refines.steady hrefines).bind fun _ => Steady.ok _
  | .function id, _ => by
      rw [typeVia, typeVia, functionType, functionType, hsame.1]
      exact Steady.ok _
  | .promise id, _ => by
      rw [typeVia, typeVia, promiseType, promiseType, hsame.2]
      exact Steady.ok _
  | .absent, _ => Steady.error nofun
  | .list .., _ => Steady.ok _
  | .algebraic .., _ => Steady.ok _
  | .int _, _ => Steady.ok _
  | .uint _, _ => Steady.ok _
  | .float _, _ => Steady.ok _
  | .char _, _ => Steady.ok _
  | .byte _, _ => Steady.ok _
  | .bool _, _ => Steady.ok _

theorem typesVia_steady {f g : CellId → Except Panic Ty} (hsame : h.SameObjects h') :
    (vs : List Value) → Refines .bottomless f g (Value.cellsIn vs) →
      Steady .bottomless (GivesUp .bottomless f (Value.cellsIn vs))
        (h.typesVia f vs) (h'.typesVia g vs)
  | [], _ => Steady.ok _
  | v :: rest, hrefines => by
      rw [typesVia, typesVia]
      refine ((typeVia_steady hsame v hrefines.left).imp GivesUp.left).bind fun _ => ?_
      refine ((typesVia_steady hsame rest hrefines.right).imp GivesUp.right).bind fun _ => ?_
      exact Steady.ok _

end

mutual

theorem displayVia_steady {f g : CellId → Except Panic String} (hsame : h.SameObjects h') :
    (v : Value) → Refines .bottomless f g v.cells →
      Steady .bottomless (GivesUp .bottomless f v.cells) (h.displayVia f v) (h'.displayVia g v)
  | .list _ element items, hrefines => by
      rw [displayVia, displayVia]
      by_cases htext : Value.isTextList element items = true
      · rw [if_pos htext, if_pos htext]
        exact Steady.ok _
      · rw [if_neg htext, if_neg htext]
        exact (displayAllVia_steady hsame items hrefines).bind fun _ => Steady.ok _
  | .tuple _ items, hrefines => by
      rw [displayVia, displayVia]
      exact (displayAllVia_steady hsame items hrefines).bind fun _ => Steady.ok _
  | .algebraic _ shape fields, hrefines => by
      rw [displayVia, displayVia]
      exact (displayFieldsVia_steady hsame fields hrefines).bind fun _ => Steady.ok _
  | .alias _ name _ content, hrefines => by
      rw [displayVia, displayVia]
      by_cases hmissing : name.isMissing = true
      · rw [if_pos hmissing, if_pos hmissing]
        exact Steady.error nofun
      · rw [if_neg hmissing, if_neg hmissing]
        exact (displayVia_steady hsame content hrefines).bind fun _ => Steady.ok _
  | .reference cell, hrefines => by
      rw [displayVia, displayVia]
      exact (Refines.steady hrefines).bind fun _ => Steady.ok _
  | .function id, _ => by
      rw [displayVia, displayVia, functionText, functionText, hsame.1]
      exact Steady.ok _
  | .promise id, _ => by
      rw [displayVia, displayVia, promiseText, promiseText, hsame.2]
      exact Steady.ok _
  | .absent, _ => Steady.error nofun
  | .int _, _ => Steady.ok _
  | .uint _, _ => Steady.ok _
  | .float _, _ => Steady.ok _
  | .char _, _ => Steady.ok _
  | .byte _, _ => Steady.ok _
  | .bool _, _ => Steady.ok _

theorem displayAllVia_steady {f g : CellId → Except Panic String} (hsame : h.SameObjects h') :
    (vs : List Value) → Refines .bottomless f g (Value.cellsIn vs) →
      Steady .bottomless (GivesUp .bottomless f (Value.cellsIn vs))
        (h.displayAllVia f vs) (h'.displayAllVia g vs)
  | [], _ => Steady.ok _
  | v :: rest, hrefines => by
      rw [displayAllVia, displayAllVia]
      refine ((displayVia_steady hsame v hrefines.left).imp GivesUp.left).bind fun _ => ?_
      refine ((displayAllVia_steady hsame rest hrefines.right).imp GivesUp.right).bind fun _ => ?_
      exact Steady.ok _

theorem displayFieldsVia_steady {f g : CellId → Except Panic String} (hsame : h.SameObjects h') :
    (fs : List (String × Value)) → Refines .bottomless f g (Value.cellsInFields fs) →
      Steady .bottomless (GivesUp .bottomless f (Value.cellsInFields fs))
        (h.displayFieldsVia f fs) (h'.displayFieldsVia g fs)
  | [], _ => Steady.ok _
  | (_, v) :: rest, hrefines => by
      rw [displayFieldsVia, displayFieldsVia]
      refine ((displayVia_steady hsame v hrefines.left).imp GivesUp.left).bind fun _ => ?_
      have hrest := displayFieldsVia_steady hsame rest hrefines.right
      exact (hrest.imp GivesUp.right).bind fun _ => Steady.ok _

end

theorem truthVia_steady {f g : CellId → Except Panic Bool} :
    (v : Value) → Refines .bottomless f g v.cells →
      Steady .bottomless (GivesUp .bottomless f v.cells) (truthVia f v) (truthVia g v)
  | .alias _ _ _ content, hrefines => truthVia_steady content hrefines
  | .reference _, hrefines => Refines.steady hrefines
  | .function _, _ => Steady.ok _
  | .promise _, _ => Steady.ok _
  | .absent, _ => Steady.ok _
  | .list .., _ => Steady.ok _
  | .tuple .., _ => Steady.ok _
  | .algebraic .., _ => Steady.ok _
  | .int _, _ => Steady.ok _
  | .uint _, _ => Steady.ok _
  | .float _, _ => Steady.ok _
  | .char _, _ => Steady.ok _
  | .byte _, _ => Steady.ok _
  | .bool _, _ => Steady.ok _

mutual

theorem yamlVia_steady {f g : CellId → Except Failure Yaml} :
    (v : Value) → Refines (.panic .bottomless) f g v.cells →
      Steady (.panic .bottomless) (GivesUp (.panic .bottomless) f v.cells)
        (yamlVia f v) (yamlVia g v)
  | .list _ element items, hrefines => by
      rw [yamlVia, yamlVia]
      by_cases htext : Value.isTextList element items = true
      · rw [if_pos htext, if_pos htext]
        exact Steady.ok _
      · rw [if_neg htext, if_neg htext]
        exact (yamlAllVia_steady items hrefines).bind fun _ => Steady.ok _
  | .tuple _ items, hrefines => by
      rw [yamlVia, yamlVia]
      exact (yamlAllVia_steady items hrefines).bind fun _ => Steady.ok _
  | .algebraic _ shape fields, hrefines => by
      rw [yamlVia, yamlVia]
      exact (yamlFieldsVia_steady fields hrefines).bind fun _ => Steady.ok _
  | .alias _ _ _ content, hrefines => yamlVia_steady content hrefines
  | .reference _, hrefines => Refines.steady hrefines
  | .function _, _ => Steady.error nofun
  | .promise _, _ => Steady.error nofun
  | .absent, _ => Steady.error nofun
  | .int _, _ => Steady.ok _
  | .uint _, _ => Steady.ok _
  | .float _, _ => Steady.ok _
  | .char _, _ => Steady.ok _
  | .byte _, _ => Steady.ok _
  | .bool _, _ => Steady.ok _

theorem yamlAllVia_steady {f g : CellId → Except Failure Yaml} :
    (vs : List Value) → Refines (.panic .bottomless) f g (Value.cellsIn vs) →
      Steady (.panic .bottomless) (GivesUp (.panic .bottomless) f (Value.cellsIn vs))
        (yamlAllVia f vs) (yamlAllVia g vs)
  | [], _ => Steady.ok _
  | v :: rest, hrefines => by
      rw [yamlAllVia, yamlAllVia]
      refine ((yamlVia_steady v hrefines.left).imp GivesUp.left).bind fun _ => ?_
      refine ((yamlAllVia_steady rest hrefines.right).imp GivesUp.right).bind fun _ => ?_
      exact Steady.ok _

theorem yamlFieldsVia_steady {f g : CellId → Except Failure Yaml} :
    (fs : List (String × Value)) → Refines (.panic .bottomless) f g (Value.cellsInFields fs) →
      Steady (.panic .bottomless) (GivesUp (.panic .bottomless) f (Value.cellsInFields fs))
        (yamlFieldsVia f fs) (yamlFieldsVia g fs)
  | [], _ => Steady.ok _
  | (_, v) :: rest, hrefines => by
      rw [yamlFieldsVia, yamlFieldsVia]
      refine ((yamlVia_steady v hrefines.left).imp GivesUp.left).bind fun _ => ?_
      refine ((yamlFieldsVia_steady rest hrefines.right).imp GivesUp.right).bind fun _ => ?_
      exact Steady.ok _

end

end Observers

/-!
## Following references
-/

/-- No way from the value through the heap visits more cells than that. -/
def Within (h : Heap) : Nat → Value → Prop
  | 0, v => v.cells = []
  | n + 1, v => ∀ c ∈ v.cells, h.Within n (h.load c)

variable {ε α : Type} {bottom : ε} {h h' : Heap} {v : Value}

/-- A greater allowance, in a heap with the same contents of the cells that the value leads to,
changes an outcome only if the allowance was too small. -/
theorem follow_steady {visit visit' : (CellId → Except ε α) → Value → Except ε α}
    (hobserves : Observes bottom visit visit') {n m : Nat} (hle : n ≤ m)
    (hsame : ∀ c, h.Leads v c → h'.load c = h.load c) :
    Steady bottom (¬ h.Within n v) (h.follow bottom visit n v) (h'.follow bottom visit' m v) := by
  induction n generalizing m v with
  | zero =>
      have hempty : GivesUp bottom (fun _ => (.error bottom : Except ε α)) v.cells →
          ¬ h.Within 0 v := by
        rintro ⟨c, hc, _⟩ hwithin
        have hnil : v.cells = [] := hwithin
        rw [hnil] at hc
        cases hc
      cases m with
      | zero => exact (hobserves _ _ v fun _ _ => Or.inl rfl).imp hempty
      | succ m => exact (hobserves _ _ v fun _ _ => Or.inl rfl).imp hempty
  | succ n ih =>
      cases m with
      | zero => omega
      | succ m =>
          -- each cell in the tree has one visit less to go
          have hcell : ∀ c ∈ v.cells, Steady bottom (¬ h.Within n (h.load c))
              (h.follow bottom visit n (h.load c)) (h'.follow bottom visit' m (h'.load c)) := by
            intro c hc
            rw [hsame c (Leads.here hc)]
            apply ih (Nat.le_of_succ_le_succ hle)
            intro k hk
            exact hsame k (Leads.through hc hk)
          have hrefines : Refines bottom (fun c => h.follow bottom visit n (h.load c))
              (fun c => h'.follow bottom visit' m (h'.load c)) v.cells := by
            intro c hc
            rcases hcell c hc with ⟨hbottom, _⟩ | ⟨heq, _⟩
            · exact Or.inl hbottom
            · exact Or.inr heq
          apply (hobserves _ _ v hrefines).imp
          rintro ⟨c, hc, hbottom⟩ hwithin
          exact (hcell c hc).ne_bottom (fun hnot => hnot (hwithin c hc)) hbottom

theorem follow_store {visit visit' : (CellId → Except ε α) → Value → Except ε α}
    (hforth : Observes bottom visit visit') (hback : Observes bottom visit' visit) (n : Nat)
    {k : CellId} (x : Value) (hunreached : ¬ h.Leads v k) :
    (h.store k x).follow bottom visit' n v = h.follow bottom visit n v := by
  have hsame : ∀ c, h.Leads v c → (h.store k x).load c = h.load c :=
    fun _ hc => load_store_of_not_leads x hunreached hc
  apply Steady.antisymm (follow_steady hforth (Nat.le_refl n) hsame)
  apply follow_steady hback (Nat.le_refl n)
  intro c hc
  rw [hsame c (hc.carried_back hsame)]

theorem display_store {k : CellId} (x : Value) (hunreached : ¬ h.Leads v k) :
    (h.store k x).display v = h.display v := by
  have hobjects : h.SameObjects (h.store k x) := ⟨rfl, rfl⟩
  unfold display explore
  rw [size_cells_store h k x]
  apply follow_store _ _ _ x hunreached
  · intro f g v hrefines
    exact displayVia_steady hobjects v hrefines
  · intro f g v hrefines
    exact displayVia_steady ⟨hobjects.1.symm, hobjects.2.symm⟩ v hrefines

/-!
## Acyclic heaps
-/

theorem length_le_size {visited : List CellId} (hnodup : visited.Nodup)
    (hlt : ∀ c ∈ visited, c < h.cells.size) : visited.length ≤ h.cells.size := by
  have hsubset : visited ⊆ List.range h.cells.size := by
    intro c hc
    exact List.mem_range.mpr (hlt c hc)
  have hle := hnodup.length_le_of_subset hsubset
  rwa [List.length_range] at hle

theorem Acyclic.within (hacyclic : h.Acyclic) (hclosed : h.Closed) (hlive : h.Live v) :
    h.Within h.cells.size v := by
  -- the cells that were visited on the way to a value are not visited again
  have hway : ∀ n v (visited : List CellId), h.Live v → visited.Nodup →
      (∀ c ∈ visited, c < h.cells.size) → (∀ c ∈ visited, ¬ h.Leads v c) →
      h.cells.size ≤ visited.length + n → h.Within n v := by
    intro n
    induction n with
    | zero =>
        intro v visited hlive hnodup hlt hnew hsize
        apply List.eq_nil_iff_forall_not_mem.mpr
        intro c hc
        have hfresh : c ∉ visited := fun hmem => hnew c hmem (Leads.here hc)
        have hmore : (c :: visited).length ≤ h.cells.size := by
          apply length_le_size (List.nodup_cons.mpr ⟨hfresh, hnodup⟩)
          intro k hk
          rcases List.mem_cons.mp hk with heq | hmem
          · rw [heq]
            exact Live.lt_of_mem_cells v hlive hc
          · exact hlt k hmem
        rw [List.length_cons] at hmore
        omega
    | succ n ih =>
        intro v visited hlive hnodup hlt hnew hsize c hc
        have hfresh : c ∉ visited := fun hmem => hnew c hmem (Leads.here hc)
        apply ih (h.load c) (c :: visited) (hclosed c) (List.nodup_cons.mpr ⟨hfresh, hnodup⟩)
        · intro k hk
          rcases List.mem_cons.mp hk with heq | hmem
          · rw [heq]
            exact Live.lt_of_mem_cells v hlive hc
          · exact hlt k hmem
        · intro k hk hleads
          rcases List.mem_cons.mp hk with heq | hmem
          · rw [heq] at hleads
            exact hacyclic c hleads
          · exact hnew k hmem (Leads.through hc hleads)
        · rw [List.length_cons]
          omega
  apply hway h.cells.size v [] hlive List.nodup_nil
  · intro c hc
    cases hc
  · intro c hc
    cases hc
  · simp

/-- The observation comes to an end: with an allowance for every cell of the heap it does not fail
for the want of a greater one, and a greater one gives the same outcome. -/
def Ends (h : Heap) (bottom : ε) (visit : (CellId → Except ε α) → Value → Except ε α)
    (v : Value) : Prop :=
  h.follow bottom visit h.cells.size v ≠ .error bottom ∧
    ∀ depth, h.cells.size ≤ depth →
      h.follow bottom visit depth v = h.follow bottom visit h.cells.size v

theorem Within.ends {visit : (CellId → Except ε α) → Value → Except ε α}
    (hwithin : h.Within h.cells.size v) (hobserves : Observes bottom visit visit) :
    h.Ends bottom visit v := by
  have hsteady : ∀ m, h.cells.size ≤ m → Steady bottom (¬ h.Within h.cells.size v)
      (h.follow bottom visit h.cells.size v) (h.follow bottom visit m v) := by
    intro m hle
    exact follow_steady hobserves hle fun _ _ => rfl
  constructor
  · exact (hsteady _ (Nat.le_refl _)).ne_bottom (not_not_intro hwithin)
  · intro depth hle
    exact (hsteady depth hle).eq_of_not (not_not_intro hwithin)

/-- Every way to look at the value comes to an end. -/
structure Observable (h : Heap) (v : Value) : Prop where
  type : h.Ends .bottomless h.typeVia v
  display : h.Ends .bottomless h.displayVia v
  truth : h.Ends .bottomless truthVia v
  yaml : h.Ends (.panic .bottomless) yamlVia v

theorem Acyclic.observable (hacyclic : h.Acyclic) (hclosed : h.Closed) (hlive : h.Live v) :
    h.Observable v := by
  have hwithin := hacyclic.within hclosed hlive
  constructor
  · apply hwithin.ends
    intro f g v hrefines
    exact typeVia_steady ⟨rfl, rfl⟩ v hrefines
  · apply hwithin.ends
    intro f g v hrefines
    exact displayVia_steady ⟨rfl, rfl⟩ v hrefines
  · apply hwithin.ends
    intro f g v hrefines
    exact truthVia_steady v hrefines
  · apply hwithin.ends
    intro f g v hrefines
    exact yamlVia_steady v hrefines

end Heap
end ScriptCore
