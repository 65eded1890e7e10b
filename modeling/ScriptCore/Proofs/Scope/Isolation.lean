import ScriptCore.Proofs.Heap.Observation
import ScriptCore.Proofs.NameMap
import ScriptCore.Proofs.World.Command
import ScriptCore.Proofs.World.Variable

/-!
# What a detached scope shares

A detached scope gets snapshots of the mutable variables and the immutable
variables as they are.  A snapshot refers to no cell, so the cells that are
reachable from both sides are exactly those that the visible immutable
variables lead to.  Where there are none, nothing that is stored on one side
is ever seen on the other one; an immutable tuple of references is enough to
break this.
-/

namespace ScriptCore

namespace NameMap

variable {α : Type} {m : NameMap α} {name : String}

def addNew (m : NameMap α) (e : String × α) : NameMap α :=
  if m.contains e.1 then m else m.insert e.1 e.2

theorem get?_addNew (m : NameMap α) (e : String × α) (name : String) :
    (m.addNew e).get? name = (m.get? name).or (if name = e.1 then some e.2 else none) := by
  unfold addNew
  cases hbound : m.get? e.1 with
  | none =>
      rw [if_neg (not_contains_of_none hbound), get?_insert]
      by_cases heq : name = e.1
      · rw [if_pos heq, heq, hbound, if_pos rfl, Option.none_or]
      · rw [if_neg heq, if_neg heq, Option.or_none]
  | some old =>
      rw [if_pos (contains_of_some hbound)]
      by_cases heq : name = e.1
      · rw [heq, hbound, Option.some_or]
      · rw [if_neg heq, Option.or_none]

theorem Distinct.addNew (hdistinct : Distinct m.entries) (e : String × α) :
    Distinct (m.addNew e).entries := by
  unfold NameMap.addNew
  cases hbound : m.get? e.1 with
  | none =>
      have hlookup : m.entries.lookup e.1 = none := hbound
      rw [if_neg (not_contains_of_none hbound), insert, put_of_none hlookup]
      exact hdistinct.append hlookup
  | some old =>
      rw [if_pos (contains_of_some hbound)]
      exact hdistinct

theorem get?_foldl_addNew (pairs : List (String × α)) (m : NameMap α) (name : String) :
    (pairs.foldl addNew m).get? name = (m.get? name).or (pairs.lookup name) := by
  induction pairs generalizing m with
  | nil => rw [List.foldl_nil, List.lookup_nil, Option.or_none]
  | cons e rest ih =>
      rw [List.foldl_cons, ih, get?_addNew, Option.or_assoc, List.lookup_cons]
      by_cases heq : name = e.1
      · rw [if_pos heq, heq, beq_self_eq_true, Option.some_or]
      · have hne : (name == e.1) = false := by simpa using heq
        rw [if_neg heq, hne, Option.none_or]

theorem Distinct.foldl_addNew (pairs : List (String × α)) (hdistinct : Distinct m.entries) :
    Distinct (pairs.foldl NameMap.addNew m).entries := by
  induction pairs generalizing m with
  | nil => exact hdistinct
  | cons e rest ih => exact ih (hdistinct.addNew e)

end NameMap

namespace World

variable {w w' w₁ : World} {scope : Option ScopeId} {d : ScopeId} {name : String}
variable {id id' : VariableId} {cell : CellId}

/-!
## Visible variables
-/

theorem get?_nearest (scopes : List Scope) (found : NameMap VariableId) (name : String) :
    (nearest scopes found).get? name =
      (found.get? name).or (scopes.findSome? fun s => s.bindings.get? name) := by
  induction scopes generalizing found with
  | nil => rw [nearest, List.findSome?_nil, Option.or_none]
  | cons s rest ih =>
      have hadd := NameMap.get?_foldl_addNew s.bindings.toSorted found name
      rw [NameMap.toSorted, NameMap.lookup_sortPairs] at hadd
      refine (ih _).trans ?_
      rw [List.findSome?_cons]
      refine (congrArg (Option.or · _) hadd).trans ?_
      rw [Option.or_assoc]
      cases hget : s.bindings.entries.lookup name <;> simp [NameMap.get?, hget]

theorem distinct_nearest (scopes : List Scope) {found : NameMap VariableId}
    (hdistinct : NameMap.Distinct found.entries) :
    NameMap.Distinct (nearest scopes found).entries := by
  induction scopes generalizing found with
  | nil => exact hdistinct
  | cons s rest ih => exact ih (hdistinct.foldl_addNew s.bindings.toSorted)

theorem mem_nearest_iff :
    (name, id) ∈ (nearest (w.scopeChain scope) {}).entries ↔ w.find? scope name = some id := by
  have hdistinct : NameMap.Distinct (nearest (w.scopeChain scope) {}).entries :=
    distinct_nearest _ List.nodup_nil
  have hget : (nearest (w.scopeChain scope) {}).entries.lookup name = w.find? scope name :=
    (get?_nearest (w.scopeChain scope) {} name).trans Option.none_or
  rw [← hdistinct.lookup_eq_some_iff, hget]

/-!
## Snapshots
-/

/-- The second world has the same cells.  It may have more variables, which refer to no cell. -/
structure Later (w w₁ : World) : Prop where
  cells : w₁.heap.cells = w.heap.cells
  vars : ∀ (id : VariableId) (v : Variable), w.vars[id]? = some v → w₁.vars[id]? = some v
  fresh : ∀ (id : VariableId) (u : Variable), w₁.vars[id]? = some u →
    w.vars[id]? = some u ∨ w.vars[id]? = none ∧ u.slot.cells = []

theorem Later.refl (w : World) : w.Later w where
  cells := rfl
  vars _ _ hv := hv
  fresh _ _ hu := Or.inl hu

theorem Later.trans (first : w.Later w₁) (second : w₁.Later w') : w.Later w' where
  cells := second.cells.trans first.cells
  vars id v hv := second.vars id v (first.vars id v hv)
  fresh id u hu := by
    rcases second.fresh id u hu with hold | ⟨hnone, hcells⟩
    · exact first.fresh id u hold
    · refine Or.inr ⟨?_, hcells⟩
      cases hv : w.vars[id]? with
      | none => rfl
      | some v =>
          rw [first.vars id v hv] at hnone
          cases hnone

theorem Later.withScopes (w : World) (scopes : Array Scope) : w.Later { w with scopes } where
  cells := rfl
  vars _ _ hv := hv
  fresh _ _ hu := Or.inl hu

theorem Later.leads_iff (hlater : w.Later w') {x : Value} :
    w'.heap.Leads x cell ↔ w.heap.Leads x cell :=
  Heap.leads_iff_of_cells_eq hlater.cells

/-- What the second variable is for the first one: itself if it was immutable, and a variable that
refers to no cell otherwise. -/
inductive FrozenAs (w w₁ : World) (id : VariableId) : VariableId → Prop where
  | shared {v : Variable} (hv : w.vars[id]? = some v) (hplain : v.slot.isReference = false) :
      FrozenAs w w₁ id id
  | apart {id' : VariableId} {u : Variable} (hu : w₁.vars[id']? = some u)
      (hcells : u.slot.cells = [])
      (hmutable : ∀ v, w.vars[id]? = some v → v.slot.isReference = true) : FrozenAs w w₁ id id'

theorem FrozenAs.later (hfrozen : FrozenAs w w₁ id id') (hlater : w₁.Later w') :
    FrozenAs w w' id id' := by
  cases hfrozen with
  | shared hv hplain => exact FrozenAs.shared hv hplain
  | apart hu hcells hmutable => exact FrozenAs.apart (hlater.vars _ _ hu) hcells hmutable

theorem FrozenAs.earlier (hfrozen : FrozenAs w₁ w' id id') (hlater : w.Later w₁)
    (hrest : w₁.Later w') : FrozenAs w w' id id' := by
  cases hfrozen with
  | @shared v hv hplain =>
      rcases hlater.fresh id v hv with hold | ⟨hnone, hcells⟩
      · exact FrozenAs.shared hold hplain
      · apply FrozenAs.apart (hrest.vars id v hv) hcells
        intro u hu
        rw [hnone] at hu
        cases hu
  | apart hu hcells hmutable =>
      apply FrozenAs.apart hu hcells
      intro v hv
      exact hmutable v (hlater.vars id v hv)

theorem run_isMutable {v : Variable} (hv : w.vars[id]? = some v) :
    (isMutable id).run w = (.ok v.slot.isReference, w) := by
  unfold isMutable
  rw [Op.run_bind, run_slot hv, Op.next_ok, Op.run_pure]

theorem later_snapshot {v : Variable} {x : Value} {h : Heap}
    (hcopy : (Heap.copyContent v.slot).run w.heap = .ok (x, h)) (declared : Ty) :
    w.Later { w with heap := h, vars := w.vars.push { declared, slot := x } } where
  cells := (Heap.copyContent_cells hcopy).2
  vars id u hu := by
    have hid : id < w.vars.size := (Array.getElem?_eq_some_iff.mp hu).1
    change (w.vars.push _)[id]? = some u
    rw [Array.getElem?_push, if_neg (Nat.ne_of_lt hid), hu]
  fresh id u hu := by
    change (w.vars.push _)[id]? = some u at hu
    rw [Array.getElem?_push] at hu
    by_cases hid : id = w.vars.size
    · rw [if_pos hid] at hu
      cases hu
      refine Or.inr ⟨?_, (Heap.copyContent_cells hcopy).1⟩
      rw [hid]
      exact Array.getElem?_size
    · rw [if_neg hid] at hu
      exact Or.inl hu

theorem frozenCopy_ok (hrun : (frozenCopy name id).run w = (.ok id', w')) :
    w.Later w' ∧ w'.scopes = w.scopes ∧ FrozenAs w w' id id' := by
  unfold frozenCopy at hrun
  cases hv : w.vars[id]? with
  | none =>
      unfold isMutable at hrun
      rw [Op.run_bind, Op.run_bind, run_slot_none hv] at hrun
      cases hrun
  | some v =>
      rw [Op.run_bind, run_isMutable hv, Op.next_ok] at hrun
      cases hslot : v.slot.isReference with
      | false =>
          rw [hslot] at hrun
          cases hrun
          exact ⟨Later.refl w, rfl, FrozenAs.shared hv hslot⟩
      | true =>
          rw [hslot, if_pos rfl] at hrun
          rcases Op.withName_cases hrun with ⟨_, _, hf⟩ | ⟨_, hsnapshot, hok⟩
          · cases hf
          cases hok
          rcases snapshot_cases hv hsnapshot with ⟨_, _, hf, _⟩ | ⟨x, h, hcopy, hok, hw⟩
          · cases hf
          cases hok
          subst hw
          refine ⟨later_snapshot hcopy v.declared, rfl, ?_⟩
          apply FrozenAs.apart Array.getElem?_push_size (Heap.copyContent_cells hcopy).1
          intro u hu
          rw [hv] at hu
          cases hu
          exact hslot

theorem copies_ok (visible : List (String × VariableId)) {copies : List (String × VariableId)}
    (hrun : (visible.mapM fun e => do return (e.1, ← frozenCopy e.1 e.2) :
      Op (List (String × VariableId))).run w = (.ok copies, w')) :
    w.Later w' ∧ w'.scopes = w.scopes ∧
      (∀ c ∈ copies, ∃ e ∈ visible, FrozenAs w w' e.2 c.2) ∧
      ∀ e ∈ visible, ∃ c ∈ copies, FrozenAs w w' e.2 c.2 := by
  -- the world changes from copy to copy; what a variable is frozen as does not
  induction visible generalizing w copies with
  | nil =>
      rw [List.mapM_nil] at hrun
      cases hrun
      exact ⟨Later.refl _, rfl, (fun c hc => nomatch hc), fun e he => nomatch he⟩
  | cons e rest ih =>
      rw [List.mapM_cons] at hrun
      rcases Op.bind_cases hrun with ⟨_, _, hf⟩ | ⟨c, w₁, hfirst, hrun⟩
      · cases hf
      rcases Op.bind_cases hrun with ⟨_, _, hf⟩ | ⟨cs, w₂, hrest, hrun⟩
      · cases hf
      cases hrun
      rcases Op.bind_cases hfirst with ⟨_, _, hf⟩ | ⟨id', w₂, hcopy, hpure⟩
      · cases hf
      cases hpure
      rcases frozenCopy_ok hcopy with ⟨hlater, hscopes, hfrozen⟩
      rcases ih hrest with ⟨hrestLater, hrestScopes, hforth, hback⟩
      have hhead := hfrozen.later hrestLater
      refine ⟨hlater.trans hrestLater, hrestScopes.trans hscopes, ?_, ?_⟩
      · intro c hc
        cases hc with
        | head => exact ⟨e, List.mem_cons_self, hhead⟩
        | tail _ hc =>
            rcases hforth c hc with ⟨e', he', hfrozen'⟩
            exact ⟨e', List.mem_cons_of_mem e he', hfrozen'.earlier hlater hrestLater⟩
      · intro e' he'
        cases he' with
        | head => exact ⟨_, List.mem_cons_self, hhead⟩
        | tail _ he' =>
            rcases hback e' he' with ⟨c, hc, hfrozen'⟩
            exact ⟨c, List.mem_cons_of_mem _ hc, hfrozen'.earlier hlater hrestLater⟩

theorem setIfInBounds_push (scopes : Array Scope) (s new : Scope) :
    (scopes.push s).setIfInBounds scopes.size new = scopes.push new := by
  apply Array.ext_getElem?
  intro i
  rw [Array.getElem?_setIfInBounds, Array.getElem?_push, Array.getElem?_push, Array.size_push]
  by_cases hi : i = scopes.size
  · rw [hi, if_pos rfl, if_pos (Nat.lt_succ_self _), if_pos rfl]
  · rw [if_neg (Ne.symm hi), if_neg hi, if_neg hi]

theorem detached_ok (hrun : (detached scope).run w = (.ok d, w')) :
    ∃ copies, d = w.scopes.size ∧
      w'.scopes = w.scopes.push { bindings := { entries := copies } } ∧ w.Later w' ∧
      (∀ c ∈ copies, ∃ e ∈ (nearest (w.scopeChain scope) {}).entries, FrozenAs w w' e.2 c.2) ∧
      ∀ e ∈ (nearest (w.scopeChain scope) {}).entries, ∃ c ∈ copies, FrozenAs w w' e.2 c.2 := by
  unfold detached at hrun
  rw [Op.run_bind, Op.run_get, Op.next_ok] at hrun
  rcases Op.bind_cases hrun with ⟨_, _, hf⟩ | ⟨copies, w₁, hcopies, hrun⟩
  · cases hf
  rcases copies_ok _ hcopies with ⟨hlater, hscopes, hforth, hback⟩
  cases hrun
  have hadded := Later.withScopes w₁ ((w₁.scopes.push {}).setIfInBounds w₁.scopes.size
    { bindings := { entries := copies } })
  refine ⟨copies, congrArg Array.size hscopes, ?_, hlater.trans hadded, ?_, ?_⟩
  · rw [← hscopes]
    exact setIfInBounds_push w₁.scopes {} _
  · intro c hc
    rcases hforth c hc with ⟨e, he, hfrozen⟩
    exact ⟨e, he, hfrozen.later hadded⟩
  · intro e he
    rcases hback e he with ⟨c, hc, hfrozen⟩
    exact ⟨c, hc, hfrozen.later hadded⟩

/-!
## Reachable cells
-/

/-- The value is in the slot of a variable that is bound in the scope or around it, be it shadowed
or not. -/
def Bound (w : World) (scope : Option ScopeId) (x : Value) : Prop :=
  ∃ s ∈ w.scopeChain scope, ∃ e ∈ s.bindings.entries, ∃ v,
    w.vars[e.2]? = some v ∧ x = v.slot

/-- The cell is reachable from a value that is bound in the scope or around it. -/
def Reached (w : World) (scope : Option ScopeId) (cell : CellId) : Prop :=
  ∃ x, w.Bound scope x ∧ w.heap.Leads x cell

def Isolated (w : World) (s d : Option ScopeId) : Prop :=
  ∀ cell, ¬ (w.Reached s cell ∧ w.Reached d cell)

def Exposed (w : World) (scope : Option ScopeId) (cell : CellId) : Prop :=
  ∃ name id v, w.find? scope name = some id ∧ w.vars[id]? = some v ∧
    v.slot.isReference = false ∧ w.heap.Leads v.slot cell

/-- Whatever is stored in cells of the first scope, all that is bound in the second one is written
as before. -/
def Shielded (w : World) (writer reader : Option ScopeId) : Prop :=
  ∀ stores : List (CellId × Value), (∀ e ∈ stores, w.Reached writer e.1) →
    ∀ x, w.Bound reader x →
      (stores.foldl (fun h e => h.store e.1 e.2) w.heap).display x = w.heap.display x

theorem display_foldl_store {h : Heap} {x : Value} (stores : List (CellId × Value))
    (hunreached : ∀ e ∈ stores, ¬ h.Leads x e.1) :
    (stores.foldl (fun h e => h.store e.1 e.2) h).display x = h.display x := by
  induction stores generalizing h with
  | nil => rfl
  | cons e rest ih =>
      have hfirst := hunreached e List.mem_cons_self
      rw [List.foldl_cons, ih, Heap.display_store e.2 hfirst]
      intro e' he'
      rw [Heap.leads_store_of_not_leads e.2 hfirst]
      exact hunreached e' (List.mem_cons_of_mem e he')

theorem Isolated.shielded {s r : Option ScopeId} (hisolated : w.Isolated s r) :
    w.Shielded s r := by
  intro stores hstores x hx
  apply display_foldl_store
  intro e he hleads
  exact hisolated e.1 ⟨hstores e he, x, hx, hleads⟩

theorem Isolated.symm {s r : Option ScopeId} (hisolated : w.Isolated s r) : w.Isolated r s :=
  fun cell hboth => hisolated cell ⟨hboth.2, hboth.1⟩

theorem mem_chain {s : Scope} {fuel fuel' : Nat}
    (hscopes : ∀ (id : ScopeId) (s : Scope), w.scopes[id]? = some s → w'.scopes[id]? = some s)
    (hle : fuel ≤ fuel') (hmem : s ∈ w.chain fuel scope) : s ∈ w'.chain fuel' scope := by
  induction fuel generalizing fuel' scope with
  | zero => cases hmem
  | succ n ih =>
      cases fuel' with
      | zero => cases hle
      | succ m =>
          cases scope with
          | none => cases hmem
          | some id =>
              rw [chain] at hmem ⊢
              cases hs : w.scopes[id]? with
              | none =>
                  rw [hs] at hmem
                  cases hmem
              | some found =>
                  rw [hs] at hmem
                  rw [hscopes id found hs]
                  cases hmem with
                  | head => exact List.mem_cons_self
                  | tail _ hmem =>
                      exact List.mem_cons_of_mem _ (ih (Nat.le_of_succ_le_succ hle) hmem)

theorem bound_of_find? {v : Variable} (hfind : w.find? scope name = some id)
    (hv : w.vars[id]? = some v) : w.Bound scope v.slot := by
  rcases List.exists_of_findSome?_eq_some hfind with ⟨s, hs, hget⟩
  exact ⟨s, hs, (name, id), NameMap.mem_of_lookup hget, v, hv, rfl⟩

/-!
## Detached scopes
-/

theorem scopeChain_pushed {copies : List (String × VariableId)}
    (hscopes : w'.scopes = w.scopes.push { bindings := { entries := copies } }) :
    w'.scopeChain (some w.scopes.size) = [{ bindings := { entries := copies } }] := by
  unfold scopeChain
  rw [hscopes, Array.size_push, chain, hscopes, Array.getElem?_push_size]
  cases w.scopes.size <;> rfl

theorem bound_pushed {copies : List (String × VariableId)} {x : Value}
    (hscopes : w'.scopes = w.scopes.push { bindings := { entries := copies } }) :
    w'.Bound (some w.scopes.size) x ↔
      ∃ c ∈ copies, ∃ v, w'.vars[c.2]? = some v ∧ x = v.slot := by
  unfold Bound
  rw [scopeChain_pushed hscopes]
  simp

theorem reached_detached_iff (hrun : (detached scope).run w = (.ok d, w')) :
    w'.Reached (some d) cell ↔ w.Exposed scope cell := by
  rcases detached_ok hrun with ⟨copies, hd, hscopes, hlater, hforth, hback⟩
  subst hd
  -- a copy of a mutable variable leads nowhere, so only shared variables count in both directions
  constructor
  · rintro ⟨x, hx, hleads⟩
    rcases (bound_pushed hscopes).mp hx with ⟨c, hc, u, hu, rfl⟩
    rcases hforth c hc with ⟨⟨name, id⟩, he, hfrozen⟩
    generalize hid : c.2 = id' at hu hfrozen
    cases hfrozen with
    | @shared v hv hplain =>
        rw [hlater.vars _ v hv] at hu
        cases hu
        exact ⟨name, _, _, mem_nearest_iff.mp he, hv, hplain, hlater.leads_iff.mp hleads⟩
    | apart hu' hcells _ =>
        rw [hu'] at hu
        cases hu
        exact absurd hleads (Heap.not_leads_of_no_cells hcells)
  · rintro ⟨name, id, v, hfind, hv, hplain, hleads⟩
    rcases hback (name, id) (mem_nearest_iff.mpr hfind) with ⟨c, hc, hfrozen⟩
    generalize hid : c.2 = id' at hfrozen
    cases hfrozen with
    | shared _ _ =>
        refine ⟨v.slot, (bound_pushed hscopes).mpr ⟨c, hc, v, ?_, rfl⟩, hlater.leads_iff.mpr hleads⟩
        rw [hid]
        exact hlater.vars _ v hv
    | apart _ _ hmutable =>
        rw [hmutable v hv] at hplain
        cases hplain

theorem Exposed.reached (hrun : (detached scope).run w = (.ok d, w'))
    (hexposed : w.Exposed scope cell) : w'.Reached scope cell := by
  rcases detached_ok hrun with ⟨copies, _, hscopes, hlater, _⟩
  rcases hexposed with ⟨name, id, v, hfind, hv, _, hleads⟩
  rcases bound_of_find? hfind hv with ⟨s, hs, e, he, u, hu, heq⟩
  have hold : ∀ (id : ScopeId) (s : Scope), w.scopes[id]? = some s → w'.scopes[id]? = some s := by
    intro id s hs
    have hid : id < w.scopes.size := (Array.getElem?_eq_some_iff.mp hs).1
    rw [hscopes, Array.getElem?_push, if_neg (Nat.ne_of_lt hid), hs]
  have hsize : w.scopes.size ≤ w'.scopes.size := by
    rw [hscopes, Array.size_push]
    exact Nat.le_succ _
  refine ⟨v.slot, ⟨s, mem_chain hold hsize hs, e, he, u, hlater.vars _ u hu, heq⟩, ?_⟩
  exact hlater.leads_iff.mpr hleads

/-- A detached scope reaches exactly the cells that a visible immutable variable leads to.  It is
isolated from the scope that it was made of exactly if there is no such cell, and then nothing that
is stored in cells of one of them is seen in the other one. -/
theorem detached_isolated_iff (hrun : (detached scope).run w = (.ok d, w')) :
    (∀ cell, w'.Reached (some d) cell ↔ w.Exposed scope cell) ∧
    (w'.Isolated scope (some d) ↔ ∀ cell, ¬ w.Exposed scope cell) ∧
    (w'.Isolated scope (some d) → w'.Shielded scope (some d) ∧ w'.Shielded (some d) scope) := by
  refine ⟨fun cell => reached_detached_iff hrun, ⟨?_, ?_⟩, ?_⟩
  · intro hisolated cell hexposed
    exact hisolated cell ⟨hexposed.reached hrun, (reached_detached_iff hrun).mpr hexposed⟩
  · intro hunexposed cell hboth
    exact hunexposed cell ((reached_detached_iff hrun).mp hboth.2)
  · intro hisolated
    exact ⟨hisolated.shielded, hisolated.symm.shielded⟩

/-!
## A tuple of references

The caller has a mutable number, and then an immutable tuple with a reference
to it as well.
-/

def counting : World :=
  (Command.define 0 "n" .missing (.int 1) true).after ((Command.newScope none).after {})

def leaky : World :=
  (Command.define 0 "x" .missing (.tuple 0 [.reference 0]) false).after counting

theorem history_leaky : ∃ past, History past leaky := by
  have hfresh : History [] {} := History.fresh ⟨_, _, _, _, rfl⟩
  have hscope := hfresh.step (.newScope none) fun _ hs => nomatch hs
  have hnumber := hscope.step (.define 0 "n" .missing (.int 1) true) ⟨Nat.one_pos, trivial⟩
  have htuple := hnumber.step (.define 0 "x" .missing (.tuple 0 [.reference 0]) false)
    ⟨Nat.one_pos, Nat.one_pos, trivial⟩
  exact ⟨_, htuple⟩

def withDetached (w : World) : World :=
  ((detached (some 0)).run w).2

theorem run_detached_of {visible : List (String × VariableId)}
    (hvisible : (nearest (w.scopeChain scope) {}).entries = visible) :
    (detached scope).run w =
      (do
        let copies ← visible.mapM fun e => do return (e.1, ← frozenCopy e.1 e.2)
        let id ← newScope none
        modify fun w =>
          { w with scopes := w.scopes.setIfInBounds id { bindings := { entries := copies } } }
        return id : Op ScopeId).run w := by
  subst hvisible
  rfl

theorem nearest_of_sorted {pairs : List (String × VariableId)} {s : Scope}
    (hpairs : s.bindings.entries = pairs)
    (hsorted : pairs.Pairwise fun a b => decide (a.1 ≤ b.1) = true) :
    nearest [s] {} =
      pairs.foldl (fun acc e => if acc.contains e.1 then acc else acc.insert e.1 e.2) {} := by
  rw [nearest, NameMap.toSorted, hpairs, NameMap.sortPairs, List.mergeSort_of_pairwise hsorted]
  rfl

theorem nearest_counting : (nearest (counting.scopeChain (some 0)) {}).entries = [("n", 0)] :=
  congrArg NameMap.entries (nearest_of_sorted rfl (by decide))

theorem nearest_leaky :
    (nearest (leaky.scopeChain (some 0)) {}).entries = [("n", 0), ("x", 1)] :=
  congrArg NameMap.entries (nearest_of_sorted rfl (by decide))

theorem run_detached_counting :
    (detached (some 0)).run counting = (.ok 1, counting.withDetached) := by
  unfold withDetached
  rw [run_detached_of nearest_counting]
  rfl

theorem run_detached_leaky : (detached (some 0)).run leaky = (.ok 1, leaky.withDetached) := by
  unfold withDetached
  rw [run_detached_of nearest_leaky]
  rfl

theorem withDetached_leaky :
    leaky.withDetached =
      { leaky with
        vars := leaky.vars.push { declared := .missing, slot := .int 1 }
        scopes := leaky.scopes.push { bindings := { entries := [("n", 2), ("x", 1)] } } } := by
  unfold withDetached
  rw [run_detached_of nearest_leaky]
  rfl

theorem exposed_leaky : leaky.Exposed (some 0) 0 :=
  ⟨"x", 1, _, rfl, rfl, rfl, Heap.Leads.here List.mem_cons_self⟩

theorem not_exposed_counting (cell : CellId) : ¬ counting.Exposed (some 0) cell := by
  rintro ⟨name, id, v, hfind, hv, hplain, _⟩
  rcases List.exists_of_findSome?_eq_some hfind with ⟨s, hs, hget⟩
  cases List.mem_singleton.mp hs
  cases List.mem_singleton.mp (NameMap.mem_of_lookup hget)
  cases hv
  cases hplain

/-- An assignment of the caller to the number is seen in the detached scope. -/
theorem assignment_seen_in_detached :
    (∃ past, History past leaky) ∧
      (detached (some 0)).run leaky = (.ok 1, leaky.withDetached) ∧
      ¬ leaky.withDetached.Isolated (some 0) (some 1) ∧
      leaky.withDetached.Bound (some 1) (.tuple 0 [.reference 0]) ∧
      leaky.withDetached.heap.display (.tuple 0 [.reference 0]) = .ok "(&1)" ∧
      ((Command.assign 0 (some 0) "n" (.int 2)).after leaky.withDetached).heap.display
        (.tuple 0 [.reference 0]) = .ok "(&2)" := by
  have hreached := (reached_detached_iff run_detached_leaky).mpr exposed_leaky
  refine ⟨history_leaky, run_detached_leaky, ?_, ?_, ?_, ?_⟩
  · intro hisolated
    exact hisolated 0 ⟨exposed_leaky.reached run_detached_leaky, hreached⟩
  · have hmem : ("x", 1) ∈ [("n", 2), ("x", 1)] := List.mem_cons_of_mem _ List.mem_cons_self
    rw [withDetached_leaky]
    exact ⟨_, List.mem_cons_self, ("x", 1), hmem, _, rfl, rfl⟩
  · rw [withDetached_leaky]
    rfl
  · rw [withDetached_leaky]
    rfl

/-- The number alone is not seen, and the tuple is to blame. -/
theorem detached_counting_and_leaky :
    (counting.withDetached.Isolated (some 0) (some 1) ∧
      counting.withDetached.Shielded (some 0) (some 1) ∧
      counting.withDetached.Shielded (some 1) (some 0)) ∧
    ¬ leaky.withDetached.Isolated (some 0) (some 1) := by
  have hisolated := (detached_isolated_iff run_detached_counting).2.1.mpr not_exposed_counting
  refine ⟨⟨hisolated, (detached_isolated_iff run_detached_counting).2.2 hisolated⟩, ?_⟩
  intro hleaky
  exact (detached_isolated_iff run_detached_leaky).2.1.mp hleaky 0 exposed_leaky

end World
end ScriptCore
