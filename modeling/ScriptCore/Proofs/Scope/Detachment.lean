import Mathlib.Data.List.Forall2
import ScriptCore.Proofs.Scope.Isolation
import ScriptCore.Proofs.Storage.Slots
import ScriptCore.Proofs.World.Widening

/-!
# A detached scope agrees with lookup

Detaching goes through the bindings from the innermost scope outwards and skips
the names that it has met before.  Which bindings it freezes is therefore what
lookup finds, in whatever order each scope is gone through.  It fails if one of
these has no copy, and only then; a binding that is shadowed never matters.
Where several have no copy, all orders fail with an error of one kind, and the
order decides of which binding it tells.
-/

namespace ScriptCore

namespace NameMap

variable {α β : Type} {pairs other : List (String × α)}

theorem Distinct.lookup_perm (hdistinct : Distinct pairs) (hperm : other.Perm pairs)
    (name : String) : other.lookup name = pairs.lookup name := by
  apply Option.ext
  intro value
  rw [(hdistinct.perm hperm).lookup_eq_some_iff, hdistinct.lookup_eq_some_iff, hperm.mem_iff]

theorem lookup_flatten (visits : List (List (String × α))) (name : String) :
    visits.flatten.lookup name = visits.findSome? (·.lookup name) := by
  induction visits with
  | nil => rfl
  | cons visit rest ih =>
      rw [List.flatten_cons, List.lookup_append, ih, List.findSome?_cons]
      cases visit.lookup name <;> rfl

theorem lookup_related {R : α → β → Prop} {copies : List (String × β)}
    (hcopies : List.Forall₂ (fun e c => c.1 = e.1 ∧ R e.2 c.2) pairs copies) (name : String) :
    Option.Rel R (pairs.lookup name) (copies.lookup name) := by
  induction hcopies with
  | nil => exact Option.Rel.none
  | cons hfirst _ ih =>
      rw [List.lookup_cons, List.lookup_cons, hfirst.1]
      split
      · exact Option.Rel.some hfirst.2
      · exact ih

end NameMap

namespace World

variable {w w' w₁ : World} {scope : Option ScopeId} {name : String} {id id' : VariableId}
variable {v : Variable}

/-!
## Any order of the bindings
-/

/-- The lists hold the bindings of the scopes, each in some order. -/
def Visits (visits : List (List (String × VariableId))) (scopes : List Scope) : Prop :=
  List.Forall₂ (fun visit s => visit.Perm s.bindings.entries) visits scopes

def firsts (visits : List (List (String × VariableId))) : List (String × VariableId) :=
  (visits.flatten.foldl NameMap.addNew {}).entries

def freezeAll (pairs : List (String × VariableId)) : Op (List (String × VariableId)) :=
  pairs.mapM fun e => do return (e.1, ← frozenCopy e.1 e.2)

def detachedBy (visits : List (List (String × VariableId))) : Op ScopeId := do
  let copies ← freezeAll (firsts visits)
  let id ← newScope none
  modify fun w =>
    { w with scopes := w.scopes.setIfInBounds id { bindings := { entries := copies } } }
  return id

theorem nearest_eq_foldl (scopes : List Scope) (found : NameMap VariableId) :
    nearest scopes found =
      (scopes.map (·.bindings.toSorted)).flatten.foldl NameMap.addNew found := by
  induction scopes generalizing found with
  | nil => rfl
  | cons s rest ih =>
      rw [nearest, ih, List.map_cons, List.flatten_cons, List.foldl_append]
      rfl

theorem run_detached_eq (w : World) (scope : Option ScopeId) :
    (detached scope).run w =
      (detachedBy ((w.scopeChain scope).map (·.bindings.toSorted))).run w := by
  rw [run_detached_of (congrArg NameMap.entries (nearest_eq_foldl _ {}))]
  rfl

theorem visits_sorted (scopes : List Scope) :
    Visits (scopes.map (·.bindings.toSorted)) scopes := by
  induction scopes with
  | nil => exact List.Forall₂.nil
  | cons s rest ih => exact List.Forall₂.cons (NameMap.sortPairs_perm _) ih

theorem distinct_firsts (visits : List (List (String × VariableId))) :
    NameMap.Distinct (firsts visits) :=
  NameMap.Distinct.foldl_addNew visits.flatten List.nodup_nil

theorem lookup_firsts {visits : List (List (String × VariableId))} {scopes : List Scope}
    (hvisits : Visits visits scopes)
    (hdistinct : ∀ s ∈ scopes, NameMap.Distinct s.bindings.entries) (name : String) :
    (firsts visits).lookup name = scopes.findSome? fun s => s.bindings.get? name := by
  refine (NameMap.get?_foldl_addNew visits.flatten {} name).trans ?_
  rw [NameMap.lookup_flatten]
  refine Option.none_or.trans ?_
  induction hvisits with
  | nil => rfl
  | @cons visit s _ _ hvisit _ ih =>
      have hlookup := (hdistinct s List.mem_cons_self).lookup_perm hvisit name
      rw [List.findSome?_cons, List.findSome?_cons, hlookup,
        ih fun s' hs' => hdistinct s' (List.mem_cons_of_mem s hs')]
      rfl

/-!
## Freezing one variable
-/

/-- The variable is mutable, and there is a reference or a promise in its content. -/
def Stuck (w : World) (id : VariableId) : Prop :=
  ∃ v x, w.vars[id]? = some v ∧ v.slot.isReference = true ∧
    Value.Part x (w.heap.contentOf v.slot) ∧ x.isUnique = true

theorem stuck_iff (hv : w.vars[id]? = some v) :
    w.Stuck id ↔ v.slot.isReference = true ∧ (w.heap.contentOf v.slot).isDuplicable = false := by
  rw [← Bool.not_eq_true (Value.isDuplicable _), Value.isDuplicable_iff]
  constructor
  · rintro ⟨u, x, hu, hmutable, hpart, hunique⟩
    cases hv.symm.trans hu
    refine ⟨hmutable, fun hnone => ?_⟩
    rw [hnone x hpart] at hunique
    cases hunique
  · rintro ⟨hmutable, hsome⟩
    simp only [not_forall, Bool.not_eq_false] at hsome
    rcases hsome with ⟨x, hpart, hunique⟩
    exact ⟨v, x, hv, hmutable, hpart, hunique⟩

/-- The error says why the content of the mutable variable has no copy, under a name. -/
def Obstructs (w : World) (name : String) (id : VariableId) (e : Error) : Prop :=
  ∃ v reason, w.vars[id]? = some v ∧ v.slot.isReference = true ∧
    (w.heap.read v.slot).obstacle? w.heap.promiseName = some (.error reason) ∧
    e = reason.withName name

/-- The second variable is immutable and shows what the first one shows. -/
def FrozenTo (w w₁ : World) (id id' : VariableId) : Prop :=
  ∃ v v', w.vars[id]? = some v ∧ w₁.vars[id']? = some v' ∧ v'.declared = v.declared ∧
    v'.slot.isReference = false ∧ w₁.heap.Live v'.slot ∧
    w₁.heap.reveal v'.slot = w.heap.read v.slot

theorem FrozenTo.retains (hfrozen : FrozenTo w w₁ id id') (hretains : w₁.Retains w') :
    FrozenTo w w' id id' := by
  rcases hfrozen with ⟨v, v', hv, hv', hdeclared, hplain, hlive, hcontent⟩
  have hgrows := hretains.heap.grows
  refine ⟨v, v', hv, hretains.vars id' v' hv', hdeclared, hplain, hlive.wider hgrows.wider, ?_⟩
  exact (Heap.reveal_grows hgrows _ hlive).trans hcontent

theorem Retains.frozenTo_self (hretains : w.Retains w₁) (hground : w.Grounded)
    (hv : w.vars[id]? = some v) (hplain : v.slot.isReference = false) : FrozenTo w w₁ id id := by
  have hlive := hground.live id v hv
  have hgrows := hretains.heap.grows
  refine ⟨v, v, hv, hretains.vars id v hv, rfl, hplain, hlive.wider hgrows.wider, ?_⟩
  rw [Heap.reveal_grows hgrows _ hlive, Heap.read, Heap.contentOf_of_not_reference _ hplain]

theorem frozenCopy_cases (hretains : w.Retains w₁) (hground : w.Grounded)
    (hv : w.vars[id]? = some v) (hwhole : (w.heap.contentOf v.slot).Whole) :
    (¬ w.Stuck id ∧ ∃ id' w₂, (frozenCopy name id).run w₁ = (.ok id', w₂) ∧ w₁.Retains w₂ ∧
      w₂.scopes = w₁.scopes ∧ FrozenTo w w₂ id id') ∨
    (w.Stuck id ∧ ∃ e, (frozenCopy name id).run w₁ = (.error (.error e), w₁) ∧
      Heap.Uncopyable e ∧ w.Obstructs name id e) := by
  have hv₁ := hretains.vars id v hv
  rw [stuck_iff hv]
  unfold frozenCopy
  rw [Op.run_bind, run_isMutable hv₁, Op.next_ok]
  cases hslot : v.slot.isReference with
  | false =>
      refine Or.inl ⟨(fun hstuck => nomatch hstuck.1), id, w₁, rfl, Retains.refl w₁, rfl, ?_⟩
      exact hretains.frozenTo_self hground hv hslot
  | true =>
      rw [if_pos rfl, Op.run_withName, snapshot, Op.run_bind]
      rcases hretains.copyOf_cases hground hv hwhole with
        ⟨hdup, x, h, hrun, hwidens, hcopied, _⟩ | ⟨hdup, e, hrun, hkind, hobstacle⟩
      · have hdeclared : (declared id).run { w₁ with heap := h } = (.ok v.declared, _) :=
          run_declared hv₁
        rw [hrun, Op.next_ok, Op.run_bind, hdeclared, Op.next_ok, run_addVariable, Op.named_ok]
        refine Or.inl ⟨fun hstuck => ?_, _, _, rfl, Retains.withVariable hwidens _, rfl, ?_⟩
        · rw [hdup] at hstuck
          exact nomatch hstuck.2
        · exact ⟨v, _, hv, Array.getElem?_push_size, rfl, hcopied.isReference, hcopied.live,
            hcopied.content⟩
      · rw [hrun, Op.next_error, Op.named_error]
        refine Or.inr ⟨⟨rfl, hdup⟩, _, rfl, ?_, v, e, hv, hslot, hobstacle, rfl⟩
        rw [Heap.Uncopyable, Error.kinds_withName]
        exact hkind

/-!
## Freezing all of them
-/

theorem freezeAll_cases (hground : w.Grounded) (pairs : List (String × VariableId))
    (hpairs : ∀ e ∈ pairs, ∃ v, w.vars[e.2]? = some v ∧ (w.heap.contentOf v.slot).Whole)
    (hretains : w.Retains w₁) :
    ((∀ e ∈ pairs, ¬ w.Stuck e.2) ∧ ∃ copies w₂, (freezeAll pairs).run w₁ = (.ok copies, w₂) ∧
      w₁.Retains w₂ ∧ w₂.scopes = w₁.scopes ∧
      List.Forall₂ (fun e c => c.1 = e.1 ∧ FrozenTo w w₂ e.2 c.2) pairs copies) ∨
    (∃ b ∈ pairs, w.Stuck b.2 ∧ ∃ e w₂, (freezeAll pairs).run w₁ = (.error (.error e), w₂) ∧
      Heap.Uncopyable e ∧ w.Obstructs b.1 b.2 e) := by
  -- the first world stays fixed, so that each copy is compared with what was there at first
  induction pairs generalizing w₁ with
  | nil =>
      refine Or.inl ⟨(fun e he => nomatch he), [], w₁, ?_, Retains.refl w₁, rfl, .nil⟩
      rw [freezeAll, List.mapM_nil, Op.run_pure]
  | cons e rest ih =>
      rcases hpairs e List.mem_cons_self with ⟨v, hv, hwhole⟩
      rw [freezeAll, List.mapM_cons, Op.run_bind, Op.run_bind, ← freezeAll]
      rcases frozenCopy_cases hretains hground hv hwhole with
        ⟨hfree, id', w₂, hrun, hstep, hscopes, hfrozen⟩ | ⟨hstuck, e', hrun, hfault⟩
      · rw [hrun, Op.next_ok, Op.run_pure, Op.next_ok, Op.run_bind]
        rcases ih (fun e' he' => hpairs e' (List.mem_cons_of_mem e he')) (hretains.trans hstep)
          with ⟨hfrees, copies, w₃, hruns, hsteps, hscopes', hcopies⟩ |
            ⟨b, hb, hstuck, e₁, w₃, hruns, hfault⟩
        · rw [hruns, Op.next_ok, Op.run_pure]
          refine Or.inl ⟨?_, _, w₃, rfl, hstep.trans hsteps, hscopes'.trans hscopes, ?_⟩
          · exact List.forall_mem_cons.mpr ⟨hfree, hfrees⟩
          · exact List.Forall₂.cons ⟨rfl, hfrozen.retains hsteps⟩ hcopies
        · rw [hruns, Op.next_error]
          exact Or.inr ⟨b, List.mem_cons_of_mem e hb, hstuck, e₁, w₃, rfl, hfault⟩
      · rw [hrun, Op.next_error, Op.next_error]
        exact Or.inr ⟨e, List.mem_cons_self, hstuck, e', w₁, rfl, hfault⟩

/-!
## Agreement
-/

def seen? (w : World) (scope : Option ScopeId) (name : String) : Option Slot :=
  (w.find? scope name).bind w.slotOf?

/-- The outcome of detaching a scope is what lookup in the scope says. -/
structure Agrees (w : World) (scope : Option ScopeId) (outcome : Except Failure ScopeId × World) :
    Prop where
  fails_iff : (∃ f, outcome.1 = .error f) ↔ ∃ name id, w.find? scope name = some id ∧ w.Stuck id
  /-- The error tells of a binding that lookup finds. -/
  fault : ∀ f, outcome.1 = .error f → ∃ e name id, f = .error e ∧ Heap.Uncopyable e ∧
    w.find? scope name = some id ∧ w.Obstructs name id e
  bound : ∀ d, outcome.1 = .ok d → ∀ name,
    (outcome.2.find? (some d) name).isSome = (w.find? scope name).isSome
  shown : ∀ d, outcome.1 = .ok d → ∀ name,
    outcome.2.seen? (some d) name = (w.seen? scope name).map ({ · with isMutable := false })

/-- From the scope outwards, each scope binds a name once, and to a variable with a whole
content. -/
structure Filled (w : World) (scope : Option ScopeId) : Prop where
  distinct : ∀ s ∈ w.scopeChain scope, NameMap.Distinct s.bindings.entries
  whole : ∀ s ∈ w.scopeChain scope, ∀ e ∈ s.bindings.entries,
    ∃ v, w.vars[e.2]? = some v ∧ (w.heap.contentOf v.slot).Whole

theorem FrozenTo.slotOf? (hfrozen : FrozenTo w w₁ id id') :
    w₁.slotOf? id' = (w.slotOf? id).map ({ · with isMutable := false }) := by
  rcases hfrozen with ⟨v, v', hv, hv', hdeclared, hplain, _, hcontent⟩
  unfold World.slotOf? World.shown
  rw [hv, hv', Option.map_some, Option.map_some, Option.map_some, hdeclared, hplain, Heap.read,
    Heap.contentOf_of_not_reference _ hplain, hcontent]

theorem agrees_of_copies {copies : List (String × VariableId)}
    (hscopes : w'.scopes = w.scopes.push { bindings := { entries := copies } })
    (hfree : ∀ name id, w.find? scope name = some id → ¬ w.Stuck id)
    (hfrozen : ∀ name, Option.Rel (FrozenTo w w') (w.find? scope name) (copies.lookup name)) :
    w.Agrees scope (.ok w.scopes.size, w') := by
  have hfind : ∀ name, w'.find? (some w.scopes.size) name = copies.lookup name := by
    intro name
    unfold World.find?
    rw [scopeChain_pushed hscopes, List.findSome?_cons, NameMap.get?]
    cases copies.lookup name <;> rfl
  refine
    { fails_iff := ⟨?_, ?_⟩
      fault := ?_
      bound := ?_
      shown := ?_ }
  · rintro ⟨f, hf⟩
    cases hf
  · rintro ⟨name, id, hname, hstuck⟩
    exact absurd hstuck (hfree name id hname)
  · intro f hf
    cases hf
  · intro d hd name
    cases hd
    rw [hfind name]
    have hrel := hfrozen name
    generalize w.find? scope name = found, copies.lookup name = copy at hrel
    cases hrel <;> rfl
  · intro d hd name
    cases hd
    unfold seen?
    rw [hfind name]
    have hrel := hfrozen name
    generalize w.find? scope name = found, copies.lookup name = copy at hrel
    cases hrel with
    | none => rfl
    | some hid => exact hid.slotOf?

theorem run_detachedBy_ok {visits : List (List (String × VariableId))}
    {copies : List (String × VariableId)}
    (hrun : (freezeAll (firsts visits)).run w = (.ok copies, w₁)) :
    (detachedBy visits).run w = (.ok w₁.scopes.size,
      { w₁ with scopes := w₁.scopes.push { bindings := { entries := copies } } }) := by
  unfold detachedBy
  rw [Op.run_bind, hrun, Op.next_ok]
  change (Except.ok w₁.scopes.size, ({ w₁ with
    scopes := (w₁.scopes.push {}).setIfInBounds w₁.scopes.size
      { bindings := { entries := copies } } } : World)) = _
  rw [setIfInBounds_push]

theorem agrees_detachedBy (hground : w.Grounded) (hfilled : w.Filled scope)
    {visits : List (List (String × VariableId))} (hvisits : Visits visits (w.scopeChain scope)) :
    w.Agrees scope ((detachedBy visits).run w) := by
  have hlookup : ∀ name, (firsts visits).lookup name = w.find? scope name :=
    lookup_firsts hvisits hfilled.distinct
  have hmem : ∀ name id, (name, id) ∈ firsts visits ↔ w.find? scope name = some id := by
    intro name id
    rw [← hlookup name, (distinct_firsts visits).lookup_eq_some_iff]
  have hwhole : ∀ e ∈ firsts visits, ∃ v, w.vars[e.2]? = some v ∧
      (w.heap.contentOf v.slot).Whole := by
    intro e he
    rcases List.exists_of_findSome?_eq_some ((hmem e.1 e.2).mp he) with ⟨s, hs, hget⟩
    exact hfilled.whole s hs _ (NameMap.mem_of_lookup hget)
  rcases freezeAll_cases hground (firsts visits) hwhole (Retains.refl w) with
    ⟨hfree, copies, w₁, hrun, _, hscopes, hcopies⟩ |
      ⟨b, hb, hstuck, e, w₁, hrun, hkind, hobstructs⟩
  · rw [run_detachedBy_ok hrun, hscopes]
    apply agrees_of_copies rfl
    · intro name id hfind
      exact hfree (name, id) ((hmem name id).mpr hfind)
    · intro name
      rw [← hlookup name]
      exact NameMap.lookup_related hcopies name
  · have hfails : (detachedBy visits).run w = (.error (.error e), w₁) := by
      unfold detachedBy
      rw [Op.run_bind, hrun, Op.next_error]
    rw [hfails]
    exact
      { fails_iff := ⟨fun _ => ⟨b.1, b.2, (hmem _ _).mp hb, hstuck⟩, fun _ => ⟨_, rfl⟩⟩
        fault := by
          intro f hf
          cases hf
          exact ⟨e, b.1, b.2, rfl, hkind, (hmem _ _).mp hb, hobstructs⟩
        bound := fun _ hd => nomatch hd
        shown := fun _ hd => nomatch hd }

/-- The outcomes are both failures of one kind, or both scopes that show the same. -/
structure Matches (outcome outcome' : Except Failure ScopeId × World) : Prop where
  fails_iff : (∃ f, outcome.1 = .error f) ↔ ∃ f, outcome'.1 = .error f
  kinds : ∀ f f', outcome.1 = .error f → outcome'.1 = .error f' →
    ∃ e e', f = .error e ∧ f' = .error e' ∧ e.kinds = e'.kinds
  bound : ∀ d d', outcome.1 = .ok d → outcome'.1 = .ok d' → ∀ name,
    (outcome.2.find? (some d) name).isSome = (outcome'.2.find? (some d') name).isSome
  shown : ∀ d d', outcome.1 = .ok d → outcome'.1 = .ok d' → ∀ name,
    outcome.2.seen? (some d) name = outcome'.2.seen? (some d') name

theorem Agrees.matching {outcome outcome' : Except Failure ScopeId × World}
    (hagrees : w.Agrees scope outcome) (hagrees' : w.Agrees scope outcome') :
    Matches outcome outcome' where
  fails_iff := hagrees.fails_iff.trans hagrees'.fails_iff.symm
  kinds f f' hf hf' := by
    rcases hagrees.fault f hf with ⟨e, _, _, he, hkind, _⟩
    rcases hagrees'.fault f' hf' with ⟨e', _, _, he', hkind', _⟩
    exact ⟨e, e', he, he', hkind.trans hkind'.symm⟩
  bound d d' hd hd' name := (hagrees.bound d hd name).trans (hagrees'.bound d' hd' name).symm
  shown d d' hd hd' name := (hagrees.shown d hd name).trans (hagrees'.shown d' hd' name).symm

/-- In the outer scope there is a mutable tuple with a reference, and a mutable number to which the
reference leads.  In the inner scope the name of the tuple stands for another number. -/
def nested : World where
  heap := { cells := #[.int 7, .tuple 0 [.reference 0]] }
  vars := #[
    { declared := .int, slot := .reference 0 },
    { declared := .missing, slot := .reference 1 },
    { declared := .missing, slot := .int 3 }]
  scopes := #[
    { bindings := { entries := [("n", 0), ("p", 1)] } },
    { bindings := { entries := [("p", 2)] }, outer := some 0 }]

theorem grounded_nested : nested.Grounded where
  closed := by
    intro cell
    match cell with
    | 0 => trivial
    | 1 => exact ⟨Nat.two_pos, trivial⟩
    | n + 2 => trivial
  live := by
    intro id v hv
    match id with
    | 0 =>
        cases hv
        exact Nat.two_pos
    | 1 =>
        cases hv
        exact Nat.one_lt_two
    | 2 =>
        cases hv
        trivial
    | n + 3 => cases hv

theorem whole_nested : ∀ id < 3, ∃ v, nested.vars[id]? = some v ∧
    (nested.heap.contentOf v.slot).Whole := by
  intro id hid
  match id with
  | 0 => exact ⟨_, rfl, fun hpart => nomatch hpart⟩
  | 1 =>
      refine ⟨_, rfl, fun hpart => ?_⟩
      cases hpart with
      | component hmem hpart =>
          cases List.mem_singleton.mp hmem
          cases hpart
  | 2 => exact ⟨_, rfl, fun hpart => nomatch hpart⟩
  | n + 3 => omega

theorem filled_nested {scope : Option ScopeId}
    (hscopes : ∀ s ∈ nested.scopeChain scope, s ∈ nested.scopes.toList) : nested.Filled scope := by
  have hdistinct : ∀ s ∈ nested.scopes.toList, NameMap.Distinct s.bindings.entries := by
    unfold NameMap.Distinct
    decide
  have hbound : ∀ s ∈ nested.scopes.toList, ∀ e ∈ s.bindings.entries, e.2 < 3 := by decide
  exact
    { distinct := fun s hs => hdistinct s (hscopes s hs)
      whole := fun s hs e he => whole_nested e.2 (hbound s (hscopes s hs) e he) }

theorem stuck_nested (hstuck : nested.Stuck id) : id = 1 := by
  rcases hstuck with ⟨v, x, hv, hmutable, hpart, hunique⟩
  match id with
  | 0 =>
      cases hv
      cases hpart
      cases hunique
  | 1 => rfl
  | 2 =>
      cases hv
      cases hmutable
  | n + 3 => cases hv

theorem find?_nested : nested.find? (some 1) name ≠ some 1 := by
  intro hfind
  rcases List.exists_of_findSome?_eq_some hfind with ⟨s, hs, hget⟩
  have hname : ∀ s ∈ nested.scopes.toList, ∀ e ∈ s.bindings.entries, e.2 = 1 → e.1 = "p" := by
    decide
  have hp := hname s (List.mem_reverse.mp hs) _ (NameMap.mem_of_lookup hget) rfl
  cases hp
  cases hfind

def rivals : World where
  heap := { cells := #[.int 7, .tuple 0 [.reference 0], .tuple 0 [.reference 0]] }
  vars := #[
    { declared := .missing, slot := .reference 1 },
    { declared := .missing, slot := .reference 2 }]
  scopes := #[{ bindings := { entries := [("a", 0), ("b", 1)] } }]

end World
end ScriptCore
