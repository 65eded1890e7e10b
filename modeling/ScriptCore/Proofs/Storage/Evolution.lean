import ScriptCore.Proofs.Heap.Obstacle
import ScriptCore.Proofs.Storage.Slots

/-!
# What a run never takes away

A world is lawful if all it holds exists, no name is in both shared tiers, and
every shared immutable variable holds a plain value.  Worlds evolve: whatever
is done to a lawful world, it stays lawful, and its shared immutable variables
are still there with the slots that they had.  This holds of every operation
on names, of stores through any reference, and of updates inside a lock that
do all of this in turn.
-/

namespace ScriptCore

def Variable.IsPlain (v : Variable) : Prop :=
  v.slot.isReference = false ∧ v.slot.isAbsent = false

namespace World

/-- All that is held exists, the shared tiers have no name in common, and a shared immutable
variable holds a plain value. -/
structure Lawful (w : World) : Prop where
  closed : w.heap.Closed
  live : ∀ (id : VariableId) (v : Variable), w.vars[id]? = some v → w.heap.Live v.slot
  apart : ∀ (name : String) (id : VariableId), w.frozen.get? name = some id →
    w.guarded.get? name = none
  bound : ∀ (name : String) (id : VariableId), w.frozen.get? name = some id →
    ∃ v, w.vars[id]? = some v ∧ v.IsPlain

/-- The second world is lawful and has the shared immutable variables of the first one. -/
structure Evolves (w w' : World) : Prop where
  lawful : w'.Lawful
  frozen : ∀ (name : String) (id : VariableId), w.frozen.get? name = some id →
    w'.frozen.get? name = some id
  vars : ∀ (name : String) (id : VariableId) (v : Variable), w.frozen.get? name = some id →
    w.vars[id]? = some v → w'.vars[id]? = some v
  heap : w.heap.Retains w'.heap

variable {w₀ w w' : World} {name : String} {thread : ThreadId} {value : Value}

theorem Lawful.evolves_self (hlawful : w.Lawful) : w.Evolves w where
  lawful := hlawful
  frozen _ _ hid := hid
  vars _ _ _ _ hv := hv
  heap := Heap.Retains.refl w.heap

theorem Evolves.trans (first : w₀.Evolves w) (second : w.Evolves w') : w₀.Evolves w' where
  lawful := second.lawful
  frozen name id hid := second.frozen name id (first.frozen name id hid)
  vars name id v hid hv :=
    second.vars name id v (first.frozen name id hid) (first.vars name id v hid hv)
  heap := first.heap.trans second.heap

theorem Evolves.live (hevolves : w₀.Evolves w) (hlive : w₀.heap.Live value) :
    w.heap.Live value :=
  hlive.wider hevolves.heap.wider

theorem Lawful.not_frozen (hlawful : w.Lawful) {g : Guard} (hg : w.guarded.get? name = some g) :
    w.frozen.get? name = none := by
  cases hfrozen : w.frozen.get? name with
  | none => rfl
  | some id =>
      have hnone := hlawful.apart name id hfrozen
      rw [hg] at hnone
      cases hnone

/-!
## Steps

Every operation is made of few steps.  Names are bound in places that are not
shared, the heap changes, variables are added, and the locks of shared mutable
variables change.
-/

theorem Lawful.evolves_same (hlawful : w.Lawful) (hheap : w'.heap = w.heap)
    (hvars : w'.vars = w.vars) (hfrozen : w'.frozen = w.frozen)
    (hguarded : w'.guarded = w.guarded) : w.Evolves w' where
  lawful :=
    { closed := by rw [hheap]; exact hlawful.closed
      live := by rw [hheap, hvars]; exact hlawful.live
      apart := by rw [hfrozen, hguarded]; exact hlawful.apart
      bound := by rw [hfrozen, hvars]; exact hlawful.bound }
  frozen name id hid := by rw [hfrozen]; exact hid
  vars _ id v _ hv := by rw [hvars]; exact hv
  heap := by rw [hheap]; exact Heap.Retains.refl w.heap

theorem Lawful.evolves_heap (hlawful : w.Lawful) {h : Heap} (hretains : w.heap.Retains h)
    (hclosed : h.Closed) : w.Evolves { w with heap := h } where
  lawful :=
    { closed := hclosed
      live := fun id v hv => (hlawful.live id v hv).wider hretains.wider
      apart := hlawful.apart
      bound := hlawful.bound }
  frozen _ _ hid := hid
  vars _ _ _ _ hv := hv
  heap := hretains

theorem Lawful.evolves_sameCells (hlawful : w.Lawful) {h : Heap} (hretains : w.heap.Retains h)
    (hgrows : w.heap.Grows h) (hcells : h.cells = w.heap.cells) :
    w.Evolves { w with heap := h } := by
  apply hlawful.evolves_heap hretains
  apply hlawful.closed.grows hgrows
  intro cell hold hnew
  rw [hcells] at hnew
  exact absurd hnew (Nat.not_lt.mpr hold)

theorem Lawful.evolves_widens (hlawful : w.Lawful) {h : Heap} (hwidens : w.heap.Widens h) :
    w.Evolves { w with heap := h } :=
  hlawful.evolves_sameCells hwidens.retains hwidens.grows hwidens.cells

theorem Lawful.evolves_newCell (hlawful : w.Lawful) {x : Value} (hlive : w.heap.Live x) :
    w.Evolves { w with heap := (w.heap.newCell x).2 } := by
  have hgrows := Heap.Grows.newCell w.heap x
  apply hlawful.evolves_heap (Heap.Retains.of_grows hgrows rfl)
  apply hlawful.closed.grows hgrows
  intro cell hold hnew
  rw [Heap.size_cells_newCell] at hnew
  have hcell : cell = w.heap.cells.size := Nat.le_antisymm (Nat.le_of_lt_succ hnew) hold
  rw [hcell, Heap.load_newCell_self]
  exact hlive.wider hgrows.wider

theorem Lawful.evolves_store (hlawful : w.Lawful) (cell : CellId) {x : Value}
    (hlive : w.heap.Live x) : w.Evolves { w with heap := w.heap.store cell x } :=
  hlawful.evolves_heap (Heap.Retains.store w.heap cell x) (hlawful.closed.store cell hlive)

theorem Lawful.evolves_push (hlawful : w.Lawful) {v : Variable} (hlive : w.heap.Live v.slot) :
    w.Evolves { w with vars := w.vars.push v } where
  lawful :=
    { closed := hlawful.closed
      live := by
        intro id u hu
        change (w.vars.push v)[id]? = some u at hu
        rw [Array.getElem?_push] at hu
        by_cases hid : id = w.vars.size
        · rw [if_pos hid] at hu
          cases hu
          exact hlive
        · rw [if_neg hid] at hu
          exact hlawful.live id u hu
      apart := hlawful.apart
      bound := by
        intro name id hid
        rcases hlawful.bound name id hid with ⟨u, hu, hplain⟩
        exact ⟨u, getElem?_push_old hu v, hplain⟩ }
  frozen _ _ hid := hid
  vars _ _ _ _ hu := getElem?_push_old hu v
  heap := Heap.Retains.refl w.heap

theorem getElem?_set_other {vars : Array Variable} {id other : VariableId} {v new : Variable}
    (hother : other ≠ id) (hv : vars[other]? = some v) :
    (vars.setIfInBounds id new)[other]? = some v := by
  rw [Array.getElem?_setIfInBounds_ne fun heq => hother heq.symm]
  exact hv

theorem Lawful.evolves_set (hlawful : w.Lawful) {id : VariableId} {v : Variable}
    (hlive : w.heap.Live v.slot) (hopen : ∀ name, w.frozen.get? name ≠ some id) :
    w.Evolves { w with vars := w.vars.setIfInBounds id v } := by
  have hne : ∀ name other, w.frozen.get? name = some other → other ≠ id := by
    intro name other hother heq
    rw [heq] at hother
    exact hopen name hother
  exact
    { lawful :=
        { closed := hlawful.closed
          live := by
            intro other u hu
            change (w.vars.setIfInBounds id v)[other]? = some u at hu
            rw [Array.getElem?_setIfInBounds] at hu
            by_cases hid : id = other
            · rw [if_pos hid] at hu
              by_cases hsize : id < w.vars.size
              · rw [if_pos hsize] at hu
                cases hu
                exact hlive
              · rw [if_neg hsize] at hu
                cases hu
            · rw [if_neg hid] at hu
              exact hlawful.live other u hu
          apart := hlawful.apart
          bound := by
            intro name other hother
            rcases hlawful.bound name other hother with ⟨u, hu, hplain⟩
            exact ⟨u, getElem?_set_other (hne name other hother) hu, hplain⟩ }
      frozen := fun _ _ hother => hother
      vars := fun name other _ hother hu => getElem?_set_other (hne name other hother) hu
      heap := Heap.Retains.refl w.heap }

theorem Lawful.evolves_guard (hlawful : w.Lawful) (hfrozen : w.frozen.get? name = none)
    (g : Guard) : w.Evolves { w with guarded := w.guarded.insert name g } where
  lawful :=
    { closed := hlawful.closed
      live := hlawful.live
      apart := by
        intro other id hid
        have hother : other ≠ name := by
          intro heq
          rw [heq] at hid
          cases hfrozen.symm.trans hid
        change (w.guarded.insert name g).get? other = none
        rw [NameMap.get?_insert_ne _ hother]
        exact hlawful.apart other id hid
      bound := hlawful.bound }
  frozen _ _ hid := hid
  vars _ _ _ _ hv := hv
  heap := Heap.Retains.refl w.heap

/-- A new name may become shared immutable, if it stands for a plain value and is not shared
mutable. -/
theorem Lawful.evolves_frozen (hlawful : w.Lawful) {id : VariableId} {v : Variable}
    (hfrozen : w.frozen.get? name = none) (hguarded : w.guarded.get? name = none)
    (hv : w.vars[id]? = some v) (hplain : v.IsPlain) :
    w.Evolves { w with frozen := w.frozen.insert name id } where
  lawful :=
    { closed := hlawful.closed
      live := hlawful.live
      apart := by
        intro other i hi
        change (w.frozen.insert name id).get? other = some i at hi
        rw [NameMap.get?_insert] at hi
        by_cases hother : other = name
        · rw [hother]
          exact hguarded
        · rw [if_neg hother] at hi
          exact hlawful.apart other i hi
      bound := by
        intro other i hi
        change (w.frozen.insert name id).get? other = some i at hi
        rw [NameMap.get?_insert] at hi
        by_cases hother : other = name
        · rw [if_pos hother] at hi
          cases hi
          exact ⟨v, hv, hplain⟩
        · rw [if_neg hother] at hi
          exact hlawful.bound other i hi }
  frozen other i hi := by
    have hother : other ≠ name := by
      intro heq
      rw [heq] at hi
      cases hfrozen.symm.trans hi
    change (w.frozen.insert name id).get? other = some i
    rw [NameMap.get?_insert_ne _ hother]
    exact hi
  vars _ _ _ _ hu := hu
  heap := Heap.Retains.refl w.heap

/-!
## New variables
-/

section

variable {declared : Ty} {isMutable : Bool}

theorem Lawful.evolves_slotFor (hlawful : w.Lawful) (isMutable : Bool) {h : Heap} {x : Value}
    (hx : w.heap.Detached h value x) (hlive : w.heap.Live value) :
    w.Evolves { w with heap := (slotFor isMutable h x).2 } := by
  have hwidened := hlawful.evolves_widens hx.heap
  cases isMutable with
  | false => exact hwidened
  | true => exact hwidened.trans (hwidened.lawful.evolves_newCell (hx.live hlive))

theorem Made.evolves {r : Except Failure VariableId} (hmade : Made w declared value isMutable r w')
    (hlawful : w.Lawful) (hlive : w.heap.Live value) : w.Evolves w' := by
  cases hmade with
  | refused f => exact hlawful.evolves_self
  | misfit f hx => exact hlawful.evolves_slotFor isMutable hx hlive
  | made hx _ =>
      have hheap := hlawful.evolves_slotFor isMutable hx hlive
      exact hheap.trans (hheap.lawful.evolves_push (slotFor_live isMutable hx hlive))

theorem Holds.isPlain {id : VariableId} {v : Variable}
    (hholds : Holds w w' declared value isMutable id v) (hplain : isMutable = false) :
    v.IsPlain := by
  have href : v.slot.isReference = false := by
    rw [hholds.isMutable]
    exact hplain
  have hpresent := hholds.present
  rw [w'.heap.contentOf_of_not_reference href] at hpresent
  exact ⟨href, hpresent⟩

/-- A place that a name may be bound at: in the shared tiers, only a name that is free for it. -/
def Admits (w : World) : Place → Prop
  | .frozen name => w.frozen.get? name = none ∧ w.guarded.get? name = none
  | .guarded name => w.frozen.get? name = none
  | _ => True

theorem Placed.evolves {p : Place} {r : Except Failure VariableId}
    (hplaced : Placed w p declared value isMutable r w') (hlawful : w.Lawful)
    (hlive : w.heap.Live value) (hadmits : r.isOk = true → w.Admits p)
    (hplain : ∀ name, p = .frozen name → isMutable = false) : w.Evolves w' := by
  cases hplaced with
  | failed f hmade => exact hmade.evolves hlawful hlive
  | @bound id w₁ hmade =>
      have hevolves := hmade.evolves hlawful hlive
      refine hevolves.trans ?_
      have hp := hadmits rfl
      cases p with
      | inScope scope name => exact hevolves.lawful.evolves_same rfl rfl rfl rfl
      | threadLocal thread name => exact hevolves.lawful.evolves_same rfl rfl rfl rfl
      | guarded name =>
          apply hevolves.lawful.evolves_guard
          rw [hmade.extends.frozen]
          exact hp
      | frozen name =>
          rcases hmade.holds hlive with ⟨v, hholds⟩
          apply hevolves.lawful.evolves_frozen _ _ hholds.var
          · exact hholds.isPlain (hplain name rfl)
          · rw [hmade.extends.frozen]
            exact hp.1
          · rw [hmade.extends.guarded]
            exact hp.2

end

/-!
## Declarations
-/

section

variable {declared : Ty} {code : Int}

def guardedFault (name : String) : Error :=
  .ofKind .immutableAssignment name "already declared as a shared-mutable global"

theorem run_declareFrozen_guarded {g : Guard} (hguarded : w.guarded.get? name = some g) :
    (declareFrozen name declared value).run w = (.error (.error (guardedFault name)), w) := by
  unfold declareFrozen
  rw [Op.run_bind, Op.run_get, Op.next_ok, if_pos (NameMap.contains_of_some hguarded)]
  rfl

theorem run_declareGlobal_frozen {id : VariableId} (hfrozen : w.frozen.get? name = some id) :
    (declareGlobal thread name code declared value).run w =
      (.error (.error (frozenFault name)), w) := by
  unfold declareGlobal
  rw [Op.run_bind, run_declare_frozen hfrozen code, Op.next_error]

theorem admits_of_declareGlobal {tier : Tier} (htier : Tier.ofCode? code = some tier)
    (hrun : (declareGlobal thread name code declared value).run w = (.ok (), w')) :
    w.Admits (tier.place thread name) := by
  have hfrozen : w.frozen.get? name = none := by
    cases hid : w.frozen.get? name with
    | none => rfl
    | some id =>
        rw [run_declareGlobal_frozen hid] at hrun
        cases hrun
  cases tier with
  | threadLocal => trivial
  | sharedMutable => exact hfrozen
  | sharedImmutable =>
      refine ⟨hfrozen, ?_⟩
      cases hg : w.guarded.get? name with
      | none => rfl
      | some g =>
          unfold declareGlobal declare at hrun
          simp only [Op.run_bind, Op.run_get, Op.next_ok,
            if_neg (NameMap.not_contains_of_none hfrozen), htier] at hrun
          rw [run_declareFrozen_guarded hg] at hrun
          cases hrun

theorem Lawful.declareGlobal (hlawful : w.Lawful) (hlive : w.heap.Live value)
    {r : Except Failure Unit}
    (hrun : (World.declareGlobal thread name code declared value).run w = (r, w')) :
    w.Evolves w' := by
  rcases declareGlobal_cases hlawful.closed hlive hrun with
    ⟨f, _, hw⟩ | ⟨tier, r₁, w₁, lines, htier, hplaced, hr, hw⟩
  · rw [hw]
    exact hlawful.evolves_self
  have hadmits : r₁.isOk = true → w.Admits (tier.place thread name) := by
    intro hok
    cases r₁ with
    | error f => cases hok
    | ok id =>
        rw [hr] at hrun
        exact admits_of_declareGlobal htier hrun
  have hplain : ∀ other, tier.place thread name = .frozen other → tier.isMutable = false := by
    intro other hplace
    cases tier with
    | sharedImmutable => rfl
    | threadLocal => cases hplace
    | sharedMutable => cases hplace
  have hevolves := hplaced.evolves hlawful hlive hadmits hplain
  rw [hw]
  exact hevolves.trans (hevolves.lawful.evolves_same rfl rfl rfl rfl)

end

/-!
## Reading, assigning and locks

An operation keeps the evolution of a world if it takes every lawful world to
one that has evolved from it.
-/

theorem keeps_evolves {α : Type} {x : Op α}
    (hx : ∀ w r w', w₀.Evolves w → x.run w = (r, w') → w.Evolves w') :
    Op.Keeps w₀.Evolves x := by
  intro w r w' hevolves hrun
  exact hevolves.trans (hx w r w' hevolves hrun)

theorem evolving_snapshot (id : VariableId) : Op.Keeps w₀.Evolves (snapshot id) := by
  apply keeps_evolves
  intro w r w' hevolves hrun
  have hlawful := hevolves.lawful
  cases hv : w.vars[id]? with
  | none =>
      rw [(snapshot_none hv hrun).2]
      exact hlawful.evolves_self
  | some v =>
      rcases snapshot_cases hv hrun with ⟨f, _, _, hw⟩ | ⟨x, h, hcopy, _, hw⟩
      · rw [hw]
        exact hlawful.evolves_self
      · have hcopied := Heap.copyContent_ok hlawful.closed (hlawful.live id v hv) hcopy
        have hheap := hlawful.evolves_widens hcopied.heap
        rw [hw]
        exact hheap.trans (hheap.lawful.evolves_push hcopied.live)

theorem evolving_assignValue (id : VariableId) (hlive : w₀.heap.Live value) :
    Op.Keeps w₀.Evolves (assignValue id value) := by
  apply keeps_evolves
  intro w r w' hevolves hrun
  have hlawful := hevolves.lawful
  cases assignValue_updated hrun with
  | refused f _ => exact hlawful.evolves_self
  | @stored cell _ =>
      exact hlawful.evolves_store cell (hlawful.closed.contentOf (hevolves.live hlive))

theorem Lawful.setValue (hlawful : w.Lawful) {id : VariableId} (hlive : w.heap.Live value)
    (hopen : ∀ name, w.frozen.get? name ≠ some id) {r : Except Failure Unit}
    (hrun : (World.setValue id value).run w = (r, w')) : w.Evolves w' := by
  cases hv : w.vars[id]? with
  | none =>
      unfold World.setValue at hrun
      rw [Op.run_bind, run_declared_none hv] at hrun
      cases hrun
      exact hlawful.evolves_self
  | some v =>
      unfold World.setValue at hrun
      rw [Op.run_bind, run_declared hv, Op.next_ok] at hrun
      rcases Op.bind_cases hrun with ⟨f, hcheck, _⟩ | ⟨_, w₁, hcheck, hset⟩
      · rw [(checkBinding_cases hcheck).1]
        exact hlawful.evolves_self
      · rw [(checkBinding_cases hcheck).1] at hset
        cases hset
        exact hlawful.evolves_set hlive hopen

theorem Lawful.hold (hlawful : w.Lawful) {g : Guard} (hg : w.guarded.get? name = some g)
    (thread : ThreadId) : w.Evolves (w.hold name g thread) :=
  hlawful.evolves_guard (hlawful.not_frozen hg) _

theorem Lawful.release (hlawful : w.Lawful) (name : String) (isPoisoned : Bool) :
    w.Evolves (w.release name isPoisoned) := by
  cases hg : w.guarded.get? name with
  | some g =>
      rcases release_eq hg isPoisoned with ⟨lines, hrelease⟩
      have hleft := hlawful.evolves_guard (hlawful.not_frozen hg) (g.leave isPoisoned)
      rw [hrelease]
      exact hleft.trans (hleft.lawful.evolves_same rfl rfl rfl rfl)
  | none =>
      rw [release_none hg]
      exact hlawful.evolves_self

theorem Lawful.withGuard {α : Type} {work : VariableId → Op α} {g : Guard}
    {r : Except Failure α} (hlawful : w.Lawful)
    (hwork : g.IsFree → w.Evolves ((work g.var).run (w.hold name g thread)).2)
    (hrun : (Op.withName name (World.withGuard thread name g work)).run w = (r, w')) :
    w.Evolves w' := by
  have hguard : ∃ r₁, (World.withGuard thread name g work).run w = (r₁, w') := by
    rcases Op.withName_cases hrun with ⟨f, hguard, _⟩ | ⟨a, hguard, _⟩
    · exact ⟨_, hguard⟩
    · exact ⟨_, hguard⟩
  rcases hguard with ⟨r₁, hguard⟩
  rcases withGuard_cases hguard with ⟨_, f, _, hw⟩ | ⟨hfree, w₁, hheld, hw⟩
  · rw [hw]
    exact hlawful.evolves_self
  · have hinside := hwork hfree
    rw [hheld] at hinside
    rw [hw]
    exact hinside.trans (hinside.lawful.release name _)

theorem Lawful.guarded {α : Type} {work : VariableId → Op α} {g : Guard}
    {r : Except Failure α} (hlawful : w.Lawful) (hg : w.guarded.get? name = some g)
    (hwork : Op.Keeps w.Evolves (work g.var))
    (hrun : (Op.withName name (World.withGuard thread name g work)).run w = (r, w')) :
    w.Evolves w' := by
  apply hlawful.withGuard _ hrun
  intro _
  exact hwork _ _ _ (hlawful.hold hg thread) rfl

theorem Lawful.lookup (hlawful : w.Lawful) {scope : Option ScopeId}
    {r : Except Failure VariableId}
    (hrun : (World.lookup thread scope name).run w = (r, w')) : w.Evolves w' := by
  cases lookup_cases hrun with
  | inScope _ => exact hlawful.evolves_self
  | threadLocal _ _ => exact hlawful.evolves_self
  | @frozen id r w' _ _ _ hsnapshot =>
      exact (evolving_snapshot id).withName name w r w' hlawful.evolves_self hsnapshot
  | @guarded g r w' _ _ _ hg hsnapshot =>
      exact hlawful.guarded hg (evolving_snapshot g.var) hsnapshot
  | unbound _ _ _ _ => exact hlawful.evolves_self

theorem Lawful.assign (hlawful : w.Lawful) (hlive : w.heap.Live value) {scope : Option ScopeId}
    {r : Except Failure Unit} (hrun : (World.assign thread scope name value).run w = (r, w')) :
    w.Evolves w' := by
  cases assign_cases hrun with
  | @guarded g r w' hg hassign =>
      exact hlawful.guarded hg (evolving_assignValue g.var hlive) hassign
  | frozen _ _ => exact hlawful.evolves_self
  | @threadLocal id r w' _ _ _ hassign =>
      exact (evolving_assignValue id hlive).withName name w r w' hlawful.evolves_self hassign
  | @inScope id r w' _ _ _ _ hassign =>
      exact (evolving_assignValue id hlive).withName name w r w' hlawful.evolves_self hassign
  | unbound _ _ _ _ => exact hlawful.evolves_self

/-!
## Commands
-/

theorem Lawful.box (hlawful : w.Lawful) (hlive : w.heap.Live value) {r : Except Failure Value}
    (hrun : (Op.build (Heap.newReference value)).run w = (r, w')) : w.Evolves w' := by
  rcases Op.build_cases hrun with ⟨f, _, _, hw⟩ | ⟨x, h, hx, _, hw⟩
  · rw [hw]
    exact hlawful.evolves_self
  · rcases Heap.newReference_ok hlawful.closed hlive hx with
      ⟨content, h₁, hwidens, hcontent, _, _, hheap⟩
    subst hheap
    have hwidened := hlawful.evolves_widens hwidens
    rw [hw]
    exact hwidened.trans (hwidened.lawful.evolves_newCell hcontent)

theorem Lawful.after (hlawful : w.Lawful) {c : Command} (hstorage : c.isStorage = true)
    (hvalid : c.Valid w) : w.Evolves (c.after w) := by
  cases c with
  | newScope outer => exact hlawful.evolves_same rfl rfl rfl rfl
  | fork =>
      rcases run_fork w with ⟨lines, hrun⟩
      rw [Command.after_of (Op.run_map_of hrun)]
      exact hlawful.evolves_same rfl rfl rfl rfl
  | box value =>
      rcases hrun : (Op.build (Heap.newReference value)).run w with ⟨r, w'⟩
      rw [Command.after_of (Op.run_map_of hrun)]
      exact hlawful.box hvalid hrun
  | newFunction f =>
      have hgrows := Heap.Grows.newFunction w.heap f
      exact hlawful.evolves_sameCells (Heap.Retains.of_grows hgrows rfl) hgrows rfl
  | newPromise f =>
      rcases run_newPromise w f with ⟨lines, hrun⟩
      rw [Command.after_of (Op.run_map_of hrun)]
      let p : Promise := { function := f.displayName, returnType := f.result, state := .pending }
      have hheap := hlawful.evolves_sameCells (Heap.Retains.newPromise w.heap p)
        (Heap.Grows.newPromise w.heap p) rfl
      exact hheap.trans (hheap.lawful.evolves_same rfl rfl rfl rfl)
  | define scope name declared value isMutable =>
      rcases hrun : (World.define (some scope) name declared value isMutable).run w with ⟨r, w'⟩
      rw [Command.after_of (Op.run_map_of hrun)]
      apply (define_cases hlawful.closed hvalid.2 hrun).evolves hlawful hvalid.2
      · intro _
        trivial
      · intro other hplace
        cases hplace
  | declare thread name code declared value =>
      rcases hrun : (World.declareGlobal thread name code declared value).run w with ⟨r, w'⟩
      rw [Command.after_of (Op.run_map_of hrun)]
      exact hlawful.declareGlobal hvalid.2 hrun
  | lookup thread scope name =>
      rcases hrun : (World.lookup thread scope name).run w with ⟨r, w'⟩
      rw [Command.after_of (Op.run_map_of hrun)]
      exact hlawful.lookup hrun
  | assign thread scope name value =>
      rcases hrun : (World.assign thread scope name value).run w with ⟨r, w'⟩
      rw [Command.after_of (Op.run_map_of hrun)]
      exact hlawful.assign hvalid.2.2 hrun
  | withMutable thread name value =>
      rcases hrun : (withMutableGlobal thread name fun id => World.assignValue id value).run w with
        ⟨r, w'⟩
      rw [Command.after_of (Op.run_map_of hrun)]
      cases hg : w.guarded.get? name with
      | none =>
          rw [run_withMutableGlobal_none hg] at hrun
          cases hrun
          exact hlawful.evolves_self
      | some g =>
          rw [run_withMutableGlobal hg] at hrun
          exact hlawful.guarded hg (evolving_assignValue g.var hvalid.2) hrun
  | conclude id outcome => cases hstorage
  | bind declared value isMutable => cases hstorage
  | assignValue id value => cases hstorage
  | call f args => cases hstorage

/-!
## Runs
-/

/-- A run from one world to another.  Besides the commands on names there are assignments to any
variable and stores through any reference.  A variable may get another slot unless it is shared
immutable: reading such a variable gives a copy and never the variable itself.  An update inside a
lock is a run of its own, from the world in which the lock is held to the one that the update leaves
behind, however it ends. -/
inductive Reaches : World → World → Prop where
  | refl (w : World) : Reaches w w
  | command {w₀ w : World} (hrun : Reaches w₀ w) (c : Command) (hstorage : c.isStorage = true)
      (hvalid : c.Valid w) : Reaches w₀ (c.after w)
  | assignValue {w₀ w : World} (hrun : Reaches w₀ w) (id : VariableId) (value : Value)
      (hlive : w.heap.Live value) : Reaches w₀ ((World.assignValue id value).run w).2
  | setValue {w₀ w : World} (hrun : Reaches w₀ w) (id : VariableId) (value : Value)
      (hlive : w.heap.Live value) (hopen : ∀ name, w.frozen.get? name ≠ some id) :
      Reaches w₀ ((World.setValue id value).run w).2
  | store {w₀ w : World} (hrun : Reaches w₀ w) (cell : CellId) (value : Value)
      (hlive : w.heap.Live value) : Reaches w₀ { w with heap := w.heap.store cell value }
  | update {w₀ w : World} (hrun : Reaches w₀ w) (thread : ThreadId) (name : String)
      (work : VariableId → Op Unit)
      (hwork : ∀ g, w.guarded.get? name = some g → g.IsFree →
        Reaches (w.hold name g thread) ((work g.var).run (w.hold name g thread)).2) :
      Reaches w₀ ((withMutableGlobal thread name work).run w).2

theorem Reaches.evolves (hrun : w.Reaches w') (hlawful : w.Lawful) : w.Evolves w' := by
  induction hrun with
  | refl w => exact hlawful.evolves_self
  | command _ c hstorage hvalid ih =>
      have hevolves := ih hlawful
      exact hevolves.trans (hevolves.lawful.after hstorage hvalid)
  | assignValue _ id value hlive ih =>
      have hevolves := ih hlawful
      exact hevolves.trans
        (evolving_assignValue id hlive _ _ _ hevolves.lawful.evolves_self rfl)
  | setValue _ id value hlive hopen ih =>
      have hevolves := ih hlawful
      exact hevolves.trans (hevolves.lawful.setValue hlive hopen rfl)
  | store _ cell value hlive ih =>
      have hevolves := ih hlawful
      exact hevolves.trans (hevolves.lawful.evolves_store cell hlive)
  | @update w₀ w _ thread name work _ ih ihwork =>
      have hevolves := ih hlawful
      refine hevolves.trans ?_
      cases hg : w.guarded.get? name with
      | none =>
          rw [run_withMutableGlobal_none hg]
          exact hevolves.lawful.evolves_self
      | some g =>
          rw [run_withMutableGlobal hg]
          apply hevolves.lawful.withGuard _ rfl
          -- the update starts in a world that has evolved by taking the lock
          intro hfree
          have hheld := hevolves.lawful.hold hg thread
          exact hheld.trans (ihwork g hg hfree hheld.lawful)

end World
end ScriptCore
