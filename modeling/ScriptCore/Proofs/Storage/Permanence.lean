import ScriptCore.Proofs.Storage.Evolution
import ScriptCore.World.Start

/-!
# Shared immutable variables are permanent

Once a name is declared as a shared immutable variable, it cannot be declared,
assigned to or updated any more, and everybody who reads it gets the same
answer.  This is so in every world that a run can reach, whatever is stored in
the cell that the variable was declared from.
-/

namespace ScriptCore

/-!
## Worlds at the start
-/

/-- The initial values exist before any world does, so they refer to nothing. -/
def IsData (initials : NameMap Initial) : Prop :=
  ∀ e ∈ initials.entries, ∀ value, e.2 = .ok value → ({} : Heap).Live value

structure Globals.IsData (g : Globals) : Prop where
  threadLocal : ScriptCore.IsData g.threadLocal
  shared : ScriptCore.IsData g.shared
  guarded : ScriptCore.IsData g.guarded

namespace World

variable {w w' : World} {name : String}

theorem keeps_seed (tier : Int) (name : String) {initial : Initial}
    (hdata : ∀ value, initial = .ok value → ({} : Heap).Live value) :
    Op.Keeps Lawful (seed tier name initial) := by
  unfold seed
  apply Op.Keeps.tryCatch
  · cases initial with
    | error e => exact Op.keeps_throw _
    | ok value =>
        intro w r w' hlawful hrun
        have hlive : w.heap.Live value := by
          apply (hdata value rfl).wider
          exact ⟨Nat.zero_le _, Nat.zero_le _, Nat.zero_le _⟩
        rcases Op.bind_cases hrun with ⟨f, hcopy, _⟩ | ⟨x, w₁, hcopy, hdeclare⟩
        · rcases Op.build_cases hcopy with ⟨_, _, _, hw⟩ | ⟨_, _, _, hr, _⟩
          · rw [hw]
            exact hlawful
          · cases hr
        · rcases Op.build_cases hcopy with ⟨_, _, hr, _⟩ | ⟨x', h, hx, hr, hw₁⟩
          · cases hr
          · cases hr
            subst hw₁
            have hcopied := Heap.copy_ok value hlive hx
            have hheap := (hlawful.evolves_widens hcopied.heap).lawful
            exact (hheap.declareGlobal hcopied.live hdeclare).lawful
  · intro f
    cases f with
    | error e => exact Op.keeps_throw _
    | panic p => exact Op.keeps_throw _

theorem keeps_seedTier (tier : Int) {initials : NameMap Initial} (hdata : IsData initials) :
    Op.Keeps Lawful (seedTier tier initials) := by
  apply Op.Keeps.forM
  intro e he
  apply keeps_seed
  exact hdata e (List.mem_mergeSort.mp he)

theorem lawful_fresh (hfresh : w.IsFresh) : w.Lawful := by
  rcases hfresh with ⟨settings, logger, sources, hasEvaluator, rfl⟩
  exact
    { closed := fun _ => trivial
      live := by
        intro id v hv
        cases hv
      apart := by
        intro name id hid
        cases hid
      bound := by
        intro name id hid
        cases hid }

theorem lawful_start {settings : Settings} {logger : Log.Logger} {sources : List Source}
    {hasEvaluator : Bool} (hdata : settings.globals.IsData)
    (hstart : start settings logger sources hasEvaluator = .ok w) : w.Lawful := by
  have hkeeps : Op.Keeps Lawful (seedGlobals settings.globals) := by
    apply (keeps_seedTier 1 hdata.shared).bind
    intro _
    apply (keeps_seedTier 2 hdata.guarded).bind
    intro _
    exact keeps_seedTier 0 hdata.threadLocal
  have hfresh : Lawful { settings, logger, sources, hasEvaluator } :=
    lawful_fresh ⟨settings, logger, sources, hasEvaluator, rfl⟩
  unfold start at hstart
  rcases hrun : (seedGlobals settings.globals).run { settings, logger, sources, hasEvaluator } with
    ⟨r, w₁⟩
  have hlawful := hkeeps _ r w₁ hfresh hrun
  simp only [hrun] at hstart
  cases r with
  | error f => cases hstart
  | ok u =>
      cases hstart
      exact hlawful

/-!
## Reading
-/

/-- What a thread sees under a name outside all scopes: the slot of the variable that it is given,
or the failure. -/
def sees (w : World) (thread : ThreadId) (name : String) : Except Failure (Option Slot) :=
  match (lookup thread none name).run w with
  | (.ok id, w') => .ok (w'.slotOf? id)
  | (.error f, _) => .error f

/-- What is seen of a value under a name that everybody shares: its content in a slot that nobody
can assign to, or why there is no copy of it. -/
def sharedView (h : Heap) (name : String) (declared : Ty) (value : Value) :
    Except Failure (Option Slot) :=
  match (h.read value).obstacle? h.promiseName with
  | some f => .error (f.withName name)
  | none => .ok (some { declared, isMutable := false, content := h.read value })

theorem find?_outside (w : World) (name : String) : w.find? none name = none := by
  unfold find? scopeChain
  cases w.scopes.size with
  | zero => rfl
  | succ n => rfl

section

variable {thread : ThreadId} {id : VariableId} {v : Variable}

theorem Lawful.sees_frozen (hlawful : w.Lawful) (hlocal : (w.locals thread).get? name = none)
    (hfrozen : w.frozen.get? name = some id) (hv : w.vars[id]? = some v) (hplain : v.IsPlain) :
    w.sees thread name = sharedView w.heap name v.declared v.slot := by
  have hlive := hlawful.live id v hv
  have hpresent : (w.heap.contentOf v.slot).isAbsent = false := by
    rw [w.heap.contentOf_of_not_reference hplain.1]
    exact hplain.2
  unfold sees sharedView
  rw [run_lookup_frozen (w.find?_outside name) hlocal hfrozen, Op.run_withName,
    ← Heap.failure?_copyContent hlawful.closed hlive hpresent]
  unfold Heap.failure?
  rcases hrun : (snapshot id).run w with ⟨r, w'⟩
  rcases snapshot_cases hv hrun with ⟨f, hcopy, hr, hw⟩ | ⟨x, h, hcopy, hr, hw⟩
  · subst hr hw
    rw [hcopy]
    rfl
  · subst hr hw
    have hcopied := Heap.copyContent_ok hlawful.closed hlive hcopy
    have hread : h.read x = w.heap.read v.slot := by
      unfold Heap.read
      rw [h.contentOf_of_not_reference hcopied.isReference, hcopied.content]
    rw [hcopy]
    simp only [Op.named_ok, slotOf?, Array.getElem?_push_size, Option.map_some, shown,
      hcopied.isReference, hread]

/-- Two values that read the same look the same, if the promises in them have kept their names. -/
theorem sharedView_congr {h h' : Heap} {value x : Value} (hretains : h.Retains h')
    (hlive : h.Live (h.contentOf value)) (hread : h'.read x = h.read value) (declared : Ty) :
    sharedView h' name declared x = sharedView h name declared value := by
  unfold sharedView
  rw [hread, Heap.read, Heap.obstacle?_retains hretains _ hlive]

theorem sharedView_plain {h h' : Heap} (hretains : h.Retains h') (hlive : h.Live v.slot)
    (hplain : v.IsPlain) (declared : Ty) :
    sharedView h' name declared v.slot = sharedView h name declared v.slot := by
  have hcontent := h.contentOf_of_not_reference hplain.1
  apply sharedView_congr hretains
  · rw [hcontent]
    exact hlive
  · unfold Heap.read
    rw [hcontent, h'.contentOf_of_not_reference hplain.1,
      Heap.reveal_live hretains.functions v.slot hlive]

end

/-!
## Permanence
-/

/-- The name cannot be declared in any tier, assigned to or updated by anybody, nothing of this
changes the world, and a thread without a variable of its own sees the answer. -/
structure Sealed (w : World) (name : String) (answer : Except Failure (Option Slot)) : Prop where
  declare : ∀ (thread : ThreadId) (code : Int) (declared : Ty) (value : Value),
    (declareGlobal thread name code declared value).run w =
      (.error (.error (frozenFault name)), w)
  assign : ∀ (thread : ThreadId) (scope : Option ScopeId) (value : Value),
    (World.assign thread scope name value).run w = (.error (.error (sealedFault name)), w)
  update : ∀ (α : Type) (thread : ThreadId) (work : VariableId → Op α),
    (withMutableGlobal thread name work).run w = (.error (.error (unguardedFault name)), w)
  lookup : ∀ thread : ThreadId, (w.locals thread).get? name = none → w.sees thread name = answer

theorem run_assign_frozen {thread : ThreadId} {scope : Option ScopeId} {value : Value}
    {id : VariableId} (hguarded : w.guarded.get? name = none)
    (hfrozen : w.frozen.get? name = some id) :
    (World.assign thread scope name value).run w = (.error (.error (sealedFault name)), w) := by
  rcases hrun : (World.assign thread scope name value).run w with ⟨r, w'⟩
  cases assign_cases hrun with
  | frozen _ _ => rfl
  | guarded hg _ => cases hguarded.symm.trans hg
  | threadLocal _ hnone _ _ => cases hfrozen.symm.trans hnone
  | inScope _ hnone _ _ _ => cases hfrozen.symm.trans hnone
  | unbound _ hnone _ _ => cases hfrozen.symm.trans hnone

theorem Lawful.sealed (hlawful : w.Lawful) {id : VariableId} {v : Variable}
    (hfrozen : w.frozen.get? name = some id) (hv : w.vars[id]? = some v) :
    w.Sealed name (sharedView w.heap name v.declared v.slot) := by
  have hguarded := hlawful.apart name id hfrozen
  rcases hlawful.bound name id hfrozen with ⟨u, hu, hplain⟩
  cases hv.symm.trans hu
  constructor
  · intro thread code declared value
    exact run_declareGlobal_frozen hfrozen
  · intro thread scope value
    exact run_assign_frozen hguarded hfrozen
  · intro α thread work
    exact run_withMutableGlobal_none hguarded work
  · intro thread hlocal
    exact hlawful.sees_frozen hlocal hfrozen hv hplain

theorem Lawful.sealed_evolves (hlawful : w.Lawful) (hevolves : w.Evolves w') {id : VariableId}
    {v : Variable} (hfrozen : w.frozen.get? name = some id) (hv : w.vars[id]? = some v) :
    w'.Sealed name (sharedView w.heap name v.declared v.slot) := by
  rcases hlawful.bound name id hfrozen with ⟨u, hu, hplain⟩
  cases hv.symm.trans hu
  have hsealed := hevolves.lawful.sealed (hevolves.frozen name id hfrozen)
    (hevolves.vars name id v hfrozen hv)
  rw [sharedView_plain hevolves.heap (hlawful.live id v hv) hplain] at hsealed
  exact hsealed

/-- A declaration that succeeds leaves a shared immutable variable that reads like the value. -/
theorem Lawful.declared_frozen (hlawful : w.Lawful) {thread : ThreadId} {declared : Ty}
    {value : Value} (hlive : w.heap.Live value)
    (hrun : (World.declareGlobal thread name 1 declared value).run w = (.ok (), w')) :
    ∃ id v, w'.frozen.get? name = some id ∧ w'.vars[id]? = some v ∧ v.declared = declared ∧
      w'.heap.read v.slot = w.heap.read value := by
  rcases declareGlobal_cases hlawful.closed hlive hrun with
    ⟨f, hf, _⟩ | ⟨tier, r₁, w₁, lines, htier, hplaced, hr, hw⟩
  · cases hf
  have htier' : tier = .sharedImmutable := Option.some.inj (htier.symm.trans rfl)
  subst htier' hw
  cases hplaced with
  | failed f _ => cases hr
  | @bound id w₂ hmade =>
      rcases hmade.holds hlive with ⟨v, hholds⟩
      exact ⟨id, v, NameMap.get?_insert_self _ _ _, hholds.var, hholds.declared, hholds.content⟩

/-- In a run from the start no name is ever in both shared tiers.  A name that has been declared as
a shared immutable variable is sealed in all that follows: everybody sees the content that the value
had when it was declared, or is told why that has no copy. -/
theorem frozen_names_are_permanent {settings : Settings} {logger : Log.Logger}
    {sources : List Source} {hasEvaluator : Bool} {initial w : World}
    (hdata : settings.globals.IsData)
    (hstart : start settings logger sources hasEvaluator = .ok initial)
    (hrun : initial.Reaches w) :
    (∀ name, w.frozen.get? name = none ∨ w.guarded.get? name = none) ∧
      ∀ (thread : ThreadId) (name : String) (declared : Ty) (value : Value) (w₁ w₂ : World),
        w.heap.Live value → (declareGlobal thread name 1 declared value).run w = (.ok (), w₁) →
        w₁.Reaches w₂ → w₂.Sealed name (sharedView w.heap name declared value) := by
  have hlawful := (hrun.evolves (lawful_start hdata hstart)).lawful
  constructor
  · intro name
    cases hfrozen : w.frozen.get? name with
    | none => exact Or.inl rfl
    | some id => exact Or.inr (hlawful.apart name id hfrozen)
  · intro thread name declared value w₁ w₂ hlive hdeclare hlater
    have hevolves := hlawful.declareGlobal hlive hdeclare
    rcases hlawful.declared_frozen hlive hdeclare with ⟨id, v, hfrozen, hv, hdeclared, hread⟩
    have hsealed := hevolves.lawful.sealed_evolves (hlater.evolves hevolves.lawful) hfrozen hv
    rw [hdeclared, sharedView_congr hevolves.heap (hlawful.closed.contentOf hlive) hread]
      at hsealed
    exact hsealed

/-- A variable is declared from a reference, and then another value is stored through it. -/
theorem sealed_after_store_through_reference :
    let boxed := (Command.box (.int 5)).after { settings := {} }
    let declared := (Command.declare 0 "n" 1 .missing (.reference 0)).after boxed
    let stored := { declared with heap := declared.heap.store 0 (.int 7) }
    stored.Sealed "n"
      (.ok (some { declared := .missing, isMutable := false, content := .int 5 })) := by
  intro boxed declared stored
  have hdata : ({} : Settings).globals.IsData := by
    constructor
    · intro e he
      cases he
    · intro e he
      cases he
    · intro e he
      cases he
  have hstart : start {} .discard Source.standard false = .ok { settings := {} } := by
    simp [start, seedGlobals, seedTier, NameMap.toSorted, NameMap.sortPairs]
  have hboxed : Reaches { settings := {} } boxed := (Reaches.refl _).command _ rfl trivial
  have hstored : declared.Reaches stored := (Reaches.refl declared).store 0 (.int 7) trivial
  have hlive : boxed.heap.Live (.reference 0) := Nat.one_pos
  exact (frozen_names_are_permanent hdata hstart hboxed).2 0 "n" .missing (.reference 0) declared
    stored hlive rfl hstored

end World
end ScriptCore
