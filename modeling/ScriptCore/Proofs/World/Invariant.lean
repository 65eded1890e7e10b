import ScriptCore.Proofs.Heap.Typing
import ScriptCore.Proofs.World.Command
import ScriptCore.Proofs.World.Globals
import ScriptCore.Proofs.World.Looking

/-!
# Invariants of a run

All commands are made of few steps: names are bound, the heap gets functions
and promises, a cell is added, a checked variable or a copy of a variable is
added, and a value is stored in the cell of a variable.  A property of worlds
that survives the first ones survives a run exactly as long as it survives its
stores.
-/

namespace ScriptCore
namespace World

/-- The variable that a command assigns a value to, if nothing is in its way. -/
inductive Targets (w : World) : Command → VariableId → Value → Prop where
  | direct (id : VariableId) (value : Value) : Targets w (.assignValue id value) id value
  | held {thread : ThreadId} {name : String} {value : Value} {g : Guard}
      (hguarded : w.guarded.get? name = some g) (hfree : g.IsFree) :
      Targets w (.withMutable thread name value) g.var value
  | guarded {thread : ThreadId} {scope : Option ScopeId} {name : String} {value : Value}
      {g : Guard} (hguarded : w.guarded.get? name = some g) (hfree : g.IsFree) :
      Targets w (.assign thread scope name value) g.var value
  | threadLocal {thread : ThreadId} {scope : Option ScopeId} {name : String} {value : Value}
      {id : VariableId} (hguarded : w.guarded.get? name = none)
      (hfrozen : w.frozen.get? name = none) (hlocal : (w.locals thread).get? name = some id) :
      Targets w (.assign thread scope name value) id value
  | inScope {thread : ThreadId} {scope : Option ScopeId} {name : String} {value : Value}
      {id : VariableId} (hguarded : w.guarded.get? name = none)
      (hfrozen : w.frozen.get? name = none) (hlocal : (w.locals thread).get? name = none)
      (hscope : w.find? scope name = some id) : Targets w (.assign thread scope name value) id value

variable {w w' : World} {id : VariableId} {v : Variable} {h h' : Heap}
variable {c : Command} {value : Value} {cell : CellId} {thread : ThreadId} {name : String}
variable {g : Guard}

def stored (w : World) (cell : CellId) (value : Value) : World :=
  { w with heap := w.heap.store cell (w.heap.contentOf value) }

theorem run_guardedAssign (thread : ThreadId) (hguarded : w.guarded.get? name = some g)
    (hfree : g.IsFree) (hassign : Assignable w g.var value cell) :
    (Op.withName name (withGuard thread name g fun id => assignValue id value)).run w =
      (.ok (), w.stored cell value) := by
  have hheld : Assignable (w.hold name g thread) g.var value cell :=
    ⟨hassign.present, hassign.fits⟩
  have hrun : (withGuard thread name g fun id => assignValue id value).run w =
      (.ok (), w.stored cell value) :=
    run_withGuard_same hguarded hfree rfl rfl (run_assignValue hheld)
  rw [Op.run_withName, hrun, Op.named_ok]

theorem run_namedAssign (name : String) (hassign : Assignable w id value cell) :
    (Op.withName name (assignValue id value)).run w = (.ok (), w.stored cell value) := by
  rw [Op.run_withName, run_assignValue hassign, Op.named_ok]
  rfl

theorem Targets.after (htarget : Targets w c id value) (hassign : Assignable w id value cell) :
    c.after w = w.stored cell value := by
  cases htarget with
  | direct id value => exact Command.after_of (Op.run_map_of (run_assignValue hassign))
  | @held thread name value g hguarded hfree =>
      have hrun := run_guardedAssign thread hguarded hfree hassign
      exact Command.after_of (Op.run_map_of ((run_withMutableGlobal hguarded _).trans hrun))
  | @guarded thread scope name value g hguarded hfree =>
      have hrun := run_guardedAssign thread hguarded hfree hassign
      exact Command.after_of (Op.run_map_of ((run_assign_guarded hguarded).trans hrun))
  | @threadLocal thread scope name value id hguarded hfrozen hlocal =>
      have hrun := run_namedAssign name hassign
      exact Command.after_of (Op.run_map_of
        ((run_assign_local hguarded hfrozen hlocal).trans hrun))
  | @inScope thread scope name value id hguarded hfrozen hlocal hscope =>
      have hrun := run_namedAssign name hassign
      exact Command.after_of (Op.run_map_of
        ((run_assign_inScope hguarded hfrozen hlocal hscope).trans hrun))

def Unmoved (w w' : World) : Prop :=
  w'.heap = w.heap ∧ w'.vars = w.vars

theorem namedAssign_cases {r : Except Failure Unit}
    (hrun : (Op.withName name (assignValue id value)).run w = (r, w')) :
    (∃ cell, Assignable w id value cell) ∨ Unmoved w w' := by
  have hupdated : ∃ r₁, Updated w id value r₁ w' := by
    rcases Op.withName_cases hrun with ⟨f, hassign, _⟩ | ⟨_, hassign, _⟩
    · exact ⟨_, assignValue_updated hassign⟩
    · exact ⟨_, assignValue_updated hassign⟩
  rcases hupdated with ⟨r₁, hupdated⟩
  cases hupdated with
  | refused f _ => exact Or.inr ⟨rfl, rfl⟩
  | stored hassign => exact Or.inl ⟨_, hassign⟩

theorem guardedAssign_cases {r : Except Failure Unit}
    (hrun : (Op.withName name (withGuard thread name g fun id => assignValue id value)).run w =
      (r, w')) :
    (g.IsFree ∧ ∃ cell, Assignable w g.var value cell) ∨ Unmoved w w' := by
  have hguard : ∃ r₁, (withGuard thread name g fun id => assignValue id value).run w =
      (r₁, w') := by
    rcases Op.withName_cases hrun with ⟨f, hguard, _⟩ | ⟨_, hguard, _⟩
    · exact ⟨_, hguard⟩
    · exact ⟨_, hguard⟩
  rcases hguard with ⟨r₁, hguard⟩
  rcases withGuard_cases hguard with ⟨_, _, _, hw⟩ | ⟨hfree, w₁, hwork, hw⟩
  · rw [hw]
    exact Or.inr ⟨rfl, rfl⟩
  rcases release_cases w₁ name (isPanic r₁) with ⟨guarded, lines, hrelease⟩
  rw [hrelease] at hw
  cases assignValue_updated hwork with
  | refused f _ =>
      rw [hw]
      exact Or.inr ⟨rfl, rfl⟩
  | @stored cell hassign => exact Or.inl ⟨hfree, cell, hassign.present, hassign.fits⟩

theorem assign_effect {scope : Option ScopeId} :
    (∃ id cell, Targets w (.assign thread scope name value) id value ∧
      Assignable w id value cell) ∨
      Unmoved w ((Command.assign thread scope name value).after w) := by
  rcases hrun : (World.assign thread scope name value).run w with ⟨r, w'⟩
  have hafter : (Command.assign thread scope name value).after w = w' :=
    Command.after_of (Op.run_map_of hrun)
  rw [hafter]
  cases assign_cases hrun with
  | @guarded g r w' hguarded hassigned =>
      rcases guardedAssign_cases hassigned with ⟨hfree, cell, hassign⟩ | hsame
      · exact Or.inl ⟨g.var, cell, Targets.guarded hguarded hfree, hassign⟩
      · exact Or.inr hsame
  | frozen _ _ => exact Or.inr ⟨rfl, rfl⟩
  | @threadLocal id r w' hguarded hfrozen hlocal hassigned =>
      rcases namedAssign_cases hassigned with ⟨cell, hassign⟩ | hsame
      · exact Or.inl ⟨id, cell, Targets.threadLocal hguarded hfrozen hlocal, hassign⟩
      · exact Or.inr hsame
  | @inScope id r w' hguarded hfrozen hlocal hscope hassigned =>
      rcases namedAssign_cases hassigned with ⟨cell, hassign⟩ | hsame
      · exact Or.inl ⟨id, cell, Targets.inScope hguarded hfrozen hlocal hscope, hassign⟩
      · exact Or.inr hsame
  | unbound _ _ _ _ => exact Or.inr ⟨rfl, rfl⟩

theorem withMutable_effect :
    (∃ id cell, Targets w (.withMutable thread name value) id value ∧
      Assignable w id value cell) ∨
      Unmoved w ((Command.withMutable thread name value).after w) := by
  rcases hrun : (withMutableGlobal thread name fun id => World.assignValue id value).run w with
    ⟨r, w'⟩
  have hafter : (Command.withMutable thread name value).after w = w' :=
    Command.after_of (Op.run_map_of hrun)
  rw [hafter]
  cases hguarded : w.guarded.get? name with
  | none =>
      rw [run_withMutableGlobal_none hguarded] at hrun
      cases hrun
      exact Or.inr ⟨rfl, rfl⟩
  | some g =>
      rw [run_withMutableGlobal hguarded] at hrun
      rcases guardedAssign_cases hrun with ⟨hfree, cell, hassign⟩ | hsame
      · exact Or.inl ⟨g.var, cell, Targets.held hguarded hfree, hassign⟩
      · exact Or.inr hsame

theorem assignValue_effect :
    (∃ cell, Assignable w id value cell) ∨ Unmoved w ((Command.assignValue id value).after w) := by
  rcases hrun : (World.assignValue id value).run w with ⟨r, w'⟩
  have hafter : (Command.assignValue id value).after w = w' :=
    Command.after_of (Op.run_map_of hrun)
  rw [hafter]
  cases assignValue_updated hrun with
  | refused f _ => exact Or.inr ⟨rfl, rfl⟩
  | stored hassign => exact Or.inl ⟨_, hassign⟩

/-!
## Parameters
-/

theorem paramSlot_cases {f : Signature} {p : Param} {r : Except Failure Value}
    (hv : w.vars[id]? = some v) (hrun : (paramSlot f p id).run w = (r, w')) :
    (∃ e, r = .error e ∧ w' = w) ∨ (∃ cell, v.slot = .reference cell ∧ r = .ok v.slot ∧ w' = w) ∨
      ∃ x h, (Heap.copyContent v.slot).run w.heap = .ok (x, h) ∧ r = .ok x ∧
        w' = { w with heap := h } := by
  unfold paramSlot at hrun
  by_cases href : p.isReference = true
  · simp only [href, if_true] at hrun
    by_cases hspawn : f.spawn = true
    · simp only [hspawn, if_true] at hrun
      cases hrun
      exact Or.inl ⟨_, rfl, rfl⟩
    · simp only [hspawn, Bool.false_eq_true, if_false] at hrun
      rw [Op.run_bind, run_slot hv, Op.next_ok] at hrun
      cases hslot : v.slot with
      | reference cell =>
          rw [hslot] at hrun
          cases hrun
          exact Or.inr (Or.inl ⟨cell, rfl, rfl, rfl⟩)
      | _ =>
          rw [hslot] at hrun
          cases hrun
          exact Or.inl ⟨_, rfl, rfl⟩
  · simp only [href, Bool.false_eq_true, if_false] at hrun
    rcases Op.withName_cases hrun with ⟨e, hcopy, hr⟩ | ⟨x, hcopy, hr⟩
    · rcases copyOf_cases hv hcopy with ⟨_, _, _, hw⟩ | ⟨_, _, _, hok, _⟩
      · exact Or.inl ⟨_, hr, hw⟩
      · cases hok
    · rcases copyOf_cases hv hcopy with ⟨_, _, hf, _⟩ | ⟨x', h, hx, hok, hw⟩
      · cases hf
      · cases hok
        exact Or.inr (Or.inr ⟨x, h, hx, hr, hw⟩)

theorem valueType_cases {r : Except Failure Ty} (hrun : (valueType id).run w = (r, w')) :
    w' = w ∧ ((∃ f, r = .error f) ∨
      ∃ v type, w.vars[id]? = some v ∧ r = .ok type ∧
        (v.slot.isAbsent = true ∨ w.heap.typeOf v.slot = .ok type)) := by
  unfold valueType at hrun
  cases hv : w.vars[id]? with
  | none =>
      rw [Op.run_bind, run_slot_none hv] at hrun
      cases hrun
      exact ⟨rfl, Or.inl ⟨_, rfl⟩⟩
  | some v =>
      rw [Op.run_bind, run_slot hv, Op.next_ok] at hrun
      by_cases habsent : v.slot.isAbsent = true
      · rw [if_pos habsent] at hrun
        cases hrun
        exact ⟨rfl, Or.inr ⟨v, _, rfl, rfl, Or.inl habsent⟩⟩
      · rw [if_neg habsent] at hrun
        rcases typeOf_cases hrun with ⟨hw, ⟨p, hr⟩ | ⟨type, hr, htype⟩⟩
        · exact ⟨hw, Or.inl ⟨_, hr⟩⟩
        · exact ⟨hw, Or.inr ⟨v, type, rfl, hr, Or.inr htype⟩⟩

theorem Accepts.of_orAny {expected actual : Ty} (haccepts : Accepts expected.orAny actual) :
    Accepts expected actual := by
  cases expected with
  | missing => exact Or.inl rfl
  | _ => exact haccepts

theorem copyContent_absent {slot x : Value} (habsent : slot.isAbsent = true) :
    (Heap.copyContent slot).run h ≠ .ok (x, h') := by
  rw [Heap.run_copyContent]
  cases slot with
  | absent => exact fun hrun => nomatch hrun
  | _ => cases habsent

theorem Bindable.copied {declared : Ty} {slot x : Value} (hbindable : Bindable h declared slot)
    (hcopied : h.Copied h' (h.contentOf slot) x) : Bindable h' declared x := by
  have hpresent : x.isAbsent = false := by
    have hcontent := hcopied.content
    cases x with
    | absent =>
        have habsent := hbindable.present
        cases hslot : h.contentOf slot with
        | absent =>
            rw [hslot] at habsent
            cases habsent
        | _ =>
            rw [hslot] at hcontent
            cases hcontent
    | _ => rfl
  rcases hbindable with ⟨_, type, htype, haccepts⟩
  cases slot with
  | reference cell =>
      rcases Heap.typeOf_reference htype with ⟨inner, hinner, hload⟩
      refine ⟨hpresent, inner, hcopied.typeOf.trans hload, ?_⟩
      rcases haccepts with hmissing | hequal
      · exact Or.inl hmissing
      · rw [hinner, Ty.equal_ref_right] at hequal
        exact Or.inr hequal
  | _ => exact ⟨hpresent, type, hcopied.typeOf.trans htype, haccepts⟩

/-!
## Invariants
-/

/-- The property survives everything but stores. -/
structure Invariant (P : World → Prop) : Prop where
  sane : ∀ {w : World}, P w → w.Sane
  same : ∀ {w w' : World}, P w → Unmoved w w' → P w'
  grown : ∀ {w : World} {h : Heap}, P w → w.heap.Grows h → h.cells = w.heap.cells →
    P { w with heap := h }
  boxed : ∀ {w : World} {x : Value}, P w → w.heap.Live x → x.isReference = false →
    P { w with heap := (w.heap.newCell x).2 }
  bound : ∀ {w : World} {declared : Ty} {slot : Value}, P w → w.heap.Live slot →
    Bindable w.heap declared slot → P { w with vars := w.vars.push { declared, slot } }
  copied : ∀ {w : World} {id : VariableId} {v : Variable} {h : Heap} {x : Value}, P w →
    w.vars[id]? = some v → w.heap.Copied h (w.heap.contentOf v.slot) x →
    P { w with heap := h, vars := w.vars.push { v with slot := x } }

namespace Invariant

variable {P : World → Prop} (hinv : Invariant P)

include hinv

theorem slotFor (isMutable : Bool) {x : Value} (hw : P w) (hx : w.heap.Detached h value x)
    (hlive : w.heap.Live value) : P { w with heap := (slotFor isMutable h x).2 } := by
  have hgrown := hinv.grown hw hx.heap.grows hx.heap.cells
  cases isMutable with
  | false => exact hgrown
  | true => exact hinv.boxed hgrown (hx.live hlive) hx.isReference

theorem made {declared : Ty} {isMutable : Bool} {r : Except Failure VariableId} (hw : P w)
    (hlive : w.heap.Live value) (hmade : Made w declared value isMutable r w') : P w' := by
  cases hmade with
  | refused f => exact hw
  | misfit f hx => exact hinv.slotFor isMutable hw hx hlive
  | made hx hbindable =>
      exact hinv.bound (hinv.slotFor isMutable hw hx hlive) (slotFor_live isMutable hx hlive)
        hbindable

theorem placed {p : Place} {declared : Ty} {isMutable : Bool} {r : Except Failure VariableId}
    (hw : P w) (hlive : w.heap.Live value) (hplaced : Placed w p declared value isMutable r w') :
    P w' := by
  cases hplaced with
  | failed f hmade => exact hinv.made hw hlive hmade
  | bound hmade =>
      exact hinv.same (hinv.made hw hlive hmade) ⟨heap_bindAt _ _ p, vars_bindAt _ _ p⟩

theorem newReference {r : Except Failure Value} (hw : P w) (hlive : w.heap.Live value)
    (hrun : (Op.build (Heap.newReference value)).run w = (r, w')) : P w' := by
  have hsane := hinv.sane hw
  rcases Op.build_cases hrun with ⟨f, _, _, hw'⟩ | ⟨x, h, hx, _, hw'⟩
  · rw [hw']
    exact hw
  · rcases Heap.newReference_ok hsane.closed hlive hx with
      ⟨content, h₁, hwidens, hcontent, hflat, _, hheap⟩
    rw [hw', hheap]
    exact hinv.boxed (hinv.grown hw hwidens.grows hwidens.cells) hcontent (hflat hsane.flat)

theorem keeps_snapshot (id : VariableId) : Op.Keeps P (snapshot id) := by
  intro w r w' hw hrun
  have hsane := hinv.sane hw
  cases hv : w.vars[id]? with
  | none =>
      rw [(snapshot_none hv hrun).2]
      exact hw
  | some v =>
      rcases snapshot_cases hv hrun with ⟨f, _, _, hw'⟩ | ⟨x, h, hcopy, _, hw'⟩
      · rw [hw']
        exact hw
      · rw [hw']
        exact hinv.copied hw hv (Heap.copyContent_ok hsane.closed (hsane.live id v hv) hcopy)

theorem keeps_withGuard {α : Type} {work : VariableId → Op α}
    (hwork : ∀ id, Op.Keeps P (work id)) (thread : ThreadId) (name : String) (g : Guard) :
    Op.Keeps P (withGuard thread name g work) := by
  intro w r w' hw hrun
  rcases withGuard_cases hrun with ⟨_, f, _, hw'⟩ | ⟨_, w₁, hheld, hw'⟩
  · rw [hw']
    exact hw
  · have hw₀ : P (w.hold name g thread) := hinv.same hw ⟨rfl, rfl⟩
    have hw₁ := hwork g.var _ r w₁ hw₀ hheld
    rcases release_cases w₁ name (isPanic r) with ⟨guarded, lines, hrelease⟩
    rw [hw', hrelease]
    exact hinv.same hw₁ ⟨rfl, rfl⟩

theorem keeps_lookup (thread : ThreadId) (scope : Option ScopeId) (name : String) :
    Op.Keeps P (lookup thread scope name) := by
  intro w r w' hw hrun
  cases lookup_cases hrun with
  | inScope _ => exact hw
  | threadLocal _ _ => exact hw
  | @frozen id r w' _ _ _ hsnapshot =>
      exact (hinv.keeps_snapshot id).withName name w r w' hw hsnapshot
  | @guarded g r w' _ _ _ _ hsnapshot =>
      have hkeeps := hinv.keeps_withGuard hinv.keeps_snapshot thread name g
      exact hkeeps.withName name w r w' hw hsnapshot
  | unbound _ _ _ _ => exact hw

theorem keeps_log (level : Log.Level) (message : String) (attrs : List (String × Log.AttrValue)) :
    Op.Keeps P (log level message attrs) := by
  intro w r w' hw hrun
  rcases run_log w level message attrs with ⟨lines, hlines⟩
  rw [hlines] at hrun
  cases hrun
  exact hinv.same hw ⟨rfl, rfl⟩

theorem keeps_completePromise (id : PromiseId) (state : PromiseState) :
    Op.Keeps P (completePromise id state) := by
  intro w r w' hw hrun
  unfold completePromise promise at hrun
  rw [Op.run_bind, Op.run_bind, Op.run_get, Op.next_ok] at hrun
  cases hp : w.heap.promises[id]? with
  | none =>
      rw [hp] at hrun
      cases hrun
      exact hw
  | some p =>
      rw [hp] at hrun
      cases hrun
      have htype : (p.complete state).returnType = p.returnType := by
        unfold Promise.complete
        cases p.state.isDone <;> rfl
      exact hinv.grown hw (Heap.Grows.setPromise w.heap hp htype) rfl

theorem keeps_concludePromise (id : PromiseId) (outcome : Except Failure Value) :
    Op.Keeps P (concludePromise id outcome) := by
  apply Op.Keeps.tryCatch
  · cases outcome with
    | ok result =>
        exact (keeps_promise id).bind fun p => (keeps_typeOf _).bind fun actual =>
          hinv.keeps_completePromise id _
    | error f =>
        cases f with
        | error e => exact (keeps_promise id).bind fun p => hinv.keeps_completePromise id _
        | panic cause => exact Op.keeps_throw _
  · intro f
    cases f with
    | error e => exact Op.keeps_throw _
    | panic cause =>
        refine (keeps_promise id).bind fun p => ?_
        exact (hinv.keeps_log _ _ _).bind fun _ => hinv.keeps_completePromise id _

theorem keeps_onHeap {α : Type} {change : Heap → α × Heap}
    (hgrows : ∀ h : Heap, h.Grows (change h).2)
    (hcells : ∀ h : Heap, (change h).2.cells = h.cells) : Op.Keeps P (Op.onHeap change) := by
  intro w r w' hw hrun
  cases hrun
  exact hinv.grown hw (hgrows w.heap) (hcells w.heap)

theorem keeps_newPromise (f : Signature) : Op.Keeps P (newPromise f) := by
  refine Op.Keeps.bind (hinv.keeps_onHeap (fun h => Heap.Grows.newPromise h _) fun h => rfl) ?_
  intro id
  exact (hinv.keeps_log _ _ _).bind fun _ => Op.keeps_pure id

theorem keeps_fork : Op.Keeps P fork := by
  refine Op.Keeps.bind ?_ fun id => (hinv.keeps_log _ _ _).bind fun _ => Op.keeps_pure id
  intro w r w' hw hrun
  cases hrun
  exact hinv.same hw ⟨rfl, rfl⟩

theorem keeps_newScope (outer : Option ScopeId) : Op.Keeps P (newScope outer) := by
  intro w r w' hw hrun
  cases hrun
  exact hinv.same hw ⟨rfl, rfl⟩

theorem keeps_frozenCopy (name : String) (id : VariableId) : Op.Keeps P (frozenCopy name id) := by
  refine (keeps_isMutable id).bind ?_
  intro isMutable
  cases isMutable with
  | false => exact Op.keeps_pure id
  | true => exact (hinv.keeps_snapshot id).withName name

theorem keeps_detached (scope : Option ScopeId) : Op.Keeps P (detached scope) := by
  refine Op.keeps_get_bind ?_
  intro w
  refine Op.Keeps.bind (Op.Keeps.mapM ?_ _) ?_
  · intro e
    exact (hinv.keeps_frozenCopy e.1 e.2).bind fun id => Op.keeps_pure (e.1, id)
  intro copies
  refine (hinv.keeps_newScope none).bind ?_
  intro id
  refine Op.Keeps.bind (Op.keeps_modify ?_) fun _ => Op.keeps_pure id
  intro w hw
  exact hinv.same hw ⟨rfl, rfl⟩

theorem keeps_bindName (scope : ScopeId) (name : String) (id : VariableId) :
    Op.Keeps P (bindName (some scope) name id) := by
  intro w r w' hw hrun
  rcases bindName_cases hrun with ⟨_, _, hw'⟩ | ⟨_, hw'⟩
  · rw [hw']
    exact hw
  · rw [hw']
    exact hinv.same hw ⟨heap_bindAt _ _ _, vars_bindAt _ _ _⟩

/-- A parameter has passed the check of its argument, be it a copy or a second name for a cell. -/
theorem param {f : Signature} {p : Param} {slot : Value} (hw : P w) (hv : w.vars[id]? = some v)
    (hbindable : v.slot.isAbsent = false → Bindable w.heap p.type v.slot)
    (hslot : (paramSlot f p id).run w = (.ok slot, w')) :
    P { w' with vars := w'.vars.push { declared := p.type, slot } } := by
  have hsane := hinv.sane hw
  rcases paramSlot_cases hv hslot with
    ⟨_, hf, _⟩ | ⟨cell, hcell, hok, hw'⟩ | ⟨x, h, hcopy, hok, hw'⟩
  · cases hf
  · cases hok
    subst hw'
    apply hinv.bound hw (hsane.live id v hv) (hbindable _)
    rw [hcell]
    rfl
  · cases hok
    subst hw'
    have hpresent : v.slot.isAbsent = false := by
      by_cases habsent : v.slot.isAbsent = true
      · exact absurd hcopy (copyContent_absent habsent)
      · simpa using habsent
    have hcopied := Heap.copyContent_ok hsane.closed (hsane.live id v hv) hcopy
    have hgrown := hinv.grown hw hcopied.heap.grows hcopied.heap.cells
    exact hinv.bound hgrown hcopied.live ((hbindable hpresent).copied hcopied)

theorem keeps_bindParam (f : Signature) (scope : ScopeId) (index : Nat) (p : Param)
    (arg : Option VariableId) : Op.Keeps P (bindParam f scope index p arg) := by
  intro w r w' hw hrun
  unfold bindParam at hrun
  cases arg with
  | none =>
      cases hrun
      exact hw
  | some arg =>
      rcases Op.bind_cases hrun with ⟨e, htype, _⟩ | ⟨actual, w₁, htype, hchecked⟩
      · rw [(valueType_cases htype).1]
        exact hw
      rcases valueType_cases htype with ⟨hw₁, ⟨_, hf⟩ | ⟨v, type, hv, hok, hactual⟩⟩
      · cases hf
      cases hok
      subst hw₁
      rcases Op.bind_cases hchecked with ⟨e, hreq, _⟩ | ⟨_, w₂, hreq, hbound⟩
      · rw [(require_cases hreq).1]
        exact hw
      rcases require_cases hreq with ⟨hw₂, ⟨_, hf⟩ | ⟨_, haccepts⟩⟩
      · cases hf
      subst hw₂
      -- the check was made on the argument, and what is bound is its slot or a copy of its content
      have hbindable : v.slot.isAbsent = false → Bindable w₂.heap p.type v.slot := by
        intro hpresent
        cases hactual with
        | inl habsent =>
            rw [hpresent] at habsent
            cases habsent
        | inr htypeOf => exact ⟨hpresent, actual, htypeOf, haccepts.of_orAny⟩
      rcases Op.bind_cases hbound with ⟨e, hslot, _⟩ | ⟨slot, w₃, hslot, hadded⟩
      · rcases paramSlot_cases hv hslot with ⟨_, _, hw'⟩ | ⟨_, _, hok, _⟩ | ⟨_, _, _, hok, _⟩
        · rw [hw']
          exact hw
        · cases hok
        · cases hok
      · rw [Op.run_bind, run_addVariable, Op.next_ok] at hadded
        have hadd := hinv.param hw hv hbindable hslot
        exact hinv.keeps_bindName scope p.name w₃.vars.size _ r w' hadd hadded

theorem keeps_bindFrom (f : Signature) (scope : ScopeId) (params : List Param) :
    ∀ (index : Nat) (args : Args), Op.Keeps P (bindFrom f scope index params args) := by
  induction params with
  | nil =>
      intro index args
      rw [bindFrom]
      · exact Op.keeps_pure ()
      · intro p params arg args hparams
        cases hparams
  | cons p rest ih =>
      intro index args
      cases args with
      | nil => exact Op.keeps_pure ()
      | cons arg args =>
          exact (hinv.keeps_bindParam f scope index p arg).bind fun _ => ih (index + 1) args

theorem keeps_prepare (f : Function) (args : Args) : Op.Keeps P (prepare f args) := by
  have hbind : ∀ closure, Op.Keeps P (bindParams f.signature closure args) := by
    intro closure
    unfold bindParams
    by_cases hlength : args.length ≠ f.signature.params.length
    · rw [if_pos hlength]
      exact (Op.keeps_throw _).bind fun _ =>
        (hinv.keeps_newScope closure).bind fun scope =>
          (hinv.keeps_bindFrom f.signature scope _ 0 args).bind fun _ => Op.keeps_pure scope
    · rw [if_neg hlength]
      exact (hinv.keeps_newScope closure).bind fun scope =>
        (hinv.keeps_bindFrom f.signature scope _ 0 args).bind fun _ => Op.keeps_pure scope
  unfold prepare
  by_cases hspawn : f.signature.spawn = true
  · simp only [hspawn, if_true]
    exact Op.Keeps.bind (((hinv.keeps_detached f.closure).withName _).map some) hbind
  · simp only [hspawn, Bool.false_eq_true, if_false, pure_bind]
    exact hbind f.closure

/-!
## Whole commands
-/

omit hinv in
theorem after (hw : P w) (hkeeps : Op.Keeps P c.perform) : P (c.after w) :=
  hkeeps w _ _ hw rfl

theorem assigned (hw : P w)
    (hstored : ∀ id value cell, Targets w c id value → Assignable w id value cell →
      P (w.stored cell value))
    (heffect : (∃ id cell, Targets w c id value ∧ Assignable w id value cell) ∨
      Unmoved w (c.after w)) : P (c.after w) := by
  rcases heffect with ⟨id, cell, htarget, hassign⟩ | hunmoved
  · rw [htarget.after hassign]
    exact hstored id value cell htarget hassign
  · exact hinv.same hw hunmoved

theorem step (hw : P w) (hvalid : c.Valid w)
    (hstored : ∀ id value cell, Targets w c id value → Assignable w id value cell →
      P (w.stored cell value)) : P (c.after w) := by
  have hclosed := (hinv.sane hw).closed
  cases c with
  | newScope outer => exact after hw ((hinv.keeps_newScope outer).map _)
  | fork => exact after hw (hinv.keeps_fork.map _)
  | box value =>
      rcases hrun : (Op.build (Heap.newReference value)).run w with ⟨r, w'⟩
      rw [Command.after_of (Op.run_map_of hrun)]
      exact hinv.newReference hw hvalid hrun
  | newFunction f =>
      have hkeeps : Op.Keeps P (Op.onHeap fun h => h.newFunction f) :=
        hinv.keeps_onHeap (fun h => Heap.Grows.newFunction h f) fun h => rfl
      exact after hw (hkeeps.map _)
  | newPromise f => exact after hw ((hinv.keeps_newPromise f).map _)
  | conclude id outcome => exact after hw ((hinv.keeps_concludePromise id outcome).map _)
  | bind declared value isMutable =>
      cases isMutable with
      | false =>
          rcases hrun : (bindValue declared value).run w with ⟨r, w'⟩
          rw [Command.after_of (c := .bind declared value false) (Op.run_map_of hrun)]
          rcases bindValue_cases hrun with ⟨f, _, hw'⟩ | ⟨_, hbindable, hw'⟩
          · rw [hw']
            exact hw
          · rw [hw']
            exact hinv.bound hw hvalid hbindable
      | true =>
          rcases hrun : (bindMutable declared value).run w with ⟨r, w'⟩
          rw [Command.after_of (c := .bind declared value true) (Op.run_map_of hrun)]
          exact hinv.made hw hvalid (bindMutable_made hclosed hvalid hrun)
  | define scope name declared value isMutable =>
      rcases hrun : (World.define (some scope) name declared value isMutable).run w with ⟨r, w'⟩
      rw [Command.after_of (Op.run_map_of hrun)]
      exact hinv.placed hw hvalid.2 (define_cases hclosed hvalid.2 hrun)
  | declare thread name code declared value =>
      rcases hrun : (World.declareGlobal thread name code declared value).run w with ⟨r, w'⟩
      rw [Command.after_of (Op.run_map_of hrun)]
      rcases declareGlobal_cases hclosed hvalid.2 hrun with
        ⟨f, _, hw'⟩ | ⟨tier, r₁, w₁, lines, _, hplaced, _, hw'⟩
      · rw [hw']
        exact hw
      · rw [hw']
        exact hinv.same (hinv.placed hw hvalid.2 hplaced) ⟨rfl, rfl⟩
  | lookup thread scope name => exact after hw ((hinv.keeps_lookup thread scope name).map _)
  | assignValue id value =>
      apply hinv.assigned hw hstored
      rcases @assignValue_effect w id value with ⟨cell, hassign⟩ | hunmoved
      · exact Or.inl ⟨id, cell, Targets.direct id value, hassign⟩
      · exact Or.inr hunmoved
  | assign thread scope name value => exact hinv.assigned hw hstored assign_effect
  | withMutable thread name value => exact hinv.assigned hw hstored withMutable_effect
  | call f args => exact after hw ((hinv.keeps_prepare f args).map _)

theorem of_history {S : World → Command → Prop} {past : List (World × Command)}
    (hfresh : ∀ {w : World}, w.IsFresh → P w)
    (hstored : ∀ {w : World} {c : Command}, P w → c.Valid w → S w c → ∀ id value cell,
      Targets w c id value → Assignable w id value cell → P (w.stored cell value))
    (hpast : History past w) (hall : ∀ e ∈ past, S e.1 e.2) : (∀ e ∈ past, P e.1) ∧ P w := by
  induction hpast with
  | fresh hw => exact ⟨(fun e he => nomatch he), hfresh hw⟩
  | step hpast c hvalid ih =>
      rcases ih fun e he => hall e (List.mem_cons_of_mem _ he) with ⟨hbefore, hlast⟩
      constructor
      · intro e he
        cases he with
        | head => exact hlast
        | tail _ he => exact hbefore e he
      · exact hinv.step hlast hvalid (hstored hlast hvalid (hall _ List.mem_cons_self))

end Invariant

/-- If a property before and after a command says something about the command, then a property that
holds all along a run says it about all its commands. -/
theorem History.all_of {P : World → Prop} {S : World → Command → Prop}
    {past : List (World × Command)} (hpast : History past w)
    (hstep : ∀ {w : World} {c : Command}, P w → P (c.after w) → S w c)
    (hall : (∀ e ∈ past, P e.1) ∧ P w) : ∀ e ∈ past, S e.1 e.2 := by
  induction hpast with
  | fresh hw => exact fun e he => nomatch he
  | step hpast c hvalid ih =>
      rcases hall with ⟨hbefore, hlast⟩
      have hw := hbefore _ List.mem_cons_self
      intro e he
      cases he with
      | head => exact hstep hw hlast
      | tail _ he => exact ih ⟨fun e he => hbefore e (List.mem_cons_of_mem _ he), hw⟩ e he

theorem Targets.live (htarget : Targets w c id value) (hvalid : c.Valid w) :
    w.heap.Live value := by
  cases htarget with
  | direct id value => exact hvalid
  | held _ _ => exact hvalid.2
  | guarded _ _ => exact hvalid.2.2
  | threadLocal _ _ _ => exact hvalid.2.2
  | inScope _ _ _ _ => exact hvalid.2.2

end World
end ScriptCore
