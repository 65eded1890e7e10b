import ScriptCore.Proofs.Heap.Reach
import ScriptCore.Proofs.World.Looking
import ScriptCore.Proofs.World.Variable
import ScriptCore.World.Start

/-!
# Properties of the heap that last

Operations on the world do few things to the heap, promises apart.  They take
marks, copy functions and give them names, put contents into new cells and
store contents in old ones.  A property of the heap that survives these steps
survives every operation.  The rules for sequences are tagged for `grind`; so
an operation without steps of its own on the heap takes its definition and
nothing else.
-/

namespace ScriptCore
namespace Heap

variable {α β : Type} {Q : Heap → Prop}

/-- The property survives what operations on the world do to the heap. -/
structure Robust (Q : Heap → Prop) : Prop where
  marked : ∀ {h : Heap}, Q h → Q h.newMark.2
  duplicated : ∀ {h : Heap} {id : FunctionId} {f : Function}, Q h →
    h.functions[id]? = some f → Q (h.newFunction f).2
  named : ∀ {h : Heap} {id : FunctionId} {f : Function} (signature : Signature), Q h →
    h.functions[id]? = some f → Q (h.setFunction id { f with signature })
  boxed : ∀ {h : Heap} (v : Value), Q h → Q (h.newCell (h.contentOf v)).2
  stored : ∀ {h : Heap} (cell : CellId) (v : Value), Q h → Q (h.store cell (h.contentOf v))

def Sustains (Q : Heap → Prop) (b : Building α) : Prop :=
  ∀ h a h', Q h → b.run h = .ok (a, h') → Q h'

theorem sustains_pure (a : α) : Sustains Q (pure a : Building α) := by
  intro h a h' hh hrun
  cases hrun
  exact hh

theorem sustains_throw (e : Failure) : Sustains Q (throw e : Building α) := by
  intro h a h' _ hrun
  cases hrun

theorem Sustains.bind {b : Building α} {f : α → Building β} (hb : Sustains Q b)
    (hf : ∀ a, Sustains Q (f a)) : Sustains Q (b >>= f) := by
  intro h c h' hh hrun
  rcases build_bind hrun with ⟨a, h₁, hfirst, hrest⟩
  exact hf a h₁ c h' (hb h a h₁ hh hfirst) hrest

/-!
## Copies
-/

theorem isReference_of_cells {v : Value} (hcells : v.cells = []) : v.isReference = false := by
  cases v with
  | reference cell => cases hcells
  | _ => rfl

theorem copy_isReference {h h' : Heap} {v x : Value} (hrun : (copy v).run h = .ok (x, h')) :
    x.isReference = false :=
  isReference_of_cells (copy_cells v hrun).1

theorem detach_isReference {h h' : Heap} {v x : Value}
    (hrun : (detach v).run h = .ok (x, h')) : x.isReference = false := by
  unfold detach at hrun
  split at hrun
  · exact isReference_of_cells (copyContent_cells hrun).1
  · rename_i hv
    cases hrun
    simpa using hv

namespace Robust

theorem sustains_freshMark (hQ : Robust Q) : Sustains Q freshMark := by
  intro h a h' hh hrun
  cases hrun
  exact hQ.marked hh

theorem sustains_copyFunction (hQ : Robust Q) (id : FunctionId) : Sustains Q (copyFunction id) := by
  intro h a h' hh hrun
  cases hf : h.functions[id]? with
  | none =>
      rw [run_copyFunction_none hf] at hrun
      cases hrun
      exact hh
  | some f =>
      rw [run_copyFunction hf] at hrun
      cases hrun
      exact hQ.duplicated hh hf

mutual

theorem sustains_copy (hQ : Robust Q) : (v : Value) → Sustains Q (copy v)
  | .absent => sustains_throw _
  | .list _ _ items =>
      (sustains_copyAll hQ items).bind fun _ =>
        hQ.sustains_freshMark.bind fun _ => sustains_pure _
  | .tuple _ items =>
      (sustains_copyAll hQ items).bind fun _ =>
        hQ.sustains_freshMark.bind fun _ => sustains_pure _
  | .algebraic _ _ fields =>
      (sustains_copyFields hQ fields).bind fun _ =>
        hQ.sustains_freshMark.bind fun _ => sustains_pure _
  | .alias _ _ _ content =>
      (sustains_copy hQ content).bind fun _ =>
        hQ.sustains_freshMark.bind fun _ => sustains_pure _
  | .reference _ => sustains_throw _
  | .function id => hQ.sustains_copyFunction id
  | .promise _ => fun _ _ _ _ hrun => nomatch hrun
  | .int _ => sustains_pure _
  | .uint _ => sustains_pure _
  | .float _ => sustains_pure _
  | .char _ => sustains_pure _
  | .byte _ => sustains_pure _
  | .bool _ => sustains_pure _

theorem sustains_copyAll (hQ : Robust Q) : (vs : List Value) → Sustains Q (copyAll vs)
  | [] => sustains_pure _
  | v :: rest =>
      (sustains_copy hQ v).bind fun _ => (sustains_copyAll hQ rest).bind fun _ => sustains_pure _

theorem sustains_copyFields (hQ : Robust Q) :
    (fs : List (String × Value)) → Sustains Q (copyFields fs)
  | [] => sustains_pure _
  | (_, v) :: rest =>
      (sustains_copy hQ v).bind fun _ => (sustains_copyFields hQ rest).bind fun _ => sustains_pure _

end

theorem sustains_copyContent (hQ : Robust Q) (v : Value) : Sustains Q (copyContent v) := by
  intro h x h' hh hrun
  rw [run_copyContent] at hrun
  split at hrun
  · cases hrun
  · exact hQ.sustains_copy _ h x h' hh hrun

theorem sustains_detach (hQ : Robust Q) (v : Value) : Sustains Q (detach v) := by
  unfold detach
  split
  · exact hQ.sustains_copyContent v
  · exact sustains_pure v

theorem sustains_newReference (hQ : Robust Q) (v : Value) : Sustains Q (newReference v) := by
  intro h x h' hh hrun
  cases hdetach : (detach v).run h with
  | ok r =>
      rw [run_newReference_ok hdetach] at hrun
      cases hrun
      rw [← contentOf_of_not_reference r.2 (detach_isReference hdetach)]
      exact hQ.boxed r.1 (hQ.sustains_detach v h r.1 r.2 hh hdetach)
  | error f =>
      cases f with
      | error e =>
          rw [run_newReference_moved hdetach] at hrun
          cases hrun
          exact hQ.boxed v hh
      | panic p =>
          rw [run_newReference_panic hdetach] at hrun
          cases hrun

end Robust

attribute [grind ←] Robust.sustains_freshMark Robust.sustains_copy Robust.sustains_copyContent
  Robust.sustains_detach Robust.sustains_newReference

end Heap

/-!
## Operations on the world
-/

namespace World

variable {α : Type} {Q : Heap → Prop}

def OnHeap (Q : Heap → Prop) (w : World) : Prop :=
  Q w.heap

@[grind ←] theorem keeps_build {b : Heap.Building α} (hb : Heap.Sustains Q b) :
    Op.Keeps (OnHeap Q) (Op.build b) := by
  intro w r w' hw hrun
  rcases Op.build_cases hrun with ⟨f, _, _, rfl⟩ | ⟨a, h, hbuilt, _, rfl⟩
  · exact hw
  · exact hb w.heap a h hw hbuilt

@[grind ←] theorem keeps_log (level : Log.Level) (message : String)
    (attrs : List (String × Log.AttrValue)) : Op.Keeps (OnHeap Q) (log level message attrs) := by
  unfold log
  grind [OnHeap]

@[grind ←] theorem keeps_addVariable (v : Variable) : Op.Keeps (OnHeap Q) (addVariable v) := by
  unfold addVariable
  grind [OnHeap]

@[grind ←] theorem keeps_bindValue (declared : Ty) (value : Value) :
    Op.Keeps (OnHeap Q) (bindValue declared value) :=
  (keeps_checkBinding declared value).bind fun _ => keeps_addVariable _

@[grind ←] theorem keeps_setValue (var : VariableId) (value : Value) :
    Op.Keeps (OnHeap Q) (setValue var value) := by
  unfold setValue
  grind [OnHeap]

@[grind ←] theorem keeps_bindMutable (hQ : Heap.Robust Q) (declared : Ty) (value : Value) :
    Op.Keeps (OnHeap Q) (bindMutable declared value) :=
  (keeps_build (hQ.sustains_detach value)).bind fun v =>
    (keeps_build (hQ.sustains_newReference v)).bind fun r => keeps_bindValue declared r

@[grind ←] theorem keeps_assignValue (hQ : Heap.Robust Q) (var : VariableId) (value : Value) :
    Op.Keeps (OnHeap Q) (assignValue var value) := by
  intro w r w' hw hrun
  cases assignValue_updated hrun with
  | refused f _ => exact hw
  | @stored cell _ => exact hQ.stored cell value hw

@[grind ←] theorem keeps_copyOf (hQ : Heap.Robust Q) (var : VariableId) :
    Op.Keeps (OnHeap Q) (copyOf var) :=
  (keeps_slot var).bind fun v => keeps_build (hQ.sustains_copyContent v)

@[grind ←] theorem keeps_snapshot (hQ : Heap.Robust Q) (var : VariableId) :
    Op.Keeps (OnHeap Q) (snapshot var) :=
  (keeps_copyOf hQ var).bind fun _ => (keeps_declared var).bind fun _ => keeps_addVariable _

/-!
### Scopes and globals
-/

@[grind ←] theorem keeps_newScope (outer : Option ScopeId) :
    Op.Keeps (OnHeap Q) (newScope outer) := by
  unfold newScope
  grind [OnHeap]

@[grind ←] theorem keeps_bindName (scope : Option ScopeId) (name : String) (var : VariableId) :
    Op.Keeps (OnHeap Q) (bindName scope name var) := by
  unfold bindName
  grind [OnHeap]

@[grind ←] theorem keeps_define (hQ : Heap.Robust Q) (scope : Option ScopeId) (name : String)
    (declared : Ty) (value : Value) (isMutable : Bool) :
    Op.Keeps (OnHeap Q) (define scope name declared value isMutable) := by
  unfold define
  grind

@[grind ←] theorem keeps_update (hQ : Heap.Robust Q) (scope : Option ScopeId) (name : String)
    (value : Value) : Op.Keeps (OnHeap Q) (update scope name value) := by
  unfold update
  grind

@[grind ←] theorem keeps_frozenCopy (hQ : Heap.Robust Q) (name : String) (var : VariableId) :
    Op.Keeps (OnHeap Q) (frozenCopy name var) := by
  unfold frozenCopy
  grind

@[grind ←] theorem keeps_detached (hQ : Heap.Robust Q) (scope : Option ScopeId) :
    Op.Keeps (OnHeap Q) (detached scope) := by
  unfold detached
  grind [OnHeap]

@[grind ←] theorem keeps_setGuard (name : String) (g : Guard) :
    Op.Keeps (OnHeap Q) (setGuard name g) := by
  unfold setGuard
  grind [OnHeap]

@[grind ←] theorem keeps_enterGuard (thread : ThreadId) (name : String) (g : Guard) :
    Op.Keeps (OnHeap Q) (enterGuard thread name g) := by
  unfold enterGuard
  grind

@[grind ←] theorem keeps_leaveGuard (name : String) (isPoisoned : Bool) :
    Op.Keeps (OnHeap Q) (leaveGuard name isPoisoned) := by
  unfold leaveGuard
  grind

@[grind ←] theorem keeps_withGuard (thread : ThreadId) (name : String) (g : Guard)
    {work : VariableId → Op α} (hwork : ∀ var, Op.Keeps (OnHeap Q) (work var)) :
    Op.Keeps (OnHeap Q) (withGuard thread name g work) := by
  unfold withGuard
  grind

@[grind ←] theorem keeps_declareLocal (hQ : Heap.Robust Q) (thread : ThreadId) (name : String)
    (declared : Ty) (value : Value) :
    Op.Keeps (OnHeap Q) (declareLocal thread name declared value) := by
  unfold declareLocal setLocal
  grind [OnHeap]

@[grind ←] theorem keeps_declareFrozen (hQ : Heap.Robust Q) (name : String) (declared : Ty)
    (value : Value) : Op.Keeps (OnHeap Q) (declareFrozen name declared value) := by
  unfold declareFrozen
  grind [OnHeap]

@[grind ←] theorem keeps_declareGuarded (hQ : Heap.Robust Q) (thread : ThreadId) (name : String)
    (declared : Ty) (value : Value) :
    Op.Keeps (OnHeap Q) (declareGuarded thread name declared value) := by
  refine ((keeps_bindMutable hQ declared value).withName name).bind fun var => ?_
  refine Op.keeps_get_bind fun w => ?_
  split
  · exact keeps_withGuard thread name _ fun _ => by grind
  · exact keeps_setGuard name _

@[grind ←] theorem keeps_declare (hQ : Heap.Robust Q) (thread : ThreadId) (name : String)
    (tier : Int) (declared : Ty) (value : Value) :
    Op.Keeps (OnHeap Q) (declare thread name tier declared value) := by
  unfold declare
  grind

@[grind ←] theorem keeps_declareGlobal (hQ : Heap.Robust Q) (thread : ThreadId) (name : String)
    (tier : Int) (declared : Ty) (value : Value) :
    Op.Keeps (OnHeap Q) (declareGlobal thread name tier declared value) :=
  (keeps_declare hQ thread name tier declared value).bind fun _ => keeps_log _ _ _

@[grind ←] theorem keeps_lookupGlobal? (hQ : Heap.Robust Q) (thread : ThreadId) (name : String) :
    Op.Keeps (OnHeap Q) (lookupGlobal? thread name) := by
  refine Op.keeps_get_bind fun w => ?_
  split
  · grind
  · split
    · grind
    · split
      · grind
      · grind

@[grind ←] theorem keeps_lookup (hQ : Heap.Robust Q) (thread : ThreadId) (scope : Option ScopeId)
    (name : String) : Op.Keeps (OnHeap Q) (lookup thread scope name) := by
  unfold lookup
  grind

@[grind ←] theorem keeps_assignGlobal (hQ : Heap.Robust Q) (thread : ThreadId) (name : String)
    (value : Value) : Op.Keeps (OnHeap Q) (assignGlobal thread name value) := by
  unfold assignGlobal
  grind

@[grind ←] theorem keeps_assign (hQ : Heap.Robust Q) (thread : ThreadId) (scope : Option ScopeId)
    (name : String) (value : Value) : Op.Keeps (OnHeap Q) (assign thread scope name value) := by
  unfold assign
  grind

@[grind ←] theorem keeps_getGlobal (hQ : Heap.Robust Q) (thread : ThreadId) (name : String) :
    Op.Keeps (OnHeap Q) (getGlobal thread name) :=
  (keeps_lookup hQ thread none name).bind fun var =>
    (keeps_slot var).bind fun v => keeps_contentOf v

@[grind ←] theorem keeps_fork : Op.Keeps (OnHeap Q) fork := by
  unfold fork newThread
  grind [OnHeap]

/-!
### Functions and classes
-/

@[grind ←] theorem keeps_nameFunction (hQ : Heap.Robust Q) (f : FunctionId) (name : String) :
    Op.Keeps (OnHeap Q) (nameFunction f name) := by
  intro w r w' hw hrun
  unfold nameFunction at hrun
  rcases Op.bind_cases hrun with ⟨e, hfound, _⟩ | ⟨g, w₁, hfound, hnamed⟩
  · exact keeps_function f w _ w' hw hfound
  · rcases function_ok hfound with ⟨hg, rfl⟩
    split at hnamed
    · cases hnamed
      exact hQ.named _ hw hg
    · cases hnamed
      exact hw

@[grind ←] theorem keeps_addFunction (hQ : Heap.Robust Q) (name : String) (f : Option FunctionId) :
    Op.Keeps (OnHeap Q) (addFunction name f) := by
  unfold addFunction
  grind [OnHeap]

@[grind ←] theorem keeps_addDefault (hQ : Heap.Robust Q) (m : ClassMethod) :
    Op.Keeps (OnHeap Q) (addDefault m) := by
  unfold addDefault
  grind [OnHeap]

@[grind ←] theorem keeps_addClass (hQ : Heap.Robust Q) (className : String)
    (methods : List ClassMethod) : Op.Keeps (OnHeap Q) (addClass className methods) := by
  unfold addClass
  grind [OnHeap]

@[grind ←] theorem keeps_addMethod (hQ : Heap.Robust Q) (className : String) (type : Ty)
    (m : InstanceMethod) : Op.Keeps (OnHeap Q) (addMethod className type m) := by
  unfold addMethod
  grind [OnHeap]

@[grind ←] theorem keeps_addInstance (hQ : Heap.Robust Q) (className : String) (type : Ty)
    (methods : List (String × Option FunctionId)) :
    Op.Keeps (OnHeap Q) (addInstance className type methods) := by
  refine Op.keeps_get_bind fun w => ?_
  split
  · grind
  · grind

theorem keeps_askSources (scope : Option ScopeId) (name : String) (args : Args)
    (sources : List Source) : Op.Keeps (OnHeap Q) (askSources scope name args sources) := by
  induction sources with
  | nil => exact Op.keeps_fail _
  | cons source rest ih =>
      unfold askSources
      grind

@[grind ←] theorem keeps_resolve (scope : Option ScopeId) (name : String) (args : Args) :
    Op.Keeps (OnHeap Q) (resolve scope name args) :=
  Op.keeps_get_bind fun w => keeps_askSources scope name args w.sources

/-!
### Calls
-/

@[grind ←] theorem keeps_paramSlot (hQ : Heap.Robust Q) (f : Signature) (param : Param)
    (arg : VariableId) : Op.Keeps (OnHeap Q) (paramSlot f param arg) := by
  unfold paramSlot
  grind

@[grind ←] theorem keeps_bindParam (hQ : Heap.Robust Q) (f : Signature) (scope : ScopeId)
    (index : Nat) (param : Param) (arg : Option VariableId) :
    Op.Keeps (OnHeap Q) (bindParam f scope index param arg) := by
  unfold bindParam
  grind

@[grind ←] theorem keeps_bindFrom (hQ : Heap.Robust Q) (f : Signature) (scope : ScopeId)
    (params : List Param) :
    ∀ (index : Nat) (args : Args), Op.Keeps (OnHeap Q) (bindFrom f scope index params args) := by
  induction params with
  | nil =>
      intro index args
      unfold bindFrom
      exact Op.keeps_pure ()
  | cons param rest ih =>
      intro index args
      unfold bindFrom
      grind

@[grind ←] theorem keeps_bindParams (hQ : Heap.Robust Q) (f : Signature) (closure : Option ScopeId)
    (args : Args) : Op.Keeps (OnHeap Q) (bindParams f closure args) := by
  unfold bindParams
  grind

@[grind ←] theorem keeps_prepare (hQ : Heap.Robust Q) (f : Function) (args : Args) :
    Op.Keeps (OnHeap Q) (prepare f args) := by
  unfold prepare
  grind

/-!
### Promises
-/

theorem keeps_newPromise (hmade : ∀ h p, Q h → Q (h.newPromise p).2) (f : Signature) :
    Op.Keeps (OnHeap Q) (newPromise f) := by
  unfold newPromise Op.onHeap
  grind [OnHeap]

theorem keeps_completePromise {id : PromiseId} (hset : ∀ h p, Q h → Q (h.setPromise id p))
    (state : PromiseState) : Op.Keeps (OnHeap Q) (completePromise id state) := by
  unfold completePromise
  grind [OnHeap]

theorem keeps_concludePromise {id : PromiseId} (hset : ∀ h p, Q h → Q (h.setPromise id p))
    (outcome : Except Failure Value) : Op.Keeps (OnHeap Q) (concludePromise id outcome) := by
  have hcomplete := keeps_completePromise hset
  apply Op.Keeps.tryCatch
  · unfold resolvePromise failPromise
    grind
  · unfold poisonPromise
    grind

/-!
### The start
-/

theorem onHeap_seed (hQ : Heap.Robust Q) (tier : Int) (name : String) (initial : Initial) :
    Op.Keeps (OnHeap Q) (seed tier name initial) := by
  apply Op.Keeps.tryCatch
  · cases initial with
    | ok value =>
        exact (keeps_build (hQ.sustains_copy value)).bind fun value =>
          keeps_declareGlobal hQ 0 name tier .missing value
    | error e => exact Op.keeps_fail e
  · intro e
    cases e with
    | error e => exact Op.keeps_fail _
    | panic p => exact Op.keeps_stop p

theorem onHeap_seedGlobals (hQ : Heap.Robust Q) (g : Globals) :
    Op.Keeps (OnHeap Q) (seedGlobals g) := by
  have htier : ∀ tier initials, Op.Keeps (OnHeap Q) (seedTier tier initials) :=
    fun tier initials => Op.Keeps.forM fun e _ => onHeap_seed hQ tier e.1 e.2
  unfold seedGlobals
  grind

theorem onHeap_start (hQ : Heap.Robust Q) (hempty : Q {}) {settings : Settings}
    {logger : Log.Logger} {sources : List Source} {hasEvaluator : Bool} {w : World}
    (hstart : start settings logger sources hasEvaluator = .ok w) : OnHeap Q w := by
  simp only [start] at hstart
  split at hstart
  · rename_i hrun
    cases hstart
    exact onHeap_seedGlobals hQ _ { settings, logger, sources, hasEvaluator } _ w hempty hrun
  · cases hstart

end World
end ScriptCore
