import ScriptCore.Proofs.Script.Task
import ScriptCore.Proofs.World.Robust
import ScriptCore.Script.Run

/-!
# Properties of the heap that scripts keep

A script does to the heap what operations on the world do, and three things
besides: it makes functions, it edits objects in place, and it stores values in
cells as they are.  A property of the heap that survives the operations and
these three survives every script, with all calls in it and wherever it is
interrupted.  Which expressions may be stored is a parameter.
-/

namespace ScriptCore
namespace Script

/-!
## The stores in a script
-/

def Action.storedHere (operand : Expr) : Action → List Expr
  | .primitive (.store _) => [operand]
  | _ => []

mutual

/-- The operands of all stores in an expression, those in the bodies of functions included. -/
def Expr.stores : Expr → List Expr
  | .list _ items => storesInAll items
  | .newList items => storesInAll items
  | .tuple items => storesInAll items
  | .algebraic _ fields => storesInFields fields
  | .alias _ _ content => content.stores
  | .reference content => content.stores
  | .function _ _ body => body.stores
  | .call c => c.stores
  | .choose condition whenTrue whenFalse =>
      condition.stores ++ (whenTrue.stores ++ whenFalse.stores)
  | .arith _ left right => left.stores ++ right.stores
  | .display e => e.stores
  | .typeName e => e.stores
  | .truthy e => e.stores
  | .copy e => e.stores
  | .load e => e.stores
  | .sameReference e => e.stores
  | .yaml e => e.stores
  | .await e => e.stores
  | _ => []

def storesInAll : List Expr → List Expr
  | [] => []
  | e :: rest => e.stores ++ storesInAll rest

def storesInFields : List (String × Expr) → List Expr
  | [] => []
  | (_, e) :: rest => e.stores ++ storesInFields rest

def BodyText.stores : BodyText → List Expr
  | .none => []
  | .native steps => storesInSteps steps
  | .handle steps => storesInSteps steps

def Call.stores : Call → List Expr
  | .mk _ args target _ _ => storesInArgs args ++ target.stores

def Arg.stores : Arg → List Expr
  | .value e => e.stores
  | _ => []

def storesInArgs : List Arg → List Expr
  | [] => []
  | arg :: rest => arg.stores ++ storesInArgs rest

def MethodText.stores : MethodText → List Expr
  | .mk _ _ body => body.stores

def storesInMethods : List MethodText → List Expr
  | [] => []
  | m :: rest => m.stores ++ storesInMethods rest

def Step.stores : Step → List Expr
  | .mk _ _ operand action => operand.stores ++ (action.storedHere operand ++ action.stores)

def storesInSteps : List Step → List Expr
  | [] => []
  | step :: rest => step.stores ++ storesInSteps rest

def Action.stores : Action → List Expr
  | .primitive _ => []
  | .withMutable _ steps => storesInSteps steps
  | .attempt steps => storesInSteps steps
  | .withContext _ steps => storesInSteps steps
  | .call c => c.stores
  | .resolve _ args _ => storesInArgs args
  | .addFunction _ function => function.stores
  | .addClass _ methods => storesInMethods methods
  | .addInstance _ _ methods => storesInMethods methods
  | .bindHost _ _ _ body => storesInSteps body

end

def bodyStores : Body → List Expr
  | .none => []
  | .native steps => storesInSteps steps
  | .handle steps => storesInSteps steps
  | .host _ _ steps => storesInSteps steps

theorem bodyStores_bodyOf (body : BodyText) : bodyStores (bodyOf body) = body.stores := by
  cases body <;> rfl

def Allowed (S : Expr → Prop) (stores : List Expr) : Prop :=
  ∀ e ∈ stores, S e

variable {S : Expr → Prop} {l l' : List Expr}

theorem Allowed.left (h : Allowed S (l ++ l')) : Allowed S l :=
  fun e he => h e (List.mem_append_left l' he)

theorem Allowed.right (h : Allowed S (l ++ l')) : Allowed S l' :=
  fun e he => h e (List.mem_append_right l he)

/-!
## Looking at a session

These keep any property of the world.
-/

section

open World Exec

variable {P : World → Prop}

@[grind ←] theorem keeps_setRegister (name : String) (v : Value) :
    Exec.Keeps P (setRegister name v) :=
  keeps_modify fun _ hs => hs

@[grind ←] theorem keeps_keep (name : Option String) (v : Value) :
    Exec.Keeps P (keep name v) := by
  unfold keep
  grind

@[grind ←] theorem keeps_register (name : String) : Exec.Keeps P (register name) :=
  keeps_get.bind fun _ => keeps_pure _

@[grind ←] theorem keeps_setVariable (name : String) (var : VariableId) :
    Exec.Keeps P (setVariable name var) :=
  keeps_modify fun _ hs => hs

@[grind ←] theorem keeps_keepVariable (name : Option String) (var : VariableId) :
    Exec.Keeps P (keepVariable name var) := by
  unfold keepVariable
  grind

@[grind ←] theorem keeps_variableOf (name : String) : Exec.Keeps P (variableOf name) := by
  unfold variableOf
  grind

@[grind ←] theorem keeps_setScope (name : String) (scope : ScopeId) :
    Exec.Keeps P (setScope name scope) :=
  keeps_modify fun _ hs => hs

@[grind ←] theorem keeps_traceEntry (e : TraceEntry) : Exec.Keeps P (traceEntry e) :=
  keeps_modify fun _ hs => hs

@[grind ←] theorem keeps_editCount : Exec.Keeps P editCount :=
  keeps_get.bind fun _ => keeps_pure _

@[grind ←] theorem keeps_refresh (count : Nat) (v : Value) :
    Exec.Keeps P (refresh count v) :=
  keeps_get.bind fun _ => keeps_pure _

@[grind ←] theorem keeps_showValue (v : Value) : Exec.Keeps P (showValue v) :=
  (keeps_op (keeps_view v)).bind fun _ => keeps_pure _

@[grind ←] theorem keeps_showVariable (var : VariableId) :
    Exec.Keeps P (showVariable var) :=
  (keeps_op (keeps_viewVariable var)).bind fun _ => keeps_pure _

@[grind ←] theorem keeps_showBindings (scope : Option ScopeId) :
    Exec.Keeps P (showBindings scope) :=
  (keeps_op (keeps_viewBindings scope)).bind fun _ => keeps_pure _

@[grind ←] theorem keeps_keepValue (register : Option String) (v : Value) :
    Exec.Keeps P (keepValue register v) :=
  (keeps_keep register v).bind fun _ => keeps_showValue v

@[grind ←] theorem keeps_keepShown (register : Option String) (var : VariableId) :
    Exec.Keeps P (keepShown register var) :=
  (keeps_keepVariable register var).bind fun _ => keeps_showVariable var

@[grind ←] theorem keeps_cellIn (register : String) : Exec.Keeps P (cellIn register) := by
  unfold cellIn
  grind

@[grind ←] theorem keeps_sameCell (left right : String) :
    Exec.Keeps P (sameCell left right) := by
  unfold sameCell
  grind

@[grind ←] theorem keeps_promiseOf (v : Value) : Exec.Keeps P (promiseOf v) := by
  unfold promiseOf
  grind

@[grind ←] theorem keeps_passGate (name : String) : Exec.Keeps P (passGate name) := by
  unfold passGate
  grind

@[grind ←] theorem keeps_openGate (name : String) : Exec.Keeps P (openGate name) :=
  (keeps_modify fun _ hs => hs).bind fun _ => keeps_wake name

@[grind ←] theorem keeps_captured (frame : Frame) (capture : Capture) :
    Exec.Keeps P (captured frame capture) := by
  unfold captured
  grind

@[grind ←] theorem keeps_argument (frame : Frame) (index : Nat) :
    Exec.Keeps P (argument frame index) := by
  unfold argument
  grind

@[grind ←] theorem keeps_calculate (o : Operator) (left right : Value) :
    Exec.Keeps P (calculate o left right) := by
  unfold calculate
  grind

@[grind ←] theorem keeps_loadFrom (v : Value) : Exec.Keeps P (loadFrom v) := by
  unfold loadFrom
  grind

@[grind ←] theorem keeps_awaited (v : Value) : Exec.Keeps P (awaited v) := by
  unfold awaited
  grind

@[grind ←] theorem keeps_redirect (frame : Frame) (thread scope : Option String) :
    Exec.Keeps P (frame.redirect thread scope) := by
  unfold Frame.redirect
  grind

@[grind ←] theorem keeps_attempting {work : Exec Flow} (hwork : Exec.Keeps P work) :
    Exec.Keeps P (attempting work) := by
  unfold attempting
  grind

@[grind ←] theorem keeps_inContext {α : Type} (text : String) {work : Exec α}
    (hwork : Exec.Keeps P work) : Exec.Keeps P (inContext text work) := by
  unfold inContext
  grind

@[grind ←] theorem keeps_hostArg (name : String) (scope : ScopeId) (param : Param) :
    Exec.Keeps P (hostArg name scope param) := by
  unfold hostArg
  grind

end

/-!
## What a property has to survive
-/

def Invoke.Keeps (P : World → Prop) (invoke : Invoke) : Prop :=
  ∀ thread f args isCancelled, Exec.Keeps P (invoke thread f args isCancelled)

/-- The property survives the evaluation of expressions in which all stores are allowed: functions
can be made, and all functions there are have such bodies. -/
structure Admits (Q : Heap → Prop) (S : Expr → Prop) : Prop extends Heap.Robust Q where
  made : ∀ {h : Heap} {f : Function}, Q h → Allowed S (bodyStores f.body) → Q (h.newFunction f).2
  bodies : ∀ {h : Heap} {id : FunctionId} {f : Function}, Q h → h.functions[id]? = some f →
    Allowed S (bodyStores f.body)

/-- The property survives scripts in which all stores are allowed. -/
structure Withstands (Q : Heap → Prop) (S : Expr → Prop) : Prop extends Admits Q S where
  edited : ∀ {s : Session} {mark : Mark} {node : Value}, Q s.world.heap →
    node.isReference = false → Q (s.edit mark node).world.heap
  performed : ∀ {invoke : Invoke} {frame : Frame} {e : Expr} {register : String},
    invoke.Keeps (World.OnHeap Q) → Allowed S e.stores → S e →
    Exec.Keeps (World.OnHeap Q)
      (evaluate invoke frame e >>= fun v =>
        runAction invoke frame v (.primitive (.store register)))
  spawned : ∀ {invoke : Invoke} {f : Function} {scope : ScopeId},
    (∀ worker, Exec.Keeps (World.OnHeap Q) (evaluateBody invoke worker f scope)) →
    Exec.Keeps (World.OnHeap Q) (spawnBody invoke f scope)

open World Exec

variable {Q : Heap → Prop} {invoke : Invoke}

/-!
## Expressions
-/

@[grind ←] theorem keeps_freshMark (hQ : Heap.Robust Q) : Exec.Keeps (OnHeap Q) freshMark :=
  keeps_op (keeps_build hQ.sustains_freshMark)

@[grind ←] theorem keeps_newText (hQ : Heap.Robust Q) (s : String) :
    Exec.Keeps (OnHeap Q) (newText s) :=
  (keeps_freshMark hQ).bind fun _ => keeps_pure _

@[grind ←] theorem keeps_newListOf (hQ : Heap.Robust Q) (items : List Value) :
    Exec.Keeps (OnHeap Q) (newListOf items) := by
  unfold newListOf
  grind

@[grind ←] theorem keeps_yamlText (hQ : Heap.Robust Q) (v : Value) :
    Exec.Keeps (OnHeap Q) (yamlText v) := by
  unfold yamlText
  grind

@[grind ←] theorem keeps_holding {α : Type} (frame : Frame) (name : String) {work : Exec α}
    (hwork : Exec.Keeps (OnHeap Q) work) : Exec.Keeps (OnHeap Q) (holding frame name work) := by
  unfold holding
  grind

@[grind ←] theorem keeps_callPlain (hinvoke : invoke.Keeps (OnHeap Q)) (thread : ThreadId)
    (name : String) (values : List Value) (isCancelled : Bool) :
    Exec.Keeps (OnHeap Q) (callPlain invoke thread name values isCancelled) := by
  unfold callPlain
  grind [Invoke.Keeps]

theorem Admits.keeps_newFunction (hQ : Admits Q S) {f : Function}
    (hf : Allowed S (bodyStores f.body)) :
    Op.Keeps (OnHeap Q) (Op.onHeap fun h => h.newFunction f) := by
  intro w r w' hw hrun
  cases hrun
  exact hQ.made hw hf

theorem Admits.keeps_bindHost (hQ : Admits Q S) (name : String) (params : List Param) (result : Ty)
    {steps : List Step} (hsteps : Allowed S (storesInSteps steps)) :
    Exec.Keeps (OnHeap Q) (bindHost name params result steps) :=
  keeps_get.bind fun s =>
    (keeps_op (hQ.keeps_newFunction (f := {
      signature := { name, spawn := false, params, effects := [], result }
      closure := none
      body := .host name s.world.heap.functions.size steps }) hsteps)).bind fun f =>
    keeps_op (keeps_addFunction hQ.toRobust name (some f))

namespace Admits

-- Calls leave the script at hand, so the induction takes them as given.

mutual

theorem keeps_evaluate (hQ : Admits Q S) (hinvoke : invoke.Keeps (OnHeap Q)) (frame : Frame) :
    (e : Expr) → Allowed S e.stores → Exec.Keeps (OnHeap Q) (evaluate invoke frame e)
  | .absent, _ => keeps_pure _
  | .int _, _ => keeps_pure _
  | .uint _, _ => keeps_pure _
  | .float _, _ => keeps_pure _
  | .char _, _ => keeps_pure _
  | .byte _, _ => keeps_pure _
  | .bool _, _ => keeps_pure _
  | .text s, _ => keeps_newText hQ.toRobust s
  | .list _ items, h =>
      (keeps_evaluateAll hQ hinvoke frame items h).bind fun _ =>
        (keeps_freshMark hQ.toRobust).bind fun _ => keeps_pure _
  | .newList items, h =>
      (keeps_evaluateAll hQ hinvoke frame items h).bind fun vs => keeps_newListOf hQ.toRobust vs
  | .tuple items, h =>
      (keeps_evaluateAll hQ hinvoke frame items h).bind fun _ =>
        (keeps_freshMark hQ.toRobust).bind fun _ => keeps_pure _
  | .algebraic _ fields, h =>
      (keeps_evaluateFields hQ hinvoke frame fields h).bind fun _ =>
        (keeps_freshMark hQ.toRobust).bind fun _ => keeps_pure _
  | .alias _ _ content, h =>
      (keeps_evaluate hQ hinvoke frame content h).bind fun _ =>
        (keeps_freshMark hQ.toRobust).bind fun _ => keeps_pure _
  | .reference content, h =>
      (keeps_evaluate hQ hinvoke frame content h).bind fun v =>
        keeps_op (keeps_build (hQ.sustains_newReference v))
  | .function _ capture body, h =>
      (keeps_captured frame capture).bind fun _ =>
        (keeps_op (hQ.keeps_newFunction (bodyStores_bodyOf body ▸ h))).bind fun _ => keeps_pure _
  | .register name, _ => keeps_register name
  | .read name, _ => by
      have hrobust := hQ.toRobust
      unfold evaluate
      grind
  | .slot name, _ => by
      have hrobust := hQ.toRobust
      unfold evaluate
      grind
  | .argument index, _ => keeps_argument frame index
  | .live, _ => keeps_pure _
  | .onMainThread, _ => keeps_pure _
  | .call c, h => keeps_evaluateCall hQ hinvoke frame c h
  | .choose condition whenTrue whenFalse, h => by
      have hcondition := keeps_evaluate hQ hinvoke frame condition h.left
      have htrue := keeps_evaluate hQ hinvoke frame whenTrue h.right.left
      have hfalse := keeps_evaluate hQ hinvoke frame whenFalse h.right.right
      unfold evaluate
      grind
  | .arith o left right, h =>
      (keeps_evaluate hQ hinvoke frame left h.left).bind fun a =>
        (keeps_evaluate hQ hinvoke frame right h.right).bind fun b => keeps_calculate o a b
  | .display e, h =>
      (keeps_evaluate hQ hinvoke frame e h).bind fun _ =>
        (keeps_op (Op.keeps_look _)).bind fun s => keeps_newText hQ.toRobust s
  | .typeName e, h =>
      (keeps_evaluate hQ hinvoke frame e h).bind fun v =>
        (keeps_op (keeps_typeOf v)).bind fun _ => keeps_newText hQ.toRobust _
  | .truthy e, h =>
      (keeps_evaluate hQ hinvoke frame e h).bind fun _ =>
        (keeps_op (Op.keeps_look _)).bind fun _ => keeps_pure _
  | .copy e, h =>
      (keeps_evaluate hQ hinvoke frame e h).bind fun v =>
        keeps_op (keeps_build (hQ.sustains_copy v))
  | .load e, h => (keeps_evaluate hQ hinvoke frame e h).bind fun v => keeps_loadFrom v
  | .sameReference e, h => by
      have he := keeps_evaluate hQ hinvoke frame e h
      unfold evaluate
      grind
  | .yaml e, h =>
      (keeps_evaluate hQ hinvoke frame e h).bind fun v => keeps_yamlText hQ.toRobust v
  | .await e, h => (keeps_evaluate hQ hinvoke frame e h).bind fun v => keeps_awaited v

theorem keeps_evaluateAll (hQ : Admits Q S) (hinvoke : invoke.Keeps (OnHeap Q)) (frame : Frame) :
    (es : List Expr) → Allowed S (storesInAll es) →
      Exec.Keeps (OnHeap Q) (evaluateAll invoke frame es)
  | [], _ => keeps_pure _
  | e :: rest, h =>
      (keeps_evaluate hQ hinvoke frame e h.left).bind fun v => keeps_editCount.bind fun n =>
        (keeps_evaluateAll hQ hinvoke frame rest h.right).bind fun _ =>
          (keeps_refresh n v).bind fun _ => keeps_pure _

theorem keeps_evaluateFields (hQ : Admits Q S) (hinvoke : invoke.Keeps (OnHeap Q))
    (frame : Frame) :
    (fields : List (String × Expr)) → Allowed S (storesInFields fields) →
      Exec.Keeps (OnHeap Q) (evaluateFields invoke frame fields)
  | [], _ => keeps_pure _
  | (_, e) :: rest, h =>
      (keeps_evaluate hQ hinvoke frame e h.left).bind fun v => keeps_editCount.bind fun n =>
        (keeps_evaluateFields hQ hinvoke frame rest h.right).bind fun _ =>
          (keeps_refresh n v).bind fun _ => keeps_pure _

theorem keeps_plainArgs (hQ : Admits Q S) (hinvoke : invoke.Keeps (OnHeap Q)) (frame : Frame) :
    (args : List Arg) → Allowed S (storesInArgs args) →
      Exec.Keeps (OnHeap Q) (plainArgs invoke frame args)
  | [], _ => keeps_pure _
  | arg :: rest, h =>
      (keeps_plainArg hQ hinvoke frame arg h.left).bind fun v => keeps_editCount.bind fun n =>
        (keeps_plainArgs hQ hinvoke frame rest h.right).bind fun _ =>
          (keeps_refresh n v).bind fun _ => keeps_pure _

theorem keeps_plainArg (hQ : Admits Q S) (hinvoke : invoke.Keeps (OnHeap Q)) (frame : Frame) :
    (arg : Arg) → Allowed S arg.stores → Exec.Keeps (OnHeap Q) (plainArg invoke frame arg)
  | .value e, h => keeps_evaluate hQ hinvoke frame e h
  | .missing, _ => keeps_pure _
  | .var _, _ => keeps_pure _
  | .lookup _, _ => keeps_pure _

theorem keeps_variableArgs (hQ : Admits Q S) (hinvoke : invoke.Keeps (OnHeap Q)) (frame : Frame) :
    (args : List Arg) → Allowed S (storesInArgs args) →
      Exec.Keeps (OnHeap Q) (variableArgs invoke frame args)
  | [], _ => keeps_pure _
  | arg :: rest, h =>
      (keeps_variableArg hQ hinvoke frame arg h.left).bind fun _ =>
        (keeps_variableArgs hQ hinvoke frame rest h.right).bind fun _ => keeps_pure _

theorem keeps_variableArg (hQ : Admits Q S) (hinvoke : invoke.Keeps (OnHeap Q)) (frame : Frame) :
    (arg : Arg) → Allowed S arg.stores → Exec.Keeps (OnHeap Q) (variableArg invoke frame arg)
  | .missing, _ => keeps_pure _
  | .var _, _ => keeps_get.bind fun _ => keeps_pure _
  | .lookup name, _ =>
      (keeps_op (keeps_lookup hQ.toRobust _ _ name)).bind fun _ => keeps_pure _
  | .value e, h =>
      (keeps_evaluate hQ hinvoke frame e h).bind fun v =>
        (keeps_op (keeps_bindValue _ v)).bind fun _ => keeps_pure _

theorem keeps_evaluateCall (hQ : Admits Q S) (hinvoke : invoke.Keeps (OnHeap Q)) (frame : Frame) :
    (c : Call) → Allowed S c.stores → Exec.Keeps (OnHeap Q) (evaluateCall invoke frame c)
  | .mk callee args target register isCancelled, h => by
      have hplain := keeps_plainArgs hQ hinvoke frame args h.left
      have hvars := keeps_variableArgs hQ hinvoke frame args h.left
      have htarget := keeps_evaluate hQ hinvoke frame target h.right
      unfold evaluateCall
      cases callee <;> grind [Invoke.Keeps]

end

theorem keeps_classMethod (hQ : Admits Q S) (hinvoke : invoke.Keeps (OnHeap Q)) (frame : Frame)
    (m : MethodText) (h : Allowed S m.stores) :
    Exec.Keeps (OnHeap Q) (classMethod invoke frame m) := by
  cases m with
  | mk name signature body =>
      exact (hQ.keeps_evaluate hinvoke frame body h).bind fun _ => keeps_pure _

theorem keeps_classMethods (hQ : Admits Q S) (hinvoke : invoke.Keeps (OnHeap Q)) (frame : Frame)
    (ms : List MethodText) (h : Allowed S (storesInMethods ms)) :
    Exec.Keeps (OnHeap Q) (classMethods invoke frame ms) := by
  induction ms with
  | nil => exact keeps_pure _
  | cons m rest ih =>
      exact (hQ.keeps_classMethod hinvoke frame m h.left).bind fun _ =>
        (ih h.right).bind fun _ => keeps_pure _

theorem keeps_instanceMethod (hQ : Admits Q S) (hinvoke : invoke.Keeps (OnHeap Q)) (frame : Frame)
    (m : MethodText) (h : Allowed S m.stores) :
    Exec.Keeps (OnHeap Q) (instanceMethod invoke frame m) := by
  cases m with
  | mk name signature body =>
      exact (hQ.keeps_evaluate hinvoke frame body h).bind fun _ => keeps_pure _

theorem keeps_instanceMethods (hQ : Admits Q S) (hinvoke : invoke.Keeps (OnHeap Q))
    (frame : Frame) (ms : List MethodText) (h : Allowed S (storesInMethods ms)) :
    Exec.Keeps (OnHeap Q) (instanceMethods invoke frame ms) := by
  induction ms with
  | nil => exact keeps_pure _
  | cons m rest ih =>
      exact (hQ.keeps_instanceMethod hinvoke frame m h.left).bind fun _ =>
        (ih h.right).bind fun _ => keeps_pure _

end Admits

/-!
## Steps
-/

theorem isReference_editNode {site : Site} {part v node : Value} {mark : Mark}
    (hnode : editNode site part v = some (mark, node)) : node.isReference = false := by
  cases v with
  | list m element items =>
      simp only [editNode] at hnode
      split at hnode
      · cases hnode
        rfl
      · cases hnode
  | tuple m items =>
      simp only [editNode] at hnode
      split at hnode
      · cases hnode
        rfl
      · cases hnode
  | algebraic m shape fields =>
      cases hnode
      rfl
  | «alias» m name target content =>
      cases hnode
      rfl
  | _ => cases hnode

theorem renameParam_eq_some {site : Site} {f g : Function} (hg : renameParam site f = some g) :
    ∃ signature, g = { f with signature } := by
  unfold renameParam at hg
  split at hg
  · cases hg
    exact ⟨_, rfl⟩
  · cases hg

namespace Withstands

theorem keeps_editRegister (hQ : Withstands Q S) (register : String) (site : Site)
    (part : Value) : Exec.Keeps (OnHeap Q) (editRegister register site part) := by
  unfold editRegister
  refine (keeps_register register).bind fun v => ?_
  split
  · rename_i id
    refine keeps_op_bind (keeps_function id) fun s f w hs hrun => ?_
    rcases function_ok hrun with ⟨hf, rfl⟩
    split
    · rename_i g hg
      rcases renameParam_eq_some hg with ⟨signature, rfl⟩
      exact hQ.named signature hs hf
    · exact hs
  · split
    · rename_i mark node hnode
      exact keeps_modify fun s hs => hQ.edited hs (isReference_editNode hnode)
    · exact keeps_stop _

theorem keeps_perform (hQ : Withstands Q S) (frame : Frame) (operand : Value)
    {action : Primitive} (hstore : ∀ register, action ≠ .store register) :
    Exec.Keeps (OnHeap Q) (perform frame operand action) := by
  have hrobust := hQ.toRobust
  have hedit := hQ.keeps_editRegister
  cases action with
  | store register => exact absurd rfl (hstore register)
  | fork thread =>
      refine (keeps_op keeps_fork).bind fun worker => Exec.Keeps.bind ?_ fun _ => keeps_pure _
      exact keeps_modify fun _ hs => hs
  | awaitAll registers isCancelled =>
      refine Exec.Keeps.bind (Exec.Keeps.mapM ?_ registers) ?_
      · intro register
        exact (keeps_register register).bind fun v => keeps_promiseOf v
      · grind
  | _ => grind [perform]

/-- An action on the value of an operand keeps the property, if the stores in both are allowed. -/
theorem keeps_operand (hQ : Withstands Q S) (hinvoke : invoke.Keeps (OnHeap Q)) (frame : Frame)
    {operand : Expr} {action : Action} (hoperand : Allowed S operand.stores)
    (hhere : Allowed S (action.storedHere operand))
    (haction : (∀ register, action ≠ .primitive (.store register)) →
      ∀ v, Exec.Keeps (OnHeap Q) (runAction invoke frame v action)) :
    Exec.Keeps (OnHeap Q)
      (evaluate invoke frame operand >>= fun v => runAction invoke frame v action) := by
  by_cases hstore : ∃ register, action = .primitive (.store register)
  · rcases hstore with ⟨register, rfl⟩
    exact hQ.performed hinvoke hoperand (hhere operand (List.mem_singleton.mpr rfl))
  · exact (hQ.keeps_evaluate hinvoke frame operand hoperand).bind
      (haction (not_exists.mp hstore))

mutual

theorem keeps_runStep (hQ : Withstands Q S) (hinvoke : invoke.Keeps (OnHeap Q)) (frame : Frame) :
    (step : Step) → Allowed S step.stores → Exec.Keeps (OnHeap Q) (runStep invoke frame step)
  | .mk thread scope _ action, h =>
      (keeps_redirect frame thread scope).bind fun frame =>
        hQ.keeps_operand hinvoke frame h.left h.right.left fun hstore v =>
          keeps_runAction hQ hinvoke frame v action h.right.right hstore

theorem keeps_runSteps (hQ : Withstands Q S) (hinvoke : invoke.Keeps (OnHeap Q)) (frame : Frame) :
    (steps : List Step) → Allowed S (storesInSteps steps) →
      Exec.Keeps (OnHeap Q) (runSteps invoke frame steps)
  | [], _ => keeps_pure _
  | step :: rest, h => by
      have hstep := keeps_runStep hQ hinvoke frame step h.left
      have hrest := keeps_runSteps hQ hinvoke frame rest h.right
      unfold runSteps
      grind

theorem keeps_runAction (hQ : Withstands Q S) (hinvoke : invoke.Keeps (OnHeap Q)) (frame : Frame)
    (operand : Value) : (action : Action) → Allowed S action.stores →
    (∀ register, action ≠ .primitive (.store register)) →
    Exec.Keeps (OnHeap Q) (runAction invoke frame operand action)
  | .primitive p, _, hstore => by
      have hperform : Exec.Keeps (OnHeap Q) (perform frame operand p) :=
        hQ.keeps_perform frame operand fun register heq => hstore register (heq ▸ rfl)
      unfold runAction
      grind
  | .withMutable name steps, h, _ =>
      (keeps_holding frame name (keeps_runSteps hQ hinvoke frame steps h)).map _
  | .attempt steps, h, _ => (keeps_attempting (keeps_runSteps hQ hinvoke frame steps h)).map _
  | .withContext text steps, h, _ =>
      (keeps_inContext text (keeps_runSteps hQ hinvoke frame steps h)).map _
  | .call c, h, _ =>
      (hQ.keeps_evaluateCall hinvoke frame c h).bind fun v => (keeps_showValue v).bind fun _ =>
        keeps_pure _
  | .resolve name args register, h, _ =>
      (hQ.keeps_variableArgs hinvoke frame args h).bind fun args =>
        (keeps_op (keeps_resolve frame.scope name args)).bind fun f =>
          (keeps_keepValue register (.function f)).bind fun _ => keeps_pure _
  | .addFunction name function, h, _ =>
      (hQ.keeps_evaluate hinvoke frame function h).bind fun v =>
        (keeps_op (keeps_addFunction hQ.toRobust name _)).bind fun _ => keeps_pure _
  | .addClass name methods, h, _ =>
      (hQ.keeps_classMethods hinvoke frame methods h).bind fun ms =>
        (keeps_op (keeps_addClass hQ.toRobust name ms)).bind fun _ => keeps_pure _
  | .addInstance name type methods, h, _ =>
      (hQ.keeps_instanceMethods hinvoke frame methods h).bind fun ms =>
        (keeps_op (keeps_addInstance hQ.toRobust name type ms)).bind fun _ => keeps_pure _
  | .bindHost name params result steps, h, _ =>
      (hQ.keeps_bindHost name params result h).bind fun _ => keeps_pure _

end

/-!
## Calls
-/

theorem keeps_runBody (hQ : Withstands Q S) (hinvoke : invoke.Keeps (OnHeap Q)) (frame : Frame)
    {steps : List Step} (h : Allowed S (storesInSteps steps)) :
    Exec.Keeps (OnHeap Q) (runBody invoke frame steps) := by
  have hsteps := hQ.keeps_runSteps hinvoke frame steps h
  unfold runBody
  grind

theorem keeps_evaluateBody (hQ : Withstands Q S) (hinvoke : invoke.Keeps (OnHeap Q))
    (thread : ThreadId) {f : Function} (h : Allowed S (bodyStores f.body)) (scope : ScopeId) :
    Exec.Keeps (OnHeap Q) (evaluateBody invoke thread f scope) := by
  have hbody : ∀ frame steps, Allowed S (storesInSteps steps) →
      Exec.Keeps (OnHeap Q) (runBody invoke frame steps) :=
    fun frame steps => hQ.keeps_runBody hinvoke frame
  unfold evaluateBody
  grind [bodyStores]

theorem keeps_runCall (hQ : Withstands Q S) (hinvoke : invoke.Keeps (OnHeap Q))
    (thread : ThreadId) {f : Function} (h : Allowed S (bodyStores f.body)) (scope : ScopeId)
    (isCancelled : Bool) :
    Exec.Keeps (OnHeap Q) (runCall invoke thread f scope isCancelled) := by
  have hbody := hQ.keeps_evaluateBody hinvoke thread h scope
  unfold runCall
  grind

theorem keeps_invoke (hQ : Withstands Q S) (depth : Nat) :
    (Script.invoke depth).Keeps (OnHeap Q) := by
  induction depth with
  | zero =>
      intro thread f args isCancelled
      exact keeps_stop _
  | succ depth ih =>
      intro thread fid args isCancelled
      refine keeps_op_bind (keeps_function fid) fun s f w hs hrun => ?_
      rcases function_ok hrun with ⟨hf, rfl⟩
      have hallowed : Allowed S (bodyStores f.body) := hQ.bodies hs hf
      refine ((keeps_op (keeps_prepare hQ.toRobust f args)).bind fun scope => ?_) _ hs
      split
      · exact hQ.spawned fun worker => hQ.keeps_evaluateBody ih worker hallowed scope
      · exact hQ.keeps_runCall ih thread hallowed scope isCancelled

theorem keeps_runTop (hQ : Withstands Q S) {step : Step} (h : Allowed S step.stores) :
    Exec.Keeps (OnHeap Q) (runTop step) := by
  have hstep := hQ.keeps_runStep (hQ.keeps_invoke maxDepth) {} step h
  unfold runTop
  grind

end Withstands

end Script
end ScriptCore
