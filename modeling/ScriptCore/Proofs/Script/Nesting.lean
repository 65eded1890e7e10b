import ScriptCore.Proofs.Heap.Reach
import ScriptCore.Proofs.Heap.Snapshot
import ScriptCore.Proofs.Script.Robust
import ScriptCore.Proofs.World.Command
import ScriptCore.Script.Program

/-!
# References are never nested

A cell never holds a reference directly.  Every operation strips one layer of
reference from what it puts into a cell, and one layer is all there is.  Only a
raw store could break this; so the programs told about here store a value as it
is only if it is no reference.
-/

namespace ScriptCore
namespace Script

open World Exec

/-!
## Expressions that are no references
-/

/-- The value of the expression is no reference, whatever the script has done before. -/
def Expr.isContent : Expr → Bool
  | .register _ => false
  | .slot _ => false
  | .argument _ => false
  | .reference _ => false
  | .sameReference _ => false
  | .call _ => false
  | .await _ => false
  | .choose _ whenTrue whenFalse => whenTrue.isContent && whenFalse.isContent
  | _ => true

abbrev OnlyContents (operands : List Expr) : Prop :=
  Allowed (fun e => e.isContent = true) operands

end Script

namespace Heap

/-- No cell holds a reference, and no function has a body that could store one. -/
structure Orderly (h : Heap) : Prop where
  flat : h.Flat
  bodies : ∀ f ∈ h.functions, Script.OnlyContents (Script.bodyStores f.body)

namespace Orderly

variable {h : Heap} {f : Function} {id : FunctionId}

theorem empty : ({} : Heap).Orderly where
  flat _ := rfl
  bodies f hf := by cases Array.not_mem_empty f hf

theorem newFunction (hh : h.Orderly) (hf : Script.OnlyContents (Script.bodyStores f.body)) :
    (h.newFunction f).2.Orderly where
  flat := hh.flat.of_cells_eq rfl
  bodies g hg := by
    rcases Array.mem_push.mp hg with hold | rfl
    · exact hh.bodies g hold
    · exact hf

theorem setFunction (hh : h.Orderly) (hf : Script.OnlyContents (Script.bodyStores f.body)) :
    (h.setFunction id f).Orderly where
  flat := hh.flat.of_cells_eq rfl
  bodies g hg := by
    rcases Array.mem_or_eq_of_mem_setIfInBounds hg with hold | rfl
    · exact hh.bodies g hold
    · exact hf

theorem store (hh : h.Orderly) (cell : CellId) {v : Value} (hv : v.isReference = false) :
    (h.store cell v).Orderly where
  flat := hh.flat.store cell hv
  bodies := hh.bodies

theorem newPromise (hh : h.Orderly) (p : Promise) : (h.newPromise p).2.Orderly where
  flat := hh.flat.of_cells_eq rfl
  bodies := hh.bodies

theorem setPromise (hh : h.Orderly) (id : PromiseId) (p : Promise) :
    (h.setPromise id p).Orderly where
  flat := hh.flat.of_cells_eq rfl
  bodies := hh.bodies

end Orderly

theorem robust_orderly : Robust Orderly where
  marked hh := ⟨hh.flat.of_cells_eq rfl, hh.bodies⟩
  duplicated hh hf := hh.newFunction (hh.bodies _ (Array.mem_of_getElem? hf))
  named signature hh hf := by
    have hbody := hh.bodies _ (Array.mem_of_getElem? hf)
    exact hh.setFunction hbody
  boxed v hh := ⟨hh.flat.newCell (hh.flat.contentOf v), hh.bodies⟩
  stored cell v hh := hh.store cell (hh.flat.contentOf v)

end Heap

theorem Value.isReference_replace {mark : Mark} {node v : Value} (hnode : node.isReference = false)
    (hv : v.isReference = false) : (Value.replace mark node v).isReference = false := by
  have hchoice : ∀ (m : Mark) (w : Value), w.isReference = false →
      (if m = mark then node else w).isReference = false := by
    intro m w hw
    split
    · exact hnode
    · exact hw
  cases v with
  | list m element items => exact hchoice m _ rfl
  | tuple m items => exact hchoice m _ rfl
  | algebraic m shape fields => exact hchoice m _ rfl
  | «alias» m name target content => exact hchoice m _ rfl
  | _ => exact hv

namespace Script

open World Exec

variable {invoke : Invoke}

theorem orderly_edit {s : Session} {mark : Mark} {node : Value} (hs : s.world.heap.Orderly)
    (hnode : node.isReference = false) : (s.edit mark node).world.heap.Orderly where
  flat cell := by
    have hcell : (s.world.heap.cells.getD cell .absent).isReference = false := hs.flat cell
    show ((s.world.heap.cells.map (Value.replace mark node)).getD cell .absent).isReference = false
    rw [Array.getD_eq_getD_getElem?] at hcell ⊢
    rw [Array.getElem?_map]
    cases hold : s.world.heap.cells[cell]? with
    | none => rfl
    | some v =>
        rw [hold] at hcell
        exact Value.isReference_replace hnode hcell
  bodies := hs.bodies

theorem admits_orderly : Admits Heap.Orderly fun e => e.isContent = true where
  toRobust := Heap.robust_orderly
  made hh hf := hh.newFunction hf
  bodies hh hf := hh.bodies _ (Array.mem_of_getElem? hf)

abbrev YieldsContent (x : Exec Value) : Prop :=
  Exec.Yields (OnHeap Heap.Orderly) (fun v => v.isReference = false) x

theorem yields_newText (text : String) : YieldsContent (newText text) :=
  (keeps_freshMark Heap.robust_orderly).yields_bind fun _ => yields_pure rfl

theorem yields_newListOf (items : List Value) : YieldsContent (newListOf items) := by
  have hmarked : ∀ element, YieldsContent (do return .list (← freshMark) element items) :=
    fun _ => (keeps_freshMark Heap.robust_orderly).yields_bind fun _ => yields_pure rfl
  cases items with
  | nil => exact (keeps_pure _).yields_bind hmarked
  | cons first rest => exact (keeps_op (keeps_typeOf first)).yields_bind hmarked

theorem yields_calculate (o : Operator) (left right : Value) :
    YieldsContent (calculate o left right) := by
  unfold calculate
  split
  · apply yields_pure
    cases o <;> rfl
  · exact yields_throw _

theorem yields_loadFrom (v : Value) : YieldsContent (loadFrom v) := by
  cases v with
  | reference cell =>
      intro s hs u a hends
      cases hends
      exact hs.flat cell
  | _ => exact yields_throw _

theorem yields_yamlText (v : Value) : YieldsContent (yamlText v) := by
  refine keeps_get.yields_bind fun s => ?_
  split
  · exact yields_newText _
  · exact yields_throw _

theorem yields_copy (v : Value) : YieldsContent (op (Op.build (Heap.copy v))) := by
  apply yields_op
  intro w x w' _ hrun
  rcases Op.build_cases hrun with ⟨f, _, hr, _⟩ | ⟨x', h, hcopy, hr, _⟩
  · cases hr
  · cases hr
    exact Heap.copy_isReference hcopy

theorem content_slot {w w' : World} (hw : OnHeap Heap.Orderly w) {id : VariableId} {x : Value}
    (hrun : (slot id >>= World.contentOf).run w = (.ok x, w')) : x.isReference = false := by
  rcases Op.bind_cases hrun with ⟨f, _, hr⟩ | ⟨v, w₁, hslot, hcontent⟩
  · cases hr
  · have hw₁ : OnHeap Heap.Orderly w₁ := keeps_slot id w _ w₁ hw hslot
    cases hcontent
    exact hw₁.flat.contentOf v

theorem yields_evaluate (hinvoke : invoke.Keeps (OnHeap Heap.Orderly)) (frame : Frame) :
    (e : Expr) → OnlyContents e.stores → e.isContent = true →
      YieldsContent (evaluate invoke frame e)
  | .absent, _, _ => yields_pure rfl
  | .int _, _, _ => yields_pure rfl
  | .uint _, _, _ => yields_pure rfl
  | .float _, _, _ => yields_pure rfl
  | .char _, _, _ => yields_pure rfl
  | .byte _, _, _ => yields_pure rfl
  | .bool _, _, _ => yields_pure rfl
  | .text s, _, _ => yields_newText s
  | .list _ items, h, _ =>
      (admits_orderly.keeps_evaluateAll hinvoke frame items h).yields_bind fun _ =>
        (keeps_freshMark Heap.robust_orderly).yields_bind fun _ => yields_pure rfl
  | .newList items, h, _ =>
      (admits_orderly.keeps_evaluateAll hinvoke frame items h).yields_bind fun vs =>
        yields_newListOf vs
  | .tuple items, h, _ =>
      (admits_orderly.keeps_evaluateAll hinvoke frame items h).yields_bind fun _ =>
        (keeps_freshMark Heap.robust_orderly).yields_bind fun _ => yields_pure rfl
  | .algebraic _ fields, h, _ =>
      (admits_orderly.keeps_evaluateFields hinvoke frame fields h).yields_bind fun _ =>
        (keeps_freshMark Heap.robust_orderly).yields_bind fun _ => yields_pure rfl
  | .alias _ _ content, h, _ =>
      (admits_orderly.keeps_evaluate hinvoke frame content h).yields_bind fun _ =>
        (keeps_freshMark Heap.robust_orderly).yields_bind fun _ => yields_pure rfl
  | .function _ capture body, h, _ =>
      (keeps_captured frame capture).yields_bind fun _ =>
        (keeps_op (admits_orderly.keeps_newFunction (bodyStores_bodyOf body ▸ h))).yields_bind
          fun _ => yields_pure rfl
  | .read name, _, _ =>
      (keeps_op (keeps_lookup Heap.robust_orderly _ _ name)).yields_bind fun id =>
        yields_op fun _ _ _ hw hrun => content_slot hw hrun
  | .live, _, _ => yields_pure rfl
  | .onMainThread, _, _ => yields_pure rfl
  | .choose condition whenTrue whenFalse, h, hcontent => by
      rcases Bool.and_eq_true_iff.mp hcontent with ⟨htrue, hfalse⟩
      refine (admits_orderly.keeps_evaluate hinvoke frame condition h.left).yields_bind fun v => ?_
      refine (keeps_op (Op.keeps_look _)).yields_bind fun b => ?_
      split
      · exact yields_evaluate hinvoke frame whenTrue h.right.left htrue
      · exact yields_evaluate hinvoke frame whenFalse h.right.right hfalse
  | .arith o left right, h, _ =>
      (admits_orderly.keeps_evaluate hinvoke frame left h.left).yields_bind fun a =>
        (admits_orderly.keeps_evaluate hinvoke frame right h.right).yields_bind fun b =>
          yields_calculate o a b
  | .display e, h, _ =>
      (admits_orderly.keeps_evaluate hinvoke frame e h).yields_bind fun _ =>
        (keeps_op (Op.keeps_look _)).yields_bind fun s => yields_newText s
  | .typeName e, h, _ =>
      (admits_orderly.keeps_evaluate hinvoke frame e h).yields_bind fun v =>
        (keeps_op (keeps_typeOf v)).yields_bind fun _ => yields_newText _
  | .truthy e, h, _ =>
      (admits_orderly.keeps_evaluate hinvoke frame e h).yields_bind fun _ =>
        (keeps_op (Op.keeps_look _)).yields_bind fun _ => yields_pure rfl
  | .copy e, h, _ =>
      (admits_orderly.keeps_evaluate hinvoke frame e h).yields_bind fun v => yields_copy v
  | .load e, h, _ =>
      (admits_orderly.keeps_evaluate hinvoke frame e h).yields_bind fun v => yields_loadFrom v
  | .yaml e, h, _ =>
      (admits_orderly.keeps_evaluate hinvoke frame e h).yields_bind fun v => yields_yamlText v

/-!
## Scripts
-/

def spawning (f : Signature) (body : ThreadId → Exec Value) : Exec Value := do
  let worker ← op World.fork
  let id ← op (World.newPromise f)
  interrupt <| .start do
    let result ← (body worker).run
    let _ ← (op (World.concludePromise id result)).run
    return ()
  return .promise id

theorem keeps_spawning (f : Signature) {body : ThreadId → Exec Value}
    (hbody : ∀ worker, Exec.Keeps (OnHeap Heap.Orderly) (body worker)) :
    Exec.Keeps (OnHeap Heap.Orderly) (spawning f body) := by
  refine (keeps_op keeps_fork).bind fun worker => ?_
  refine (keeps_op (keeps_newPromise (fun h p hh => hh.newPromise p) f)).bind fun id => ?_
  refine Exec.Keeps.bind ?_ fun _ => keeps_pure _
  intro s hs
  refine ⟨hs, fun t ht => ?_, fun t ht => ht⟩
  apply (hbody worker t ht).andThen
  intro u outcome hu
  apply (keeps_op (keeps_concludePromise (fun h p hh => hh.setPromise id p) outcome) u hu).andThen
  intro v _ hv
  exact hv

theorem keeps_store (frame : Frame) (register : String) {v : Value} (hv : v.isReference = false) :
    Exec.Keeps (OnHeap Heap.Orderly) (perform frame v (.store register)) :=
  (keeps_cellIn register).bind fun cell =>
    (keeps_modify fun _ hs => hs.store cell hv).bind fun _ => keeps_pure _

theorem withstands_orderly : Withstands Heap.Orderly fun e => e.isContent = true where
  toAdmits := admits_orderly
  edited hs hnode := orderly_edit hs hnode
  performed hinvoke hstores hcontent :=
    (admits_orderly.keeps_evaluate hinvoke _ _ hstores).bind_yields
      (yields_evaluate hinvoke _ _ hstores hcontent) fun _ hv =>
        (keeps_store _ _ hv).bind fun _ => keeps_pure _
  spawned hbody := keeps_spawning _ hbody

/-!
## Programs of the host
-/

def callWith (body : ThreadId → ScopeId → Exec Value) (thread : ThreadId) (f : Function)
    (args : Args) (isCancelled : Bool) : Exec Value := do
  let scope ← op (World.prepare f args)
  if f.signature.spawn then spawning f.signature fun worker => body worker scope
  else
    if isCancelled then fail .cancelled
    match ← outcome (body thread scope) with
    | .ok result => op (World.settle f.signature result)
    | .error e => throw (e.withName f.signature.displayName)

theorem invoke_eq_callWith (depth : Nat) (thread : ThreadId) (id : FunctionId) (args : Args)
    (isCancelled : Bool) :
    Script.invoke (depth + 1) thread id args isCancelled = (do
      let f ← op (World.function id)
      callWith (fun thread scope => evaluateBody (Script.invoke depth) thread f scope) thread f args
        isCancelled) :=
  rfl

theorem keeps_callWith {body : ThreadId → ScopeId → Exec Value}
    (hbody : ∀ thread scope, Exec.Keeps (OnHeap Heap.Orderly) (body thread scope))
    (thread : ThreadId) (f : Function) (args : Args) (isCancelled : Bool) :
    Exec.Keeps (OnHeap Heap.Orderly) (callWith body thread f args isCancelled) := by
  refine (keeps_op (keeps_prepare Heap.robust_orderly f args)).bind fun scope => ?_
  split
  · exact keeps_spawning f.signature fun worker => hbody worker scope
  · have hthread := hbody thread scope
    grind

/-- Programs of the host, with any use made of what their parts give.  Bodies of functions and what
is done inside of locks may be any such programs.  What is stored as it is, is no reference. -/
inductive Restrained : {α : Type} → Exec α → Prop where
  | pure {α : Type} (a : α) : Restrained (pure a : Exec α)
  | throw {α : Type} (e : Failure) : Restrained (throw e : Exec α)
  | bind {α β : Type} {x : Exec α} {f : α → Exec β} (hx : Restrained x)
      (hf : ∀ a, Restrained (f a)) : Restrained (x >>= f)
  | outcome {α : Type} {x : Exec α} (hx : Restrained x) : Restrained (outcome x)
  | get : Restrained (get : Exec Session)
  | command (c : Command)
      (hc : ∀ f, c = .newFunction f → OnlyContents (bodyStores f.body)) :
      Restrained (op c.perform)
  | setValue (id : VariableId) (v : Value) : Restrained (op (World.setValue id v))
  | sameReference (v : Value) : Restrained (ofExcept (Heap.sameReference v))
  | perform (frame : Frame) (v : Value) (p : Primitive)
      (hp : ∀ register, p = .store register → v.isReference = false) :
      Restrained (perform frame v p)
  | holding {α : Type} (frame : Frame) (name : String) {work : Exec α} (hwork : Restrained work) :
      Restrained (holding frame name work)
  | call {body : ThreadId → ScopeId → Exec Value}
      (hbody : ∀ thread scope, Restrained (body thread scope)) (thread : ThreadId) (f : Function)
      (args : Args) (isCancelled : Bool) : Restrained (callWith body thread f args isCancelled)
  | invoke (depth : Nat) (thread : ThreadId) (f : FunctionId) (args : Args) (isCancelled : Bool) :
      Restrained (Script.invoke depth thread f args isCancelled)
  | step (depth : Nat) (frame : Frame) (step : Step) (hstep : OnlyContents step.stores) :
      Restrained (runStep (Script.invoke depth) frame step)

theorem keeps_command {c : Command}
    (hc : ∀ f, c = .newFunction f → OnlyContents (bodyStores f.body)) :
    Op.Keeps (OnHeap Heap.Orderly) c.perform := by
  have hrobust := Heap.robust_orderly
  cases c with
  | newFunction f => exact (admits_orderly.keeps_newFunction (hc f rfl)).map _
  | newPromise f => exact (keeps_newPromise (fun h p hh => hh.newPromise p) f).map _
  | conclude id outcome =>
      exact (keeps_concludePromise (fun h p hh => hh.setPromise id p) outcome).map _
  | box v => exact (keeps_build (hrobust.sustains_newReference v)).map _
  | withMutable thread name v =>
      have hguarded : ∀ g, Op.Keeps (OnHeap Heap.Orderly)
          (withGuard thread name g fun id => World.assignValue id v) :=
        fun g => keeps_withGuard thread name g fun id => keeps_assignValue hrobust id v
      exact ((keeps_guardOf name).bind fun g => (hguarded g).withName name).map _
  | _ => grind [Command.perform]

theorem Restrained.keeps {α : Type} {x : Exec α} (hx : Restrained x) :
    Exec.Keeps (OnHeap Heap.Orderly) x := by
  induction hx with
  | pure a => exact keeps_pure a
  | throw e => exact keeps_throw e
  | bind _ _ ihx ihf => exact ihx.bind ihf
  | outcome _ ih => exact ih.outcome
  | get => exact keeps_get
  | command c hc => exact keeps_op (keeps_command hc)
  | setValue id v => exact keeps_op (keeps_setValue id v)
  | sameReference v =>
      cases Heap.sameReference v with
      | ok r => exact keeps_pure r
      | error e => exact keeps_throw e
  | perform frame v p hp =>
      by_cases hstore : ∃ register, p = .store register
      · rcases hstore with ⟨register, rfl⟩
        exact keeps_store frame register (hp register rfl)
      · exact withstands_orderly.keeps_perform frame v (not_exists.mp hstore)
  | holding frame name _ ih => exact keeps_holding frame name ih
  | call _ thread f args isCancelled ih => exact keeps_callWith ih thread f args isCancelled
  | invoke depth thread f args isCancelled =>
      exact withstands_orderly.keeps_invoke depth thread f args isCancelled
  | step depth frame step hstep =>
      have hinvoke := withstands_orderly.keeps_invoke depth
      exact withstands_orderly.keeps_runStep hinvoke frame step hstep

/-- Sessions and waiting tasks that programs of the host and steps of scripts lead to.  What a
script stores is known only when it runs, so it may store expressions that never give a reference.
A program that waits stops where it is; so the states inside of calls and locks are among these. -/
inductive Reached : Session → Task.Waiting Session → Prop where
  | start {setup : Setup} {s : Session} (hstart : setup.start = .ok s) : Reached s []
  | run {α : Type} {s : Session} {waiting : Task.Waiting Session} (hs : Reached s waiting)
      {x : Exec α} (hx : Restrained x) :
      Reached (runOn x s waiting).1 (runOn x s waiting).2.1
  | report {s : Session} {waiting : Task.Waiting Session} (hs : Reached s waiting) {step : Step}
      (hstep : OnlyContents step.stores) :
      Reached (report step s waiting).1 (report step s waiting).2.1

theorem runOn_keeps {α : Type} {P : World → Prop} {x : Exec α} (hx : Exec.Keeps P x) {s : Session}
    {waiting : Task.Waiting Session} (hs : P s.world)
    (hwaiting : waiting.Keep fun s => P s.world) :
    P (runOn x s waiting).1.world ∧ (runOn x s waiting).2.1.Keep fun s => P s.world :=
  (hx s hs).run (Task.keeps_wakeAll maxDepth) hwaiting fun _ _ _ _ hwaiting => hwaiting

theorem world_of_start {setup : Setup} {s : Session} (hstart : setup.start = .ok s) :
    ∃ settings, World.start settings setup.logger setup.sources setup.hasEvaluator =
      .ok s.world := by
  unfold Setup.start at hstart
  cases hread : setup.read.mapError Failure.error with
  | error e =>
      rw [hread] at hstart
      cases hstart
  | ok settings =>
      rw [hread] at hstart
      have hrest : (World.start settings setup.logger setup.sources setup.hasEvaluator >>=
          fun world => pure { world : Session }) = .ok s := hstart
      cases hworld : World.start settings setup.logger setup.sources setup.hasEvaluator with
      | error e =>
          rw [hworld] at hrest
          cases hrest
      | ok w =>
          rw [hworld] at hrest
          cases hrest
          exact ⟨settings, hworld⟩

theorem Reached.orderly {s : Session} {waiting : Task.Waiting Session} (hs : Reached s waiting) :
    OnHeap Heap.Orderly s.world ∧ waiting.Keep fun s => OnHeap Heap.Orderly s.world := by
  induction hs with
  | @start setup s hstart =>
      rcases world_of_start hstart with ⟨settings, hworld⟩
      exact ⟨onHeap_start Heap.robust_orderly .empty hworld, Task.Waiting.keep_nil⟩
  | run _ hx ih => exact runOn_keeps hx.keeps ih.1 ih.2
  | @report s waiting _ step hstep ih =>
      have hstep : Exec.Keeps (OnHeap Heap.Orderly) (runTop step) :=
        withstands_orderly.keeps_runTop hstep
      exact @runOn_keeps _ _ _ hstep { s with trace := [] } waiting ih.1 ih.2

end Script

/-!
## One layer of references
-/

namespace Heap

variable {h : Heap} {cell : CellId} {v : Value}

theorem Flat.store_iff (hflat : h.Flat) (hcell : cell < h.cells.size) :
    (h.store cell v).Flat ↔ v.isReference = false := by
  constructor
  · intro hstored
    have hload := hstored cell
    rwa [load_store_self h v hcell] at hload
  · exact hflat.store cell

theorem Flat.copyContent_contentOf (hflat : h.Flat) (v : Value) :
    (copyContent (h.contentOf v)).run h = (copyContent v).run h := by
  rw [run_copyContent, run_copyContent,
    contentOf_of_not_reference h (hflat.contentOf v)]

/-- A reference has been put into a cell of its own: its content was copied there, or is shared
where it has no copy. -/
structure Boxed (h : Heap) (cell new : CellId) (h' : Heap) : Prop where
  apart : new ≠ cell
  kept : h'.load cell = h.load cell
  content :
    (∃ h₁, (copyContent (.reference cell)).run h = .ok (h'.load new, h₁)) ∨
      (∃ e, (copyContent (.reference cell)).run h = .error (.error e)) ∧
        h'.load new = h.load cell
  flat : h'.Flat

theorem Flat.boxed_newReference (hflat : h.Flat) (hcell : cell < h.cells.size) :
    (∃ new h', (newReference (.reference cell)).run h = .ok (.reference new, h') ∧
        Boxed h cell new h') ∨
      ∃ p, (newReference (.reference cell)).run h = .error (.panic p) ∧
        Value.Part .absent (h.load cell) := by
  have hdetach : detach (.reference cell) = copyContent (.reference cell) := rfl
  have hne : cell ≠ h.cells.size := Nat.ne_of_lt hcell
  cases hcopy : (copyContent (.reference cell)).run h with
  | ok r =>
      rcases r with ⟨x, h₁⟩
      have hcells : h₁.cells = h.cells := (copyContent_cells hcopy).2
      have hload : (h₁.newCell x).2.load h₁.cells.size = x := load_newCell_self h₁ x
      refine Or.inl ⟨h₁.cells.size, (h₁.newCell x).2, run_newReference_ok (hdetach ▸ hcopy), ?_⟩
      constructor
      · rw [hcells]
        exact hne.symm
      · rw [load_newCell_ne h₁ x (hcells ▸ hne), load_of_cells_eq hcells]
      · rw [hload]
        exact Or.inl ⟨h₁, hcopy⟩
      · have hx : x.isReference = false := isReference_of_cells (copyContent_cells hcopy).1
        exact (hflat.of_cells_eq hcells).newCell hx
  | error f =>
      cases f with
      | error e =>
          have hload := load_newCell_self h (h.load cell)
          refine Or.inl ⟨h.cells.size, (h.newCell (h.load cell)).2,
            run_newReference_moved (hdetach ▸ hcopy), ?_⟩
          constructor
          · exact hne.symm
          · exact load_newCell_ne h _ hne
          · exact Or.inr ⟨⟨e, hcopy⟩, hload⟩
          · exact hflat.newCell (hflat cell)
      | panic p =>
          refine Or.inr ⟨p, run_newReference_panic (hdetach ▸ hcopy), ?_⟩
          rw [run_copyContent] at hcopy
          split at hcopy
          · cases hcopy
          · exact copy_panic _ hcopy

end Heap

namespace Script

open World Exec

theorem content_getGlobal {w w' : World} (hw : OnHeap Heap.Orderly w) {thread : ThreadId}
    {name : String} {v : Value} (hrun : (getGlobal thread name).run w = (.ok v, w')) :
    v.isReference = false := by
  rcases Op.bind_cases hrun with ⟨f, _, hr⟩ | ⟨id, w₁, hlookup, hrest⟩
  · cases hr
  · have hw₁ : OnHeap Heap.Orderly w₁ :=
      keeps_lookup Heap.robust_orderly thread none name w _ w₁ hw hlookup
    exact content_slot hw₁ hrest

/-- A number in a cell, and in a second cell a list with a reference to the first one. -/
def listOfReference : Exec Value := do
  let _ ← op (Command.box (.int 1)).perform
  let _ ← op (Command.box (.list 0 .any [.reference 0])).perform
  return .reference 1

theorem restrained_listOfReference : Restrained listOfReference := by
  have hbox : ∀ v, Restrained (op (Command.box v).perform) := by
    intro v
    apply Restrained.command
    intro f hf
    cases hf
  exact (hbox _).bind fun _ => (hbox _).bind fun _ => .pure _

theorem start_default : ({} : Setup).start = .ok { world := {} } := by
  have hsorted : ({} : NameMap Initial).toSorted = [] := List.mergeSort_nil
  have hseed : seedGlobals Settings.default.globals = pure () := by
    show (do seedTier 1 {}; seedTier 2 {}; seedTier 0 {}) = _
    simp only [seedTier, hsorted]
    rfl
  show (World.start .default .discard Source.standard false >>= fun world =>
    pure { world : Session }) = _
  simp only [World.start, hseed]
  rfl

end Script
end ScriptCore
