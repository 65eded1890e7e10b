import ScriptCore.Proofs.Heap.Growth
import ScriptCore.Proofs.World.Guard
import ScriptCore.World.Globals
import ScriptCore.World.Promise

/-!
# Commands and histories

A command is one operation on the storage of a world with all its arguments.
A history is a run of commands from a fresh world.  A failing command is part
of the history too: what it changed before it failed stays.

The body of a function is not known here.  A call binds its parameters, and
the commands of its body follow it in the history.
-/

namespace ScriptCore
namespace World

inductive Command where
  | newScope (outer : Option ScopeId)
  | fork
  | box (value : Value)
  | newFunction (f : Function)
  | newPromise (f : Signature)
  | conclude (id : PromiseId) (outcome : Except Failure Value)
  | bind (declared : Ty) (value : Value) (isMutable : Bool)
  | define (scope : ScopeId) (name : String) (declared : Ty) (value : Value) (isMutable : Bool)
  | declare (thread : ThreadId) (name : String) (tier : Int) (declared : Ty) (value : Value)
  | lookup (thread : ThreadId) (scope : Option ScopeId) (name : String)
  | assignValue (id : VariableId) (value : Value)
  | assign (thread : ThreadId) (scope : Option ScopeId) (name : String) (value : Value)
  /-- An assignment inside the lock of a shared mutable variable. -/
  | withMutable (thread : ThreadId) (name : String) (value : Value)
  /-- The parameters of a function are bound; its body comes next. -/
  | call (f : Function) (args : Args)

inductive Reply where
  | done
  | scope (id : ScopeId)
  | thread (id : ThreadId)
  | value (v : Value)
  | var (id : VariableId)

namespace Command

def perform : Command → Op Reply
  | .newScope outer => .scope <$> World.newScope outer
  | .fork => .thread <$> World.fork
  | .box value => .value <$> Op.build (Heap.newReference value)
  | .newFunction f => (fun id => .value (.function id)) <$> Op.onHeap fun h => h.newFunction f
  | .newPromise f => (fun id => .value (.promise id)) <$> World.newPromise f
  | .conclude id outcome => (fun _ => .done) <$> concludePromise id outcome
  | .bind declared value isMutable =>
      .var <$> if isMutable then bindMutable declared value else bindValue declared value
  | .define scope name declared value isMutable =>
      .var <$> World.define (some scope) name declared value isMutable
  | .declare thread name tier declared value =>
      (fun _ => .done) <$> declareGlobal thread name tier declared value
  | .lookup thread scope name => .var <$> World.lookup thread scope name
  | .assignValue id value => (fun _ => .done) <$> World.assignValue id value
  | .assign thread scope name value => (fun _ => .done) <$> World.assign thread scope name value
  | .withMutable thread name value =>
      (fun _ => .done) <$> withMutableGlobal thread name fun id => World.assignValue id value
  | .call f args => .scope <$> prepare f args

def outcome (c : Command) (w : World) : Except Failure Reply :=
  (c.perform.run w).1

def after (c : Command) (w : World) : World :=
  (c.perform.run w).2

theorem outcome_of {w w' : World} {c : Command} {r : Except Failure Reply}
    (hrun : c.perform.run w = (r, w')) : c.outcome w = r := by
  unfold outcome
  rw [hrun]

theorem after_of {w w' : World} {c : Command} {r : Except Failure Reply}
    (hrun : c.perform.run w = (r, w')) : c.after w = w' := by
  unfold after
  rw [hrun]

def ScopeExists (w : World) (scope : Option ScopeId) : Prop :=
  ∀ id, scope = some id → id < w.scopes.size

def Valid (w : World) : Command → Prop
  | .newScope outer => ScopeExists w outer
  | .box value => w.heap.Live value
  | .bind _ value _ => w.heap.Live value
  | .define scope _ _ value _ => scope < w.scopes.size ∧ w.heap.Live value
  | .declare thread _ _ _ value => thread < w.threads.size ∧ w.heap.Live value
  | .lookup thread scope _ => thread < w.threads.size ∧ ScopeExists w scope
  | .assignValue _ value => w.heap.Live value
  | .assign thread scope _ value =>
      thread < w.threads.size ∧ ScopeExists w scope ∧ w.heap.Live value
  | .withMutable thread _ value => thread < w.threads.size ∧ w.heap.Live value
  | _ => True

end Command

theorem run_newPromise (w : World) (f : Signature) :
    ∃ lines, (newPromise f).run w =
      (.ok w.heap.promises.size,
        { w with
          heap := (w.heap.newPromise
            { function := f.displayName, returnType := f.result, state := .pending }).2
          lines }) := by
  let heap := (w.heap.newPromise
    { function := f.displayName, returnType := f.result, state := .pending }).2
  rcases run_log { w with heap } .debug "spawned"
    [("function", .text f.displayName), ("promise", .text anonymous)] with ⟨lines, hlines⟩
  refine ⟨lines, ?_⟩
  unfold newPromise Op.onHeap
  simp only [Op.run_bind, Op.run_get, Op.next_ok, Op.run_set, Op.run_pure]
  rw [hlines]
  rfl

def IsFresh (w : World) : Prop :=
  ∃ settings logger sources hasEvaluator,
    w = { settings, logger, sources, hasEvaluator }

/-- The commands of a run, the latest first, each with the world it found, and the world at the
end. -/
inductive History : List (World × Command) → World → Prop where
  | fresh {w : World} (hfresh : w.IsFresh) : History [] w
  | step {past : List (World × Command)} {w : World} (hpast : History past w) (c : Command)
      (hvalid : c.Valid w) : History ((w, c) :: past) (c.after w)

end World
end ScriptCore
