import ScriptCore.Heap.Copy
import ScriptCore.Heap.Observe
import ScriptCore.Log.Line
import ScriptCore.Settings.Basic
import ScriptCore.Tier
import ScriptCore.Typeclass.Basic
import ScriptCore.Typeclass.Instances

/-!
# The world

Everything that a running program can reach: the heap, variables and scopes,
the three tiers of global variables, and the tables of functions and classes.
Variables, scopes and threads are known by their numbers.
-/

namespace ScriptCore

abbrev VariableId := Nat

abbrev ThreadId := Nat

/-- A slot for a value with an optional declared type.  A mutable variable holds a reference to the
cell of its content. -/
structure Variable where
  declared : Ty
  slot : Value

/-- Bindings of names, inside another scope. -/
structure Scope where
  bindings : NameMap VariableId := {}
  outer : Option ScopeId := none

/-- A shared mutable variable with its lock. -/
structure Guard where
  var : VariableId
  /-- The thread that is inside the lock. -/
  holder : Option ThreadId := none
  /-- A holder has given up in the middle of an update. -/
  isPoisoned : Bool := false
deriving DecidableEq, Repr

/-- The tables that callable names are found in. -/
inductive Source where
  | functions
  | instances
  | defaults
  | closures
deriving DecidableEq, Repr

namespace Source

def text : Source → String
  | .functions => "function"
  | .instances => "instance"
  | .defaults => "default"
  | .closures => "closure"

def standard : List Source := [.functions, .instances, .defaults, .closures]

def ofText? (name : String) : Option Source :=
  standard.find? fun s => s.text == name

end Source

/-- Functions, typeclasses and their implementations. -/
structure Tables where
  functions : NameMap FunctionId := {}
  classes : Registry := {}
  instances : Instances FunctionId := {}
  defaults : NameMap FunctionId := {}

/-- The state of a running program. -/
structure World where
  heap : Heap := {}
  vars : Array Variable := #[]
  scopes : Array Scope := #[]
  /-- The thread-local variables of each thread. -/
  threads : Array (NameMap VariableId) := #[{}]
  /-- The shared immutable variables. -/
  frozen : NameMap VariableId := {}
  /-- The shared mutable variables. -/
  guarded : NameMap Guard := {}
  tables : Tables := {}
  sources : List Source := Source.standard
  /-- There is an evaluator for bodies that are not native. -/
  hasEvaluator : Bool := false
  settings : Settings := .default
  logger : Log.Logger := .discard
  /-- Log lines that nobody has taken yet, latest first. -/
  lines : List String := []

/-- Operations change the world and may fail.  What they changed before they failed stays. -/
abbrev Op := ExceptT Failure (StateM World)

namespace Op

def fail {α : Type} (e : Error) : Op α :=
  throw (.error e)

def stop {α : Type} (p : Panic) : Op α :=
  throw (.panic p)

/-- Give the errors of an operation a name, where they have none. -/
def withName {α : Type} (name : String) (op : Op α) : Op α :=
  tryCatch op fun f => throw (f.withName name)

def look {α : Type} (view : Heap → Except Panic α) : Op α := do
  match view (← get).heap with
  | .ok a => return a
  | .error p => stop p

def build {α : Type} (b : Heap.Building α) : Op α := do
  let w ← get
  match b.run w.heap with
  | .ok (a, heap) =>
      set { w with heap }
      return a
  | .error f => throw f

def onHeap {α : Type} (change : Heap → α × Heap) : Op α := do
  let w ← get
  let r := change w.heap
  set { w with heap := r.2 }
  return r.1

end Op

namespace World

def typeOf (v : Value) : Op Ty :=
  Op.look fun h => h.typeOf v

def require (name detail : String) (expected actual : Ty) : Op Unit :=
  match Ty.check expected actual with
  | .ok () => return ()
  | .error m => Op.fail (.ofMismatch name detail m)

/-- Every identity in a log line is written in this way. -/
def anonymous : String := "<uuid>"

def log (level : Log.Level) (message : String) (attrs : List (String × Log.AttrValue)) : Op Unit :=
  modify fun w =>
    match w.logger.line? { level, message, attrs := ("thread", .text anonymous) :: attrs } with
    | some line => { w with lines := line :: w.lines }
    | none => w

end World
end ScriptCore
