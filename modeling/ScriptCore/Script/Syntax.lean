import ScriptCore.Param
import ScriptCore.Value.Basic

/-!
# Scripts

Function bodies are lists of steps.  A step evaluates its operand and then
performs one action on the running world.  Scripts name what they keep between
steps in registers of values, variables, scopes and threads.
-/

namespace ScriptCore
namespace Script

inductive Operator where
  | add
  | mul
  | eq
  | lt
deriving DecidableEq, Repr

def Operator.text : Operator → String
  | .add => "add"
  | .mul => "mul"
  | .eq => "eq"
  | .lt => "lt"

/-- The scope that a new function captures. -/
inductive Capture where
  | nothing
  | named (scope : String)
  /-- The scope in which the function is made. -/
  | current
deriving Repr

inductive Callee where
  /-- A name with plain values as arguments. -/
  | plain (name : String)
  /-- A name with plain values as arguments, through the embedding interface. -/
  | host (name : String)
  /-- A name with variables as arguments. -/
  | named (name : String)
  /-- A function value. -/
  | target
deriving Repr

/-- The part of an object that an edit in place changes. -/
structure Site where
  index : Nat
  field : String
  renamed : String
deriving Repr

abbrev TierCode := Int

/-- Actions without nested steps or expressions. -/
inductive Primitive where
  | setRegister (register : String)
  | evaluate
  | store (register : String)
  | sameCell (left right : String)
  | edit (register : String) (site : Site)
  | bindVariable (var : String) (type : Ty) (isMutable : Bool)
  | emptyVariable (var : String) (type : Ty)
  | showVariable (var : String)
  | setVariable (var : String)
  | assignVariable (var : String)
  | copyContent (var : String) (register : Option String)
  | takeReference (var : String) (register : Option String)
  | snapshot (var : String) (into : String)
  | newScope (scope : String) (outer : Option String)
  | define (name : String) (type : Ty) (isMutable : Bool)
  | put (name var : String)
  | find (name : String) (into : Option String)
  | update (name : String)
  | showBindings
  | detach (scope : String)
  | declare (name : String) (tier : TierCode) (type : Ty)
  | lookup (name : String) (into : Option String)
  | assign (name : String)
  | globalNames (tier : TierCode)
  | functionNames
  | classNames
  | instanceTypes (method : String)
  | fork (thread : String)
  | showSettings
  | await
  | awaitAll (registers : List String) (cancelled : Bool)
  | status (register : String)
  | gate (name : String)
  | openGate (name : String)
  | setGlobal (name : String) (tier : TierCode)
  | getGlobal (name : String)
  | trace
  | finish
  | fail (text : String)
  | panic (text : String)
deriving Repr

mutual

inductive Expr where
  | absent
  | int (n : Int64)
  | uint (n : UInt64)
  | float (x : Float)
  | char (code : Int32)
  | byte (b : UInt8)
  | bool (b : Bool)
  | text (s : String)
  /-- A list with a given element type. -/
  | list (element : Ty) (items : List Expr)
  /-- A list whose first item tells the element type. -/
  | newList (items : List Expr)
  | tuple (items : List Expr)
  | algebraic (shape : Shape) (fields : List (String × Expr))
  | alias (name target : Ty) (content : Expr)
  /-- A reference to a new cell. -/
  | reference (content : Expr)
  | function (signature : Signature) (capture : Capture) (body : BodyText)
  | register (name : String)
  /-- The content of a variable. -/
  | read (name : String)
  /-- The slot of a variable, which may hold a reference. -/
  | slot (name : String)
  /-- An argument of the running host function. -/
  | argument (index : Nat)
  /-- The running call has not been cancelled. -/
  | live
  /-- The running thread is the first one. -/
  | onMainThread
  | call (call : Call)
  | choose (condition whenTrue whenFalse : Expr)
  | arith (op : Operator) (left right : Expr)
  | display (of : Expr)
  | typeName (of : Expr)
  | truthy (of : Expr)
  | copy (of : Expr)
  | load (of : Expr)
  /-- A second reference to the cell of a reference. -/
  | sameReference (of : Expr)
  | yaml (of : Expr)
  | await (of : Expr)

/-- The body of a function as it is written. -/
inductive BodyText where
  | none
  | native (steps : List Step)
  /-- Only a configured evaluator can run this body. -/
  | handle (steps : List Step)

/-- A call with its arguments; the target matters for calls of function values only. -/
inductive Call where
  | mk (callee : Callee) (args : List Arg) (target : Expr) (register : Option String)
      (cancelled : Bool)

inductive Arg where
  | missing
  | var (name : String)
  /-- The variable that a name stands for where the call is made. -/
  | lookup (name : String)
  | value (e : Expr)

/-- A method of a class or of an instance. -/
inductive MethodText where
  | mk (name : String) (signature : Ty) (body : Expr)

/-- One step: the thread and the scope it runs in, its operand and its action. -/
inductive Step where
  | mk (thread scope : Option String) (operand : Expr) (action : Action)

inductive Action where
  | primitive (p : Primitive)
  | withMutable (name : String) (steps : List Step)
  | attempt (steps : List Step)
  | withContext (text : String) (steps : List Step)
  | call (call : Call)
  | resolve (name : String) (args : List Arg) (register : Option String)
  | addFunction (name : String) (function : Expr)
  | addClass (name : String) (methods : List MethodText)
  | addInstance (name : String) (type : Ty) (methods : List MethodText)
  | bindHost (name : String) (params : List Param) (result : Ty) (body : List Step)

end

end Script
end ScriptCore
