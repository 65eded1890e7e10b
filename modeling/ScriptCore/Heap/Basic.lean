import ScriptCore.Error
import ScriptCore.Script.Syntax

/-!
# The heap

Cells, functions and promises live in the heap and are known by their numbers.
Nothing is ever removed from it.
-/

namespace ScriptCore

abbrev ScopeId := Nat

inductive Body where
  | none
  | native (steps : List Script.Step)
  /-- Only a configured evaluator can run this body. -/
  | handle (steps : List Script.Step)
  /-- A host function.  It was bound under `name` and takes its arguments by the parameter names
  of the function `owner`. -/
  | host (name : String) (owner : FunctionId) (steps : List Script.Step)

structure Function where
  signature : Signature
  closure : Option ScopeId
  body : Body

/-- How far the body behind a promise has come. -/
inductive PromiseState where
  | pending
  | resolved (result : Value)
  | failed (reason : Error)
  | poisoned (reason : Error)

namespace PromiseState

def text : PromiseState → String
  | .pending => "pending"
  | .resolved _ => "resolved"
  | .failed _ => "failed"
  | .poisoned _ => "poisoned"

def isDone : PromiseState → Bool
  | .pending => false
  | _ => true

def textOfInt (n : Int) : String :=
  if n = 1 then "resolved" else if n = 2 then "failed" else if n = 3 then "poisoned"
  else "pending"

end PromiseState

/-- The handle to a body that runs on a thread of its own. -/
structure Promise where
  function : String
  returnType : Ty
  state : PromiseState

structure Heap where
  cells : Array Value := #[]
  functions : Array Function := #[]
  promises : Array Promise := #[]
  /-- The next unused mark.  Zero is the mark of objects that nobody shares. -/
  nextMark : Mark := 1

namespace Heap

def load (h : Heap) (cell : CellId) : Value :=
  h.cells.getD cell .absent

def store (h : Heap) (cell : CellId) (value : Value) : Heap :=
  { h with cells := h.cells.setIfInBounds cell value }

def newCell (h : Heap) (value : Value) : CellId × Heap :=
  (h.cells.size, { h with cells := h.cells.push value })

def newFunction (h : Heap) (f : Function) : FunctionId × Heap :=
  (h.functions.size, { h with functions := h.functions.push f })

def setFunction (h : Heap) (id : FunctionId) (f : Function) : Heap :=
  { h with functions := h.functions.setIfInBounds id f }

def newPromise (h : Heap) (p : Promise) : PromiseId × Heap :=
  (h.promises.size, { h with promises := h.promises.push p })

def setPromise (h : Heap) (id : PromiseId) (p : Promise) : Heap :=
  { h with promises := h.promises.setIfInBounds id p }

def newMark (h : Heap) : Mark × Heap :=
  (h.nextMark, { h with nextMark := h.nextMark + 1 })

def contentOf (h : Heap) : Value → Value
  | .reference cell => h.load cell
  | v => v

end Heap
end ScriptCore
