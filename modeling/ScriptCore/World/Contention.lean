import ScriptCore.View
import ScriptCore.World.Load

/-!
# Contention

Several threads count up one shared mutable variable.  Every addition happens
inside the lock, so none is lost.
-/

namespace ScriptCore
namespace World

def increase (amount : Int64) (id : VariableId) : Op Unit := do
  match ← contentOf (← slot id) with
  | .int n => assignValue id (.int (n + amount))
  | _ => Op.stop .absentValue

/-- A new thread adds to a shared mutable variable several times. -/
def work (name : String) (amount : Int64) (rounds : Nat) : Op Unit := do
  let thread ← newThread
  (List.range rounds).forM fun _ => withMutableGlobal thread name (increase amount)

/-- Declare a shared mutable variable, let threads add to it, and look at it. -/
def contend (name : String) (start amount : Int64) (workers rounds : Nat) : Op VariableView := do
  declareGlobal 0 name 2 .missing (.int start)
  (List.range workers).forM fun _ => work name amount rounds
  viewVariable (← lookup 0 none name)

end World
end ScriptCore
