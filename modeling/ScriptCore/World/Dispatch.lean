import ScriptCore.World.Classes
import ScriptCore.World.Scope

/-!
# Finding functions

The tables are asked in order, and the first function found is called.
-/

namespace ScriptCore
namespace World

/-- The arguments of a call: variables of the caller, some of which may be missing. -/
abbrev Args := List (Option VariableId)

/-- The implementation of a method for the type of the first argument. -/
def instanceFor? (name : String) (args : Args) : Op (Option FunctionId) := do
  match args with
  | some first :: _ =>
      let type ← valueType first
      return ((← get).tables.instances.find? name type).map (·.body)
  | _ => return none

def closure? (scope : Option ScopeId) (name : String) : Op (Option FunctionId) := do
  match (← get).find? scope name with
  | some id =>
      match ← contentOf (← slot id) with
      | .function f => return some f
      | _ => return none
  | none => return none

def askSource (scope : Option ScopeId) (name : String) (args : Args) :
    Source → Op (Option FunctionId)
  | .functions => do return (← get).tables.functions.get? name
  | .instances => instanceFor? name args
  | .defaults => do return (← get).tables.defaults.get? name
  | .closures => closure? scope name

def askSources (scope : Option ScopeId) (name : String) (args : Args) :
    List Source → Op FunctionId
  | [] =>
      Op.fail
        (.ofKind .unboundName name "no function, instance, default or closure with this name")
  | source :: rest => do
      match ← askSource scope name args source with
      | some id =>
          log .debug "resolved function" [("name", .text name), ("source", .text source.text)]
          return id
      | none => askSources scope name args rest

def resolve (scope : Option ScopeId) (name : String) (args : Args) : Op FunctionId := do
  askSources scope name args (← get).sources

end World
end ScriptCore
