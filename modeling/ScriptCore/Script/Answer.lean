import ScriptCore.Settings.Basic
import ScriptCore.View

/-!
# Answers

What a step comes to, for whoever runs it.
-/

namespace ScriptCore

/-- The state of a promise as it is shown. -/
structure PromiseView where
  state : String
  isDone : Bool
  function : String
  returnType : Ty

namespace Script

inductive Answer where
  | ok
  | object (v : Option ObjectView)
  | var (v : VariableView)
  | same (b : Bool)
  /-- Whether there is a binding. -/
  | found (b : Bool)
  /-- The binding, if there is one. -/
  | search (v : Option VariableView)
  | bindings (entries : List (String × VariableView))
  | names (names : List String)
  | results (values : List (Option ObjectView))
  /-- What was asked for is not there yet. -/
  | pending
  | status (p : PromiseView)
  | settings (s : Settings)

end Script
end ScriptCore
