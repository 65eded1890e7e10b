import ScriptCore.World.Dispatch

/-!
# Binding parameters

Arguments are checked against the types of the parameters.  A reference
parameter is bound to the cell of its argument; every other parameter gets a
copy.  A function that runs on a thread of its own sees a detached closure and
takes no references.
-/

namespace ScriptCore
namespace World

def paramText (index : Nat) (p : Param) : String :=
  "argument " ++ toString (index + 1) ++ " (" ++ p.name ++ ")"

def paramSlot (f : Signature) (p : Param) (arg : VariableId) : Op Value := do
  if p.isReference then
    if f.spawn then
      Op.fail <| .ofKind .referenceInThreadedCall f.displayName
        ("parameter " ++ p.name ++ " is a reference")
    match ← slot arg with
    | .reference cell => return .reference cell
    | _ =>
        Op.fail <| .ofKind .immutableAssignment f.displayName
          ("reference parameter " ++ p.name ++ " needs a mutable argument")
  else Op.withName f.displayName (copyOf arg)

def bindParam (f : Signature) (scope : ScopeId) (index : Nat) (p : Param)
    (arg : Option VariableId) : Op Unit := do
  match arg with
  | none =>
      Op.fail (.ofKind .invalidCall f.displayName (paramText index p ++ " is missing"))
  | some arg =>
      let actual ← valueType arg
      require f.displayName (paramText index p) p.type.orAny actual
      let value ← paramSlot f p arg
      let id ← addVariable { declared := p.type, slot := value }
      bindName (some scope) p.name id

def bindFrom (f : Signature) (scope : ScopeId) : (index : Nat) → List Param → Args → Op Unit
  | index, p :: params, arg :: args => do
      bindParam f scope index p arg
      bindFrom f scope (index + 1) params args
  | _, _, _ => return ()

def bindParams (f : Signature) (closure : Option ScopeId) (args : Args) : Op ScopeId := do
  if args.length ≠ f.params.length then
    Op.fail <| .ofKind .invalidCall f.displayName <|
      "expects " ++ toString f.params.length ++ " arguments, got " ++ toString args.length
  let scope ← newScope closure
  bindFrom f scope 0 f.params args
  return scope

def prepare (f : Function) (args : Args) : Op ScopeId := do
  let name := f.signature.displayName
  let closure ←
    if f.signature.spawn then some <$> Op.withName name (detached f.closure) else pure f.closure
  bindParams f.signature closure args

/-- No value stands for the empty tuple. -/
def orUnit (v : Value) : Value :=
  if v.isAbsent then .unit else v

def settle (f : Signature) (result : Value) : Op Value := do
  let result := orUnit result
  let actual ← typeOf result
  require f.displayName "return value" f.result actual
  return result

/-- A function without a body cannot be called. -/
def noBodyFault (f : Signature) : Error :=
  .ofKind .invalidCall f.displayName "function has no body"

def noEvaluatorFault (f : Signature) : Error :=
  .ofKind .invalidCall f.displayName "no body evaluator configured"

end World
end ScriptCore
