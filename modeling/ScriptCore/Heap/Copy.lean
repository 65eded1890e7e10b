import ScriptCore.Heap.Basic

/-!
# Copies

A copy shares no object with what it was copied from.  References and promises
are unique handles: a value that holds one anywhere in its tree has no copy.
The closure and the body of a function are shared with its copy.
-/

namespace ScriptCore
namespace Heap

abbrev Building := StateT Heap (Except Failure)

def freshMark : Building Mark := do
  let h ← get
  set h.newMark.2
  return h.newMark.1

def copyFunction (id : FunctionId) : Building Value := do
  let h ← get
  match h.functions[id]? with
  | some f =>
      set (h.newFunction f).2
      return .function (h.newFunction f).1
  | none => return .function id

def referenceFault : Error :=
  .ofKind .nonDuplicable "" "a reference must be aliased explicitly, not copied"

def promiseFault (function : String) : Error :=
  .ofKind .nonDuplicable function "a promise is a unique handle to in-flight work"

mutual

def copy : Value → Building Value
  | .absent => throw (.panic .absentValue)
  | .list _ element items => do
      let items ← copyAll items
      return .list (← freshMark) element items
  | .tuple _ items => do
      let items ← copyAll items
      return .tuple (← freshMark) items
  | .algebraic _ shape fields => do
      let fields ← copyFields fields
      return .algebraic (← freshMark) shape fields
  | .alias _ name target content => do
      let content ← copy content
      return .alias (← freshMark) name target content
  | .reference _ => throw (.error referenceFault)
  | .function id => copyFunction id
  | .promise id => do
      let h ← get
      throw (.error (promiseFault ((h.promises[id]?.map (·.function)).getD "")))
  | v => return v

def copyAll : List Value → Building (List Value)
  | [] => return []
  | v :: rest => do
      let v ← copy v
      let rest ← copyAll rest
      return v :: rest

def copyFields : List (String × Value) → Building (List (String × Value))
  | [] => return []
  | (name, v) :: rest => do
      let v ← copy v
      let rest ← copyFields rest
      return (name, v) :: rest

end

def copyContent (v : Value) : Building Value := do
  let h ← get
  let content := h.contentOf v
  if content.isAbsent then throw (.error (.ofKind .unboundName "" "binding has no value"))
  copy content

/-- A reference replaced by a copy of its content; any other value as it is. -/
def detach (v : Value) : Building Value :=
  if v.isReference then copyContent v else return v

/-- A new cell for a value.  Of a reference, the content is copied into the new cell, or moved as it
is where it has no copy. -/
def newReference (v : Value) : Building Value := do
  let h ← get
  let content ←
    match (detach v).run h with
    | .ok (content, h') => do
        set h'
        pure content
    | .error (.error _) => pure (h.contentOf v)
    | .error (.panic p) => throw (.panic p)
  let h ← get
  set (h.newCell content).2
  return .reference (h.newCell content).1

def sameReference (v : Value) : Except Failure Value :=
  match v with
  | .reference cell => .ok (.reference cell)
  | v =>
      .error <| .error <| .ofKind .invalidReference ""
        ("cannot create a reference to a " ++ v.kind ++ " value")

end Heap
end ScriptCore
