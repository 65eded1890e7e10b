import ScriptCore.Ty.Basic

/-!
# Parameters and signatures
-/

namespace ScriptCore

/-- A parameter of a function; its type may be missing. -/
structure Param where
  name : String
  type : Ty
deriving Repr

namespace Param

def isReference (p : Param) : Bool :=
  p.type.isRef

def display (p : Param) : String :=
  if p.type.isMissing then p.name else p.name ++ ": " ++ p.type.display

end Param

structure Signature where
  /-- Empty for anonymous functions. -/
  name : String
  /-- The function runs on a thread of its own and its call gives a promise. -/
  spawn : Bool
  params : List Param
  effects : List Ty
  result : Ty
deriving Repr

namespace Signature

def display (s : Signature) : String :=
  (if s.spawn then "spawn fn" else "fn")
    ++ (if s.name.isEmpty then "" else " " ++ s.name)
    ++ "(" ++ ", ".intercalate (s.params.map Param.display) ++ ") \x7b ... \x7d"

def type (s : Signature) : Ty :=
  .func (s.params.map fun p => p.type.orAny) s.effects s.result.orAny

def displayName (s : Signature) : String :=
  if s.name.isEmpty then "<lambda>" else s.name

end Signature
end ScriptCore
