import ScriptCore.Ty.Basic

/-!
# Equality of types

References and aliases are transparent, and a wildcard name fits any type.
Every occurrence of a wildcard is read on its own, so the relation is
symmetric without being transitive.  The dispatch key of a type is the written
form of its normal form.
-/

namespace ScriptCore
namespace Ty

/-- The name `Any` and every name of one character fit any type. -/
def isWildcard (name : String) : Bool :=
  name == "Any" || name.length == 1

def resolve : Ty → Ty
  | .ref target => resolve target
  | .alias _ target => resolve target
  | .missing => any
  | t => t

mutual

def normalize : Ty → Ty
  | .missing => any
  | .named name => .named name
  | .tuple elements => .tuple (normalizeAll elements)
  | .func params effects result =>
      .func (normalizeAll params) (normalizeAll effects) (normalize result)
  | .app head args => .app (normalize head) (normalizeAll args)
  | .ref target => normalize target
  | .alias _ target => normalize target
  | .unit => .unit

def normalizeAll : List Ty → List Ty
  | [] => []
  | t :: rest => normalize t :: normalizeAll rest

end

def key (t : Ty) : String :=
  t.normalize.display

mutual

def equal : Ty → Ty → Bool
  | .missing, _ => true
  | .ref target, b => equal target b
  | .alias _ target, b => equal target b
  | .named name, b =>
      isWildcard name ||
        match b.resolve with
        | .named other => isWildcard other || name == other
        | _ => false
  | .tuple elements, b =>
      match b.resolve with
      | .named other => isWildcard other
      | .tuple others => equalAll elements others
      | _ => false
  | .func params effects result, b =>
      match b.resolve with
      | .named other => isWildcard other
      | .func params' effects' result' =>
          equalAll params params' && equalAll effects effects' && equal result result'
      | _ => false
  | .app head args, b =>
      match b.resolve with
      | .named other => isWildcard other
      | .app head' args' => equal head head' && equalAll args args'
      | _ => false
  | .unit, b =>
      match b.resolve with
      | .named other => isWildcard other
      | .unit => true
      | _ => false

def equalAll : List Ty → List Ty → Bool
  | [], [] => true
  | t :: rest, u :: rest' => equal t u && equalAll rest rest'
  | _, _ => false

end

/-- A type that was found where another one is required. -/
structure Mismatch where
  expected : Ty
  actual : Ty
deriving Repr

def Mismatch.message (m : Mismatch) : String :=
  "expected " ++ m.expected.display ++ ", got " ++ m.actual.display

/-- Nothing is required of a value where no type was given. -/
def check (expected actual : Ty) : Except Mismatch Unit :=
  if expected.isMissing || expected.equal actual then .ok () else .error ⟨expected, actual⟩

end Ty
end ScriptCore
