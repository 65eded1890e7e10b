import ScriptCore.Text.Quoted
import ScriptCore.Ty.Equal

/-!
# Errors

An error is a cause: a fault of the language with its kind and the name it is
about, a type mismatch, a cancelled call, a rejected YAML document, or a plain
text.  Errors may be wrapped in context.  All wording is in `Error.message`.
-/

namespace ScriptCore

/-- What went wrong in a failing operation of the language. -/
inductive FaultKind where
  | typeMismatch
  | unboundName
  | immutableAssignment
  | unknownTypeclass
  | invalidCall
  | referenceInThreadedCall
  | poisonedLock
  | nonDuplicable
  | invalidReference
  | invalidInstance
  | poisonedPromise
deriving DecidableEq, Repr

namespace FaultKind

def all : List FaultKind :=
  [.typeMismatch, .unboundName, .immutableAssignment, .unknownTypeclass, .invalidCall,
    .referenceInThreadedCall, .poisonedLock, .nonDuplicable, .invalidReference,
    .invalidInstance, .poisonedPromise]

def text : FaultKind → String
  | .typeMismatch => "type mismatch"
  | .unboundName => "unbound name"
  | .immutableAssignment => "immutable assignment"
  | .unknownTypeclass => "unknown typeclass"
  | .invalidCall => "invalid call"
  | .referenceInThreadedCall => "reference passed to threaded call"
  | .poisonedLock => "poisoned lock"
  | .nonDuplicable => "value cannot be duplicated"
  | .invalidReference => "invalid reference"
  | .invalidInstance => "invalid typeclass instance"
  | .poisonedPromise => "poisoned promise"

end FaultKind

/-- The part of a fault that does not nest. -/
structure Fault where
  kind : FaultKind
  /-- The variable, function or class at fault; empty when it is not known yet. -/
  name : String
  detail : String
  expected : Ty := .missing
  actual : Ty := .missing
deriving Repr

inductive Error where
  /-- A message without further structure. -/
  | plain (message : String)
  /-- Another error with context put in front of it. -/
  | context (text : String) (inner : Error)
  | mismatch (types : Ty.Mismatch)
  | fault (fault : Fault)
  /-- A fault that another error led to. -/
  | caused (fault : Fault) (cause : Error)
  | cancelled
  /-- The YAML text is malformed or cannot be given a meaning. -/
  | yamlSyntax
  /-- Parts of a YAML document do not fit what is asked for. -/
  | yamlMismatch (issues : List String)
deriving Repr

namespace Fault

def head (f : Fault) : String :=
  f.kind.text
    ++ (if f.name.isEmpty then "" else " " ++ Text.quote f.name)
    ++ (if f.detail.isEmpty then "" else ": " ++ f.detail)

def types (f : Fault) : String :=
  if f.expected.isMissing && f.actual.isMissing then ""
  else ": expected " ++ f.expected.display ++ ", got " ++ f.actual.display

end Fault

namespace Error

def message : Error → String
  | .plain message => message
  | .context text inner => text ++ ": " ++ message inner
  | .mismatch types => types.message
  | .fault f => f.head ++ f.types
  | .caused f cause => f.head ++ ": " ++ message cause
  | .cancelled => "context canceled"
  | .yamlSyntax => "yaml:"
  | .yamlMismatch issues => "yaml: unmarshal errors:\n  " ++ "\n  ".intercalate issues

def fault? : Error → Option Fault
  | .context _ inner => fault? inner
  | .fault f => some f
  | .caused f _ => some f
  | _ => none

def kinds : Error → List FaultKind
  | .context _ inner => kinds inner
  | .fault f => [f.kind]
  | .caused f cause => f.kind :: kinds cause
  | _ => []

def bare : Error → Error
  | .context _ inner => bare inner
  | e => e

/-- Give the outermost fault a name, if it has none.  The named fault replaces the whole error. -/
def withName (name : String) (e : Error) : Error :=
  match e.bare with
  | .fault f => if f.name.isEmpty then .fault { f with name } else e
  | .caused f cause => if f.name.isEmpty then .caused { f with name } cause else e
  | _ => e

theorem kinds_bare (e : Error) : e.bare.kinds = e.kinds := by
  induction e with
  | context text inner ih => exact ih
  | _ => rfl

theorem kinds_withName (name : String) (e : Error) : (e.withName name).kinds = e.kinds := by
  have hbare := kinds_bare e
  unfold withName
  cases hb : e.bare with
  | fault f =>
      rw [hb] at hbare
      by_cases hname : f.name.isEmpty
      · simpa [hname, kinds] using hbare
      · simp [hname]
  | caused f cause =>
      rw [hb] at hbare
      by_cases hname : f.name.isEmpty
      · simpa [hname, kinds] using hbare
      · simp [hname]
  | _ => rfl

def ofKind (kind : FaultKind) (name detail : String) : Error :=
  .fault { kind, name, detail }

def ofMismatch (name detail : String) (m : Ty.Mismatch) : Error :=
  .caused
    { kind := .typeMismatch, name, detail, expected := m.expected.orAny, actual := m.actual.orAny }
    (.mismatch m)

end Error

/-- Why a computation stopped without any answer.  The last three reasons end everything and not
only the computation, so that nothing is meant by what comes after them. -/
inductive Panic where
  /-- A body gave up with a message. -/
  | raised (message : String)
  /-- An operation needed a value where there is none. -/
  | absentValue
  /-- A value contains itself, so that going through it has no end. -/
  | bottomless
  /-- Calls nest deeper than they may. -/
  | tooDeep
  /-- The computation waits for something that does not happen. -/
  | stuck
deriving DecidableEq, Repr

namespace Panic

/-- The text of a stop, as whoever asked for the computation sees it. -/
def message : Panic → String
  | .raised message => message
  | .absentValue => "runtime error"
  | .bottomless => "stack overflow"
  | .tooDeep => "stack overflow"
  | .stuck => "deadlock"

/-- The text of a stop in full, as it is written into logs and promises. -/
def report : Panic → String
  | .absentValue => "runtime error: invalid memory address or nil pointer dereference"
  | p => p.message

end Panic

/-- How a computation ends without a result. -/
inductive Failure where
  | error (e : Error)
  | panic (p : Panic)
deriving Repr

namespace Failure

def withName (name : String) : Failure → Failure
  | .error e => .error (e.withName name)
  | .panic p => .panic p

end Failure
end ScriptCore
