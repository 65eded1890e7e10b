import ScriptCore.NameMap
import ScriptCore.Ty.Equal

/-!
# Instances

The implementations of methods for types.  There is one entry for each method
and dispatch key.  Dispatch takes the entry under the key of the argument type;
failing that, the earliest registered entry whose type fits.
-/

namespace ScriptCore

/-- An implementation of a method for a type. -/
structure Instance (β : Type) where
  /-- Counts the registrations. -/
  serial : Nat
  className : String
  method : String
  type : Ty
  body : β
deriving Repr

structure Instances (β : Type) where
  /-- The entries under method and dispatch key. -/
  keyed : List ((String × String) × Instance β) := []
  /-- The entries in order of registration. -/
  order : List (Instance β) := []
  nextSerial : Nat := 0
deriving Repr

namespace Instances

variable {β : Type}

/-- Bind in a list of keyed entries, replacing an earlier binding in its place. -/
def putKeyed (key : String × String) (entry : Instance β) :
    List ((String × String) × Instance β) → List ((String × String) × Instance β)
  | [] => [(key, entry)]
  | (other, old) :: rest =>
      if key == other then (key, entry) :: rest else (other, old) :: putKeyed key entry rest

/-- Register an implementation, replacing an earlier one under the same key. -/
def add (t : Instances β) (className method : String) (type : Ty) (body : β) : Instances β :=
  let entry : Instance β := { serial := t.nextSerial, className, method, type, body }
  let key := (method, type.key)
  let order :=
    match t.keyed.lookup key with
    | some old => t.order.filter fun e => e.serial != old.serial
    | none => t.order
  { keyed := putKeyed key entry t.keyed
    order := order ++ [entry]
    nextSerial := t.nextSerial + 1 }

def find? (t : Instances β) (method : String) (argument : Ty) : Option (Instance β) :=
  match t.keyed.lookup (method, argument.key) with
  | some entry => some entry
  | none => t.order.find? fun e => e.method == method && e.type.equal argument

def types (t : Instances β) (method : String) : List String :=
  NameMap.sortNames ((t.keyed.filter fun e => e.1.1 == method).map fun e => e.1.2)

end Instances
end ScriptCore
