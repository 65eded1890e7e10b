import ScriptCore.NameMap
import ScriptCore.Ty.Basic

/-!
# Typeclasses

A typeclass declares methods with their signatures.  A method without a
default is required of every instance.  The registry knows the current
declaration of every class, and which class declared a method last.
-/

namespace ScriptCore

structure Method where
  name : String
  signature : Ty
  hasDefault : Bool
deriving Repr

/-- A named list of methods with distinct names. -/
structure Typeclass where
  name : String
  methods : List Method
deriving Repr

namespace Typeclass

def putMethod (m : Method) : List Method → List Method
  | [] => [m]
  | other :: rest => if m.name == other.name then m :: rest else other :: putMethod m rest

def ofMethods (name : String) (methods : List Method) : Typeclass where
  name := name
  methods := methods.foldl (fun acc m => putMethod m acc) []

def method? (c : Typeclass) (name : String) : Option Method :=
  c.methods.find? fun m => m.name == name

def declares (c : Typeclass) (name : String) : Bool :=
  (c.method? name).isSome

def signature? (c : Typeclass) (name : String) : Option Ty :=
  (c.method? name).map (·.signature)

def required (c : Typeclass) : List String :=
  (c.methods.filter fun m => !m.hasDefault).map (·.name)

def missing (c : Typeclass) (implemented : List String) : List String :=
  c.required.filter fun name => !implemented.contains name

def undeclared (c : Typeclass) (implemented : List String) : List String :=
  implemented.filter fun name => !c.declares name

end Typeclass

structure Registry where
  classes : NameMap Typeclass := {}
  /-- The class that declared a method last. -/
  owners : NameMap String := {}
deriving Repr

namespace Registry

/-- Take the methods of a class out of the owners, as far as the class owns them. -/
def disown (name : String) (methods : List Method) (owners : NameMap String) : NameMap String :=
  methods.foldl
    (fun acc m => if acc.get? m.name == some name then acc.erase m.name else acc) owners

def define (r : Registry) (c : Typeclass) : Registry :=
  let owners :=
    match r.classes.get? c.name with
    | some old => disown c.name old.methods r.owners
    | none => r.owners
  { classes := r.classes.insert c.name c
    owners := c.methods.foldl (fun acc m => acc.insert m.name c.name) owners }

def get? (r : Registry) (name : String) : Option Typeclass :=
  r.classes.get? name

def owner? (r : Registry) (method : String) : Option String :=
  r.owners.get? method

def names (r : Registry) : List String :=
  r.classes.names

end Registry
end ScriptCore
