import ScriptCore.Decimal.Layout
import ScriptCore.Yaml.Timestamp

/-!
# YAML data

What a YAML document says, without its layout: scalars, sequences and mappings
with keys of any scalar kind.
-/

namespace ScriptCore

inductive Yaml.Width where
  /-- The type of the integers of documents, and of bytes. -/
  | machine
  /-- The type of the integers that are values. -/
  | fixed
deriving Repr, DecidableEq, Inhabited

structure Yaml.Integer where
  value : Int64
  width : Yaml.Width := .machine
deriving Repr, DecidableEq, Inhabited

namespace Yaml.Integer

instance : Coe Int64 Integer := ⟨fun n => { value := n }⟩

instance (n : Nat) : OfNat Integer n := ⟨{ value := OfNat.ofNat n }⟩

def toInt (n : Integer) : Int :=
  n.value.toInt

end Yaml.Integer

inductive Yaml where
  | null
  | bool (b : Bool)
  | int (n : Yaml.Integer)
  /-- An integer beyond the signed range. -/
  | uint (n : UInt64)
  | float (x : Float)
  | text (s : String)
  | time (t : Timestamp)
  | seq (items : List Yaml)
  | map (entries : List (Yaml × Yaml))
deriving Repr, Inhabited

namespace Yaml

def keyText : Yaml → String
  | .null => "<nil>"
  | .bool b => if b then "true" else "false"
  | .int n => toString n.toInt
  | .uint n => toString n.toNat
  | .float x => Decimal.display.render x
  | .text s => s
  | .time t => t.display
  | .seq _ => "[]"
  | .map _ => "map[]"

/-- Keys that denote one entry of a mapping.  A key that is not a number equals no key. -/
def sameKey : Yaml → Yaml → Bool
  | .null, .null => true
  | .bool a, .bool b => a == b
  | .int a, .int b => a == b
  | .uint a, .uint b => a == b
  | .float a, .float b => a == b
  | .text a, .text b => a == b
  | .time a, .time b => a == b
  | _, _ => false

def isCollection : Yaml → Bool
  | .seq _ => true
  | .map _ => true
  | _ => false

/-- Bind a key in a list of entries, replacing an earlier binding in its place. -/
def putEntry (key value : Yaml) : List (Yaml × Yaml) → List (Yaml × Yaml)
  | [] => [(key, value)]
  | (other, old) :: rest =>
      if sameKey key other then (key, value) :: rest else (other, old) :: putEntry key value rest

end Yaml
end ScriptCore
