import ScriptCore.Duration
import ScriptCore.Yaml.Node

/-!
# Targets

A target is the form that a document is asked to fill: any data at all, a
scalar of one kind, a list, a mapping, or a record with known fields.
-/

namespace ScriptCore
namespace Yaml

inductive Target where
  | any
  | int
  | bool
  | float
  | text
  | duration
  /-- The node itself. -/
  | node
  | list (item : Target)
  /-- A mapping; its keys are text, or any scalar. -/
  | mapOf (textKeys : Bool) (item : Target)
  | record (name : String) (fields : List (String × Target))
deriving Repr, Inhabited

inductive Filled where
  | data (y : Yaml)
  | int (n : Int64)
  | bool (b : Bool)
  | float (x : Float)
  | text (s : String)
  | duration (d : Duration)
  | node (n : Node)
  | list (items : List Filled)
  | map (entries : List (Yaml × Filled))
  | record (fields : List (String × Filled))
deriving Repr, Inhabited

namespace Target

def map (item : Target) : Target := .mapOf true item

def typeName : Target → String
  | .any => "interface \x7b\x7d"
  | .int => "int"
  | .bool => "bool"
  | .float => "float64"
  | .text => "string"
  | .duration => "time.Duration"
  | .node => "yaml.Node"
  | .list item => "[]" ++ typeName item
  | .mapOf textKeys item =>
      (if textKeys then "map[string]" else "map[interface \x7b\x7d]") ++ typeName item
  | .record name _ => name

mutual

def zero : Target → Filled
  | .any => .data .null
  | .int => .int 0
  | .bool => .bool false
  | .float => .float 0
  | .text => .text ""
  | .duration => .duration ⟨0⟩
  | .node => .node (.scalar 0 .null "")
  | .list _ => .list []
  | .mapOf .. => .map []
  | .record _ fields => .record (zeroFields fields)

def zeroFields : List (String × Target) → List (String × Filled)
  | [] => []
  | (name, target) :: rest => (name, zero target) :: zeroFields rest

end

end Target

namespace Filled

def toData : Filled → Yaml
  | .data y => y
  | _ => .null

def toKey : Filled → Yaml
  | .data y => y
  | .text s => .text s
  | _ => .null

/-- Bind a key of a mapping, replacing an earlier binding in its place. -/
def putEntry (key : Yaml) (value : Filled) :
    List (Yaml × Filled) → List (Yaml × Filled)
  | [] => [(key, value)]
  | (other, old) :: rest =>
      if sameKey key other then (key, value) :: rest else (other, old) :: putEntry key value rest

def field? (f : Filled) (name : String) : Option Filled :=
  match f with
  | .record fields => fields.lookup name
  | _ => none

def entries : Filled → List (Yaml × Filled)
  | .map entries => entries
  | _ => []

def fields : Filled → List (String × Filled)
  | .record fields => fields
  | _ => []

end Filled
end Yaml
end ScriptCore
