import ScriptCore.Error
import ScriptCore.Value.Basic
import ScriptCore.Yaml.Data

/-!
# Values of YAML data

Mappings are read as anonymous products with the texts of their keys as field
names, sequences as lists and text as a list of characters.  A list is of the
type of its first element.  Timestamps have no value.
-/

namespace ScriptCore
namespace Yaml

def valueType : Yaml → Ty
  | .null => .unit
  | .bool _ => .bool
  | .int _ => .int
  | .uint _ => .uint
  | .float _ => .float
  | .text _ => .listOf .char
  | .time _ => .any
  | .seq [] => .listOf .any
  | .seq (item :: _) => .listOf item.valueType
  | .map _ => .named Shape.record.typeName

def elementType : List Yaml → Ty
  | [] => .any
  | item :: _ => item.valueType

mutual

def toValue : Yaml → Except Error Value
  | .null => .ok .unit
  | .bool b => .ok (.bool b)
  | .int n => .ok (.int n.value)
  | .uint n => .ok (.uint n)
  | .float x => .ok (.float x)
  | .text s => .ok (.ofText 0 s)
  | .time _ => .error (.plain "unsupported YAML value type: time.Time")
  | .seq items => do
      let values ← toValues items
      return .list 0 (elementType items) values
  | .map entries => do
      let fields ← toFields entries
      return .record 0 fields

def toValues : List Yaml → Except Error (List Value)
  | [] => .ok []
  | item :: rest => do
      let value ← toValue item
      let values ← toValues rest
      return value :: values

def toFields : List (Yaml × Yaml) → Except Error (List (String × Value))
  | [] => .ok []
  | (key, item) :: rest => do
      let value ← toValue item
      let fields ← toFields rest
      return (key.keyText, value) :: fields

end

end Yaml
end ScriptCore
