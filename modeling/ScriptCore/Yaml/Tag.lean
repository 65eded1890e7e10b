import ScriptCore.Yaml.Data

/-!
# Tags

The tag of a node says what kind of data it is.  A plain scalar without a tag
gets the one that its text looks like.
-/

namespace ScriptCore
namespace Yaml

inductive Tag where
  | str
  | int
  | float
  | bool
  | null
  | timestamp
  | binary
  /-- The key that merges another mapping into its own. -/
  | merge
  | seq
  | map
  | other (name : String)
deriving DecidableEq, Repr

namespace Tag

def text : Tag → String
  | .str => "!!str"
  | .int => "!!int"
  | .float => "!!float"
  | .bool => "!!bool"
  | .null => "!!null"
  | .timestamp => "!!timestamp"
  | .binary => "!!binary"
  | .merge => "!!merge"
  | .seq => "!!seq"
  | .map => "!!map"
  | .other name => name

def standard : List Tag :=
  [.str, .int, .float, .bool, .null, .timestamp, .binary, .merge, .seq, .map]

def home : String := "tag:yaml.org,2002:"

def short (name : String) : String :=
  if name.toList.take home.length == home.toList then
    "!!" ++ String.ofList (name.toList.drop home.length)
  else name

def ofName (name : String) : Tag :=
  let name := short name
  (standard.find? fun t => t.text == name).getD (.other name)

/-- Scalars with these tags are read by their text; all others are plain text. -/
def isResolvable : Tag → Bool
  | .str | .int | .float | .bool | .null | .timestamp => true
  | _ => false

end Tag
end Yaml
end ScriptCore
