import ScriptCore.Heap.Observe
import ScriptCore.Yaml.Data

/-!
# YAML data of values

Every value but functions and promises has a form as YAML data.  References
and aliases are written as their content, the empty tuple as null, and a
variant without fields as its tag.  Bytes become integers of another type than
integers do.
-/

namespace ScriptCore
namespace Heap

def unwritable (v : Value) : Failure :=
  .error (.plain ("yaml encode: unsupported value " ++ v.kind))

mutual

def yamlVia (cellYaml : CellId → Except Failure Yaml) : Value → Except Failure Yaml
  | .int n => .ok (.int { value := n, width := .fixed })
  | .uint n => .ok (.uint n)
  | .float x => .ok (.float x)
  | .bool b => .ok (.bool b)
  | .char code => .ok (.text (String.ofList [Value.charOfCode code]))
  | .byte b => .ok (.int (Int64.ofNat b.toNat))
  | .list _ element items =>
      if Value.isTextList element items then .ok (.text (Value.itemsText items))
      else do
        let data ← yamlAllVia cellYaml items
        return .seq data
  | .tuple _ items => do
      let data ← yamlAllVia cellYaml items
      return if data.isEmpty then .null else .seq data
  | .algebraic _ shape fields => do
      let entries ← yamlFieldsVia cellYaml fields
      return if entries.isEmpty && !shape.tag.isEmpty then .text shape.tag else .map entries
  | .alias _ _ _ content => yamlVia cellYaml content
  | .reference cell => cellYaml cell
  | .absent => .error (unwritable .absent)
  | .function id => .error (unwritable (.function id))
  | .promise id => .error (unwritable (.promise id))

def yamlAllVia (cellYaml : CellId → Except Failure Yaml) :
    List Value → Except Failure (List Yaml)
  | [] => .ok []
  | v :: rest => do
      let item ← yamlVia cellYaml v
      let items ← yamlAllVia cellYaml rest
      return item :: items

def yamlFieldsVia (cellYaml : CellId → Except Failure Yaml) :
    List (String × Value) → Except Failure (List (Yaml × Yaml))
  | [] => .ok []
  | (name, v) :: rest => do
      let item ← yamlVia cellYaml v
      let entries ← yamlFieldsVia cellYaml rest
      return (.text name, item) :: entries

end

def toYaml (h : Heap) (v : Value) : Except Failure Yaml :=
  h.follow (.panic .bottomless) yamlVia h.cells.size v

end Heap
end ScriptCore
