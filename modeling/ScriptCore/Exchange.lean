import ScriptCore.Heap.Yaml
import ScriptCore.Settings.Document
import ScriptCore.Yaml.Render.Document

/-!
# Exchange of data

Values come from data and go into targets by way of their YAML text.
-/

namespace ScriptCore

def Heap.yamlText (h : Heap) (v : Value) : Except Failure String := do
  return (← h.toYaml v).render

def Value.ofData (data : Yaml) : Except Error Value :=
  Value.parseYaml data.render

def Heap.fill (h : Heap) (target : Yaml.Target) (v : Value) : Except Failure Yaml.Filled := do
  let text ← h.yamlText v
  let filled := Yaml.read target text
  (Error.inContext ("unmarshal into *" ++ target.typeName) filled).mapError .error

end ScriptCore
