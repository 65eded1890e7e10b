import ScriptCore.Settings.Basic
import ScriptCore.Yaml.Decode
import ScriptCore.Yaml.Value

/-!
# Settings documents

Settings are written in YAML.  Unknown keys are ignored.  The initial value of
a global variable may be any data.
-/

namespace ScriptCore

def Error.inContext {α : Type} (text : String) (r : Except Error α) : Except Error α :=
  r.mapError (.context text)

def Value.parseYaml (text : String) : Except Error Value := do
  let data ← Error.inContext "yaml decode" (Yaml.parse text)
  data.toValue

namespace Settings

open Yaml (Target Filled Node)

def target : Target :=
  .record "config.Config"
    [("locking",
        .record "config.LockConfig"
          [("strategy", .text), ("min_backoff", .duration), ("max_backoff", .duration)]),
      ("logging", .record "config.LogConfig" [("level", .text), ("format", .text)]),
      ("globals",
        .record "config.GlobalsConfig"
          [("local", .map .node), ("shared", .map .node), ("mutable", .map .node)])]

def part? (f : Filled) (path : List String) : Option Filled :=
  path.foldlM Filled.field? f

def textAt (f : Filled) (path : List String) : String :=
  match part? f path with
  | some (.text s) => s
  | _ => ""

def durationAt (f : Filled) (path : List String) : Duration :=
  match part? f path with
  | some (.duration d) => d
  | _ => ⟨0⟩

def initial (anchors : Array Node) (n : Node) : Initial := do
  let filled ← Error.inContext "yaml decode" (Yaml.Decode.run anchors .any n)
  filled.toData.toValue

def initialsAt (anchors : Array Node) (f : Filled) (path : List String) : NameMap Initial :=
  match part? f path with
  | some (.map entries) =>
      .ofList <| entries.filterMap fun e =>
        match e with
        | (key, .node n) => some (key.keyText, initial anchors n)
        | _ => none
  | _ => {}

def ofFilled (anchors : Array Node) (f : Filled) : Settings where
  strategy := textAt f ["locking", "strategy"]
  minBackoff := durationAt f ["locking", "min_backoff"]
  maxBackoff := durationAt f ["locking", "max_backoff"]
  level := textAt f ["logging", "level"]
  format := textAt f ["logging", "format"]
  globals :=
    { threadLocal := initialsAt anchors f ["globals", "local"]
      shared := initialsAt anchors f ["globals", "shared"]
      guarded := initialsAt anchors f ["globals", "mutable"] }

/-- The settings of a document as they are written, without defaults and checks. -/
def parseUnchecked (text : String) : Except Error Settings := do
  match ← Yaml.Document.parse text with
  | none => return {}
  | some d =>
      let filled ← Yaml.Decode.run d.anchors target d.root
      return ofFilled d.anchors filled

/-- The settings of a document, with the path of its file for messages. -/
def parse (text path : String) : Except Error Settings := do
  let s ← Error.inContext ("parsing " ++ path) (parseUnchecked text)
  let s := s.withDefaults
  Error.inContext path s.validate
  return s

end Settings
end ScriptCore
