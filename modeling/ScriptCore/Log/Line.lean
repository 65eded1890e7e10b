import ScriptCore.Log.Level
import ScriptCore.Text.Quoted

/-!
# Log lines

A record is written as one line, in one of two formats: a JSON object, or
`key=value` pairs that are quoted where they need it.
-/

namespace ScriptCore
namespace Log

inductive AttrValue where
  | text (s : String)
  | number (n : Int)
deriving Repr

/-- One record with its attributes in order. -/
structure Record where
  level : Level
  message : String
  attrs : List (String × AttrValue)
deriving Repr

/-- Attributes from alternating keys and values; a last value without a key is marked as such. -/
def attrsOfTexts : List String → List (String × AttrValue)
  | key :: value :: rest => (key, .text value) :: attrsOfTexts rest
  | [value] => [("!BADKEY", .text value)]
  | [] => []

inductive Format where
  | text
  | json
deriving DecidableEq, Repr

/-- Only `text` asks for text; every other name gives JSON. -/
def Format.ofName (name : String) : Format :=
  if name == "text" then .text else .json

def jsonChar (c : Char) : List Char :=
  if c = '"' ∨ c = '\\' then ['\\', c]
  else if c = '\n' then ['\\', 'n']
  else if c = '\r' then ['\\', 'r']
  else if c = '\t' then ['\\', 't']
  else if c = '\x08' then ['\\', 'b']
  else if c = '\x0c' then ['\\', 'f']
  else if c.toNat < 0x20 ∨ c = '\u2028' ∨ c = '\u2029' then '\\' :: 'u' :: Text.hex 4 c.toNat
  else [c]

def jsonString (s : String) : String :=
  String.ofList ('"' :: s.toList.flatMap jsonChar ++ ['"'])

def needsQuotes (c : Char) : Bool :=
  if c.toNat < 0x80 then c == ' ' || c == '=' || c == '"' || decide (c.toNat < 0x20)
  else c == '�' || !Text.isPrintable c

def textString (s : String) : String :=
  if s.isEmpty || s.toList.any needsQuotes then Text.quote s else s

def AttrValue.render (string : String → String) : AttrValue → String
  | .text s => string s
  | .number n => toString n

def Record.allAttrs (r : Record) : List (String × AttrValue) :=
  ("level", .text r.level.display) :: ("msg", .text r.message) :: r.attrs

def Record.line (format : Format) (r : Record) : String :=
  match format with
  | .text =>
      " ".intercalate <| r.allAttrs.map fun a => textString a.1 ++ "=" ++ a.2.render textString
  | .json =>
      "\x7b"
        ++ ",".intercalate (r.allAttrs.map fun a => jsonString a.1 ++ ":" ++ a.2.render jsonString)
        ++ "\x7d"

/-- Where records go: nowhere, or from a level on into lines of a format. -/
inductive Logger where
  | discard
  | lines (threshold : Level) (format : Format)
deriving Repr

namespace Logger

/-- The logger for a level name and a format name.  An unknown level counts as `info`. -/
def ofNames (level format : String) : Logger :=
  .lines ((Level.ofText? level).getD .info) (Format.ofName format)

def line? (logger : Logger) (r : Record) : Option String :=
  match logger with
  | .discard => none
  | .lines threshold format =>
      if threshold.value ≤ r.level.value then some (r.line format) else none

end Logger
end Log
end ScriptCore
