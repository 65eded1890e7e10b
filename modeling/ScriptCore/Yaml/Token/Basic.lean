/-!
# Tokens

The tokens of a YAML text.  Indentation is told by start and end tokens, and
what precedes a colon is marked as a key.
-/

namespace ScriptCore
namespace Yaml

inductive TokenKind where
  | streamEnd
  /-- From here on the text cannot be read. -/
  | broken
  | version (major minor : Nat)
  | tagHandle (handle expansion : String)
  | documentStart
  | documentEnd
  | blockSequenceStart
  | blockMappingStart
  | blockEnd
  | flowSequenceStart
  | flowSequenceEnd
  | flowMappingStart
  | flowMappingEnd
  | blockEntry
  | flowEntry
  | key
  | value
  | alias (name : String)
  | anchor (name : String)
  | tag (handle suffix : String)
  /-- A scalar; only a plain one may stand for something else than its text. -/
  | scalar (text : String) (isPlain : Bool)
deriving DecidableEq, Repr

namespace TokenKind

def isDirective : TokenKind → Bool
  | .version .. => true
  | .tagHandle .. => true
  | _ => false

def endsDocument : TokenKind → Bool
  | .documentStart | .documentEnd | .streamEnd => true
  | kind => kind.isDirective

end TokenKind

/-- A token and the line it starts on, counted from zero. -/
structure Token where
  kind : TokenKind
  line : Nat
deriving Repr

end Yaml
end ScriptCore
