import ScriptCore.Duration
import ScriptCore.Error
import ScriptCore.Log.Level
import ScriptCore.NameMap
import ScriptCore.Value.Basic

/-!
# Settings

How the locks of shared variables are taken, what is logged, and which global
variables exist from the start.
-/

namespace ScriptCore

/-- An initial value of a global variable, or why there is none. -/
abbrev Initial := Except Error Value

/-- The global variables of each tier. -/
structure Globals where
  threadLocal : NameMap Initial := {}
  shared : NameMap Initial := {}
  guarded : NameMap Initial := {}

/-- The settings of a runtime.  Words that are not set are empty, durations zero. -/
structure Settings where
  strategy : String := ""
  minBackoff : Duration := ⟨0⟩
  maxBackoff : Duration := ⟨0⟩
  level : String := ""
  format : String := ""
  globals : Globals := {}

namespace Settings

def strategies : List String := ["spin", "backoff", "block"]

def formats : List String := ["auto", "text", "json"]

def withDefaults (s : Settings) : Settings :=
  { s with
    strategy := if s.strategy.isEmpty then "backoff" else s.strategy
    minBackoff := if s.minBackoff = ⟨0⟩ then .microsecond else s.minBackoff
    maxBackoff := if s.maxBackoff = ⟨0⟩ then .millisecond else s.maxBackoff
    level := if s.level.isEmpty then "info" else s.level
    format := if s.format.isEmpty then "auto" else s.format }

def default : Settings :=
  withDefaults {}

def checkLocking (s : Settings) : Except Error Unit :=
  if !strategies.contains s.strategy then
    .error (.plain ("locking.strategy: unknown strategy " ++ Text.quote s.strategy))
  else if s.minBackoff.nanoseconds < 0 ∨ s.maxBackoff.nanoseconds < 0 then
    .error (.plain "locking: backoff durations must not be negative")
  else if s.maxBackoff.nanoseconds < s.minBackoff.nanoseconds then
    .error <| .plain <|
      "locking: min_backoff " ++ s.minBackoff.display ++ " exceeds max_backoff "
        ++ s.maxBackoff.display
  else .ok ()

def parseLevel (name : String) : Except Error Log.Level :=
  match Log.Level.ofText? name with
  | some level => .ok level
  | none => .error (.plain ("unknown log level " ++ Text.quote name))

def checkLogging (s : Settings) : Except Error Unit :=
  match parseLevel s.level with
  | .error e => .error (.context "logging.level" e)
  | .ok _ =>
      if formats.contains s.format then .ok ()
      else .error (.plain ("logging.format: unknown format " ++ Text.quote s.format))

/-- The names of one tier are new, or one of them has been declared before. -/
def checkNames (tier : String) (names : List String) (seen : NameMap String) :
    Except Error (NameMap String) :=
  names.foldlM
    (fun seen name =>
      match seen.get? name with
      | some earlier =>
          .error <| .plain <|
            "globals: " ++ Text.quote name ++ " declared in both " ++ earlier ++ " and " ++ tier
      | none => .ok (seen.insert name tier))
    seen

def checkGlobals (g : Globals) : Except Error Unit := do
  let seen ← checkNames "local" g.threadLocal.names {}
  let seen ← checkNames "shared" g.shared.names seen
  let _ ← checkNames "mutable" g.guarded.names seen
  return ()

def validate (s : Settings) : Except Error Unit := do
  s.checkLocking
  s.checkLogging
  checkGlobals s.globals

end Settings
end ScriptCore
