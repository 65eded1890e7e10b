/-!
# Tiers of global variables
-/

namespace ScriptCore

inductive Tier where
  /-- Private to one thread. -/
  | threadLocal
  /-- Seen by every thread and never changed. -/
  | sharedImmutable
  /-- Seen by every thread; each variable has a lock of its own. -/
  | sharedMutable
deriving DecidableEq, Repr

namespace Tier

def text : Tier → String
  | .threadLocal => "thread-local"
  | .sharedImmutable => "shared-immutable"
  | .sharedMutable => "shared-mutable"

def ofCode? (code : Int) : Option Tier :=
  if code = 0 then some .threadLocal
  else if code = 1 then some .sharedImmutable
  else if code = 2 then some .sharedMutable
  else none

def textOfCode (code : Int) : String :=
  match ofCode? code with
  | some tier => tier.text
  | none => "Tier(" ++ toString code ++ ")"

end Tier
end ScriptCore
