import ScriptCore.Decimal.Numeral

/-!
# Log levels

A level is a number.  Four of them have names; the others are written as a
distance from the named level below.
-/

namespace ScriptCore
namespace Log

structure Level where
  value : Int64
deriving DecidableEq, Repr

namespace Level

def debug : Level := ⟨-4⟩

def info : Level := ⟨0⟩

def warn : Level := ⟨4⟩

def error : Level := ⟨8⟩

/-- The capital form of the letters that level names are written with. -/
def upper (c : Char) : Char :=
  if c = 'ı' then 'I' else if c = 'ſ' then 'S' else c.toUpper

def named? (name : List Char) : Option Level :=
  [("DEBUG", debug), ("INFO", info), ("WARN", warn), ("ERROR", error)].lookup (String.ofList name)

def isSign (c : Char) : Bool :=
  c == '+' || c == '-'

/-- Read a level name in any case, with an optional signed distance behind it. -/
def ofText? (s : String) : Option Level := do
  let cs := s.toList.map upper
  let level ← named? (cs.takeWhile fun c => !isSign c)
  match cs.dropWhile fun c => !isSign c with
  | [] => some level
  | distance => do
      let d ← Decimal.int64With? (Decimal.digitsValue? 10) distance
      return ⟨level.value + d⟩

def relative (name : String) (base level : Level) : String :=
  let distance := (level.value - base.value).toInt
  if distance = 0 then name
  else if 0 < distance then name ++ "+" ++ toString distance
  else name ++ toString distance

def display (level : Level) : String :=
  if level.value < info.value then relative "DEBUG" debug level
  else if level.value < warn.value then relative "INFO" info level
  else if level.value < error.value then relative "WARN" warn level
  else relative "ERROR" error level

end Level
end Log
end ScriptCore
