/-!
# Types

The types of the language, with their written form.  A type may be missing at
any position, also inside another type; a missing type is written and read as
`Any`.
-/

namespace ScriptCore

inductive Ty where
  /-- No type was given. -/
  | missing
  /-- A scalar type, a declared type or a type variable. -/
  | named (name : String)
  | tuple (elements : List Ty)
  | func (params effects : List Ty) (result : Ty)
  /-- A type constructor with arguments, such as a list type. -/
  | app (head : Ty) (args : List Ty)
  /-- A live reference to storage of the given type. -/
  | ref (target : Ty)
  /-- A second name for a type. -/
  | alias (name target : Ty)
  /-- The type of the empty tuple. -/
  | unit
deriving Repr, BEq, Inhabited

namespace Ty

def int : Ty := .named "Int"

def uint : Ty := .named "UInt"

def float : Ty := .named "Float"

def char : Ty := .named "Char"

def byte : Ty := .named "Byte"

def bool : Ty := .named "Bool"

def any : Ty := .named "Any"

def listOf (element : Ty) : Ty := .app (.named "List") [element]

def promiseOf (result : Ty) : Ty := .app (.named "Promise") [result]

def isMissing : Ty → Bool
  | .missing => true
  | _ => false

/-- The type itself, or `Any` where none was given. -/
def orAny : Ty → Ty
  | .missing => any
  | t => t

def isRef : Ty → Bool
  | .ref _ => true
  | _ => false

/-- The effects of a function type between angle brackets, if there are any. -/
def effectsText : List String → String
  | [] => ""
  | effects => " <" ++ ", ".intercalate effects ++ ">"

/-- A head with its arguments, in parentheses unless it has none. -/
def appText (head : String) : List String → String
  | [] => head
  | args => "(" ++ head ++ " " ++ " ".intercalate args ++ ")"

mutual

def display : Ty → String
  | .missing => "Any"
  | .named name => name
  | .tuple elements => "(" ++ ", ".intercalate (displayAll elements) ++ ")"
  | .func params effects result =>
      "fn(" ++ ", ".intercalate (displayAll params) ++ ")" ++ effectsText (displayAll effects)
        ++ " -> " ++ display result
  | .app head args => appText (display head) (displayAll args)
  | .ref target => "&" ++ display target
  | .alias name _ => display name
  | .unit => "()"

def displayAll : List Ty → List String
  | [] => []
  | t :: rest => display t :: displayAll rest

end

end Ty
end ScriptCore
