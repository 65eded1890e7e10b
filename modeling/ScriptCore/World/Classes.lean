import ScriptCore.World.Basic

/-!
# Functions and typeclasses

Functions are registered under a name.  A class declares methods, some of them
with a default; an instance implements the methods of a class for a type, all
of them or none.
-/

namespace ScriptCore
namespace World

def function (id : FunctionId) : Op Function := do
  match (← get).heap.functions[id]? with
  | some f => return f
  | none => Op.stop .absentValue

def nameFunction (id : FunctionId) (name : String) : Op Unit := do
  let f ← function id
  if f.signature.name.isEmpty then
    modify fun w =>
      { w with heap := w.heap.setFunction id { f with signature := { f.signature with name } } }

def addFunction (name : String) (id : Option FunctionId) : Op Unit := do
  match id with
  | none => Op.fail (.ofKind .invalidCall name "cannot register a nil function")
  | some id =>
      nameFunction id name
      modify fun w =>
        { w with tables := { w.tables with functions := w.tables.functions.insert name id } }

/-- A method in the declaration of a class. -/
structure ClassMethod where
  name : String
  signature : Ty
  default : Option FunctionId

def checkDefault (className : String) (m : ClassMethod) : Op Method := do
  match m.default with
  | some id =>
      let f ← function id
      require m.name ("default of " ++ className) m.signature f.signature.type
      return { name := m.name, signature := m.signature, hasDefault := true }
  | none => return { name := m.name, signature := m.signature, hasDefault := false }

def addDefault (m : ClassMethod) : Op Unit := do
  match m.default with
  | some id =>
      nameFunction id m.name
      modify fun w =>
        { w with tables := { w.tables with defaults := w.tables.defaults.insert m.name id } }
  | none => return ()

def addClass (className : String) (methods : List ClassMethod) : Op Unit := do
  let declared ← methods.mapM (checkDefault className)
  modify fun w =>
    { w with
      tables :=
        { w.tables with classes := w.tables.classes.define (.ofMethods className declared) } }
  methods.forM addDefault
  log .debug "typeclass registered"
    [("class", .text className), ("methods", .number methods.length)]

structure InstanceMethod where
  name : String
  body : FunctionId

def checkBodies (className typeName : String) (methods : List (String × Option FunctionId)) :
    Op (List InstanceMethod) :=
  methods.mapM fun m =>
    match m.2 with
    | some body => return { name := m.1, body }
    | none =>
        Op.fail
          (.ofKind .invalidInstance m.1 (className ++ " for " ++ typeName ++ " has no body"))

/-- The methods are those of the class, and none is missing. -/
def checkMethodNames (c : Typeclass) (className typeName : String) (names : List String) :
    Op Unit := do
  match c.undeclared names with
  | extra :: _ => Op.fail (.ofKind .invalidInstance extra ("not a method of " ++ className))
  | [] => pure ()
  match c.missing names with
  | missing :: _ =>
      Op.fail <| .ofKind .invalidInstance missing <|
        className ++ " for " ++ typeName ++ " leaves this method unimplemented"
  | [] => pure ()

def checkMethodType (c : Typeclass) (className typeName : String) (m : InstanceMethod) :
    Op Unit := do
  let f ← function m.body
  require m.name (className ++ " for " ++ typeName) ((c.signature? m.name).getD .missing)
    f.signature.type

def addMethod (className : String) (type : Ty) (m : InstanceMethod) : Op Unit := do
  nameFunction m.body m.name
  modify fun w =>
    { w with
      tables :=
        { w.tables with instances := w.tables.instances.add className m.name type m.body } }

def addInstance (className : String) (type : Ty) (methods : List (String × Option FunctionId)) :
    Op Unit := do
  let typeName := type.display
  match (← get).tables.classes.get? className with
  | none =>
      Op.fail (.ofKind .unknownTypeclass className "no typeclass declared with this name")
  | some c =>
      let bodies ← checkBodies className typeName methods
      checkMethodNames c className typeName (bodies.map (·.name))
      bodies.forM (checkMethodType c className typeName)
      bodies.forM (addMethod className type)
      log .debug "instance registered" [("class", .text className), ("type", .text typeName)]

end World
end ScriptCore
