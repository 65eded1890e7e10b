import ScriptCore.Proofs.World.Command
import ScriptCore.Proofs.World.Globals

/-!
# Slots

The storage of a world, as a program sees it: a name can be bound at several
places, and every place that is bound shows one slot.  A store forgets how the
slots are kept.  It says what each command does to them, and replays a whole
history by writing what its successful commands have written.
-/

namespace ScriptCore

/-- What a variable shows. -/
structure Slot where
  declared : Ty
  isMutable : Bool
  content : Content

/-- The slots of all places, and for every scope the scopes from it outwards. -/
structure Store where
  slots : Place → Option Slot := fun _ => none
  paths : List (List ScopeId) := []

namespace Store

def path (m : Store) : Option ScopeId → List ScopeId
  | none => []
  | some s => m.paths[s]?.getD []

def addScope (m : Store) (outer : Option ScopeId) : Store :=
  { m with paths := m.paths ++ [m.paths.length :: m.path outer] }

def put (m : Store) (p : Place) (slot : Slot) : Store :=
  { m with slots := fun q => if q = p then some slot else m.slots q }

def setContent (m : Store) (p : Place) (content : Content) : Store :=
  match m.slots p with
  | some slot => m.put p { slot with content }
  | none => m

def first (m : Store) (places : List Place) : Option Place :=
  places.find? fun p => (m.slots p).isSome

def readOrder (m : Store) (thread : ThreadId) (scope : Option ScopeId) (name : String) :
    List Place :=
  (m.path scope).map (.inScope · name) ++ [.threadLocal thread name, .frozen name, .guarded name]

def writeOrder (m : Store) (thread : ThreadId) (scope : Option ScopeId) (name : String) :
    List Place :=
  [.guarded name, .frozen name, .threadLocal thread name] ++ (m.path scope).map (.inScope · name)

section

variable {m : Store} {p : Place}

theorem setContent_eq {slot : Slot} (hslot : m.slots p = some slot) (content : Content) :
    m.setContent p content = m.put p { slot with content } := by
  unfold setContent
  rw [hslot]

theorem path_addScope {scope : Option ScopeId} (outer : Option ScopeId)
    (hscope : ∀ s, scope = some s → s < m.paths.length) :
    (m.addScope outer).path scope = m.path scope := by
  cases scope with
  | none => rfl
  | some s =>
      have hs := hscope s rfl
      simp [path, addScope, List.getElem?_append_left hs]

theorem first_cons (m : Store) (q : Place) (rest : List Place) :
    m.first (q :: rest) = if (m.slots q).isSome then some q else m.first rest := by
  unfold first
  rw [List.find?_cons]
  cases (m.slots q).isSome <;> rfl

theorem isSome_first {places : List Place} (hfirst : m.first places = some p) :
    (m.slots p).isSome = true := by
  unfold first at hfirst
  simpa using List.find?_some hfirst

end

/-- The store after a command that has succeeded.  A value is read in the heap that the command
found. -/
def write (m : Store) (h : Heap) : World.Command → Store
  | .newScope outer => m.addScope outer
  | .define scope name declared value isMutable =>
      m.put (.inScope scope name) { declared, isMutable, content := h.read value }
  | .declare thread name code declared value =>
      match Tier.ofCode? code with
      | some tier =>
          m.put (tier.place thread name)
            { declared, isMutable := tier.isMutable, content := h.read value }
      | none => m
  | .assign thread scope name value =>
      match m.first (m.writeOrder thread scope name) with
      | some p => m.setContent p (h.read value)
      | none => m
  | .withMutable _ name value => m.setContent (.guarded name) (h.read value)
  | _ => m

def succeeds (w : World) (c : World.Command) : Bool :=
  (c.outcome w).isOk

def step (m : Store) (w : World) (c : World.Command) : Store :=
  if succeeds w c then m.write w.heap c else m

def replay : List (World × World.Command) → Store
  | [] => {}
  | (w, c) :: past => (replay past).step w c

end Store

namespace World

/-!
## The slots of a world
-/

def shown (h : Heap) (v : Variable) : Slot where
  declared := v.declared
  isMutable := v.slot.isReference
  content := h.read v.slot

/-- What the variable with a number shows. -/
def slotOf? (w : World) (id : VariableId) : Option Slot :=
  w.vars[id]?.map (shown w.heap)

def slotAt? (w : World) (p : Place) : Option Slot :=
  (w.varIn? p).bind w.slotOf?

/-!
## What commands answer
-/

/-- Reading a place.  A place of the scope or of the thread gives the variable that is bound there;
a shared place gives a new immutable variable with a copy of the content, if there is a copy. -/
inductive Reads (m : Store) (w w' : World) (p : Place) : Except Failure Reply → Prop where
  | bound {slot : Slot} {id : VariableId} (hshared : p.isShared = false)
      (hslot : m.slots p = some slot) (hid : w.varIn? p = some id)
      (hshown : w'.slotOf? id = some slot) : Reads m w w' p (.ok (.var id))
  | copied {slot : Slot} {id : VariableId} (hshared : p.isShared = true)
      (hslot : m.slots p = some slot) (hdup : slot.content.isDuplicable = true)
      (hnew : w.vars[id]? = none) (hshown : w'.slotOf? id = some { slot with isMutable := false }) :
      Reads m w w' p (.ok (.var id))
  | uncopyable {slot : Slot} {e : Error} (hshared : p.isShared = true)
      (hslot : m.slots p = some slot) (hdup : slot.content.isDuplicable = false)
      (he : Heap.Uncopyable e) : Reads m w w' p (.error (.error e))

/-- Assigning to a place succeeds if the variable there is mutable and accepts the value. -/
def Writes (w : World) (p : Place) (value : Value) (r : Except Failure Reply) : Prop :=
  r = .ok .done ↔ ∃ id cell, w.varIn? p = some id ∧ Assignable w id value cell

def LookupAnswers (m : Store) (w w' : World) (thread : ThreadId) (scope : Option ScopeId)
    (name : String) (r : Except Failure Reply) : Prop :=
  match m.first (m.readOrder thread scope name) with
  | some p => Reads m w w' p r
  | none => r = .error (.error (unboundFault name))

/-- Assigning to a name assigns to the first of its places, which must not be the shared immutable
one. -/
def AssignAnswers (m : Store) (w : World) (thread : ThreadId) (scope : Option ScopeId)
    (name : String) (value : Value) (r : Except Failure Reply) : Prop :=
  match m.first (m.writeOrder thread scope name) with
  | some (.frozen _) => r = .error (.error (sealedFault name))
  | some p => Writes w p value r
  | none => r = .error (.error (unboundFault name))

def GuardedAnswers (m : Store) (w : World) (name : String) (value : Value)
    (r : Except Failure Reply) : Prop :=
  if (m.slots (.guarded name)).isSome then Writes w (.guarded name) value r
  else r = .error (.error (unguardedFault name))

namespace Command

/-- The command only defines, declares, reads and assigns to names, or makes something new. -/
def isStorage : Command → Bool
  | .conclude .. => false
  | .bind .. => false
  | .assignValue .. => false
  | .call .. => false
  | _ => true

def Ends (w : World) (c : Command) : Prop :=
  isPanic (c.outcome w) = false

/-- The answer of a command in a world, by the slots of a store. -/
def Answers (m : Store) (w : World) (c : Command) : Prop :=
  match c with
  | .lookup thread scope name =>
      LookupAnswers m w (c.after w) thread scope name (c.outcome w)
  | .assign thread scope name value => AssignAnswers m w thread scope name value (c.outcome w)
  | .withMutable _ name value => GuardedAnswers m w name value (c.outcome w)
  | _ => True

end Command
end World
end ScriptCore
