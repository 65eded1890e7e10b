import ScriptCore.Text.Quoted
import ScriptCore.Yaml.Target

/-!
# Reading documents into targets

A document that does not fit its target is read as far as it does fit, and all
that does not fit is reported at once.  Aliases are followed to their anchors.
A merge key adds the entries of other mappings: the mapping's own entries win,
and of several merged mappings the earlier one.
-/

namespace ScriptCore
namespace Yaml
namespace Decode

/-- What is kept while a document is read. -/
structure State where
  /-- Nodes read so far. -/
  nodes : Nat := 0
  /-- Nodes read so far on behalf of an alias. -/
  aliased : Nat := 0
  /-- Aliases that are being followed. -/
  depth : Nat := 0
  /-- What did not fit, latest first. -/
  issues : List String := []
  /-- The keys that a merged mapping may not set any more, while one is merged. -/
  taken : Option (List Yaml) := none

abbrev Decoder := StateT State (Except Error)

structure Anchors where
  nodes : Array Node
  follow : Nat → Target → Option Filled → Decoder (Option Filled)

def malformed {α : Type} : Decoder α :=
  throw .yamlSyntax

def report (issue : String) : Decoder Unit :=
  modify fun s => { s with issues := issue :: s.issues }

/-- Too much of the document comes from aliases.  Small documents may consist of them almost
entirely, large ones less and less so. -/
def isExcessive (nodes aliased : Nat) : Bool :=
  decide (100 < aliased) && decide (1000 < nodes) &&
    if nodes ≤ 400000 then decide (99 * nodes < 100 * aliased)
    else if 4000000 ≤ nodes then decide (10 * nodes < 100 * aliased)
    else decide (nodes * (99 * 3600000 - 89 * (nodes - 400000)) < aliased * 100 * 3600000)

def count : Decoder Unit := do
  let s ← get
  let s :=
    { s with nodes := s.nodes + 1, aliased := if s.depth = 0 then s.aliased else s.aliased + 1 }
  if isExcessive s.nodes s.aliased then malformed
  set s

def excerpt (text : String) : String :=
  let bytes := Text.toBytes text
  if 10 < bytes.length then Text.ofBytes (bytes.take 7) ++ "..." else text

def mismatch (line : Nat) (tag : Tag) (text : String) (target : Target) :
    Decoder (Option Filled) := do
  let shown := if tag = .seq ∨ tag = .map then "" else " \x60" ++ excerpt text ++ "\x60"
  report ("line " ++ toString line ++ ": cannot unmarshal " ++ tag.text ++ shown ++ " into "
    ++ target.typeName)
  return none

def trueWords : List String := ["y", "Y", "yes", "Yes", "YES", "on", "On", "ON"]

def falseWords : List String := ["n", "N", "no", "No", "NO", "off", "Off", "OFF"]

/-- The whole part of a double; what is too large becomes the least integer. -/
def truncate (x : Float) : Int64 :=
  if 9223372036854775808.0 ≤ x then Int64.minValue else x.toInt64

def ofScalar? (target : Target) (tag : Tag) (text : String) (data : Yaml) : Option Filled :=
  match target, data with
  | .any, data => some (.data data)
  | .text, .text s => some (.text (if tag = .binary then s else text))
  | .text, _ => some (.text text)
  | .int, .int n => some (.int n.value)
  | .int, .float x => if x ≤ 9223372036854775808.0 then some (.int (truncate x)) else none
  | .bool, .bool b => some (.bool b)
  | .bool, .text s =>
      if trueWords.contains s then some (.bool true)
      else if falseWords.contains s then some (.bool false)
      else none
  | .float, .int n => some (.float (floatOfInt n.value))
  | .float, .uint n => some (.float n.toFloat)
  | .float, .float x => some (.float x)
  | .duration, .text s => (Duration.ofText? s).map .duration
  | _, _ => none

def ofNull? : Target → Option Filled
  | .any => some (.data .null)
  | .list _ => some (.list [])
  | .mapOf .. => some (.map [])
  | _ => none

def fillScalar (line : Nat) (tag : Tag) (text : String) (target : Target) :
    Decoder (Option Filled) :=
  match ofTagged? tag text with
  | none => malformed
  | some .null => return ofNull? target
  | some data =>
      match ofScalar? target tag text data with
      | some filled => return some filled
      | none => mismatch line tag text target

/-- The tag of a node; an alias has the one of its anchor. -/
def tagOf (anchors : Array Node) : Node → Tag
  | .scalar _ tag _ => tag
  | .seq _ tag _ => tag
  | .map _ tag _ => tag
  | .alias _ _ anchor =>
      match anchors[anchor]? with
      | some (.scalar _ tag _) => tag
      | some (.seq _ tag _) => tag
      | some (.map _ tag _) => tag
      | _ => .null

def hasTextKeys (anchors : Array Node) (entries : List (Node × Node)) : Bool :=
  entries.all fun e => tagOf anchors e.1 == .str || tagOf anchors e.1 == .merge

def repeats : List (Node × Node) → List (Node × Nat)
  | [] => []
  | (key, _) :: rest =>
      ((rest.filter fun e => key.sameText e.1).map fun e => (e.1, key.line)) ++ repeats rest

def reportRepeats (entries : List (Node × Node)) : Decoder Bool := do
  let found := repeats entries
  for r in found do
    report ("line " ++ toString r.1.line ++ ": mapping key " ++ Text.quote r.1.text
      ++ " already defined at line " ++ toString r.2)
  return !found.isEmpty

def takeKey (key : Yaml) (taken : Option (List Yaml)) : Option (Option (List Yaml)) :=
  match taken with
  | none => some none
  | some keys => if keys.any (sameKey key) then none else some (some (key :: keys))

def checkKey (key : Yaml) : Decoder Unit :=
  if key.isCollection then malformed else pure ()

def isMapping (anchors : Array Node) : Node → Bool
  | .map .. => true
  | .alias _ _ anchor =>
      match anchors[anchor]? with
      | some (.map ..) => true
      | _ => false
  | _ => false

def mergesLater (entries : List (Node × Node)) : Bool :=
  entries.any fun e => e.1.isMerge

/-- Read a mapping: its own entries first, then what it merges.  While that is merged, the keys
that the mapping has itself are taken. -/
def mergeAfter (entries : List (Node × Node))
    (own : Option (List Yaml) → Decoder (Filled × Option (List Yaml))) (takeOwn : Decoder Unit)
    (merge : Filled → Decoder Filled) : Decoder Filled := do
  let taken := (← get).taken
  modify fun s => { s with taken := none }
  let (filled, taken) ← own taken
  modify fun s => { s with taken }
  if mergesLater entries then
    if taken.isNone then takeOwn
    let merged ← merge filled
    if taken.isNone then modify fun s => { s with taken := none }
    return merged
  else return filled

mutual

/-- Read a node into a target, which may hold something already. -/
def fill (a : Anchors) (target : Target) (old : Option Filled) : Node → Decoder (Option Filled)
  | .alias line name anchor => do
      count
      match target with
      | .node => return some (.node (.alias line name anchor))
      | target =>
          modify fun s => { s with depth := s.depth + 1 }
          let filled ← a.follow anchor target old
          modify fun s => { s with depth := s.depth - 1 }
          return filled
  | .scalar line tag written => do
      count
      match target with
      | .node => return some (.node (.scalar line tag written))
      | target => fillScalar line tag written target
  | .seq line tag items => do
      count
      match target with
      | .node => return some (.node (.seq line tag items))
      | .list item => return some (.list (← fillItems a item items))
      | .any =>
          let filled ← fillItems a .any items
          return some (.data (.seq (filled.map Filled.toData)))
      | target => mismatch line tag "" target
  | .map line tag entries => do
      count
      match target with
      | .node => return some (.node (.map line tag entries))
      | target =>
          if ← reportRepeats entries then return none
          match target with
          | .record name fields =>
              let zero := (Target.record name fields).zero
              let filled ← mergeAfter entries
                (fun taken => fillFields a name fields [] taken (old.getD zero).fields entries)
                (takeKeys a [] entries)
                (fun own => mergeLast a (.record name fields) own entries)
              return some filled
          | .mapOf textKeys item =>
              let filled ← mergeAfter entries
                (fun taken =>
                  fillEntries a textKeys item old.isNone taken (old.getD (.map [])).entries entries)
                (takeKeys a [] entries)
                (fun own => mergeLast a (.mapOf textKeys item) own entries)
              return some filled
          | .any =>
              let textKeys := hasTextKeys a.nodes entries
              let filled ← mergeAfter entries
                (fun taken => fillEntries a textKeys .any true taken [] entries)
                (takeKeys a [] entries)
                (fun own => mergeLast a (.mapOf textKeys .any) own entries)
              return some (.data (.map (filled.entries.map fun e => (e.1, e.2.toData))))
          | target => mismatch line tag "" target

/-- Read the items of a sequence; those that do not fit are left out. -/
def fillItems (a : Anchors) (item : Target) : List Node → Decoder (List Filled)
  | [] => return []
  | n :: rest => do
      let filled ← fill a item none n
      let others ← fillItems a item rest
      return filled.toList ++ others

def fillEntries (a : Anchors) (textKeys : Bool) (item : Target) (isNew : Bool)
    (taken : Option (List Yaml)) (acc : List (Yaml × Filled)) : List (Node × Node) →
    Decoder (Filled × Option (List Yaml))
  | [] => return (.map acc, taken)
  | (k, v) :: rest => do
      if k.isMerge then fillEntries a textKeys item isNew taken acc rest
      else
        match ← fill a (if textKeys then .text else .any) none k with
        | none => fillEntries a textKeys item isNew taken acc rest
        | some filled =>
            let key := filled.toKey
            match takeKey key taken with
            | none => fillEntries a textKeys item isNew taken acc rest
            | some taken =>
                checkKey key
                match ← fill a item none v with
                | some value =>
                    fillEntries a textKeys item isNew taken (Filled.putEntry key value acc) rest
                | none =>
                    if tagOf a.nodes v = .null ∧ (isNew ∨ !acc.any fun e => sameKey key e.1) then
                      fillEntries a textKeys item isNew taken
                        (Filled.putEntry key item.zero acc) rest
                    else fillEntries a textKeys item isNew taken acc rest

/-- Read entries into fields.  Each field is set at most once. -/
def fillFields (a : Anchors) (name : String) (targets : List (String × Target))
    (done : List String) (taken : Option (List Yaml)) (acc : List (String × Filled)) :
    List (Node × Node) → Decoder (Filled × Option (List Yaml))
  | [] => return (.record acc, taken)
  | (k, v) :: rest => do
      if k.isMerge then fillFields a name targets done taken acc rest
      else
        match ← fill a .text none k with
        | some (.text field) =>
            match takeKey (.text field) taken with
            | none => fillFields a name targets done taken acc rest
            | some taken =>
                match targets.lookup field with
                | none => fillFields a name targets done taken acc rest
                | some target =>
                    if done.contains field then
                      report ("line " ++ toString k.line ++ ": field " ++ field
                        ++ " already set in type " ++ name)
                      fillFields a name targets done taken acc rest
                    else
                      let acc :=
                        match ← fill a target none v with
                        | some value =>
                            acc.map fun f => if f.1 == field then (field, value) else f
                        | none => acc
                      fillFields a name targets (field :: done) taken acc rest
        | _ => fillFields a name targets done taken acc rest

def takeKeys (a : Anchors) (keys : List Yaml) : List (Node × Node) → Decoder Unit
  | [] => modify fun s => { s with taken := some keys }
  | (k, _) :: rest => do
      match ← fill a .any none k with
      | some filled => takeKeys a (filled.toKey :: keys) rest
      | none => takeKeys a keys rest

/-- Merge what stands behind the last merge key: a mapping, or each mapping of a sequence. -/
def mergeLast (a : Anchors) (target : Target) (own : Filled) : List (Node × Node) → Decoder Filled
  | [] => return own
  | (k, v) :: rest =>
      if k.isMerge && !mergesLater rest then
        if isMapping a.nodes v then do
          let filled ← fill a target (some own) v
          return filled.getD own
        else
          match v with
          | .seq _ _ items => mergeItems a target own items
          | _ => malformed
      else mergeLast a target own rest

def mergeItems (a : Anchors) (target : Target) (own : Filled) : List Node → Decoder Filled
  | [] => return own
  | n :: rest => do
      if isMapping a.nodes n then
        let filled ← fill a target (some own) n
        mergeItems a target (filled.getD own) rest
      else malformed

end

def follow (nodes : Array Node) : (depth : Nat) → Nat → Target → Option Filled →
    Decoder (Option Filled)
  | 0, _, _, _ => malformed
  | depth + 1, anchor, target, old =>
      match nodes[anchor]? with
      | some n => fill { nodes, follow := follow nodes depth } target old n
      | none => malformed

/-- Read a node of a document into a target.  Where no anchor holds itself, aliases nest at most as
deep as there are anchors. -/
def run (anchors : Array Node) (target : Target) (n : Node) : Except Error Filled := do
  let a : Anchors := { nodes := anchors, follow := follow anchors anchors.size }
  let (filled, s) ← (fill a target none n).run {}
  if s.issues.isEmpty then return filled.getD target.zero
  else throw (.yamlMismatch s.issues.reverse)

end Decode

/-- Read the first document of a text into a target; an empty text leaves it as it is. -/
def read (target : Target) (text : String) : Except Error Filled := do
  match ← Document.parse text with
  | some d => Decode.run d.anchors target d.root
  | none => return target.zero

def parse (text : String) : Except Error Yaml := do
  return (← read .any text).toData

end Yaml
end ScriptCore
