/-!
# Finite maps on names

A map from names is a list of pairs in the order in which the names were first
bound.  Listings are sorted by name.
-/

namespace ScriptCore

structure NameMap (α : Type) where
  entries : List (String × α) := []
deriving Repr

namespace NameMap

variable {α β : Type}

def empty : NameMap α := {}

def get? (m : NameMap α) (name : String) : Option α :=
  m.entries.lookup name

def contains (m : NameMap α) (name : String) : Bool :=
  (m.get? name).isSome

/-- Bind in a list of pairs, replacing an earlier binding in its place. -/
def put (name : String) (value : α) : List (String × α) → List (String × α)
  | [] => [(name, value)]
  | (other, old) :: rest =>
      if name == other then (name, value) :: rest else (other, old) :: put name value rest

def insert (m : NameMap α) (name : String) (value : α) : NameMap α :=
  { entries := put name value m.entries }

def erase (m : NameMap α) (name : String) : NameMap α :=
  { entries := m.entries.filter fun e => !(name == e.1) }

def map (f : α → β) (m : NameMap α) : NameMap β :=
  { entries := m.entries.map fun e => (e.1, f e.2) }

def ofList (pairs : List (String × α)) : NameMap α :=
  pairs.foldl (fun m e => m.insert e.1 e.2) empty

def sortPairs (pairs : List (String × α)) : List (String × α) :=
  pairs.mergeSort fun a b => decide (a.1 ≤ b.1)

def toSorted (m : NameMap α) : List (String × α) :=
  sortPairs m.entries

def sortNames (names : List String) : List String :=
  names.mergeSort fun a b => decide (a ≤ b)

def names (m : NameMap α) : List String :=
  sortNames (m.entries.map (·.1))

theorem lookup_put_self (name : String) (value : α) (pairs : List (String × α)) :
    (put name value pairs).lookup name = some value := by
  induction pairs with
  | nil => simp [put]
  | cons e rest ih =>
      obtain ⟨other, old⟩ := e
      by_cases h : name == other
      · simp [put, h]
      · simp [put, h, List.lookup_cons, ih]

theorem lookup_put_ne {name other : String} (h : other ≠ name) (value : α)
    (pairs : List (String × α)) : (put name value pairs).lookup other = pairs.lookup other := by
  have hne : (other == name) = false := by simpa using h
  induction pairs with
  | nil => simp [put, List.lookup_cons, hne]
  | cons e rest ih =>
      obtain ⟨key, old⟩ := e
      by_cases hk : name == key
      · have hkey : name = key := by simpa using hk
        subst hkey
        simp [put, List.lookup_cons, hne]
      · simp [put, hk, List.lookup_cons, ih]

@[simp] theorem get?_empty (name : String) : (empty : NameMap α).get? name = none := rfl

@[simp] theorem get?_insert_self (m : NameMap α) (name : String) (value : α) :
    (m.insert name value).get? name = some value :=
  lookup_put_self name value m.entries

theorem contains_of_some {m : NameMap α} {name : String} {value : α}
    (h : m.get? name = some value) : m.contains name = true := by
  unfold contains
  rw [h]
  rfl

theorem not_contains_of_none {m : NameMap α} {name : String} (h : m.get? name = none) :
    ¬ m.contains name = true := by
  unfold contains
  rw [h]
  exact Bool.false_ne_true

theorem get?_insert_ne (m : NameMap α) {name other : String} (h : other ≠ name) (value : α) :
    (m.insert name value).get? other = m.get? other :=
  lookup_put_ne h value m.entries

theorem get?_insert (m : NameMap α) (name other : String) (value : α) :
    (m.insert name value).get? other = if other = name then some value else m.get? other := by
  by_cases h : other = name
  · subst h
    simp
  · rw [get?_insert_ne m h, if_neg h]

theorem put_put (name : String) (old value : α) (pairs : List (String × α)) :
    put name value (put name old pairs) = put name value pairs := by
  induction pairs with
  | nil => simp [put]
  | cons e rest ih =>
      by_cases h : name == e.1
      · simp [put, h]
      · simp [put, h, ih]

theorem put_of_lookup {name : String} {value : α} {pairs : List (String × α)}
    (h : pairs.lookup name = some value) : put name value pairs = pairs := by
  induction pairs with
  | nil => simp at h
  | cons e rest ih =>
      by_cases hname : name == e.1
      · have hkey : name = e.1 := by simpa using hname
        rw [List.lookup_cons, hname] at h
        have hvalue : e.2 = value := by simpa using h
        simp [put, ← hvalue, hkey]
      · rw [List.lookup_cons] at h
        simp only [hname] at h
        simp [put, hname, ih h]

theorem insert_insert (m : NameMap α) (name : String) (old value : α) :
    (m.insert name old).insert name value = m.insert name value := by
  simp [insert, put_put]

theorem insert_of_get? {m : NameMap α} {name : String} {value : α}
    (h : m.get? name = some value) : m.insert name value = m := by
  unfold insert
  rw [put_of_lookup h]

end NameMap
end ScriptCore
