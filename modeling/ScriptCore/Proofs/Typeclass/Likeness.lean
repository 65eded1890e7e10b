import ScriptCore.Proofs.Ty.Reading
import ScriptCore.Proofs.Typeclass.Dispatch

/-!
# Types that are written alike

Dispatch compares dispatch keys first, and types only if no key is found.  A
key is a text, and types that are not equal may share it: the empty tuple is
written like the unit type, and a head without arguments like the head alone.
Where all names are words these are the only reasons; but a name may be any
text, also the key of another type.

An entry that dispatch finds fits the argument unless the two types are
mistaken for each other in this way.
-/

namespace ScriptCore
namespace Ty

/-- The types share their dispatch key without being equal. -/
def IsMistakenFor (a b : Ty) : Prop :=
  a.key = b.key ∧ a.equal b = false

/-!
## Names that are words
-/

mutual

def hasWords : Ty → Bool
  | .missing => false
  | .named name => isWord name
  | .tuple elements => allHaveWords elements
  | .func params effects result =>
      allHaveWords params && allHaveWords effects && hasWords result
  | .app head args => hasWords head && allHaveWords args
  | .ref _ => false
  | .alias _ _ => false
  | .unit => true

def allHaveWords : List Ty → Bool
  | [] => true
  | t :: rest => hasWords t && allHaveWords rest

end

mutual

/-- The type with the unit type for empty tuples, and without heads that have no arguments. -/
def collapsed : Ty → Ty
  | .tuple elements => if elements.isEmpty then .unit else .tuple (allCollapsed elements)
  | .func params effects result =>
      .func (allCollapsed params) (allCollapsed effects) (collapsed result)
  | .app head args =>
      if args.isEmpty then collapsed head else .app (collapsed head) (allCollapsed args)
  | t => t

def allCollapsed : List Ty → List Ty
  | [] => []
  | t :: rest => collapsed t :: allCollapsed rest

end

mutual

theorem display_collapsed : (t : Ty) → t.collapsed.display = t.display
  | .missing => rfl
  | .named _ => rfl
  | .tuple [] => rfl
  | .tuple (first :: rest) => by
      rw [collapsed, if_neg (by simp), display, displayAll_allCollapsed (first :: rest), display]
  | .func params effects result => by
      rw [collapsed, display, displayAll_allCollapsed params, displayAll_allCollapsed effects,
        display_collapsed result, display]
  | .app head [] => display_collapsed head
  | .app head (first :: rest) => by
      rw [collapsed, if_neg (by simp), display, display_collapsed head,
        displayAll_allCollapsed (first :: rest), display]
  | .ref _ => rfl
  | .alias _ _ => rfl
  | .unit => rfl

theorem displayAll_allCollapsed : (ts : List Ty) → displayAll (allCollapsed ts) = displayAll ts
  | [] => rfl
  | t :: rest => by
      rw [allCollapsed, displayAll, display_collapsed t, displayAll_allCollapsed rest, displayAll]

end

mutual

theorem isReadable_collapsed : (t : Ty) → t.hasWords = true → t.collapsed.isReadable = true
  | .named _, hwords => hwords
  | .tuple [], _ => rfl
  | .tuple (first :: rest), hwords => by
      rw [collapsed, if_neg (by simp), isReadable,
        allReadable_allCollapsed (first :: rest) hwords]
      rfl
  | .func params effects result, hwords => by
      simp only [hasWords, Bool.and_eq_true] at hwords
      rw [collapsed, isReadable, allReadable_allCollapsed params hwords.1.1,
        allReadable_allCollapsed effects hwords.1.2, isReadable_collapsed result hwords.2]
      rfl
  | .app head [], hwords => by
      simp only [hasWords, Bool.and_eq_true] at hwords
      exact isReadable_collapsed head hwords.1
  | .app head (first :: rest), hwords => by
      simp only [hasWords, Bool.and_eq_true] at hwords
      rw [collapsed, if_neg (by simp), isReadable, isReadable_collapsed head hwords.1,
        allReadable_allCollapsed (first :: rest) hwords.2]
      rfl
  | .unit, _ => rfl
  | .missing, hwords => by cases hwords
  | .ref _, hwords => by cases hwords
  | .alias _ _, hwords => by cases hwords

theorem allReadable_allCollapsed :
    (ts : List Ty) → allHaveWords ts = true → allReadable (allCollapsed ts) = true
  | [], _ => rfl
  | t :: rest, hwords => by
      simp only [allHaveWords, Bool.and_eq_true] at hwords
      rw [allCollapsed, allReadable, isReadable_collapsed t hwords.1,
        allReadable_allCollapsed rest hwords.2]
      rfl

end

theorem eq_of_display_eq {a b : Ty} (ha : a.isReadable = true) (hb : b.isReadable = true)
    (hdisplay : a.display = b.display) : a = b := by
  have hwritten : written a ++ [] = written b ++ [] := by
    unfold written
    rw [hdisplay]
  exact (recognized a b [] [] ha hb trivial trivial hwritten).1

/-- With words for names, types share their key exactly if nothing but empty tuples and heads
without arguments tells their normal forms apart. -/
theorem key_eq_iff_collapsed_eq {a b : Ty} (ha : a.normalize.hasWords = true)
    (hb : b.normalize.hasWords = true) :
    a.key = b.key ↔ a.normalize.collapsed = b.normalize.collapsed := by
  unfold key
  rw [← display_collapsed a.normalize, ← display_collapsed b.normalize]
  constructor
  · exact eq_of_display_eq (isReadable_collapsed _ ha) (isReadable_collapsed _ hb)
  · intro hcollapsed
    rw [hcollapsed]

theorem not_mistaken_of_readable {a b : Ty} (ha : a.normalize.isReadable = true)
    (hb : b.normalize.isReadable = true) : ¬ a.IsMistakenFor b := by
  rintro ⟨hkey, hequal⟩
  have hnormal : a.normalize = b.normalize := eq_of_display_eq ha hb hkey
  rw [← equal_normalize_right, ← hnormal, equal_normalize_right, equal_self] at hequal
  cases hequal

/-!
## Any names
-/

theorem isWildcard_eq_false {t : Ty} {c d : Char} {rest : List Char}
    (hwritten : written t = c :: d :: rest) (hc : c ≠ 'A') : isWildcard t.display = false := by
  have htext : t.display = String.ofList (c :: d :: rest) := by
    rw [← hwritten]
    exact String.ofList_toList.symm
  have hany : t.display ≠ "Any" := by
    intro heq
    have hhead := congrArg (fun s => s.toList.head?) heq
    rw [htext, String.toList_ofList] at hhead
    exact hc (Option.some.inj hhead)
  have hlength : t.display.length ≠ 1 := by
    rw [htext, String.length_ofList]
    simp
  simp [isWildcard, hany, hlength]

theorem isWildcard_tuple (elements : List Ty) : isWildcard (tuple elements).display = false := by
  have hwritten := written_tuple elements
  cases hlisted : listed elements ++ [')'] with
  | nil => simp at hlisted
  | cons d rest =>
      rw [hlisted] at hwritten
      exact isWildcard_eq_false hwritten (by decide)

theorem isWildcard_func (params effects : List Ty) (result : Ty) :
    isWildcard (func params effects result).display = false :=
  isWildcard_eq_false (written_func params effects result) (by decide)

theorem isWildcard_app (head first : Ty) (rest : List Ty) :
    isWildcard (app head (first :: rest)).display = false := by
  have hwritten := written_app head first rest
  cases hlisted : written head ++ (following [' '] (first :: rest) ++ [')']) with
  | nil => simp at hlisted
  | cons d text =>
      rw [hlisted] at hwritten
      exact isWildcard_eq_false hwritten (by decide)

/-- Types whose keys are wildcards are equal: they are wildcards, or heads without arguments. -/
theorem equal_of_wildcard_keys :
    (a b : Ty) → isWildcard a.key = true → isWildcard b.key = true → a.equal b = true
  | .missing, _, _, _ => rfl
  | .named name, b, ha, _ => by
      rw [equal, show isWildcard name = true from ha]
      rfl
  | .ref target, b, ha, hb => equal_of_wildcard_keys target b ha hb
  | .alias _ target, b, ha, hb => equal_of_wildcard_keys target b ha hb
  | .app head [], b, ha, hb => by
      have hresolved := resolved_resolve b
      unfold key at hb
      rw [← normalize_resolve b] at hb
      rw [equal]
      generalize b.resolve = r at hresolved hb ⊢
      cases hresolved with
      | named other => exact hb
      | app head' args =>
          cases args with
          | nil =>
              show (head.equal head' && true) = true
              rw [Bool.and_true]
              exact equal_of_wildcard_keys head head' ha hb
          | cons first rest =>
              rw [normalize, normalizeAll, isWildcard_app] at hb
              cases hb
      | tuple elements =>
          rw [normalize, isWildcard_tuple] at hb
          cases hb
      | func params effects result =>
          rw [normalize, isWildcard_func] at hb
          cases hb
      | unit => cases hb
  | .app head (first :: rest), _, ha, _ => by
      rw [key, normalize, normalizeAll, isWildcard_app] at ha
      cases ha
  | .tuple elements, _, ha, _ => by
      rw [key, normalize, isWildcard_tuple] at ha
      cases ha
  | .func params effects result, _, ha, _ => by
      rw [key, normalize, isWildcard_func] at ha
      cases ha
  | .unit, _, ha, _ => by cases ha

/-- A name is mistaken for a head without arguments, and any other type for the name that is its
key. -/
theorem exists_mistaken {t : Ty} (hkey : isWildcard t.key = false) : ∃ u, t.IsMistakenFor u := by
  have hresolved := resolved_resolve t
  have hequal : ∀ u, t.equal u = t.resolve.equal u := by
    intro u
    rw [← equal_normalize_left t, ← equal_normalize_left t.resolve, normalize_resolve]
  have hsame : t.key = t.resolve.key := by
    unfold key
    rw [normalize_resolve]
  rw [hsame] at hkey
  suffices hmistaken : ∃ u, t.resolve.IsMistakenFor u by
    rcases hmistaken with ⟨u, hkeys, hunequal⟩
    exact ⟨u, hsame.trans hkeys, (hequal u).trans hunequal⟩
  generalize t.resolve = r at hresolved hkey ⊢
  cases hresolved with
  | named name =>
      refine ⟨.app (.named name) [], rfl, ?_⟩
      have hname : isWildcard name = false := hkey
      rw [equal, hname]
      rfl
  | tuple elements => exact ⟨.named (tuple elements).key, rfl, hkey⟩
  | func params effects result => exact ⟨.named (func params effects result).key, rfl, hkey⟩
  | app head args => exact ⟨.named (app head args).key, rfl, hkey⟩
  | unit => exact ⟨.named unit.key, rfl, hkey⟩

theorem exists_mistaken_iff {t : Ty} :
    (∃ u, t.IsMistakenFor u) ↔ isWildcard t.key = false := by
  constructor
  · rintro ⟨u, hkey, hunequal⟩
    cases hwild : isWildcard t.key with
    | false => rfl
    | true =>
        rw [equal_of_wildcard_keys t u hwild (hkey ▸ hwild)] at hunequal
        cases hunequal
  · exact exists_mistaken

end Ty

namespace Instances

variable {β : Type} {t : Instances β} {history : List (Registration β)} {e : Instance β}
  {method : String} {argument : Ty}

/-!
## Dispatch
-/

theorem Reflects.find?_cases (h : t.Reflects history)
    (hfind : t.find? method argument = some e) :
    e.method = method ∧ (e.type.key = argument.key ∨ e.type.equal argument = true) := by
  rw [find?_eq_or, h.keyed] at hfind
  rcases Option.or_eq_some_iff.mp hfind with hkeyed | ⟨_, hscan⟩
  · have hslot := (mem_of_latest? hkeyed).2
    exact ⟨congrArg Prod.fst hslot, Or.inl (congrArg Prod.snd hslot)⟩
  · have hmatch := List.find?_some hscan
    simp only [Bool.and_eq_true, beq_iff_eq] at hmatch
    exact ⟨hmatch.1, Or.inr hmatch.2⟩

theorem find?_of_key (history : List (Registration β)) (r : Registration β)
    (hkey : r.type.key = argument.key) :
    (ofHistory (history ++ [r])).find? r.method argument = some (r.entry history.length) := by
  have hslot : (r.entry history.length).slot = (r.method, argument.key) :=
    congrArg (r.method, ·) hkey
  rw [find?_eq_or, (reflects_ofHistory _).keyed, numbered_append, latest?_append, if_pos hslot]
  rfl

/-- Whatever has been registered: what dispatch finds is for the method, and its type equals that of
the argument unless the two are mistaken for each other.  Types in words, without empty tuples and
heads without arguments, never are; with these, types in words are mistaken for each other if they
collapse to the same type without being equal.  With any names every type is mistaken for another
one unless its key is a wildcard, and once it is registered it serves the other one. -/
theorem found_fits_unless_mistaken (history : List (Registration β)) :
    (∀ method argument e, (ofHistory history).find? method argument = some e →
      e.method = method ∧ (e.type.equal argument = true ↔ ¬ e.type.IsMistakenFor argument)) ∧
    (∀ a b : Ty, a.normalize.isReadable = true → b.normalize.isReadable = true →
      ¬ a.IsMistakenFor b) ∧
    (∀ a b : Ty, a.normalize.hasWords = true → b.normalize.hasWords = true →
      (a.IsMistakenFor b ↔
        a.normalize.collapsed = b.normalize.collapsed ∧ a.equal b = false)) ∧
    (∀ a : Ty, (∃ b, a.IsMistakenFor b) ↔ Ty.isWildcard a.key = false) ∧
    ∀ (r : Registration β) (b : Ty), r.type.IsMistakenFor b →
      (ofHistory (history ++ [r])).find? r.method b = some (r.entry history.length) := by
  refine ⟨?_, ?_, ?_, fun _ => Ty.exists_mistaken_iff, ?_⟩
  · intro method argument e hfind
    rcases (reflects_ofHistory history).find?_cases hfind with ⟨hmethod, hfits⟩
    refine ⟨hmethod, ?_⟩
    constructor
    · rintro hequal ⟨_, hunequal⟩
      rw [hequal] at hunequal
      cases hunequal
    · intro hmistaken
      rcases hfits with hkey | hequal
      · cases hequal : e.type.equal argument with
        | true => rfl
        | false => exact absurd ⟨hkey, hequal⟩ hmistaken
      · exact hequal
  · intro a b ha hb
    exact Ty.not_mistaken_of_readable ha hb
  · intro a b ha hb
    unfold Ty.IsMistakenFor
    rw [Ty.key_eq_iff_collapsed_eq ha hb]
  · intro r b hmistaken
    exact find?_of_key history r hmistaken.1

def emptyTupleShown : Registration Nat where
  className := "Show"
  method := "show"
  type := .tuple []
  body := 0

/-- The instance for the empty tuple serves the unit type, which it does not equal. -/
theorem unit_served_by_empty_tuple :
    ∃ e, (ofHistory [emptyTupleShown]).find? "show" .unit = some e ∧
      e.type.equal .unit = false :=
  ⟨emptyTupleShown.entry 0, rfl, rfl⟩

/-- The generic instance that serves a list of characters fits it. -/
theorem found_for_characters :
    (Ty.listOf (.named "a")).normalize.isReadable = true ∧
    (Ty.listOf .char).normalize.isReadable = true ∧
    ∃ e, (ofHistory showHistory).find? "show" (.listOf .char) = some e ∧
      e.type = .listOf (.named "a") ∧ e.method = "show" ∧
      e.type.equal (.listOf .char) = true := by
  have hgeneric : (Ty.listOf (.named "a")).normalize.isReadable = true := by decide
  have hchars : (Ty.listOf .char).normalize.isReadable = true := by decide
  have hfind : (ofHistory showHistory).find? "show" (.listOf .char) =
      some { serial := 2, className := "Show", method := "show", type := .listOf (.named "a"),
             body := 2 } := rfl
  have hresult := found_fits_unless_mistaken showHistory
  rcases hresult.1 _ _ _ hfind with ⟨hmethod, hfits⟩
  exact ⟨hgeneric, hchars, _, hfind, rfl, hmethod,
    hfits.mpr (hresult.2.1 _ _ hgeneric hchars)⟩

end Instances
end ScriptCore
