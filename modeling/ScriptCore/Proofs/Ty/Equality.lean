import ScriptCore.Ty.Equal

/-!
# What equality of types means

A wildcard in a type leaves a part of it open, and every occurrence is left
open on its own.  An instance of a type has all these parts filled in.  Two
types are equal if they have an instance in common once references and aliases
are stripped from them.
-/

namespace ScriptCore
namespace Ty

/-!
## Instances
-/

mutual

def isPlain : Ty → Bool
  | .tuple elements => allPlain elements
  | .func params effects result => allPlain params && allPlain effects && isPlain result
  | .app head args => isPlain head && allPlain args
  | .ref _ => false
  | .alias _ _ => false
  | _ => true

def allPlain : List Ty → Bool
  | [] => true
  | t :: rest => isPlain t && allPlain rest

end

mutual

/-- The second type is the first one with a plain type in place of each wildcard. -/
inductive IsInstance : Ty → Ty → Prop where
  | wildcard {name : String} {t : Ty} (hname : isWildcard name = true)
      (hplain : t.isPlain = true) : IsInstance (.named name) t
  | named (name : String) : IsInstance (.named name) (.named name)
  | tuple {elements elements' : List Ty} (helements : AreInstances elements elements') :
      IsInstance (.tuple elements) (.tuple elements')
  | func {params params' effects effects' : List Ty} {result result' : Ty}
      (hparams : AreInstances params params') (heffects : AreInstances effects effects')
      (hresult : IsInstance result result') :
      IsInstance (.func params effects result) (.func params' effects' result')
  | app {head head' : Ty} {args args' : List Ty} (hhead : IsInstance head head')
      (hargs : AreInstances args args') : IsInstance (.app head args) (.app head' args')
  | unit : IsInstance .unit .unit

inductive AreInstances : List Ty → List Ty → Prop where
  | nil : AreInstances [] []
  | cons {t t' : Ty} {rest rest' : List Ty} (ht : IsInstance t t')
      (hrest : AreInstances rest rest') : AreInstances (t :: rest) (t' :: rest')

end

def Overlaps (a b : Ty) : Prop :=
  ∃ c, IsInstance a c ∧ IsInstance b c

def AllOverlap (as bs : List Ty) : Prop :=
  ∃ cs, AreInstances as cs ∧ AreInstances bs cs

theorem overlaps_comm {a b : Ty} : Overlaps a b ↔ Overlaps b a := by
  constructor
  · rintro ⟨c, ha, hb⟩
    exact ⟨c, hb, ha⟩
  · rintro ⟨c, hb, ha⟩
    exact ⟨c, ha, hb⟩

/-!
## Normal forms
-/

mutual

theorem isPlain_normalize : (t : Ty) → t.normalize.isPlain = true
  | .missing => rfl
  | .named _ => rfl
  | .tuple elements => allPlain_normalizeAll elements
  | .func params effects result => by
      simp only [normalize, isPlain, allPlain_normalizeAll params, allPlain_normalizeAll effects,
        isPlain_normalize result, Bool.and_self]
  | .app head args => by
      simp only [normalize, isPlain, isPlain_normalize head, allPlain_normalizeAll args,
        Bool.and_self]
  | .ref target => isPlain_normalize target
  | .alias _ target => isPlain_normalize target
  | .unit => rfl

theorem allPlain_normalizeAll : (ts : List Ty) → allPlain (normalizeAll ts) = true
  | [] => rfl
  | t :: rest => by
      simp only [normalizeAll, allPlain, isPlain_normalize t, allPlain_normalizeAll rest,
        Bool.and_self]

end

mutual

@[simp] theorem normalize_normalize : (t : Ty) → t.normalize.normalize = t.normalize
  | .missing => rfl
  | .named _ => rfl
  | .tuple elements => by simp only [normalize, normalizeAll_normalizeAll elements]
  | .func params effects result => by
      simp only [normalize, normalizeAll_normalizeAll params, normalizeAll_normalizeAll effects,
        normalize_normalize result]
  | .app head args => by
      simp only [normalize, normalize_normalize head, normalizeAll_normalizeAll args]
  | .ref target => normalize_normalize target
  | .alias _ target => normalize_normalize target
  | .unit => rfl

theorem normalizeAll_normalizeAll :
    (ts : List Ty) → normalizeAll (normalizeAll ts) = normalizeAll ts
  | [] => rfl
  | t :: rest => by
      simp only [normalizeAll, normalize_normalize t, normalizeAll_normalizeAll rest]

end

mutual

theorem isInstance_normalize : (t : Ty) → IsInstance t.normalize t.normalize
  | .missing => .named "Any"
  | .named name => .named name
  | .tuple elements => .tuple (areInstances_normalizeAll elements)
  | .func params effects result =>
      .func (areInstances_normalizeAll params) (areInstances_normalizeAll effects)
        (isInstance_normalize result)
  | .app head args => .app (isInstance_normalize head) (areInstances_normalizeAll args)
  | .ref target => isInstance_normalize target
  | .alias _ target => isInstance_normalize target
  | .unit => .unit

theorem areInstances_normalizeAll :
    (ts : List Ty) → AreInstances (normalizeAll ts) (normalizeAll ts)
  | [] => .nil
  | t :: rest => .cons (isInstance_normalize t) (areInstances_normalizeAll rest)

end

theorem overlaps_wildcard {name : String} (hname : isWildcard name = true) (t : Ty) :
    Overlaps (.named name) t.normalize :=
  ⟨t.normalize, .wildcard hname (isPlain_normalize t), isInstance_normalize t⟩

/-- The type is neither missing nor a reference nor an alias. -/
inductive Resolved : Ty → Prop where
  | named (name : String) : Resolved (.named name)
  | tuple (elements : List Ty) : Resolved (.tuple elements)
  | func (params effects : List Ty) (result : Ty) : Resolved (.func params effects result)
  | app (head : Ty) (args : List Ty) : Resolved (.app head args)
  | unit : Resolved .unit

theorem resolved_resolve (t : Ty) : Resolved t.resolve := by
  fun_induction resolve t with
  | case1 target ih => exact ih
  | case2 name target ih => exact ih
  | case3 => exact .named "Any"
  | case4 t href halias hmissing =>
      cases t with
      | missing => exact absurd rfl hmissing
      | named name => exact .named name
      | tuple elements => exact .tuple elements
      | func params effects result => exact .func params effects result
      | app head args => exact .app head args
      | ref target => exact absurd rfl (href target)
      | «alias» name target => exact absurd rfl (halias name target)
      | unit => exact .unit

theorem normalize_resolve (t : Ty) : t.resolve.normalize = t.normalize := by
  fun_induction resolve t with
  | case1 target ih => exact ih
  | case2 name target ih => exact ih
  | case3 => rfl
  | case4 t => rfl

/-!
## Equality
-/

section

variable {name : String}

theorem overlaps_named_iff (hname : isWildcard name = false) (t : Ty) :
    Overlaps (.named name) t ↔ IsInstance t (.named name) := by
  constructor
  · rintro ⟨c, hleft, hright⟩
    cases hleft with
    | wildcard hwild _ =>
        rw [hname] at hwild
        cases hwild
    | named => exact hright
  · intro hright
    exact ⟨.named name, .named name, hright⟩

theorem overlaps_tuple_iff {elements elements' : List Ty} :
    Overlaps (.tuple elements) (.tuple elements') ↔ AllOverlap elements elements' := by
  constructor
  · rintro ⟨c, hleft, hright⟩
    cases hleft with
    | tuple hleft =>
        cases hright with
        | tuple hright => exact ⟨_, hleft, hright⟩
  · rintro ⟨cs, hleft, hright⟩
    exact ⟨.tuple cs, .tuple hleft, .tuple hright⟩

theorem overlaps_func_iff {params effects params' effects' : List Ty} {result result' : Ty} :
    Overlaps (.func params effects result) (.func params' effects' result') ↔
      (AllOverlap params params' ∧ AllOverlap effects effects') ∧ Overlaps result result' := by
  constructor
  · rintro ⟨c, hleft, hright⟩
    cases hleft with
    | func hparams heffects hresult =>
        cases hright with
        | func hparams' heffects' hresult' =>
            exact ⟨⟨⟨_, hparams, hparams'⟩, ⟨_, heffects, heffects'⟩⟩, ⟨_, hresult, hresult'⟩⟩
  · rintro ⟨⟨⟨ps, hparams, hparams'⟩, ⟨es, heffects, heffects'⟩⟩, ⟨r, hresult, hresult'⟩⟩
    exact ⟨.func ps es r, .func hparams heffects hresult, .func hparams' heffects' hresult'⟩

theorem overlaps_app_iff {head head' : Ty} {args args' : List Ty} :
    Overlaps (.app head args) (.app head' args') ↔
      Overlaps head head' ∧ AllOverlap args args' := by
  constructor
  · rintro ⟨c, hleft, hright⟩
    cases hleft with
    | app hhead hargs =>
        cases hright with
        | app hhead' hargs' => exact ⟨⟨_, hhead, hhead'⟩, ⟨_, hargs, hargs'⟩⟩
  · rintro ⟨⟨h, hhead, hhead'⟩, ⟨as, hargs, hargs'⟩⟩
    exact ⟨.app h as, .app hhead hargs, .app hhead' hargs'⟩

theorem allOverlap_cons_iff {t t' : Ty} {rest rest' : List Ty} :
    AllOverlap (t :: rest) (t' :: rest') ↔ Overlaps t t' ∧ AllOverlap rest rest' := by
  constructor
  · rintro ⟨cs, hleft, hright⟩
    cases hleft with
    | cons ht hrest =>
        cases hright with
        | cons ht' hrest' => exact ⟨⟨_, ht, ht'⟩, ⟨_, hrest, hrest'⟩⟩
  · rintro ⟨⟨c, ht, ht'⟩, ⟨cs, hrest, hrest'⟩⟩
    exact ⟨c :: cs, .cons ht hrest, .cons ht' hrest'⟩

end

theorem isWildcard_iff_overlaps {a : Ty} {other : String}
    (hhead : ∀ name, ¬ IsInstance a.normalize (.named name)) :
    isWildcard other = true ↔ Overlaps a.normalize (.named other) := by
  rw [overlaps_comm]
  cases hother : isWildcard other with
  | true => exact ⟨fun _ => overlaps_wildcard hother a, fun _ => rfl⟩
  | false =>
      rw [overlaps_named_iff hother]
      constructor
      · intro hfalse
        cases hfalse
      · intro hinst
        exact absurd hinst (hhead other)

theorem false_iff_overlaps {a b : Ty} (hno : ∀ c, IsInstance a c → ¬ IsInstance b c) :
    false = true ↔ Overlaps a b := by
  constructor
  · intro hfalse
    cases hfalse
  · rintro ⟨c, hleft, hright⟩
    exact absurd hright (hno c hleft)

mutual

theorem equal_iff_overlaps : (a b : Ty) → (a.equal b = true ↔ Overlaps a.normalize b.normalize)
  | .missing, b => ⟨fun _ => overlaps_wildcard rfl b, fun _ => rfl⟩
  | .ref target, b => equal_iff_overlaps target b
  | .alias _ target, b => equal_iff_overlaps target b
  | .named name, b => by
      have hb := resolved_resolve b
      rw [equal, ← normalize_resolve b]
      generalize b.resolve = r at hb ⊢
      cases hname : isWildcard name with
      | true => exact ⟨fun _ => overlaps_wildcard hname r, fun _ => rfl⟩
      | false =>
          cases hb with
          | named other =>
              simp only [normalize, Bool.false_or, Bool.or_eq_true, beq_iff_eq]
              rw [overlaps_named_iff hname]
              constructor
              · rintro (hother | rfl)
                · exact .wildcard hother rfl
                · exact .named name
              · intro hinst
                cases hinst with
                | wildcard hother _ => exact Or.inl hother
                | named => exact Or.inr rfl
          | tuple | func | app | unit =>
              refine false_iff_overlaps fun c hleft hright => ?_
              cases hleft with
              | wildcard hwild _ => exact absurd hwild (by simp [hname])
              | named => cases hright
  | .tuple elements, b => by
      have hb := resolved_resolve b
      rw [equal, ← normalize_resolve b]
      generalize b.resolve = r at hb ⊢
      cases hb with
      | named other => exact isWildcard_iff_overlaps fun name hinst => by cases hinst
      | tuple others =>
          exact (equalAll_iff_overlap elements others).trans overlaps_tuple_iff.symm
      | func | app | unit =>
          refine false_iff_overlaps fun c hleft hright => ?_
          cases hleft
          cases hright
  | .func params effects result, b => by
      have hb := resolved_resolve b
      rw [equal, ← normalize_resolve b]
      generalize b.resolve = r at hb ⊢
      cases hb with
      | named other => exact isWildcard_iff_overlaps fun name hinst => by cases hinst
      | func params' effects' result' =>
          simp only [normalize, Bool.and_eq_true]
          rw [equalAll_iff_overlap params params', equalAll_iff_overlap effects effects',
            equal_iff_overlaps result result', overlaps_func_iff]
      | tuple | app | unit =>
          refine false_iff_overlaps fun c hleft hright => ?_
          cases hleft
          cases hright
  | .app head args, b => by
      have hb := resolved_resolve b
      rw [equal, ← normalize_resolve b]
      generalize b.resolve = r at hb ⊢
      cases hb with
      | named other => exact isWildcard_iff_overlaps fun name hinst => by cases hinst
      | app head' args' =>
          simp only [normalize, Bool.and_eq_true]
          rw [equal_iff_overlaps head head', equalAll_iff_overlap args args', overlaps_app_iff]
      | tuple | func | unit =>
          refine false_iff_overlaps fun c hleft hright => ?_
          cases hleft
          cases hright
  | .unit, b => by
      have hb := resolved_resolve b
      rw [equal, ← normalize_resolve b]
      generalize b.resolve = r at hb ⊢
      cases hb with
      | named other => exact isWildcard_iff_overlaps fun name hinst => by cases hinst
      | unit => exact ⟨fun _ => ⟨.unit, .unit, .unit⟩, fun _ => rfl⟩
      | tuple | func | app =>
          refine false_iff_overlaps fun c hleft hright => ?_
          cases hleft
          cases hright

theorem equalAll_iff_overlap :
    (as bs : List Ty) → (equalAll as bs = true ↔ AllOverlap (normalizeAll as) (normalizeAll bs))
  | [], [] => ⟨fun _ => ⟨[], .nil, .nil⟩, fun _ => rfl⟩
  | [], _ :: _ => by
      constructor
      · intro hfalse
        cases hfalse
      · rintro ⟨cs, hleft, hright⟩
        cases hleft
        cases hright
  | _ :: _, [] => by
      constructor
      · intro hfalse
        cases hfalse
      · rintro ⟨cs, hleft, hright⟩
        cases hright
        cases hleft
  | a :: as, b :: bs => by
      rw [equalAll, Bool.and_eq_true, equal_iff_overlaps a b, equalAll_iff_overlap as bs,
        normalizeAll, normalizeAll, allOverlap_cons_iff]

end

/-!
## Laws of equality
-/

theorem equal_self (a : Ty) : a.equal a = true := by
  rw [equal_iff_overlaps]
  exact ⟨a.normalize, isInstance_normalize a, isInstance_normalize a⟩

theorem equal_comm (a b : Ty) : a.equal b = b.equal a := by
  rw [Bool.eq_iff_iff, equal_iff_overlaps, equal_iff_overlaps, overlaps_comm]

theorem equal_normalize_left (a b : Ty) : a.normalize.equal b = a.equal b := by
  rw [Bool.eq_iff_iff, equal_iff_overlaps, equal_iff_overlaps, normalize_normalize]

theorem equal_normalize_right (a b : Ty) : a.equal b.normalize = a.equal b := by
  rw [equal_comm, equal_normalize_left, equal_comm]

mutual

/-- Some part of the type is left open.  The name of an alias is not a part of it. -/
def hasWildcard : Ty → Bool
  | .missing => true
  | .named name => isWildcard name
  | .tuple elements => anyWildcard elements
  | .func params effects result => anyWildcard params || anyWildcard effects || hasWildcard result
  | .app head args => hasWildcard head || anyWildcard args
  | .ref target => hasWildcard target
  | .alias _ target => hasWildcard target
  | .unit => false

def anyWildcard : List Ty → Bool
  | [] => false
  | t :: rest => hasWildcard t || anyWildcard rest

end

mutual

theorem eq_normalize_of_isInstance {c : Ty} :
    (t : Ty) → t.hasWildcard = false → IsInstance t.normalize c → c = t.normalize
  | .missing, hclosed, _ => by cases hclosed
  | .named name, hclosed, hinst => by
      cases hinst with
      | wildcard hwild _ =>
          rw [hasWildcard, hwild] at hclosed
          cases hclosed
      | named => rfl
  | .tuple elements, hclosed, hinst => by
      cases hinst with
      | tuple helements =>
          rw [normalize, eq_normalizeAll_of_areInstances elements hclosed helements]
  | .func params effects result, hclosed, hinst => by
      simp only [hasWildcard, Bool.or_eq_false_iff] at hclosed
      obtain ⟨⟨hparams, heffects⟩, hresult⟩ := hclosed
      cases hinst with
      | func hparams' heffects' hresult' =>
          rw [normalize, eq_normalizeAll_of_areInstances params hparams hparams',
            eq_normalizeAll_of_areInstances effects heffects heffects',
            eq_normalize_of_isInstance result hresult hresult']
  | .app head args, hclosed, hinst => by
      simp only [hasWildcard, Bool.or_eq_false_iff] at hclosed
      cases hinst with
      | app hhead hargs =>
          rw [normalize, eq_normalize_of_isInstance head hclosed.1 hhead,
            eq_normalizeAll_of_areInstances args hclosed.2 hargs]
  | .ref target, hclosed, hinst => eq_normalize_of_isInstance target hclosed hinst
  | .alias _ target, hclosed, hinst => eq_normalize_of_isInstance target hclosed hinst
  | .unit, _, hinst => by
      cases hinst
      rfl

theorem eq_normalizeAll_of_areInstances {cs : List Ty} :
    (ts : List Ty) → anyWildcard ts = false → AreInstances (normalizeAll ts) cs →
      cs = normalizeAll ts
  | [], _, hinst => by
      cases hinst
      rfl
  | t :: rest, hclosed, hinst => by
      simp only [anyWildcard, Bool.or_eq_false_iff] at hclosed
      cases hinst with
      | cons ht hrest =>
          rw [normalizeAll, eq_normalize_of_isInstance t hclosed.1 ht,
            eq_normalizeAll_of_areInstances rest hclosed.2 hrest]

end

theorem equal_iff_normalize_eq {a b : Ty} (ha : a.hasWildcard = false)
    (hb : b.hasWildcard = false) : a.equal b = true ↔ a.normalize = b.normalize := by
  rw [equal_iff_overlaps]
  constructor
  · rintro ⟨c, hleft, hright⟩
    rw [← eq_normalize_of_isInstance a ha hleft, ← eq_normalize_of_isInstance b hb hright]
  · intro heq
    refine ⟨a.normalize, isInstance_normalize a, ?_⟩
    rw [heq]
    exact isInstance_normalize b

/-- Two types are equal exactly if their normal forms have an instance in common.  Hence equality is
reflexive and symmetric, it looks at normal forms only, and without wildcards it is equality of
normal forms. -/
theorem equal_means_common_instance :
    (∀ a b : Ty, a.equal b = true ↔
      ∃ c, IsInstance a.normalize c ∧ IsInstance b.normalize c) ∧
    (∀ a : Ty, a.equal a = true) ∧
    (∀ a b : Ty, a.equal b = b.equal a) ∧
    (∀ a b : Ty, a.normalize.equal b = a.equal b ∧ a.equal b.normalize = a.equal b) ∧
    (∀ a b : Ty, a.hasWildcard = false → b.hasWildcard = false →
      (a.equal b = true ↔ a.normalize = b.normalize)) := by
  refine ⟨equal_iff_overlaps, equal_self, equal_comm, ?_, ?_⟩
  · intro a b
    exact ⟨equal_normalize_left a b, equal_normalize_right a b⟩
  · intro a b ha hb
    exact equal_iff_normalize_eq ha hb

/-- A function on lists of references and its second name are equal, as their normal forms are. -/
theorem equal_alias_of_function :
    (func [listOf (.ref int)] [] .unit).hasWildcard = false ∧
    (Ty.alias (.named "Sink") (func [listOf int] [] .unit)).hasWildcard = false ∧
    (func [listOf (.ref int)] [] .unit).equal
      (.alias (.named "Sink") (func [listOf int] [] .unit)) = true := by
  have hleft : (func [listOf (.ref int)] [] .unit).hasWildcard = false := by decide
  have hright : (Ty.alias (.named "Sink") (func [listOf int] [] .unit)).hasWildcard = false := by
    decide
  exact ⟨hleft, hright, (equal_means_common_instance.2.2.2.2 _ _ hleft hright).mpr rfl⟩

end Ty
end ScriptCore
