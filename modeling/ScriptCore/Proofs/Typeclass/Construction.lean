import Mathlib.Data.Finset.Basic
import ScriptCore.Proofs.Typeclass.Defaults
import ScriptCore.Proofs.Typeclass.Implementation

/-!
# What a list of methods declares

A class is made from its methods one after another, and a method takes the
place of an earlier one of its name.  So a name stands where it occurred first,
with the method that occurred last.  Whoever keeps the declared names and the
names without a default in sets beside the methods gets the same answers.
-/

namespace ScriptCore
namespace Typeclass

variable {m other : Method} {methods acc : List Method} {name method : String}

/-!
## Putting in one method
-/

theorem ofMethods_append (name : String) (methods : List Method) (m : Method) :
    (ofMethods name (methods ++ [m])).methods = putMethod m (ofMethods name methods).methods := by
  simp [ofMethods]

theorem names_putMethod (m : Method) (methods : List Method) :
    (putMethod m methods).map (·.name) =
      if m.name ∈ methods.map (·.name) then methods.map (·.name)
      else methods.map (·.name) ++ [m.name] := by
  induction methods with
  | nil => rfl
  | cons other rest ih =>
      rw [putMethod]
      by_cases hother : m.name = other.name
      · simp [hother]
      · rw [if_neg fun h => hother (beq_iff_eq.mp h), List.map_cons, ih]
        by_cases hrest : m.name ∈ rest.map (·.name)
        · simp [hrest]
        · rw [if_neg hrest, if_neg]
          · rfl
          · simpa [hother] using hrest

theorem mem_putMethod_iff (hnodup : (methods.map (·.name)).Nodup) :
    other ∈ putMethod m methods ↔ other = m ∨ other ∈ methods ∧ other.name ≠ m.name := by
  induction methods with
  | nil => simp [putMethod]
  | cons first rest ih =>
      rw [List.map_cons, List.nodup_cons] at hnodup
      rw [putMethod]
      by_cases hfirst : m.name = first.name
      · rw [if_pos (beq_iff_eq.mpr hfirst), List.mem_cons, List.mem_cons]
        have hrest : other ∈ rest → other.name ≠ m.name := by
          intro hmem hname
          exact hnodup.1 (List.mem_map.mpr ⟨other, hmem, hname.trans hfirst⟩)
        constructor
        · rintro (rfl | hmem)
          · exact Or.inl rfl
          · exact Or.inr ⟨Or.inr hmem, hrest hmem⟩
        · rintro (rfl | ⟨rfl | hmem, hname⟩)
          · exact Or.inl rfl
          · exact absurd hfirst.symm hname
          · exact Or.inr hmem
      · rw [if_neg fun h => hfirst (beq_iff_eq.mp h), List.mem_cons, List.mem_cons, ih hnodup.2]
        constructor
        · rintro (rfl | rfl | ⟨hmem, hname⟩)
          · exact Or.inr ⟨Or.inl rfl, fun heq => hfirst heq.symm⟩
          · exact Or.inl rfl
          · exact Or.inr ⟨Or.inr hmem, hname⟩
        · rintro (rfl | ⟨rfl | hmem, hname⟩)
          · exact Or.inr (Or.inl rfl)
          · exact Or.inl rfl
          · exact Or.inr (Or.inr ⟨hmem, hname⟩)

/-!
## The whole list
-/

def IsLast (m : Method) (methods : List Method) : Prop :=
  ∃ before after, methods = before ++ m :: after ∧ ∀ other ∈ after, other.name ≠ m.name

theorem isLast_append_iff :
    IsLast other (methods ++ [m]) ↔ other = m ∨ IsLast other methods ∧ other.name ≠ m.name := by
  constructor
  · rintro ⟨before, after, heq, hafter⟩
    rcases List.eq_nil_or_concat after with rfl | ⟨front, last, rfl⟩
    · exact Or.inl (List.append_inj_right' heq.symm rfl |> List.singleton_inj.mp)
    · rw [List.concat_eq_append, ← List.cons_append, ← List.append_assoc] at heq
      rcases List.append_inj' heq rfl with ⟨hfront, hlast⟩
      cases hlast
      refine Or.inr ⟨⟨before, front, hfront, ?_⟩, ?_⟩
      · intro x hx
        exact hafter x (by simp [hx])
      · exact fun hname => hafter m (by simp) hname.symm
  · rintro (rfl | ⟨⟨before, after, rfl, hafter⟩, hname⟩)
    · exact ⟨methods, [], rfl, nofun⟩
    · refine ⟨before, after ++ [m], by simp, ?_⟩
      intro x hx
      rcases List.mem_append.mp hx with hx | hx
      · exact hafter x hx
      · rw [List.mem_singleton.mp hx]
        exact fun heq => hname heq.symm

theorem mem_ofMethods_iff (name : String) :
    other ∈ (ofMethods name methods).methods ↔ IsLast other methods := by
  induction methods using List.reverseRecOn with
  | nil =>
      constructor
      · exact fun hmem => absurd hmem List.not_mem_nil
      · rintro ⟨before, after, heq, _⟩
        simp at heq
  | append_singleton methods m ih =>
      rw [ofMethods_append, mem_putMethod_iff (nodup_ofMethods name methods), ih,
        isLast_append_iff]

theorem mem_names_ofMethods_iff :
    method ∈ (ofMethods name methods).methods.map (·.name) ↔ method ∈ methods.map (·.name) := by
  induction methods using List.reverseRecOn with
  | nil => exact Iff.rfl
  | append_singleton methods m ih =>
      rw [ofMethods_append, mem_names_putMethod, ih, List.map_append, List.mem_append, or_comm]
      simp

theorem names_in_order (name : String) (methods : List Method) :
    ((ofMethods name methods).methods.map (·.name)).Pairwise fun a b =>
      (methods.map (·.name)).idxOf a < (methods.map (·.name)).idxOf b := by
  induction methods using List.reverseRecOn with
  | nil => exact List.Pairwise.nil
  | append_singleton methods m ih =>
      -- a name that has occurred before keeps its first position
      have hold : ∀ a ∈ (ofMethods name methods).methods.map (·.name),
          ((methods ++ [m]).map (·.name)).idxOf a = (methods.map (·.name)).idxOf a := by
        intro a ha
        rw [List.map_append, List.idxOf_append_of_mem (mem_names_ofMethods_iff.mp ha)]
      have hpairs : ((ofMethods name methods).methods.map (·.name)).Pairwise fun a b =>
          ((methods ++ [m]).map (·.name)).idxOf a < ((methods ++ [m]).map (·.name)).idxOf b := by
        refine List.Pairwise.imp_of_mem ?_ ih
        intro a b ha hb hlt
        rw [hold a ha, hold b hb]
        exact hlt
      rw [ofMethods_append, names_putMethod]
      by_cases hdeclared : m.name ∈ (ofMethods name methods).methods.map (·.name)
      · rw [if_pos hdeclared]
        exact hpairs
      · rw [if_neg hdeclared]
        refine List.pairwise_append.mpr ⟨hpairs, List.pairwise_singleton _ _, ?_⟩
        intro a ha b hb
        have hnew : m.name ∉ methods.map (·.name) :=
          fun hmem => hdeclared (mem_names_ofMethods_iff.mpr hmem)
        rw [hold a ha, List.mem_singleton.mp hb, List.map_append,
          List.idxOf_append_of_notMem hnew]
        exact Nat.lt_of_lt_of_le (List.idxOf_lt_length_of_mem (mem_names_ofMethods_iff.mp ha))
          (Nat.le_add_right _ _)

theorem method?_eq_some_iff :
    (ofMethods name methods).method? method = some m ↔ IsLast m methods ∧ m.name = method := by
  rw [← mem_ofMethods_iff name]
  constructor
  · intro hfind
    exact ⟨List.mem_of_find?_eq_some hfind, by simpa using List.find?_some hfind⟩
  · rintro ⟨hmem, rfl⟩
    have hsome : ((ofMethods name methods).method? m.name).isSome = true :=
      declares_iff.mpr (List.mem_map_of_mem hmem)
    rcases Option.isSome_iff_exists.mp hsome with ⟨found, hfound⟩
    have hname : found.name = m.name := by simpa using List.find?_some hfound
    rw [hfound, List.inj_on_of_nodup_map (nodup_ofMethods name methods)
      (List.mem_of_find?_eq_some hfound) hmem hname]

theorem mem_required_ofMethods_iff :
    method ∈ (ofMethods name methods).required ↔
      ∃ m, IsLast m methods ∧ m.name = method ∧ m.hasDefault = false := by
  rw [World.mem_required_iff]
  constructor
  · rintro ⟨m, hmem, hdefault, hname⟩
    exact ⟨m, (mem_ofMethods_iff name).mp hmem, hname, hdefault⟩
  · rintro ⟨m, hlast, hname, hdefault⟩
    exact ⟨m, (mem_ofMethods_iff name).mpr hlast, hdefault, hname⟩

end Typeclass

/-!
## Sets beside the methods
-/

/-- A class that is drawn up method by method.  Two sets of names are kept beside the methods: the
declared names, and those of methods without a default. -/
structure Draft where
  methods : List Method := []
  declared : Finset String := ∅
  abstract : Finset String := ∅

namespace Draft

variable {d : Draft}

def enter (d : Draft) (m : Method) : Draft where
  methods :=
    if m.name ∈ d.declared then d.methods.map fun other => if other.name = m.name then m else other
    else d.methods ++ [m]
  declared := insert m.name d.declared
  abstract := if m.hasDefault then d.abstract.erase m.name else insert m.name d.abstract

def ofMethods (methods : List Method) : Draft :=
  methods.foldl enter {}

def required (d : Draft) : List String :=
  (d.methods.map (·.name)).filter fun name => name ∈ d.abstract

structure Agrees (d : Draft) : Prop where
  nodup : (d.methods.map (·.name)).Nodup
  declared : ∀ name, name ∈ d.declared ↔ name ∈ d.methods.map (·.name)
  abstract : ∀ m ∈ d.methods, m.name ∈ d.abstract ↔ m.hasDefault = false

theorem map_replace_eq_putMethod {m : Method} {methods : List Method}
    (hnodup : (methods.map (·.name)).Nodup) (hmem : m.name ∈ methods.map (·.name)) :
    (methods.map fun other => if other.name = m.name then m else other) =
      Typeclass.putMethod m methods := by
  induction methods with
  | nil => cases hmem
  | cons first rest ih =>
      rw [List.map_cons, List.nodup_cons] at hnodup
      rw [List.map_cons, Typeclass.putMethod]
      by_cases hfirst : first.name = m.name
      · have hrest : (rest.map fun other => if other.name = m.name then m else other) = rest := by
          refine (List.map_congr_left fun other hother => if_neg fun heq => ?_).trans
            (List.map_id' rest)
          exact hnodup.1 (List.mem_map.mpr ⟨other, hother, heq.trans hfirst.symm⟩)
        rw [if_pos hfirst, if_pos (beq_iff_eq.mpr hfirst.symm), hrest]
      · have hmem' : m.name ∈ rest.map (·.name) := by
          rcases List.mem_cons.mp hmem with heq | hmem
          · exact absurd heq.symm hfirst
          · exact hmem
        rw [if_neg hfirst, if_neg fun h => hfirst (beq_iff_eq.mp h).symm, ih hnodup.2 hmem']

theorem putMethod_new {m : Method} {methods : List Method}
    (hnew : m.name ∉ methods.map (·.name)) :
    Typeclass.putMethod m methods = methods ++ [m] := by
  induction methods with
  | nil => rfl
  | cons first rest ih =>
      rw [List.map_cons, List.mem_cons, not_or] at hnew
      rw [Typeclass.putMethod, if_neg fun h => hnew.1 (beq_iff_eq.mp h), ih hnew.2]
      rfl

theorem Agrees.methods_enter (hagrees : d.Agrees) (m : Method) :
    (d.enter m).methods = Typeclass.putMethod m d.methods := by
  unfold enter
  by_cases hdeclared : m.name ∈ d.declared
  · have hmem := (hagrees.declared m.name).mp hdeclared
    simp only [if_pos hdeclared]
    exact map_replace_eq_putMethod hagrees.nodup hmem
  · have hnew : m.name ∉ d.methods.map (·.name) :=
      fun hmem => hdeclared ((hagrees.declared m.name).mpr hmem)
    simp only [if_neg hdeclared]
    exact (putMethod_new hnew).symm

theorem Agrees.enter (hagrees : d.Agrees) (m : Method) : (d.enter m).Agrees where
  nodup := by
    rw [hagrees.methods_enter]
    exact Typeclass.nodup_putMethod hagrees.nodup
  declared name := by
    rw [hagrees.methods_enter, Typeclass.mem_names_putMethod, ← hagrees.declared name]
    exact Finset.mem_insert
  abstract other hmem := by
    rw [hagrees.methods_enter, Typeclass.mem_putMethod_iff hagrees.nodup] at hmem
    rcases hmem with rfl | ⟨hmem, hname⟩
    · cases hdefault : other.hasDefault <;> simp [Draft.enter, hdefault]
    · rw [← hagrees.abstract other hmem]
      cases hdefault : m.hasDefault <;> simp [Draft.enter, hdefault, hname]

theorem agrees_ofMethods (name : String) (methods : List Method) :
    (ofMethods methods).Agrees ∧
      (ofMethods methods).methods = (Typeclass.ofMethods name methods).methods := by
  induction methods using List.reverseRecOn with
  | nil =>
      refine ⟨⟨List.nodup_nil, fun name => ?_, fun m hmem => nomatch hmem⟩, rfl⟩
      simp [ofMethods]
  | append_singleton methods m ih =>
      have hentered : ofMethods (methods ++ [m]) = (ofMethods methods).enter m := by
        simp [ofMethods]
      rw [hentered, Typeclass.ofMethods_append, ih.1.methods_enter, ih.2]
      exact ⟨ih.1.enter m, rfl⟩

theorem Agrees.required (hagrees : d.Agrees) (name : String) :
    d.required = ({ name, methods := d.methods } : Typeclass).required := by
  unfold Draft.required Typeclass.required
  rw [List.filter_map]
  congr 1
  refine List.filter_congr ?_
  intro m hmem
  have hiff := hagrees.abstract m hmem
  cases hdefault : m.hasDefault <;> simp_all

end Draft

/-!
## Answers
-/

namespace Typeclass

variable {methods : List Method} {name method : String}

/-- The class answers by the last method of each name in the list. -/
structure AnswersBy (c : Typeclass) (methods : List Method) : Prop where
  distinct : (c.methods.map (·.name)).Nodup
  /-- Names stand in the order in which they occur first. -/
  ordered : (c.methods.map (·.name)).Pairwise fun a b =>
    (methods.map (·.name)).idxOf a < (methods.map (·.name)).idxOf b
  /-- Each name has the method that occurs last, with its signature and its default. -/
  last : ∀ m, m ∈ c.methods ↔ IsLast m methods
  declares : ∀ method, c.declares method = true ↔ ∃ m ∈ methods, m.name = method
  signature : ∀ method signature, c.signature? method = some signature ↔
    ∃ m, IsLast m methods ∧ m.name = method ∧ m.signature = signature
  /-- The required names are a part of the names, in the same order. -/
  sublist : c.required.Sublist (c.methods.map (·.name))
  required : ∀ method, method ∈ c.required ↔
    ∃ m, IsLast m methods ∧ m.name = method ∧ m.hasDefault = false
  /-- Nothing is missing and nothing is undeclared exactly if all required names are implemented,
  and all implemented names are declared. -/
  implemented : ∀ names, c.missing names = [] ∧ c.undeclared names = [] ↔
    c.required ⊆ names ∧ names ⊆ methods.map (·.name)

theorem declares_ofMethods_iff :
    (ofMethods name methods).declares method = true ↔ method ∈ methods.map (·.name) :=
  declares_iff.trans mem_names_ofMethods_iff

theorem signature?_ofMethods_iff {signature : Ty} :
    (ofMethods name methods).signature? method = some signature ↔
      ∃ m, IsLast m methods ∧ m.name = method ∧ m.signature = signature := by
  unfold signature?
  simp only [Option.map_eq_some_iff, method?_eq_some_iff, and_assoc]

/-- A class made from a list of methods answers by the last method of each name, however often the
names are repeated.  The sets that are kept beside the methods in a draft tell the same. -/
theorem last_declaration_wins (name : String) (methods : List Method) :
    (ofMethods name methods).name = name ∧ (ofMethods name methods).AnswersBy methods ∧
    (Draft.ofMethods methods).methods = (ofMethods name methods).methods ∧
    (∀ method, method ∈ (Draft.ofMethods methods).declared ↔
      (ofMethods name methods).declares method = true) ∧
    (Draft.ofMethods methods).required = (ofMethods name methods).required := by
  rcases Draft.agrees_ofMethods name methods with ⟨hagrees, hmethods⟩
  refine ⟨rfl, ?_, hmethods, ?_, ?_⟩
  · exact
      { distinct := nodup_ofMethods name methods
        ordered := names_in_order name methods
        last := fun m => mem_ofMethods_iff name
        declares := fun method => by rw [declares_ofMethods_iff, List.mem_map]
        signature := fun method signature => signature?_ofMethods_iff
        sublist := List.filter_sublist.map _
        required := fun method => mem_required_ofMethods_iff
        implemented := fun names => by
          rw [missing_eq_nil_iff, undeclared_eq_nil_iff]
          simp only [declares_ofMethods_iff]
          rfl }
  · intro method
    rw [hagrees.declared, hmethods, declares_iff]
  · rw [hagrees.required name, hmethods]
    rfl

/-- A method that gets a default and loses it again is required, in its first place. -/
example :
    (ofMethods "Show"
      [⟨"show", .any, false⟩, ⟨"hide", .any, false⟩, ⟨"show", .any, true⟩,
        ⟨"show", .int, false⟩]).required = ["show", "hide"] := rfl

end Typeclass
end ScriptCore
