import Mathlib.Data.List.Nodup
import ScriptCore.Proofs.NameMap
import ScriptCore.Typeclass.Basic

/-!
# The registry and the history of definitions

A registry is made by definitions, one after another.  A definition is in
force until its class is defined again, and the registered classes are those
in force.  The owner of a method is kept beside them: it is the class of the
last definition that declared the method, as long as that definition is in
force.  When it is not, the method has no owner, even if an older definition
that declares it is still in force.
-/

namespace ScriptCore

/-!
## Methods of a class
-/

namespace Typeclass

variable {c : Typeclass} {method : String}

theorem declares_iff : c.declares method = true ↔ method ∈ c.methods.map (·.name) := by
  unfold declares method?
  rw [List.find?_isSome, List.mem_map]
  constructor
  · rintro ⟨m, hm, hname⟩
    exact ⟨m, hm, by simpa using hname⟩
  · rintro ⟨m, hm, hname⟩
    exact ⟨m, hm, by simpa using hname⟩

end Typeclass

namespace Registry

variable {r : Registry} {c d : Typeclass} {past later earlier : List Typeclass}
  {method name : String}

/-!
## Definitions in force
-/

def ofPast (past : List Typeclass) : Registry :=
  past.foldr (fun c r => r.define c) {}

def inForce : List Typeclass → List Typeclass
  | [] => []
  | c :: past => c :: (inForce past).filter fun d => d.name != c.name

theorem ofPast_cons (c : Typeclass) (past : List Typeclass) :
    ofPast (c :: past) = (ofPast past).define c := rfl

theorem get?_define (r : Registry) (c : Typeclass) (name : String) :
    (r.define c).get? name = if name = c.name then some c else r.get? name :=
  NameMap.get?_insert r.classes c.name name c

theorem get?_ofPast (past : List Typeclass) (name : String) :
    (ofPast past).get? name = (inForce past).find? fun c => c.name == name := by
  induction past with
  | nil => rfl
  | cons c past ih =>
      rw [ofPast_cons, get?_define, ih, inForce, List.find?_cons]
      by_cases hname : name = c.name
      · simp [hname]
      · have hne : (c.name == name) = false := by simpa using fun h => hname h.symm
        rw [if_neg hname, hne, List.find?_filter]
        congr 1
        funext d
        by_cases hd : d.name = name
        · simp [hd, hname]
        · simp [hd]

theorem inForce_append (later earlier : List Typeclass) :
    inForce (later ++ earlier) =
      inForce later ++ (inForce earlier).filter fun d => later.all fun e => d.name != e.name := by
  induction later with
  | nil => exact (List.filter_eq_self.mpr fun _ _ => rfl).symm
  | cons c later ih =>
      rw [List.cons_append, inForce, inForce, ih, List.filter_append, List.filter_filter]
      rfl

theorem mem_of_inForce (hc : c ∈ inForce past) : c ∈ past := by
  induction past with
  | nil => cases hc
  | cons d past ih =>
      rcases List.mem_cons.mp hc with rfl | hrest
      · exact List.mem_cons_self
      · exact List.mem_cons_of_mem d (ih (List.mem_filter.mp hrest).1)

theorem mem_inForce_iff :
    c ∈ inForce past ↔
      ∃ later earlier, past = later ++ c :: earlier ∧ ∀ d ∈ later, d.name ≠ c.name := by
  constructor
  · intro hc
    induction past with
    | nil => cases hc
    | cons d past ih =>
        rcases List.mem_cons.mp hc with rfl | hrest
        · exact ⟨[], past, rfl, nofun⟩
        · rcases List.mem_filter.mp hrest with ⟨hmem, hname⟩
          rcases ih hmem with ⟨later, earlier, rfl, hlater⟩
          refine ⟨d :: later, earlier, rfl, ?_⟩
          intro e he
          rcases List.mem_cons.mp he with rfl | he
          · exact fun heq => bne_iff_ne.mp hname heq.symm
          · exact hlater e he
  · rintro ⟨later, earlier, rfl, hlater⟩
    rw [inForce_append, List.mem_append, List.mem_filter]
    refine Or.inr ⟨List.mem_cons_self, ?_⟩
    rw [List.all_eq_true]
    intro d hd
    exact bne_iff_ne.mpr fun heq => hlater d hd heq.symm

theorem nodup_inForce (past : List Typeclass) : ((inForce past).map (·.name)).Nodup := by
  induction past with
  | nil => exact List.nodup_nil
  | cons c past ih =>
      rw [inForce, List.map_cons, List.nodup_cons]
      constructor
      · intro hmem
        rcases List.mem_map.mp hmem with ⟨d, hd, hname⟩
        have hne := (List.mem_filter.mp hd).2
        simp [hname] at hne
      · exact ih.sublist (List.filter_sublist.map _)

theorem get?_ofPast_iff :
    (ofPast past).get? name = some c ↔ c ∈ inForce past ∧ c.name = name := by
  rw [get?_ofPast]
  constructor
  · intro hfind
    exact ⟨List.mem_of_find?_eq_some hfind, by simpa using List.find?_some hfind⟩
  · rintro ⟨hc, rfl⟩
    cases hfind : (inForce past).find? fun d => d.name == c.name with
    | none =>
        have hnone := List.find?_eq_none.mp hfind c hc
        simp at hnone
    | some d =>
        have hname : d.name = c.name := by simpa using List.find?_some hfind
        rw [List.inj_on_of_nodup_map (nodup_inForce past)
          (List.mem_of_find?_eq_some hfind) hc hname]

/-!
## Owners
-/

theorem get?_disown (name : String) (methods : List Method) (owners : NameMap String)
    (method : String) :
    (disown name methods owners).get? method =
      if method ∈ methods.map (·.name) ∧ owners.get? method = some name then none
      else owners.get? method := by
  induction methods generalizing owners with
  | nil => simp [disown]
  | cons m rest ih =>
      have hcons : disown name (m :: rest) owners =
          disown name rest
            (if owners.get? m.name == some name then owners.erase m.name else owners) := rfl
      rw [hcons, ih]
      by_cases hown : owners.get? m.name = some name
      · rw [if_pos (beq_iff_eq.mpr hown), NameMap.get?_erase]
        by_cases hm : method = m.name
        · subst hm
          simp [hown]
        · simp [hm]
      · rw [if_neg fun h => hown (beq_iff_eq.mp h)]
        by_cases hm : method = m.name
        · subst hm
          simp [hown]
        · simp [hm]

theorem get?_own (name : String) (methods : List Method) (owners : NameMap String)
    (method : String) :
    (methods.foldl (fun acc m => acc.insert m.name name) owners).get? method =
      if method ∈ methods.map (·.name) then some name else owners.get? method := by
  induction methods generalizing owners with
  | nil => simp
  | cons m rest ih =>
      rw [List.foldl_cons, ih, NameMap.get?_insert]
      by_cases hm : method = m.name
      · simp [hm]
      · simp [hm]

def Owned (r : Registry) : Prop :=
  ∀ method name, r.owner? method = some name →
    ∃ c, r.get? name = some c ∧ c.declares method = true

/-- A definition takes over the methods that it declares and gives up those that its class owned
before. -/
theorem Owned.owner?_define (howned : r.Owned) (c : Typeclass) (method : String) :
    (r.define c).owner? method =
      if c.declares method = true then some c.name
      else if r.owner? method = some c.name then none else r.owner? method := by
  unfold owner? Registry.define
  rw [get?_own]
  by_cases hdeclares : c.declares method = true
  · rw [if_pos (Typeclass.declares_iff.mp hdeclares), if_pos hdeclares]
  · rw [if_neg (mt Typeclass.declares_iff.mpr hdeclares), if_neg hdeclares]
    -- An owner is registered, so a method that is to be given up is among the old ones.
    have hold : r.owners.get? method = some c.name →
        ∃ old, r.classes.get? c.name = some old ∧ method ∈ old.methods.map (·.name) := by
      intro howner
      rcases howned method c.name howner with ⟨old, hclass, hmethod⟩
      exact ⟨old, hclass, Typeclass.declares_iff.mp hmethod⟩
    by_cases howner : r.owners.get? method = some c.name
    · rcases hold howner with ⟨old, hclass, hmethod⟩
      rw [hclass, if_pos howner]
      exact (get?_disown _ _ _ _).trans (if_pos ⟨hmethod, howner⟩)
    · rw [if_neg howner]
      cases r.classes.get? c.name with
      | none => rfl
      | some old => exact (get?_disown _ _ _ _).trans (if_neg fun h => howner h.2)

theorem Owned.define (howned : r.Owned) (c : Typeclass) : (r.define c).Owned := by
  intro method name howner
  rw [howned.owner?_define] at howner
  rw [get?_define]
  by_cases hdeclares : c.declares method = true
  · rw [if_pos hdeclares] at howner
    cases howner
    exact ⟨c, if_pos rfl, hdeclares⟩
  · rw [if_neg hdeclares] at howner
    by_cases hsame : r.owner? method = some c.name
    · rw [if_pos hsame] at howner
      cases howner
    · rw [if_neg hsame] at howner
      have hne : name ≠ c.name := by
        rintro rfl
        exact hsame howner
      rw [if_neg hne]
      exact howned method name howner

theorem owned_ofPast (past : List Typeclass) : (ofPast past).Owned := by
  induction past with
  | nil =>
      intro method name howner
      cases howner
  | cons c past ih => exact ih.define c

theorem owner?_undeclared (hpast : ∀ d ∈ past, d.declares method = false) :
    (ofPast past).owner? method = none := by
  cases howner : (ofPast past).owner? method with
  | none => rfl
  | some name =>
      rcases owned_ofPast past method name howner with ⟨c, hc, hdeclares⟩
      have hmem := mem_of_inForce (get?_ofPast_iff.mp hc).1
      rw [hpast c hmem] at hdeclares
      cases hdeclares

/-- The class of the last definition that declares a method owns it until it is defined again. -/
theorem owner?_split (hc : c.declares method = true)
    (hlater : ∀ d ∈ later, d.declares method = false) :
    (ofPast (later ++ c :: earlier)).owner? method =
      if ∃ d ∈ later, d.name = c.name then none else some c.name := by
  induction later with
  | nil =>
      rw [List.nil_append, ofPast_cons, (owned_ofPast earlier).owner?_define, if_pos hc]
      simp
  | cons e later ih =>
      have he : ¬ e.declares method = true := by
        rw [hlater e List.mem_cons_self]
        exact Bool.false_ne_true
      have hrest := ih fun d hd => hlater d (List.mem_cons_of_mem e hd)
      rw [List.cons_append, ofPast_cons, (owned_ofPast _).owner?_define, if_neg he, hrest]
      by_cases hagain : ∃ d ∈ later, d.name = c.name
      · have hmore : ∃ d ∈ e :: later, d.name = c.name := by
          rcases hagain with ⟨d, hd, hname⟩
          exact ⟨d, List.mem_cons_of_mem e hd, hname⟩
        rw [if_pos hagain, if_pos hmore]
        exact ite_self none
      · rw [if_neg hagain]
        by_cases hname : e.name = c.name
        · rw [hname, if_pos rfl, if_pos ⟨e, List.mem_cons_self, hname⟩]
        · have hnone : ¬ ∃ d ∈ e :: later, d.name = c.name := by
            rintro ⟨d, hd, hdname⟩
            rcases List.mem_cons.mp hd with rfl | hd
            · exact hname hdname
            · exact hagain ⟨d, hd, hdname⟩
          rw [if_neg hnone, if_neg]
          intro h
          exact hname (Option.some.inj h).symm

/-!
## Who should own a method
-/

def claimant? (past : List Typeclass) (method : String) : Option Typeclass :=
  (inForce past).find? fun c => c.declares method

/-- A class in force declares the method, but the last class that declared it has been defined again
without it. -/
def Forgotten (past : List Typeclass) (method : String) : Prop :=
  (∃ d ∈ inForce past, d.declares method = true) ∧
    ∃ later c earlier, past = later ++ c :: earlier ∧ c.declares method = true ∧
      (∀ d ∈ later, d.declares method = false) ∧ ∃ d ∈ later, d.name = c.name

theorem claimant?_eq_none_iff :
    claimant? past method = none ↔ ∀ d ∈ inForce past, d.declares method = false := by
  unfold claimant?
  simp [List.find?_eq_none]

theorem claimant?_split (hc : c.declares method = true)
    (hlater : ∀ d ∈ later, d.declares method = false) (hname : ¬ ∃ d ∈ later, d.name = c.name) :
    claimant? (later ++ c :: earlier) method = some c := by
  have hnone : (inForce later).find? (fun d => d.declares method) = none :=
    claimant?_eq_none_iff.mpr fun d hd => hlater d (mem_of_inForce hd)
  have hkept : (later.all fun e => c.name != e.name) = true := by
    rw [List.all_eq_true]
    intro e he
    rw [bne_iff_ne]
    intro heq
    exact hname ⟨e, he, heq.symm⟩
  unfold claimant?
  rw [inForce_append, List.find?_append, hnone, Option.none_or, inForce, List.filter_cons,
    if_pos hkept, List.find?_cons, hc]

theorem declared_or_split (past : List Typeclass) (method : String) :
    (∀ d ∈ past, d.declares method = false) ∨
      ∃ later c earlier, past = later ++ c :: earlier ∧ c.declares method = true ∧
        ∀ d ∈ later, d.declares method = false := by
  cases hfind : past.find? fun d => d.declares method with
  | none =>
      left
      intro d hd
      simpa using List.find?_eq_none.mp hfind d hd
  | some c =>
      right
      rcases List.find?_eq_some_iff_append.mp hfind with ⟨hc, later, earlier, hpast, hlater⟩
      refine ⟨later, c, earlier, hpast, hc, ?_⟩
      intro d hd
      simpa using hlater d hd

theorem Forgotten.owner?_eq_none (hforgotten : Forgotten past method) :
    (ofPast past).owner? method = none := by
  rcases hforgotten with ⟨_, later, c, earlier, rfl, hc, hlater, hagain⟩
  rw [owner?_split hc hlater, if_pos hagain]

theorem Forgotten.claimant?_ne_none (hforgotten : Forgotten past method) :
    claimant? past method ≠ none := by
  rcases hforgotten.1 with ⟨d, hd, hdeclares⟩
  intro hnone
  rw [claimant?_eq_none_iff.mp hnone d hd] at hdeclares
  cases hdeclares

theorem owner?_of_not_forgotten (hkept : ¬ Forgotten past method) :
    (ofPast past).owner? method = (claimant? past method).map (·.name) := by
  rcases declared_or_split past method with hnone | ⟨later, c, earlier, rfl, hc, hlater⟩
  · have hclaimant : claimant? past method = none :=
      claimant?_eq_none_iff.mpr fun d hd => hnone d (mem_of_inForce hd)
    rw [owner?_undeclared hnone, hclaimant]
    rfl
  · by_cases hagain : ∃ d ∈ later, d.name = c.name
    · have hclaimant : claimant? (later ++ c :: earlier) method = none := by
        rw [claimant?_eq_none_iff]
        intro d hd
        rw [← Bool.not_eq_true]
        intro hdeclares
        exact hkept ⟨⟨d, hd, hdeclares⟩, later, c, earlier, rfl, hc, hlater, hagain⟩
      rw [owner?_split hc hlater, if_pos hagain, hclaimant]
      rfl
    · rw [owner?_split hc hlater, if_neg hagain, claimant?_split hc hlater hagain]
      rfl

/-- The registered classes are those in force.  An owner is always the latest class in force that
declares the method.  Conversely, the latest class in force that declares a method owns it, unless
the method has been forgotten. -/
theorem owner_is_latest_unless_forgotten (past : List Typeclass) (method : String) :
    (∀ name c, (ofPast past).get? name = some c ↔ c ∈ inForce past ∧ c.name = name) ∧
    (∀ name, (ofPast past).owner? method = some name →
      (claimant? past method).map (·.name) = some name) ∧
    ((ofPast past).owner? method = (claimant? past method).map (·.name) ↔
      ¬ Forgotten past method) := by
  refine ⟨fun name c => get?_ofPast_iff, ?_, ?_, owner?_of_not_forgotten⟩
  · intro name howner
    rw [← owner?_of_not_forgotten, howner]
    intro hforgotten
    rw [hforgotten.owner?_eq_none] at howner
    cases howner
  · intro hsame hforgotten
    rw [hforgotten.owner?_eq_none, eq_comm, Option.map_eq_none_iff] at hsame
    exact hforgotten.claimant?_ne_none hsame

/-!
## A forgotten method

Two classes declare a method, and then the second one is defined again without
it.  The first one declares it all the time.
-/

def showable : Typeclass :=
  .ofMethods "Show" [{ name := "show", signature := .any, hasDefault := false }]

def printable : Typeclass :=
  .ofMethods "Print" [{ name := "show", signature := .any, hasDefault := false }]

def withdrawal : List Typeclass :=
  [.ofMethods "Print" [], printable, showable]

theorem owner_lost_by_redefinition :
    (ofPast withdrawal).get? "Show" = some showable ∧ showable.declares "show" = true ∧
      (claimant? withdrawal "show").map (·.name) = some "Show" ∧
      (ofPast withdrawal).owner? "show" = none := by
  refine ⟨rfl, ?_, ?_, rfl⟩ <;> decide

/-- Before the redefinition the second class owns the method, as it should. -/
theorem owner_before_redefinition :
    (ofPast [printable, showable]).owner? "show" = some "Print" ∧
      (claimant? [printable, showable] "show").map (·.name) = some "Print" := by
  have howner : (ofPast [printable, showable]).owner? "show" = some "Print" := rfl
  exact ⟨howner, (owner_is_latest_unless_forgotten [printable, showable] "show").2.1 _ howner⟩

end Registry
end ScriptCore
