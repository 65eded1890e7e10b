import ScriptCore.Proofs.Typeclass.Registry
import ScriptCore.Proofs.World.Guard
import ScriptCore.Proofs.World.Looking
import ScriptCore.Proofs.World.Variable
import ScriptCore.World.Dispatch

/-!
# Defaults of methods

The declaration of a class goes into two tables.  The registry keeps the whole
class in the place of an earlier one of its name, with the last of several
methods of one name.  The table of defaults gets the default of every method
that has one, and nothing is ever taken out of it.

So a default is found exactly if some declaration has ever given it.  The two
tables agree on a method as long as some default of it stands: one that its
declaration does not take back by a later method of the same name, and whose
class has not been declared again.
-/

namespace ScriptCore

/-!
## Methods of a class
-/

namespace Typeclass

variable {c : Typeclass} {m : Method} {methods acc : List Method} {method : String}

theorem find?_name_cons (m : Method) (methods : List Method) (method : String) :
    (m :: methods).find? (fun x => x.name == method) =
      if m.name = method then some m else methods.find? fun x => x.name == method := by
  by_cases hname : m.name = method
  · simp [hname]
  · simp [hname]

theorem find?_putMethod (m : Method) (methods : List Method) (method : String) :
    (putMethod m methods).find? (fun x => x.name == method) =
      if m.name = method then some m else methods.find? fun x => x.name == method := by
  induction methods with
  | nil => exact find?_name_cons m [] method
  | cons other rest ih =>
      rw [putMethod, find?_name_cons other]
      by_cases hother : m.name = other.name
      · rw [if_pos (beq_iff_eq.mpr hother), find?_name_cons, hother]
        by_cases hname : other.name = method
        · rw [if_pos hname, if_pos hname]
        · rw [if_neg hname, if_neg hname, if_neg hname]
      · rw [if_neg fun h => hother (beq_iff_eq.mp h), find?_name_cons, ih]
        by_cases hname : other.name = method
        · rw [if_pos hname, if_neg (hname ▸ hother), if_pos hname]
        · rw [if_neg hname, if_neg hname]

theorem mem_names_putMethod :
    method ∈ (putMethod m methods).map (·.name) ↔
      method = m.name ∨ method ∈ methods.map (·.name) := by
  induction methods with
  | nil => simp [putMethod]
  | cons other rest ih =>
      rw [putMethod]
      by_cases hother : m.name = other.name
      · rw [if_pos (beq_iff_eq.mpr hother)]
        simp [hother]
      · rw [if_neg fun h => hother (beq_iff_eq.mp h), List.map_cons, List.mem_cons, ih,
          List.map_cons, List.mem_cons]
        exact or_left_comm

theorem nodup_putMethod (hnodup : (methods.map (·.name)).Nodup) :
    ((putMethod m methods).map (·.name)).Nodup := by
  induction methods with
  | nil => simp [putMethod]
  | cons other rest ih =>
      rw [List.map_cons, List.nodup_cons] at hnodup
      rw [putMethod]
      by_cases hother : m.name = other.name
      · rw [if_pos (beq_iff_eq.mpr hother), List.map_cons, List.nodup_cons, hother]
        exact hnodup
      · rw [if_neg fun h => hother (beq_iff_eq.mp h), List.map_cons, List.nodup_cons,
          mem_names_putMethod]
        refine ⟨?_, ih hnodup.2⟩
        rintro (hsame | hrest)
        · exact hother hsame.symm
        · exact hnodup.1 hrest

theorem method?_ofMethods (name : String) (methods : List Method) (method : String) :
    (ofMethods name methods).method? method = methods.reverse.find? fun x => x.name == method := by
  have hfold : ∀ acc, (methods.foldl (fun acc m => putMethod m acc) acc).find?
      (fun x => x.name == method) =
        (methods.reverse.find? fun x => x.name == method).or
          (acc.find? fun x => x.name == method) := by
    induction methods with
    | nil => exact fun acc => rfl
    | cons m rest ih =>
        intro acc
        rw [List.foldl_cons, ih, List.reverse_cons, List.find?_append, Option.or_assoc,
          find?_putMethod]
        congr 1
        by_cases hname : m.name = method
        · simp [hname]
        · simp [hname]
  exact (hfold []).trans (Option.or_none)

theorem nodup_ofMethods (name : String) (methods : List Method) :
    ((ofMethods name methods).methods.map (·.name)).Nodup := by
  have hfold : ∀ acc : List Method, (acc.map (·.name)).Nodup →
      ((methods.foldl (fun acc m => putMethod m acc) acc).map (·.name)).Nodup := by
    induction methods with
    | nil => exact fun acc hacc => hacc
    | cons m rest ih => exact fun acc hacc => ih _ (nodup_putMethod hacc)
  exact hfold [] List.nodup_nil

/-- The class declares the method and does not require it. -/
def Provides (c : Typeclass) (method : String) : Prop :=
  c.declares method = true ∧ method ∉ c.required

theorem provides_iff (hnodup : (c.methods.map (·.name)).Nodup) :
    c.Provides method ↔ ∃ m, c.method? method = some m ∧ m.hasDefault = true := by
  unfold Provides declares required method?
  cases hfind : c.methods.find? fun m => m.name == method with
  | none => simp
  | some m =>
      have hmem := List.mem_of_find?_eq_some hfind
      have hname : m.name = method := by simpa using List.find?_some hfind
      constructor
      · rintro ⟨_, hrequired⟩
        refine ⟨m, rfl, ?_⟩
        rw [← Bool.not_eq_false]
        intro hdefault
        apply hrequired
        exact List.mem_map.mpr ⟨m, List.mem_filter.mpr ⟨hmem, by simp [hdefault]⟩, hname⟩
      · rintro ⟨m', hm', hdefault⟩
        cases hm'
        refine ⟨rfl, ?_⟩
        intro hrequired
        rcases List.mem_map.mp hrequired with ⟨x, hx, hxname⟩
        rcases List.mem_filter.mp hx with ⟨hxmem, hxdefault⟩
        rw [List.inj_on_of_nodup_map hnodup hxmem hmem (hxname.trans hname.symm)] at hxdefault
        simp [hdefault] at hxdefault

end Typeclass

/-!
## Declaring a class
-/

namespace World

variable {w w' : World} {m : ClassMethod} {methods : List ClassMethod} {className method : String}

def ClassMethod.kept (m : ClassMethod) : Method where
  name := m.name
  signature := m.signature
  hasDefault := m.default.isSome

def ClassMethod.enter (m : ClassMethod) (defaults : NameMap FunctionId) : NameMap FunctionId :=
  match m.default with
  | some id => defaults.insert m.name id
  | none => defaults

/-- The default of the method, if it has one, is a function of the heap. -/
def ClassMethod.HasBody (m : ClassMethod) (h : Heap) : Prop :=
  ∀ id, m.default = some id → id < h.functions.size

theorem function_cases {id : FunctionId} {r : Except Failure Function}
    (hrun : (function id).run w = (r, w')) :
    w' = w ∧ ((∃ e, r = .error e) ∨ ∃ f, r = .ok f ∧ w.heap.functions[id]? = some f) := by
  cases hf : w.heap.functions[id]? with
  | some f =>
      rw [run_function hf] at hrun
      cases hrun
      exact ⟨rfl, Or.inr ⟨f, rfl, rfl⟩⟩
  | none =>
      unfold function at hrun
      rw [Op.run_bind, Op.run_get, Op.next_ok, hf] at hrun
      cases hrun
      exact ⟨rfl, Or.inl ⟨_, rfl⟩⟩

theorem checkDefault_cases {r : Except Failure Method}
    (hrun : (checkDefault className m).run w = (r, w')) :
    w' = w ∧ ((∃ e, r = .error e) ∨ r = .ok m.kept ∧ m.HasBody w.heap) := by
  unfold checkDefault at hrun
  cases hdefault : m.default with
  | none =>
      rw [hdefault] at hrun
      cases hrun
      refine ⟨rfl, Or.inr ⟨?_, ?_⟩⟩
      · simp [ClassMethod.kept, hdefault]
      · intro id hid
        rw [hdefault] at hid
        cases hid
  | some id =>
      rw [hdefault] at hrun
      rcases Op.bind_cases hrun with ⟨e, hfunction, hr⟩ | ⟨f, w₁, hfunction, hrest⟩
      · exact ⟨(function_cases hfunction).1, Or.inl ⟨e, hr⟩⟩
      rcases function_cases hfunction with ⟨rfl, ⟨e, he⟩ | ⟨f', hf', hf⟩⟩
      · cases he
      cases hf'
      rcases Op.bind_cases hrest with ⟨e, hrequire, hr⟩ | ⟨_, w₂, hrequire, hpure⟩
      · exact ⟨(require_cases hrequire).1, Or.inl ⟨e, hr⟩⟩
      rw [(require_cases hrequire).1] at hpure
      cases hpure
      refine ⟨rfl, Or.inr ⟨?_, ?_⟩⟩
      · simp [ClassMethod.kept, hdefault]
      · intro other hother
        rw [hdefault] at hother
        cases hother
        exact (Array.getElem?_eq_some_iff.mp hf).1

theorem checkDefaults_cases {r : Except Failure (List Method)}
    (hrun : (methods.mapM (checkDefault className)).run w = (r, w')) :
    w' = w ∧ ((∃ e, r = .error e) ∨
      r = .ok (methods.map ClassMethod.kept) ∧ ∀ m ∈ methods, m.HasBody w.heap) := by
  induction methods generalizing w w' r with
  | nil =>
      rw [List.mapM_nil] at hrun
      cases hrun
      exact ⟨rfl, Or.inr ⟨rfl, nofun⟩⟩
  | cons m rest ih =>
      rw [List.mapM_cons] at hrun
      rcases Op.bind_cases hrun with ⟨e, hfirst, hr⟩ | ⟨x, w₁, hfirst, hrest⟩
      · exact ⟨(checkDefault_cases hfirst).1, Or.inl ⟨e, hr⟩⟩
      rcases checkDefault_cases hfirst with ⟨rfl, ⟨e, he⟩ | ⟨hx, hbody⟩⟩
      · cases he
      cases hx
      rcases Op.bind_cases hrest with ⟨e, hmore, hr⟩ | ⟨xs, w₂, hmore, hpure⟩
      · exact ⟨(ih hmore).1, Or.inl ⟨e, hr⟩⟩
      rcases ih hmore with ⟨rfl, ⟨e, he⟩ | ⟨hxs, hbodies⟩⟩
      · cases he
      cases hxs
      cases hpure
      refine ⟨rfl, Or.inr ⟨rfl, ?_⟩⟩
      intro x hx
      rcases List.mem_cons.mp hx with rfl | hx
      · exact hbody
      · exact hbodies x hx

theorem run_nameFunction {id : FunctionId} (hid : id < w.heap.functions.size) (name : String) :
    ∃ heap, (nameFunction id name).run w = (.ok (), { w with heap }) ∧
      heap.functions.size = w.heap.functions.size := by
  unfold nameFunction
  rw [Op.run_bind, run_function (Array.getElem?_eq_getElem hid), Op.next_ok]
  by_cases hname : w.heap.functions[id].signature.name.isEmpty = true
  · rw [if_pos hname]
    exact ⟨_, rfl, Array.size_setIfInBounds⟩
  · rw [if_neg hname]
    exact ⟨w.heap, rfl, rfl⟩

theorem run_addDefault (hbody : m.HasBody w.heap) :
    ∃ heap, (addDefault m).run w =
        (.ok (), { w with
          heap, tables := { w.tables with defaults := m.enter w.tables.defaults } }) ∧
      heap.functions.size = w.heap.functions.size := by
  unfold addDefault ClassMethod.enter
  cases hdefault : m.default with
  | none => exact ⟨w.heap, rfl, rfl⟩
  | some id =>
      rcases run_nameFunction (hbody id hdefault) m.name with ⟨heap, hrun, hsize⟩
      refine ⟨heap, ?_, hsize⟩
      simp only [Op.run_bind, hrun, Op.next_ok, Op.run_modify]

theorem run_addDefaults (hbodies : ∀ m ∈ methods, m.HasBody w.heap) :
    ∃ heap, (methods.forM addDefault).run w =
      (.ok (), { w with
        heap
        tables :=
          { w.tables with
            defaults := methods.foldl (fun acc m => m.enter acc) w.tables.defaults } }) := by
  induction methods generalizing w with
  | nil => exact ⟨w.heap, rfl⟩
  | cons m rest ih =>
      have hcons : ((m :: rest).forM addDefault).run w =
          Op.next ((addDefault m).run w) fun _ => rest.forM addDefault := Op.run_bind _ _ w
      rcases run_addDefault (hbodies m List.mem_cons_self) with ⟨heap, hrun, hsize⟩
      rw [hcons, hrun, Op.next_ok]
      apply ih
      intro x hx id hid
      rw [hsize]
      exact hbodies x (List.mem_cons_of_mem m hx) id hid

theorem addClass_cases {r : Except Failure Unit}
    (hrun : (addClass className methods).run w = (r, w')) :
    (∃ e, r = .error e ∧ w' = w) ∨
      (r = .ok () ∧
        w'.tables.classes =
          w.tables.classes.define (.ofMethods className (methods.map ClassMethod.kept)) ∧
        w'.tables.defaults = methods.foldl (fun acc m => m.enter acc) w.tables.defaults) := by
  rcases Op.bind_cases hrun with ⟨e, hcheck, hr⟩ | ⟨declared, w₁, hcheck, hrest⟩
  · exact Or.inl ⟨e, hr, (checkDefaults_cases hcheck).1⟩
  rcases checkDefaults_cases hcheck with ⟨rfl, ⟨e, he⟩ | ⟨hdeclared, hbodies⟩⟩
  · cases he
  cases hdeclared
  right
  rw [Op.run_bind, Op.run_modify, Op.next_ok, Op.run_bind] at hrest
  rcases run_addDefaults (w := { w₁ with
      tables :=
        { w₁.tables with
          classes :=
            w₁.tables.classes.define (.ofMethods className (methods.map ClassMethod.kept)) } })
    hbodies with ⟨heap, hdefaults⟩
  rw [hdefaults, Op.next_ok] at hrest
  rcases run_log _ .debug "typeclass registered"
    [("class", .text className), ("methods", .number methods.length)] with ⟨lines, hlog⟩
  rw [hlog] at hrest
  cases hrest
  exact ⟨rfl, rfl, rfl⟩

/-!
## Histories of declarations
-/

/-- What is said in the declaration of a class. -/
structure Declaration where
  className : String
  methods : List ClassMethod

namespace Declaration

def typeclass (d : Declaration) : Typeclass :=
  .ofMethods d.className (d.methods.map ClassMethod.kept)

def default? (d : Declaration) (method : String) : Option FunctionId :=
  d.methods.reverse.findSome? fun m => if m.name = method then m.default else none

/-- The last method of the name in the declaration has a default. -/
def Stands (d : Declaration) (method : String) : Prop :=
  ∃ m, d.methods.reverse.find? (fun m => m.name == method) = some m ∧ m.default.isSome = true

variable {d : Declaration}

theorem provides_typeclass : d.typeclass.Provides method ↔ d.Stands method := by
  unfold typeclass Stands
  rw [Typeclass.provides_iff (Typeclass.nodup_ofMethods _ _), Typeclass.method?_ofMethods,
    ← List.map_reverse, List.find?_map]
  constructor
  · rintro ⟨x, hx, hdefault⟩
    rcases Option.map_eq_some_iff.mp hx with ⟨m, hm, rfl⟩
    exact ⟨m, hm, hdefault⟩
  · rintro ⟨m, hm, hdefault⟩
    exact ⟨m.kept, Option.map_eq_some_iff.mpr ⟨m, hm, rfl⟩, hdefault⟩

theorem default?_of_stands (hstands : d.Stands method) : (d.default? method).isSome = true := by
  rcases hstands with ⟨m, hm, hdefault⟩
  unfold default?
  rw [List.findSome?_isSome_iff]
  refine ⟨m, List.mem_of_find?_eq_some hm, ?_⟩
  have hname : m.name = method := by simpa using List.find?_some hm
  rw [if_pos hname]
  exact hdefault

theorem get?_enter (d : Declaration) (defaults : NameMap FunctionId) (method : String) :
    (d.methods.foldl (fun acc m => m.enter acc) defaults).get? method =
      (d.default? method).or (defaults.get? method) := by
  unfold default?
  induction d.methods generalizing defaults with
  | nil => rfl
  | cons m rest ih =>
      have hfirst : (m.enter defaults).get? method =
          (if m.name = method then m.default else none).or (defaults.get? method) := by
        unfold ClassMethod.enter
        cases m.default with
        | none => simp
        | some id =>
            rw [NameMap.get?_insert]
            by_cases hname : m.name = method
            · simp [hname]
            · simp [hname, Ne.symm hname]
      rw [List.foldl_cons, ih, hfirst, List.reverse_cons, List.findSome?_append, Option.or_assoc]
      simp

end Declaration

/-- The declarations that have been accepted, the latest first, and the world after them.  Refused
ones and anything that leaves the two tables alone may come in between. -/
inductive Declared : List Declaration → World → Prop where
  | fresh {w : World} (hclasses : w.tables.classes = {}) (hdefaults : w.tables.defaults = {}) :
      Declared [] w
  | accepted {past : List Declaration} {w w' : World} (hpast : Declared past w) (d : Declaration)
      (hrun : (addClass d.className d.methods).run w = (.ok (), w')) : Declared (d :: past) w'
  | refused {past : List Declaration} {w w' : World} (hpast : Declared past w) (d : Declaration)
      (e : Failure) (hrun : (addClass d.className d.methods).run w = (.error e, w')) :
      Declared past w'
  | other {past : List Declaration} {w w' : World} (hpast : Declared past w)
      (hclasses : w'.tables.classes = w.tables.classes)
      (hdefaults : w'.tables.defaults = w.tables.defaults) : Declared past w'

variable {past : List Declaration}

theorem Declared.tables (hpast : Declared past w) :
    w.tables.classes = Registry.ofPast (past.map Declaration.typeclass) ∧
      ∀ method, w.tables.defaults.get? method = past.findSome? fun d => d.default? method := by
  induction hpast with
  | fresh hclasses hdefaults =>
      rw [hclasses, hdefaults]
      exact ⟨rfl, fun _ => rfl⟩
  | accepted hpast d hrun ih =>
      rcases addClass_cases hrun with ⟨e, he, _⟩ | ⟨_, hclasses, hdefaults⟩
      · cases he
      constructor
      · rw [hclasses, ih.1]
        rfl
      · intro method
        rw [hdefaults, d.get?_enter, ih.2, List.findSome?_cons]
        cases d.default? method <;> rfl
  | refused hpast d e hrun ih =>
      rcases addClass_cases hrun with ⟨_, _, rfl⟩ | ⟨hok, _⟩
      · exact ih
      · cases hok
  | other hpast hclasses hdefaults ih =>
      rw [hclasses, hdefaults]
      exact ih

/-!
## Agreement of the two tables
-/

/-- A registered class declares the method with a default. -/
def Provided (w : World) (method : String) : Prop :=
  ∃ name c, w.tables.classes.get? name = some c ∧ c.Provides method

def FindsDefault (w : World) (method : String) : Prop :=
  ∀ scope args, ∃ id, (askSource scope method args .defaults).run w = (.ok (some id), w)

/-- The method has been given defaults, and none of them stands: each was taken back by its own
declaration, or its class has been declared again. -/
def Withdrawn (past : List Declaration) (method : String) : Prop :=
  (∃ d ∈ past, (d.default? method).isSome = true) ∧
    ∀ later d earlier, past = later ++ d :: earlier → d.Stands method →
      ∃ e ∈ later, e.className = d.className

theorem Declared.findsDefault_iff (hpast : Declared past w) :
    w.FindsDefault method ↔ ∃ d ∈ past, (d.default? method).isSome = true := by
  have hask : ∀ scope args, (askSource scope method args .defaults).run w =
      (.ok (w.tables.defaults.get? method), w) := fun _ _ => rfl
  rw [← List.findSome?_isSome_iff, ← hpast.tables.2 method, Option.isSome_iff_exists]
  constructor
  · intro hfinds
    rcases hfinds none [] with ⟨id, hid⟩
    rw [hask] at hid
    exact ⟨id, Except.ok.inj (Prod.mk.inj hid).1⟩
  · rintro ⟨id, hid⟩ scope args
    rw [hask, hid]
    exact ⟨id, rfl⟩

theorem Declared.provided_iff (hpast : Declared past w) :
    w.Provided method ↔ ∃ later d earlier, past = later ++ d :: earlier ∧ d.Stands method ∧
      ∀ e ∈ later, e.className ≠ d.className := by
  unfold Provided
  rw [hpast.tables.1]
  constructor
  · rintro ⟨name, c, hc, hprovides⟩
    rcases Registry.mem_inForce_iff.mp (Registry.get?_ofPast_iff.mp hc).1 with
      ⟨later, earlier, hsplit, hlater⟩
    rcases List.map_eq_append_iff.mp hsplit with ⟨later', rest, rfl, rfl, hrest⟩
    rcases List.map_eq_cons_iff.mp hrest with ⟨d, earlier', rfl, rfl, rfl⟩
    refine ⟨later', d, earlier', rfl, Declaration.provides_typeclass.mp hprovides, ?_⟩
    intro e he
    exact hlater e.typeclass (List.mem_map_of_mem he)
  · rintro ⟨later, d, earlier, rfl, hstands, hlater⟩
    refine ⟨d.className, d.typeclass, ?_, Declaration.provides_typeclass.mpr hstands⟩
    refine Registry.get?_ofPast_iff.mpr ⟨Registry.mem_inForce_iff.mpr ?_, rfl⟩
    refine ⟨later.map Declaration.typeclass, earlier.map Declaration.typeclass, by simp, ?_⟩
    intro c hc
    rcases List.mem_map.mp hc with ⟨e, he, rfl⟩
    exact hlater e he

/-- A default is found exactly if an accepted declaration has ever given one, and then it is the
last one that was given.  What a registered class provides is found.  The two tables agree on a
method unless its defaults have been withdrawn. -/
theorem defaults_agree_unless_withdrawn (hpast : Declared past w) (method : String) :
    (∀ scope args, (askSource scope method args .defaults).run w =
      (.ok (past.findSome? fun d => d.default? method), w)) ∧
    (w.Provided method → w.FindsDefault method) ∧
    ((w.FindsDefault method ↔ w.Provided method) ↔ ¬ Withdrawn past method) := by
  have hfound : w.Provided method → w.FindsDefault method := by
    rw [hpast.provided_iff, hpast.findsDefault_iff]
    rintro ⟨later, d, earlier, rfl, hstands, _⟩
    exact ⟨d, by simp, Declaration.default?_of_stands hstands⟩
  refine ⟨?_, hfound, ?_, ?_⟩
  · intro scope args
    rw [← hpast.tables.2]
    rfl
  · rintro hagree ⟨hgiven, hgone⟩
    have hprovided := hagree.mp (hpast.findsDefault_iff.mpr hgiven)
    rcases hpast.provided_iff.mp hprovided with ⟨later, d, earlier, hsplit, hstands, hlater⟩
    rcases hgone later d earlier hsplit hstands with ⟨e, he, hname⟩
    exact hlater e he hname
  · intro hkept
    refine ⟨?_, hfound⟩
    intro hfinds
    by_contra hnone
    apply hkept
    refine ⟨hpast.findsDefault_iff.mp hfinds, ?_⟩
    intro later d earlier hsplit hstands
    by_contra hlater
    apply hnone
    refine hpast.provided_iff.mpr ⟨later, d, earlier, hsplit, hstands, ?_⟩
    intro e he hname
    exact hlater ⟨e, he, hname⟩

/-!
## A withdrawn default

A class declares a method with a default and is then declared again, with the
method but without the default.
-/

def beforeShow : World where
  heap :=
    { functions :=
        #[{ signature :=
              { name := "f", spawn := false, params := [], effects := [], result := .any }
            closure := none
            body := .none }] }

def showWithDefault : Declaration where
  className := "Show"
  methods := [{ name := "show", signature := .any, default := some 0 }]

def showWithout : Declaration where
  className := "Show"
  methods := [{ name := "show", signature := .any, default := none }]

def Declaration.after (d : Declaration) (w : World) : World :=
  ((addClass d.className d.methods).run w).2

theorem declared_showWithDefault :
    Declared [showWithDefault] (showWithDefault.after beforeShow) := by
  have hfresh : Declared [] beforeShow := .fresh rfl rfl
  exact hfresh.accepted showWithDefault rfl

theorem declared_showWithout :
    Declared [showWithout, showWithDefault]
      (showWithout.after (showWithDefault.after beforeShow)) :=
  declared_showWithDefault.accepted showWithout rfl

theorem default_found_though_required :
    ∃ past w, Declared past w ∧ w.FindsDefault "show" ∧ ¬ w.Provided "show" := by
  refine ⟨_, _, declared_showWithout, ?_, ?_⟩
  · exact declared_showWithout.findsDefault_iff.mpr ⟨showWithDefault, by simp, rfl⟩
  · rw [declared_showWithout.provided_iff]
    rintro ⟨later, d, earlier, hsplit, ⟨m, hm, hdefault⟩, hlater⟩
    cases later with
    | nil =>
        cases hsplit
        cases hm
        cases hdefault
    | cons e later =>
        injection hsplit with hhead htail
        cases later with
        | nil =>
            injection htail with htail
            exact hlater e List.mem_cons_self (by rw [← hhead, ← htail]; rfl)
        | cons e' later =>
            injection htail with _ hnil
            simp at hnil

/-- As long as the class provides the default, it is found. -/
theorem default_found_while_provided :
    (showWithDefault.after beforeShow).Provided "show" ∧
      (showWithDefault.after beforeShow).FindsDefault "show" := by
  have hprovided : (showWithDefault.after beforeShow).Provided "show" :=
    declared_showWithDefault.provided_iff.mpr ⟨[], showWithDefault, [], rfl, ⟨_, rfl, rfl⟩, nofun⟩
  exact ⟨hprovided,
    (defaults_agree_unless_withdrawn declared_showWithDefault "show").2.1 hprovided⟩

end World
end ScriptCore
