import Mathlib.Data.List.Induction
import ScriptCore.Proofs.Typeclass.Defaults
import ScriptCore.Proofs.Typeclass.Dispatch

/-!
# Instances are registered as a whole

An instance goes through five checks before anything is written down: its class
exists, every method has a body, is declared and none is missing, and every
body fits its signature.  Each check decides one condition and changes nothing,
so a refused instance leaves the world as it was.  An accepted one is entered
method by method, and the last body of a name is the one that counts.
-/

namespace ScriptCore

/-!
## Checks
-/

namespace Op

variable {α : Type} {x y : Op Unit} {P Q : World → Prop}

/-- The operation fails unless the condition holds, and changes nothing. -/
def Decides (x : Op Unit) (P : World → Prop) : Prop :=
  ∀ w, (x.run w = (.ok (), w) ∧ P w) ∨ ∃ e, x.run w = (.error e, w) ∧ ¬ P w

theorem Decides.andThen (hx : Decides x P) (hy : Decides y Q) :
    Decides (x >>= fun _ => y) fun w => P w ∧ Q w := by
  intro w
  rw [run_bind]
  rcases hx w with ⟨hrun, hP⟩ | ⟨e, hrun, hP⟩
  · rw [hrun, next_ok]
    rcases hy w with ⟨hrun', hQ⟩ | ⟨e, hrun', hQ⟩
    · exact Or.inl ⟨hrun', hP, hQ⟩
    · exact Or.inr ⟨e, hrun', fun hboth => hQ hboth.2⟩
  · rw [hrun, next_error]
    exact Or.inr ⟨e, rfl, fun hboth => hP hboth.1⟩

theorem Decides.forM {f : α → Op Unit} {R : α → World → Prop} (hf : ∀ a, Decides (f a) (R a))
    (l : List α) : Decides (l.forM f) fun w => ∀ a ∈ l, R a w := by
  induction l with
  | nil => exact fun w => Or.inl ⟨rfl, nofun⟩
  | cons a rest ih =>
      intro w
      rcases (hf a).andThen ih w with ⟨hrun, hfirst, hrest⟩ | ⟨e, hrun, hnot⟩
      · refine Or.inl ⟨hrun, ?_⟩
        intro b hb
        rcases List.mem_cons.mp hb with rfl | hb
        · exact hfirst
        · exact hrest b hb
      · refine Or.inr ⟨e, hrun, ?_⟩
        intro hall
        exact hnot ⟨hall a List.mem_cons_self, fun b hb => hall b (List.mem_cons_of_mem a hb)⟩

end Op

namespace Typeclass

variable {c : Typeclass} {names : List String}

theorem undeclared_eq_nil_iff :
    c.undeclared names = [] ↔ ∀ name ∈ names, c.declares name = true := by
  unfold undeclared
  simp [List.filter_eq_nil_iff]

theorem missing_eq_nil_iff : c.missing names = [] ↔ ∀ name ∈ c.required, name ∈ names := by
  unfold missing
  simp [List.filter_eq_nil_iff]

end Typeclass

namespace World

variable {w w' : World} {c : Typeclass} {className typeName : String} {type : Ty}
variable {methods : List (String × Option FunctionId)} {bodies : List InstanceMethod}

theorem decides_require (name detail : String) (expected actual : Ty) :
    Op.Decides (require name detail expected actual) fun _ => Accepts expected actual := by
  intro w
  unfold require
  rw [← check_ok_iff]
  cases Ty.check expected actual with
  | ok _ => exact Or.inl ⟨rfl, rfl⟩
  | error m => exact Or.inr ⟨_, rfl, nofun⟩

theorem decides_checkMethodNames (c : Typeclass) (className typeName : String)
    (names : List String) :
    Op.Decides (checkMethodNames c className typeName names) fun _ =>
      (∀ name ∈ names, c.declares name = true) ∧ ∀ name ∈ c.required, name ∈ names := by
  intro w
  unfold checkMethodNames
  rw [← Typeclass.undeclared_eq_nil_iff, ← Typeclass.missing_eq_nil_iff]
  cases c.undeclared names with
  | cons extra _ => exact Or.inr ⟨_, rfl, fun hboth => nomatch hboth.1⟩
  | nil =>
      cases c.missing names with
      | cons missing _ => exact Or.inr ⟨_, rfl, fun hboth => nomatch hboth.2⟩
      | nil => exact Or.inl ⟨rfl, rfl, rfl⟩

/-- The body of the method exists and has the type that the class asks for. -/
def InstanceMethod.Fits (m : InstanceMethod) (c : Typeclass) (w : World) : Prop :=
  ∃ f, w.heap.functions[m.body]? = some f ∧
    Accepts ((c.signature? m.name).getD .missing) f.signature.type

theorem decides_checkMethodType (c : Typeclass) (className typeName : String)
    (m : InstanceMethod) : Op.Decides (checkMethodType c className typeName m) (m.Fits c) := by
  intro w
  unfold checkMethodType InstanceMethod.Fits
  cases hf : w.heap.functions[m.body]? with
  | none =>
      have hrun : (function m.body).run w = (.error (.panic .absentValue), w) := by
        unfold function
        rw [Op.run_bind, Op.run_get, Op.next_ok, hf]
        rfl
      rw [Op.run_bind, hrun, Op.next_error]
      exact Or.inr ⟨_, rfl, nofun⟩
  | some f =>
      rw [Op.run_bind, run_function hf, Op.next_ok]
      rcases decides_require m.name (className ++ " for " ++ typeName)
        ((c.signature? m.name).getD .missing) f.signature.type w with
        ⟨hrun, hfits⟩ | ⟨e, hrun, hnot⟩
      · exact Or.inl ⟨hrun, f, rfl, hfits⟩
      · refine Or.inr ⟨e, hrun, ?_⟩
        rintro ⟨g, hg, hfits⟩
        cases hg
        exact hnot hfits

def InstanceMethod.listed (m : InstanceMethod) : String × Option FunctionId :=
  (m.name, some m.body)

theorem checkBodies_cases (className typeName : String)
    (methods : List (String × Option FunctionId)) (w : World) :
    (∃ bodies, (checkBodies className typeName methods).run w = (.ok bodies, w) ∧
      methods = bodies.map InstanceMethod.listed) ∨
    ∃ e, (checkBodies className typeName methods).run w = (.error e, w) ∧
      ∃ m ∈ methods, m.2 = none := by
  unfold checkBodies
  induction methods with
  | nil => exact Or.inl ⟨[], rfl, rfl⟩
  | cons m rest ih =>
      obtain ⟨name, body⟩ := m
      rw [List.mapM_cons]
      cases body with
      | none => exact Or.inr ⟨_, rfl, (name, none), List.mem_cons_self, rfl⟩
      | some id =>
          rcases ih with ⟨bodies, hrun, hbodies⟩ | ⟨e, hrun, m, hm, hnone⟩
          · refine Or.inl ⟨{ name, body := id } :: bodies, ?_, by rw [hbodies]; rfl⟩
            simp only [pure_bind, Op.run_bind, hrun, Op.next_ok, Op.run_pure]
          · refine Or.inr ⟨e, ?_, m, List.mem_cons_of_mem _ hm, hnone⟩
            simp only [pure_bind, Op.run_bind, hrun, Op.next_error]

/-!
## What is asked of an instance
-/

/-- The methods make an instance of the class. -/
structure Implements (w : World) (c : Typeclass) (methods : List (String × Option FunctionId)) :
    Prop where
  bodies : ∀ m ∈ methods, ∃ id, m.2 = some id ∧ id < w.heap.functions.size
  declared : ∀ m ∈ methods, m.1 ∈ c.methods.map (·.name)
  /-- Every method that the class gives no default is there. -/
  complete : ∀ m ∈ c.methods, m.hasDefault = false → m.name ∈ methods.map (·.1)
  /-- Every body has a type that fits the signature, if there is one. -/
  fits : ∀ name id f signature, (name, some id) ∈ methods → w.heap.functions[id]? = some f →
    c.signature? name = some signature →
      signature.isMissing = true ∨ signature.equal f.signature.type = true

theorem mem_required_iff {name : String} :
    name ∈ c.required ↔ ∃ m ∈ c.methods, m.hasDefault = false ∧ m.name = name := by
  simp [Typeclass.required, and_assoc]

theorem implements_iff (bodies : List InstanceMethod) :
    w.Implements c (bodies.map InstanceMethod.listed) ↔
      ((∀ name ∈ bodies.map (·.name), c.declares name = true) ∧
        ∀ name ∈ c.required, name ∈ bodies.map (·.name)) ∧
      ∀ m ∈ bodies, m.Fits c w := by
  have hnames : (bodies.map InstanceMethod.listed).map (·.1) = bodies.map (·.name) := by
    rw [List.map_map]
    rfl
  constructor
  · intro himpl
    refine ⟨⟨?_, ?_⟩, ?_⟩
    · intro name hname
      rcases List.mem_map.mp hname with ⟨m, hm, rfl⟩
      exact Typeclass.declares_iff.mpr (himpl.declared _ (List.mem_map_of_mem hm))
    · intro name hname
      rcases mem_required_iff.mp hname with ⟨m, hm, hdefault, rfl⟩
      rw [← hnames]
      exact himpl.complete m hm hdefault
    · intro m hm
      have hlisted : m.listed ∈ bodies.map InstanceMethod.listed := List.mem_map_of_mem hm
      rcases himpl.bodies _ hlisted with ⟨id, hid, hlt⟩
      cases hid
      have hf := Array.getElem?_eq_getElem hlt
      refine ⟨_, hf, ?_⟩
      cases hsignature : c.signature? m.name with
      | none => exact Or.inl rfl
      | some signature => exact himpl.fits _ _ _ _ hlisted hf hsignature
  · rintro ⟨⟨hdeclared, hcomplete⟩, hfits⟩
    refine ⟨?_, ?_, ?_, ?_⟩
    · intro entry hentry
      rcases List.mem_map.mp hentry with ⟨m, hm, rfl⟩
      rcases hfits m hm with ⟨f, hf, _⟩
      exact ⟨m.body, rfl, (Array.getElem?_eq_some_iff.mp hf).1⟩
    · intro entry hentry
      rcases List.mem_map.mp hentry with ⟨m, hm, rfl⟩
      exact Typeclass.declares_iff.mp (hdeclared _ (List.mem_map_of_mem hm))
    · intro m hm hdefault
      rw [hnames]
      exact hcomplete _ (mem_required_iff.mpr ⟨m, hm, hdefault, rfl⟩)
    · intro name id f signature hentry hf hsignature
      rcases List.mem_map.mp hentry with ⟨m, hm, heq⟩
      cases heq
      rcases hfits m hm with ⟨g, hg, haccepts⟩
      rw [hf] at hg
      cases hg
      rw [hsignature] at haccepts
      exact haccepts

/-!
## Entering the methods
-/

def enterAll (className : String) (type : Ty) (bodies : List InstanceMethod)
    (t : Instances FunctionId) : Instances FunctionId :=
  bodies.foldl (fun t m => t.add className m.name type m.body) t

theorem run_addMethods (hbodies : ∀ m ∈ bodies, m.body < w.heap.functions.size) :
    ∃ heap, (bodies.forM (addMethod className type)).run w =
      (.ok (), { w with
        heap
        tables :=
          { w.tables with
            instances := enterAll className type bodies w.tables.instances } }) := by
  induction bodies generalizing w with
  | nil => exact ⟨w.heap, rfl⟩
  | cons m rest ih =>
      have hcons : ((m :: rest).forM (addMethod className type)).run w =
          Op.next ((addMethod className type m).run w)
            fun _ => rest.forM (addMethod className type) := Op.run_bind _ _ w
      rcases run_nameFunction (hbodies m List.mem_cons_self) m.name with ⟨heap, hname, hsize⟩
      rw [hcons, addMethod, Op.run_bind, hname, Op.next_ok, Op.run_modify, Op.next_ok]
      apply ih
      intro x hx
      rw [hsize]
      exact hbodies x (List.mem_cons_of_mem m hx)

theorem lookup_add (t : Instances FunctionId) (className method : String) (type : Ty)
    (body : FunctionId) (slot : String × String) :
    ((t.add className method type body).keyed.lookup slot).map (·.body) =
      if (method, type.key) = slot then some body else (t.keyed.lookup slot).map (·.body) := by
  unfold Instances.add
  rw [Instances.lookup_putKeyed]
  by_cases hslot : (method, type.key) = slot
  · rw [if_pos hslot, if_pos hslot]
    rfl
  · rw [if_neg hslot, if_neg hslot]

theorem lookup_enterAll_ne {method key : String} (t : Instances FunctionId)
    (hother : ¬ (method ∈ bodies.map (·.name) ∧ key = type.key)) :
    (enterAll className type bodies t).keyed.lookup (method, key) =
      t.keyed.lookup (method, key) := by
  induction bodies generalizing t with
  | nil => rfl
  | cons m rest ih =>
      have hrest : ¬ (method ∈ rest.map (·.name) ∧ key = type.key) :=
        fun hboth => hother ⟨List.mem_cons_of_mem _ hboth.1, hboth.2⟩
      have hslot : (m.name, type.key) ≠ (method, key) := by
        intro heq
        cases heq
        exact hother ⟨List.mem_cons_self, rfl⟩
      refine (ih (t.add className m.name type m.body) hrest).trans ?_
      unfold Instances.add
      rw [Instances.lookup_putKeyed, if_neg hslot]

def lastBody? (methods : List (String × Option FunctionId)) (method : String) :
    Option FunctionId :=
  (methods.reverse.lookup method).join

theorem lookup_enterAll {method : String} {id : FunctionId} (t : Instances FunctionId)
    (hlast : lastBody? (bodies.map InstanceMethod.listed) method = some id) :
    ((enterAll className type bodies t).keyed.lookup (method, type.key)).map (·.body) =
      some id := by
  -- induction from the end of the list, where the last body of a name stands
  induction bodies using List.reverseRecOn with
  | nil => cases hlast
  | append_singleton front m ih =>
      rw [lastBody?, List.map_append, List.reverse_append, List.map_singleton,
        List.reverse_singleton, List.singleton_append, InstanceMethod.listed,
        List.lookup_cons] at hlast
      rw [enterAll, List.foldl_append, List.foldl_cons, List.foldl_nil, lookup_add]
      by_cases hname : method = m.name
      · rw [beq_iff_eq.mpr hname] at hlast
        cases hlast
        rw [hname, if_pos rfl]
      · have hslot : (m.name, type.key) ≠ (method, type.key) := by
          intro heq
          cases heq
          exact hname rfl
        rw [beq_eq_false_iff_ne.mpr hname] at hlast
        rw [if_neg hslot]
        exact ih hlast

/-!
## All or nothing
-/

/-- The methods have been registered for the type, and nothing else has changed in the tables. -/
structure Registered (w w' : World) (type : Ty) (methods : List (String × Option FunctionId)) :
    Prop where
  classes : w'.tables.classes = w.tables.classes
  functions : w'.tables.functions = w.tables.functions
  defaults : w'.tables.defaults = w.tables.defaults
  /-- An argument with the key of the type gets the last body of a method. -/
  resolved : ∀ method id, lastBody? methods method = some id → ∀ first rest argument,
    (valueType first).run w' = (.ok argument, w') → argument.key = type.key →
      (instanceFor? method (some first :: rest)).run w' = (.ok (some id), w')
  found : ∀ method id, lastBody? methods method = some id → ∀ argument : Ty,
    argument.key = type.key →
      (w'.tables.instances.find? method argument).map (·.body) = some id
  others : ∀ method key, ¬ (method ∈ methods.map (·.1) ∧ key = type.key) →
    w'.tables.instances.keyed.lookup (method, key) = w.tables.instances.keyed.lookup (method, key)

theorem find?_of_lookup {t : Instances FunctionId} {method : String} {argument : Ty}
    {id : FunctionId}
    (hlookup : (t.keyed.lookup (method, argument.key)).map (·.body) = some id) :
    (t.find? method argument).map (·.body) = some id := by
  rcases Option.map_eq_some_iff.mp hlookup with ⟨entry, hentry, hbody⟩
  rw [Instances.find?_eq_or, hentry, Option.some_or, Option.map_some, hbody]

theorem registered_of_tables
    (htables : w'.tables =
      { w.tables with instances := enterAll className type bodies w.tables.instances }) :
    w.Registered w' type (bodies.map InstanceMethod.listed) := by
  have hfound : ∀ method id, lastBody? (bodies.map InstanceMethod.listed) method = some id →
      ∀ argument : Ty, argument.key = type.key →
        (w'.tables.instances.find? method argument).map (·.body) = some id := by
    intro method id hlast argument hkey
    apply find?_of_lookup
    rw [htables, hkey]
    exact lookup_enterAll _ hlast
  refine ⟨by rw [htables], by rw [htables], by rw [htables], ?_, hfound, ?_⟩
  · intro method id hlast first rest argument hargument hkey
    unfold instanceFor?
    rw [Op.run_bind, hargument, Op.next_ok, Op.run_bind, Op.run_get, Op.next_ok, Op.run_pure,
      hfound method id hlast argument hkey]
  · intro method key hother
    rw [htables]
    apply lookup_enterAll_ne
    rw [List.map_map] at hother
    exact hother

theorem run_addInstance_unknown (hclass : w.tables.classes.get? className = none) :
    ∃ e, (addInstance className type methods).run w = (.error e, w) := by
  unfold addInstance
  rw [Op.run_bind, Op.run_get, Op.next_ok, hclass]
  exact ⟨_, rfl⟩

theorem run_addInstance (hclass : w.tables.classes.get? className = some c) :
    (addInstance className type methods).run w =
      Op.next ((checkBodies className type.display methods).run w) fun bodies =>
        (checkMethodNames c className type.display (bodies.map (·.name)) >>= fun _ =>
          bodies.forM (checkMethodType c className type.display)) >>= fun _ =>
            bodies.forM (addMethod className type) >>= fun _ =>
              log .debug "instance registered"
                [("class", .text className), ("type", .text type.display)] := by
  unfold addInstance
  rw [Op.run_bind, Op.run_get, Op.next_ok, hclass]
  simp only [Op.run_bind, bind_assoc]

/-- A registration is refused and changes nothing, or the methods make an instance and are
registered. -/
theorem addInstance_cases (w : World) (className : String) (type : Ty)
    (methods : List (String × Option FunctionId)) :
    (∃ c w', w.tables.classes.get? className = some c ∧ w.Implements c methods ∧
      (addInstance className type methods).run w = (.ok (), w') ∧
      w.Registered w' type methods) ∨
    ∃ e, (addInstance className type methods).run w = (.error e, w) ∧
      ∀ c, w.tables.classes.get? className = some c → ¬ w.Implements c methods := by
  cases hclass : w.tables.classes.get? className with
  | none =>
      rcases run_addInstance_unknown hclass with ⟨e, hrun⟩
      exact Or.inr ⟨e, hrun, nofun⟩
  | some c =>
      rw [run_addInstance hclass]
      rcases checkBodies_cases className type.display methods w with
        ⟨bodies, hbodies, rfl⟩ | ⟨e, hbodies, m, hm, hnone⟩
      · rw [hbodies, Op.next_ok, Op.run_bind]
        have hchecks := (decides_checkMethodNames c className type.display
          (bodies.map (·.name))).andThen
            (Op.Decides.forM (decides_checkMethodType c className type.display) bodies)
        rcases hchecks w with ⟨hrun, hpassed⟩ | ⟨e, hrun, hnot⟩
        · have himpl := (implements_iff bodies).mpr hpassed
          have hexist : ∀ m ∈ bodies, m.body < w.heap.functions.size := by
            intro m hm
            rcases himpl.bodies _ (List.mem_map_of_mem hm) with ⟨id, hid, hlt⟩
            cases hid
            exact hlt
          rcases run_addMethods hexist with ⟨heap, hmethods⟩
          rcases run_log { w with
              heap
              tables :=
                { w.tables with
                  instances := enterAll className type bodies w.tables.instances } }
            .debug "instance registered"
            [("class", .text className), ("type", .text type.display)] with ⟨lines, hlog⟩
          rw [hrun, Op.next_ok, Op.run_bind, hmethods, Op.next_ok, hlog]
          exact Or.inl ⟨c, _, rfl, himpl, rfl, registered_of_tables rfl⟩
        · rw [hrun, Op.next_error]
          refine Or.inr ⟨e, rfl, ?_⟩
          intro c' hc' himpl
          cases hc'
          exact hnot ((implements_iff bodies).mp himpl)
      · rw [hbodies, Op.next_error]
        refine Or.inr ⟨e, rfl, ?_⟩
        intro c' _ himpl
        rcases himpl.bodies m hm with ⟨id, hid, _⟩
        rw [hnone] at hid
        cases hid

/-- An instance is registered exactly if its class exists and its methods are all that the class
asks for.  If it is refused, nothing at all has changed; if it is accepted, all its methods are
registered, the last body of each name, and no other entry of the tables has changed. -/
theorem instance_all_or_nothing (w : World) (className : String) (type : Ty)
    (methods : List (String × Option FunctionId)) :
    ((∃ w', (addInstance className type methods).run w = (.ok (), w')) ↔
      ∃ c, w.tables.classes.get? className = some c ∧ w.Implements c methods) ∧
    (∀ e w', (addInstance className type methods).run w = (.error e, w') → w' = w) ∧
    (∀ w', (addInstance className type methods).run w = (.ok (), w') →
      w.Registered w' type methods) := by
  rcases addInstance_cases w className type methods with
    ⟨c, w', hclass, himpl, hrun, hregistered⟩ | ⟨e, hrun, hnot⟩
  · rw [hrun]
    refine ⟨iff_of_true ⟨w', rfl⟩ ⟨c, hclass, himpl⟩, nofun, ?_⟩
    intro w'' heq
    cases heq
    exact hregistered
  · rw [hrun]
    refine ⟨iff_of_false ?_ ?_, ?_, ?_⟩
    · rintro ⟨w', heq⟩
      cases heq
    · rintro ⟨c, hclass, himpl⟩
      exact hnot c hclass himpl
    · intro e' w' heq
      cases heq
      rfl
    · intro w' heq
      cases heq

/-- A class with one method and two functions that implement it for numbers. -/
def showRoom : World where
  heap :=
    { functions :=
        #[{ signature :=
              { name := "plain", spawn := false, params := [⟨"n", .int⟩], effects := [],
                result := .int }
            closure := none
            body := .none },
          { signature :=
              { name := "", spawn := false, params := [⟨"n", .missing⟩], effects := [],
                result := .missing }
            closure := none
            body := .none }] }
  tables :=
    { classes := ({} : Registry).define
        { name := "Show"
          methods :=
            [{ name := "show", signature := .func [.named "a"] [] .any, hasDefault := false }] } }

theorem implements_showRoom :
    ∃ c, showRoom.tables.classes.get? "Show" = some c ∧
      showRoom.Implements c [("show", some 0), ("show", some 1)] := by
  refine ⟨_, rfl, (implements_iff [⟨"show", 0⟩, ⟨"show", 1⟩]).mpr ⟨⟨?_, ?_⟩, ?_⟩⟩
  · decide
  · decide
  · intro m hm
    rcases List.mem_cons.mp hm with rfl | hm
    · exact ⟨_, rfl, Or.inr rfl⟩
    · cases List.mem_singleton.mp hm
      exact ⟨_, rfl, Or.inr rfl⟩

/-- Of two bodies of one method the second one is called, also on a reference to a number.  A
method without a body changes nothing. -/
theorem second_body_registered :
    (∃ w', (addInstance "Show" .int [("show", some 0), ("show", some 1)]).run showRoom =
        (.ok (), w') ∧
      (w'.tables.instances.find? "show" (.ref .int)).map (·.body) = some 1) ∧
    ((addInstance "Show" .int [("show", none)]).run showRoom).2 = showRoom := by
  have haccepted :=
    instance_all_or_nothing showRoom "Show" .int [("show", some 0), ("show", some 1)]
  rcases haccepted.1.mpr implements_showRoom with ⟨w', hrun⟩
  refine ⟨⟨w', hrun, (haccepted.2.2 w' hrun).found "show" 1 rfl (.ref .int) rfl⟩, ?_⟩
  have hrefused := (instance_all_or_nothing showRoom "Show" .int [("show", none)]).2.1
  exact hrefused _ _ rfl

end World
end ScriptCore
