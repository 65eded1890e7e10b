import Mathlib.Data.List.Forall2
import ScriptCore.Proofs.NameMap
import ScriptCore.Proofs.World.Widening
import ScriptCore.World.Binding

/-!
# What parameters are bound to

Parameters are bound from left to right, and the first argument that does not
suit its parameter stops the binding.  Since nothing that an argument holds
changes on the way, every position is judged by the world before the call.  A
reference parameter shares the cell of its argument, and a copy leads to no cell;
so the new scope reaches what the arguments of reference parameters reach, and
nothing else.
-/

namespace ScriptCore
namespace World

variable {w w' w₁ w₂ : World} {id : VariableId} {v : Variable} {n : ScopeId} {s : Scope}
variable {f : Signature} {p : Param} {arg : Option VariableId}

/-!
## Arguments that suit a parameter
-/

/-- A parameter can be bound to what the variable holds: to its cell, or to a copy. -/
def Passable (w : World) (f : Signature) (p : Param) (v : Variable) : Prop :=
  if p.isReference then f.spawn = false ∧ v.slot.isReference = true
  else (w.heap.contentOf v.slot).isDuplicable = true

/-- There is an argument, its type is that of the parameter, and the parameter can be bound to
it. -/
def Suits (w : World) (f : Signature) (p : Param) (arg : Option VariableId) : Prop :=
  ∃ id v type, arg = some id ∧ w.vars[id]? = some v ∧ w.heap.typeOf v.slot = .ok type ∧
    p.type.orAny.equal type = true ∧ Passable w f p v

/-- Why a parameter cannot be bound to what the variable holds. -/
inductive Withheld (w : World) (f : Signature) (p : Param) (v : Variable) : Failure → Prop where
  | threaded (href : p.isReference = true) (hspawn : f.spawn = true) :
      Withheld w f p v (.error (.ofKind .referenceInThreadedCall f.displayName
        ("parameter " ++ p.name ++ " is a reference")))
  | immutable (href : p.isReference = true) (hspawn : f.spawn = false)
      (hplain : v.slot.isReference = false) :
      Withheld w f p v (.error (.ofKind .immutableAssignment f.displayName
        ("reference parameter " ++ p.name ++ " needs a mutable argument")))
  | uncopyable {e : Error} (href : p.isReference = false)
      (hunique : (w.heap.contentOf v.slot).isDuplicable = false)
      (hobstacle : (w.heap.read v.slot).obstacle? w.heap.promiseName = some (.error e)) :
      Withheld w f p v (.error (e.withName f.displayName))

/-- Why an argument does not suit the parameter at a position.  What is checked first counts. -/
inductive Refusal (w : World) (f : Signature) (index : Nat) (p : Param) :
    Option VariableId → Failure → Prop where
  | missing : Refusal w f index p none
      (.error (.ofKind .invalidCall f.displayName (paramText index p ++ " is missing")))
  | untyped {id : VariableId} {v : Variable} {stop : Panic} (hv : w.vars[id]? = some v)
      (htype : w.heap.typeOf v.slot = .error stop) :
      Refusal w f index p (some id) (.panic stop)
  | mismatch {id : VariableId} {v : Variable} {type : Ty} (hv : w.vars[id]? = some v)
      (htype : w.heap.typeOf v.slot = .ok type) (hunequal : p.type.orAny.equal type = false) :
      Refusal w f index p (some id)
        (.error (.ofMismatch f.displayName (paramText index p) ⟨p.type.orAny, type⟩))
  | withheld {id : VariableId} {v : Variable} {type : Ty} {failure : Failure}
      (hv : w.vars[id]? = some v) (htype : w.heap.typeOf v.slot = .ok type)
      (hequal : p.type.orAny.equal type = true) (hfailure : Withheld w f p v failure) :
      Refusal w f index p (some id) failure

theorem Withheld.not_passable {failure : Failure} (hwithheld : Withheld w f p v failure) :
    ¬ Passable w f p v := by
  unfold Passable
  cases hwithheld with
  | threaded href hspawn => simp [href, hspawn]
  | immutable href _ hplain => simp [href, hplain]
  | uncopyable href hunique _ => simp [href, hunique]

theorem Refusal.not_suits {index : Nat} {failure : Failure}
    (hrefusal : Refusal w f index p arg failure) : ¬ Suits w f p arg := by
  rintro ⟨id, v, type, rfl, hv, htype, hequal, hpassable⟩
  cases hrefusal with
  | untyped hv' htype' =>
      cases hv.symm.trans hv'
      cases htype.symm.trans htype'
  | mismatch hv' htype' hunequal =>
      cases hv.symm.trans hv'
      cases htype.symm.trans htype'
      cases hequal.symm.trans hunequal
  | withheld hv' _ _ hfailure =>
      cases hv.symm.trans hv'
      exact hfailure.not_passable hpassable

/-!
## One parameter
-/

/-- What a parameter is bound to: the cell of its argument, or a copy of the content, which is not
mutable and refers to no cell. -/
inductive Passed (w : World) (h : Heap) (p : Param) : Option VariableId → Value → Prop where
  | cell {id : VariableId} {v : Variable} {cell : CellId} (href : p.isReference = true)
      (hv : w.vars[id]? = some v) (hslot : v.slot = .reference cell) :
      Passed w h p (some id) (.reference cell)
  | copy {id : VariableId} {v : Variable} {x : Value} (href : p.isReference = false)
      (hv : w.vars[id]? = some v) (hcopied : w.heap.Copied h (w.heap.contentOf v.slot) x)
      (hplain : x.isReference = false) (hcells : x.cells = []) : Passed w h p (some id) x

theorem Passed.widens {h h' : Heap} {x : Value} (hpassed : Passed w h p arg x)
    (hwidens : h.Widens h') : Passed w h' p arg x := by
  cases hpassed with
  | cell href hv hslot => exact Passed.cell href hv hslot
  | copy href hv hcopied hplain hcells =>
      exact Passed.copy href hv (hcopied.widens hwidens) hplain hcells

theorem run_paramSlot_cases (hretains : w.Retains w₁) (hground : w.Grounded)
    (hv : w.vars[id]? = some v) (hwhole : (w.heap.contentOf v.slot).Whole) (f : Signature)
    (p : Param) :
    (Passable w f p v ∧ ∃ x h, (paramSlot f p id).run w₁ = (.ok x, { w₁ with heap := h }) ∧
      w₁.heap.Widens h ∧ Passed w h p (some id) x) ∨
    ∃ failure, (paramSlot f p id).run w₁ = (.error failure, w₁) ∧ Withheld w f p v failure := by
  unfold paramSlot Passable
  cases href : p.isReference with
  | true =>
      simp only [if_true]
      cases hspawn : f.spawn with
      | true =>
          refine Or.inr ⟨_, ?_, Withheld.threaded href hspawn⟩
          rfl
      | false =>
          simp only [Bool.false_eq_true, if_false]
          rw [Op.run_bind, run_slot (hretains.vars id v hv), Op.next_ok]
          cases hslot : v.slot with
          | reference cell =>
              refine Or.inl ⟨⟨trivial, rfl⟩, _, w₁.heap, rfl, Heap.Widens.refl _, ?_⟩
              exact Passed.cell href hv hslot
          | _ =>
              refine Or.inr ⟨_, rfl, Withheld.immutable href hspawn ?_⟩
              rw [hslot]
              rfl
  | false =>
      simp only [Bool.false_eq_true, if_false]
      rw [Op.run_withName]
      rcases hretains.copyOf_cases hground hv hwhole with
        ⟨hdup, x, h, hrun, hwidens, hcopied, hcells⟩ | ⟨hdup, e, hrun, _, hobstacle⟩
      · rw [hrun, Op.named_ok]
        refine Or.inl ⟨hdup, x, h, rfl, hwidens, ?_⟩
        exact Passed.copy href hv hcopied hcopied.isReference hcells
      · rw [hrun, Op.named_error]
        exact Or.inr ⟨_, rfl, Withheld.uncopyable href hdup hobstacle⟩

theorem run_typeOf_error {value : Value} {stop : Panic}
    (htype : w.heap.typeOf value = .error stop) :
    (typeOf value).run w = (.error (.panic stop), w) := by
  unfold typeOf
  rw [Op.run_look]
  simp only [htype]

theorem run_require_orAny {name detail : String} {expected actual : Ty}
    (hunequal : expected.orAny.equal actual = false) :
    (require name detail expected.orAny actual).run w =
      (.error (.error (.ofMismatch name detail ⟨expected.orAny, actual⟩)), w) := by
  have hgiven : expected.orAny.isMissing = false := by cases expected <;> rfl
  have hcheck : Ty.check expected.orAny actual = .error ⟨expected.orAny, actual⟩ := by
    unfold Ty.check
    rw [hgiven, hunequal]
    rfl
  unfold require
  rw [hcheck]
  rfl

theorem run_bindName (hs : w.scopes[n]? = some s) (name : String) (id : VariableId) :
    (bindName (some n) name id).run w = (.ok (), { w with
      scopes := w.scopes.setIfInBounds n { s with bindings := s.bindings.insert name id } }) := by
  unfold bindName
  rw [Op.run_bind, Op.run_get, Op.next_ok]
  simp only [Option.bind_some, hs, Option.map_some]
  rfl

/-- An argument, if there is one, is a variable with a whole content. -/
def Given (w : World) (arg : Option VariableId) : Prop :=
  ∀ id, arg = some id → ∃ v, w.vars[id]? = some v ∧ (w.heap.contentOf v.slot).Whole

/-- An argument is refused and nothing happens, or it suits the parameter, which is bound to a new
variable. -/
theorem bindParam_cases (hretains : w.Retains w₁) (hground : w.Grounded) (hgiven : w.Given arg)
    (hs : w₁.scopes[n]? = some s) (f : Signature) (index : Nat) (p : Param) :
    (Suits w f p arg ∧ ∃ x h, w₁.heap.Widens h ∧ Passed w h p arg x ∧
      (bindParam f n index p arg).run w₁ = (.ok (), { w₁ with
        heap := h
        vars := w₁.vars.push { declared := p.type, slot := x }
        scopes := w₁.scopes.setIfInBounds n
          { s with bindings := s.bindings.insert p.name w₁.vars.size } })) ∨
    ∃ failure, Refusal w f index p arg failure ∧
      (bindParam f n index p arg).run w₁ = (.error failure, w₁) := by
  cases arg with
  | none => exact Or.inr ⟨_, Refusal.missing, rfl⟩
  | some id =>
      rcases hgiven id rfl with ⟨v, hv, hwhole⟩
      have hpresent := Heap.present_of_content hwhole.isAbsent
      have hsame := hretains.typeOf hground hv
      unfold bindParam
      simp only
      rw [Op.run_bind, run_valueType (hretains.vars id v hv) hpresent]
      cases htype : w.heap.typeOf v.slot with
      | error stop =>
          rw [run_typeOf_error (hsame.trans htype), Op.next_error]
          exact Or.inr ⟨_, Refusal.untyped hv htype, rfl⟩
      | ok type =>
          rw [run_typeOf (hsame.trans htype), Op.next_ok, Op.run_bind]
          cases hequal : p.type.orAny.equal type with
          | false =>
              rw [run_require_orAny hequal, Op.next_error]
              exact Or.inr ⟨_, Refusal.mismatch hv htype hequal, rfl⟩
          | true =>
              rw [run_require w₁ _ _ (Or.inr hequal), Op.next_ok, Op.run_bind]
              rcases run_paramSlot_cases hretains hground hv hwhole f p with
                ⟨hpassable, x, h, hrun, hwidens, hpassed⟩ | ⟨failure, hrun, hwithheld⟩
              · refine Or.inl ⟨⟨id, v, type, rfl, hv, htype, hequal, hpassable⟩, x, h, hwidens,
                  hpassed, ?_⟩
                rw [hrun, Op.next_ok, Op.run_bind, run_addVariable, Op.next_ok]
                rw [run_bindName]
                exact hs
              · rw [hrun, Op.next_error]
                exact Or.inr ⟨failure, Refusal.withheld hv htype hequal hwithheld, rfl⟩

/-!
## All parameters
-/

/-- Nothing of the first world has changed in the second one, which may have more functions and
marks, more variables and more scopes. -/
structure Widens (w w' : World) : Prop extends Retains w w' where
  scopes : ∀ id < w.scopes.size, w'.scopes[id]? = w.scopes[id]?
  others : w' = { w with heap := w'.heap, vars := w'.vars, scopes := w'.scopes }

theorem Widens.refl (w : World) : w.Widens w where
  toRetains := Retains.refl w
  scopes _ _ := rfl
  others := rfl

theorem Widens.newScope (w : World) (s : Scope) :
    w.Widens { w with scopes := w.scopes.push s } where
  heap := Heap.Widens.refl w.heap
  vars _ _ hv := hv
  scopes id hid := by
    change (w.scopes.push s)[id]? = _
    rw [Array.getElem?_push, if_neg (Nat.ne_of_lt hid)]
  others := rfl

theorem Widens.bound (hwidens : w.Widens w₁) (hn : w.scopes.size ≤ n) {h : Heap}
    (hheap : w₁.heap.Widens h) (v : Variable) (s : Scope) :
    w.Widens { w₁ with
      heap := h, vars := w₁.vars.push v, scopes := w₁.scopes.setIfInBounds n s } where
  heap := hwidens.heap.trans hheap
  vars id u hu := getElem?_push_old (hwidens.vars id u hu) v
  scopes id hid := by
    have hne : n ≠ id := fun heq => Nat.not_lt.mpr hn (heq ▸ hid)
    change (w₁.scopes.setIfInBounds n s)[id]? = _
    rw [Array.getElem?_setIfInBounds_ne hne]
    exact hwidens.scopes id hid
  others := by rw [hwidens.others]

/-- The leftmost position whose argument does not suit its parameter fails in this way. -/
inductive Refused (w : World) (f : Signature) : Nat → List Param → Args → Failure → Prop where
  | here {index : Nat} {p : Param} {arg : Option VariableId} {params : List Param} {args : Args}
      {failure : Failure} (hrefusal : Refusal w f index p arg failure) :
      Refused w f index (p :: params) (arg :: args) failure
  | later {index : Nat} {p : Param} {arg : Option VariableId} {params : List Param} {args : Args}
      {failure : Failure} (hsuits : Suits w f p arg)
      (hrest : Refused w f (index + 1) params args failure) :
      Refused w f index (p :: params) (arg :: args) failure

theorem Refused.not_all_suit {index : Nat} {params : List Param} {args : Args} {failure : Failure}
    (hrefused : Refused w f index params args failure) :
    ¬ List.Forall₂ (Suits w f) params args := by
  induction hrefused with
  | here hrefusal =>
      intro hall
      cases hall with
      | cons hfirst _ => exact hrefusal.not_suits hfirst
  | later _ _ ih =>
      intro hall
      cases hall with
      | cons _ hrest => exact ih hrest

/-- A name stands for a new variable of the type of the parameter, which holds what the parameter is
bound to. -/
def Binds (w w' : World) (a : Param × Option VariableId) (e : String × VariableId) : Prop :=
  e.1 = a.1.name ∧ ∃ x, w'.vars[e.2]? = some { declared := a.1.type, slot := x } ∧
    Passed w w'.heap a.1 a.2 x

theorem bindParam_step (hground : w.Grounded) (hwidens : w.Widens w₁) (hn : w.scopes.size ≤ n)
    (hs : w₁.scopes[n]? = some s) (hnew : p.name ∉ s.bindings.entries.map (·.1))
    (hgiven : w.Given arg) (f : Signature) (index : Nat) :
    (Suits w f p arg ∧ ∃ id w₂, (bindParam f n index p arg).run w₁ = (.ok (), w₂) ∧
      w.Widens w₂ ∧ w₁.Retains w₂ ∧
      w₂.scopes[n]? = some
        { s with bindings := { entries := s.bindings.entries ++ [(p.name, id)] } } ∧
      Binds w w₂ (p, arg) (p.name, id)) ∨
    ∃ failure, (bindParam f n index p arg).run w₁ = (.error failure, w₁) ∧
      Refusal w f index p arg failure := by
  rcases bindParam_cases hwidens.toRetains hground hgiven hs f index p with
    ⟨hsuits, x, h, hheap, hpassed, hrun⟩ | ⟨failure, hrefusal, hrun⟩
  · rw [NameMap.insert_new hnew] at hrun
    have hn₁ : n < w₁.scopes.size := (Array.getElem?_eq_some_iff.mp hs).1
    refine Or.inl
      ⟨hsuits, w₁.vars.size, _, hrun, hwidens.bound hn hheap _ _, ?_, ?_, rfl, x, ?_, ?_⟩
    · exact ⟨hheap, fun id u hu => getElem?_push_old hu _⟩
    · exact Array.getElem?_setIfInBounds_self_of_lt hn₁
    · exact Array.getElem?_push_size
    · exact hpassed
  · exact Or.inr ⟨failure, hrun, hrefusal⟩

theorem Binds.retains {a : Param × Option VariableId} {e : String × VariableId}
    (hbinds : Binds w w₁ a e) (hretains : w₁.Retains w₂) : Binds w w₂ a e := by
  rcases hbinds with ⟨hname, x, hx, hpassed⟩
  exact ⟨hname, x, hretains.vars _ _ hx, hpassed.widens hretains.heap⟩

theorem bindFrom_cases (hground : w.Grounded) (hn : w.scopes.size ≤ n) (params : List Param) :
    ∀ {w₁ : World} {s : Scope} {args : Args} {index : Nat}, w.Widens w₁ →
      w₁.scopes[n]? = some s → (s.bindings.entries.map (·.1) ++ params.map (·.name)).Nodup →
      args.length = params.length → (∀ arg ∈ args, w.Given arg) →
      (List.Forall₂ (Suits w f) params args ∧ ∃ made w₂,
        (bindFrom f n index params args).run w₁ = (.ok (), w₂) ∧ w.Widens w₂ ∧ w₁.Retains w₂ ∧
        w₂.scopes[n]? = some { s with bindings := { entries := s.bindings.entries ++ made } } ∧
        List.Forall₂ (Binds w w₂) (params.zip args) made) ∨
      ∃ failure w₂, (bindFrom f n index params args).run w₁ = (.error failure, w₂) ∧
        w.Widens w₂ ∧ Refused w f index params args failure := by
  -- every position is judged by the first world, which the bindings made so far have not changed
  induction params with
  | nil =>
      intro w₁ s args index hwidens hs _ hlength _
      cases List.length_eq_zero_iff.mp hlength
      refine Or.inl ⟨List.Forall₂.nil, [], w₁, rfl, hwidens, Retains.refl w₁, ?_, List.Forall₂.nil⟩
      rw [List.append_nil]
      exact hs
  | cons p params ih =>
      intro w₁ s args index hwidens hs hnames hlength hgiven
      cases args with
      | nil => cases hlength
      | cons arg args =>
          have hnew : p.name ∉ s.bindings.entries.map (·.1) := fun hmem =>
            (List.nodup_append.mp hnames).2.2 _ hmem _ List.mem_cons_self rfl
          rw [bindFrom, Op.run_bind]
          rcases bindParam_step hground hwidens hn hs hnew (hgiven arg List.mem_cons_self) f index
            with ⟨hsuits, id, w₂, hrun, hwidens₂, hretains, hs₂, hfirst⟩ | ⟨failure, hrun, hrefusal⟩
          · rw [hrun, Op.next_ok]
            rcases ih hwidens₂ hs₂ (by simpa using hnames) (Nat.succ.inj hlength)
              (fun a ha => hgiven a (List.mem_cons_of_mem arg ha)) with
              ⟨hall, made, w₃, hruns, hwidens₃, hrest, hs₃, hmade⟩ |
                ⟨failure, w₃, hruns, hwidens₃, hrefused⟩
            · refine Or.inl ⟨List.Forall₂.cons hsuits hall, (p.name, id) :: made, w₃, hruns,
                hwidens₃, hretains.trans hrest, ?_, List.Forall₂.cons (hfirst.retains hrest) hmade⟩
              rw [hs₃, List.append_assoc]
              rfl
            · exact Or.inr ⟨failure, w₃, hruns, hwidens₃, Refused.later hsuits hrefused⟩
          · rw [hrun, Op.next_error]
            exact Or.inr ⟨failure, w₁, rfl, hwidens, Refused.here hrefusal⟩

theorem bindParams_cases {args : Args} (closure : Option ScopeId) (hground : w.Grounded)
    (hnames : (f.params.map (·.name)).Nodup) (hgiven : ∀ arg ∈ args, w.Given arg)
    (hlength : args.length = f.params.length) :
    (List.Forall₂ (Suits w f) f.params args ∧ ∃ s w',
      (bindParams f closure args).run w = (.ok w.scopes.size, w') ∧ w.Widens w' ∧
      w'.scopes[w.scopes.size]? = some s ∧ s.outer = closure ∧
      List.Forall₂ (Binds w w') (f.params.zip args) s.bindings.entries) ∨
    ∃ failure w', (bindParams f closure args).run w = (.error failure, w') ∧ w.Widens w' ∧
      Refused w f 0 f.params args failure := by
  unfold bindParams
  rw [if_neg (not_not.mpr hlength)]
  have hnew : (newScope closure).run w =
      (.ok w.scopes.size, { w with scopes := w.scopes.push { outer := closure } }) := rfl
  rw [Op.run_bind, hnew, Op.next_ok, Op.run_bind]
  rcases bindFrom_cases (f := f) hground (Nat.le_refl _) f.params
    (Widens.newScope w { outer := closure }) Array.getElem?_push_size hnames hlength hgiven with
    ⟨hall, made, w', hrun, hwidens, _, hs, hmade⟩ | ⟨failure, w', hrun, hwidens, hrefused⟩
  · rw [hrun, Op.next_ok, Op.run_pure]
    exact Or.inl ⟨hall, _, w', rfl, hwidens, hs, rfl, hmade⟩
  · rw [hrun, Op.next_error]
    exact Or.inr ⟨failure, w', rfl, hwidens, hrefused⟩

theorem run_bindParams_count {args : Args} (closure : Option ScopeId)
    (hlength : args.length ≠ f.params.length) :
    (bindParams f closure args).run w = (.error (.error (.ofKind .invalidCall f.displayName
      ("expects " ++ toString f.params.length ++ " arguments, got " ++ toString args.length))),
      w) := by
  unfold bindParams
  rw [if_pos hlength]
  rfl

/-!
## Reachable cells
-/

/-- The cell is reachable from a variable that is bound in the scope itself. -/
def ReachedIn (w : World) (s : Scope) (cell : CellId) : Prop :=
  ∃ e ∈ s.bindings.entries, ∃ v, w.vars[e.2]? = some v ∧ w.heap.Leads v.slot cell

/-- The cell is reachable from the argument of a reference parameter. -/
def Lent (w : World) (a : Param × Option VariableId) (cell : CellId) : Prop :=
  a.1.isReference = true ∧ ∃ id v, a.2 = some id ∧ w.vars[id]? = some v ∧
    w.heap.Leads v.slot cell

variable {cell : CellId}

/-- The variable of a parameter leads where its argument leads if they share a cell, and nowhere
otherwise. -/
theorem Binds.leads_iff {a : Param × Option VariableId} {e : String × VariableId}
    (hbinds : Binds w w' a e) (hretains : w.Retains w') :
    (∃ v, w'.vars[e.2]? = some v ∧ w'.heap.Leads v.slot cell) ↔ w.Lent a cell := by
  rcases a with ⟨p, arg⟩
  rcases hbinds with ⟨_, x, hx, hpassed⟩
  rw [hx]
  unfold Lent
  cases hpassed with
  | @cell id v shared href hv hslot =>
      constructor
      · rintro ⟨u, hu, hleads⟩
        cases hu
        refine ⟨href, id, v, rfl, hv, ?_⟩
        rw [hslot]
        exact (Heap.leads_iff_of_cells_eq hretains.heap.cells).mp hleads
      · rintro ⟨_, id', v', hid, hv', hleads⟩
        cases hid
        cases hv.symm.trans hv'
        rw [hslot] at hleads
        exact ⟨_, rfl, (Heap.leads_iff_of_cells_eq hretains.heap.cells).mpr hleads⟩
  | copy href _ _ _ hcells =>
      constructor
      · rintro ⟨u, hu, hleads⟩
        cases hu
        exact absurd hleads (Heap.not_leads_of_no_cells hcells)
      · rintro ⟨href', _⟩
        cases href.symm.trans href'

theorem reachedIn_iff {positions : List (Param × Option VariableId)}
    (hbinds : List.Forall₂ (Binds w w') positions s.bindings.entries) (hretains : w.Retains w') :
    w'.ReachedIn s cell ↔ ∃ a ∈ positions, w.Lent a cell := by
  unfold ReachedIn
  generalize s.bindings.entries = made at hbinds
  induction hbinds with
  | nil => simp
  | cons hfirst _ ih =>
      rw [List.exists_mem_cons_iff, List.exists_mem_cons_iff, ih, hfirst.leads_iff hretains]

theorem not_lent_of_spawn {args : Args} (hall : List.Forall₂ (Suits w f) f.params args)
    (hspawn : f.spawn = true) : ¬ ∃ a ∈ f.params.zip args, w.Lent a cell := by
  rintro ⟨⟨p, arg⟩, hmem, href, _⟩
  rcases List.forall₂_zip hall hmem with ⟨_, v, _, _, _, _, _, hpassable⟩
  unfold Passable at hpassable
  rw [if_pos href, hspawn] at hpassable
  cases hpassable.1

def lending : World where
  heap := { cells := #[.int 1] }
  vars := #[
    { declared := .missing, slot := .reference 0 },
    { declared := .missing, slot := .int 2 }]

def addTo : Signature where
  name := "addTo"
  spawn := false
  params := [{ name := "target", type := .ref .int }, { name := "amount", type := .missing }]
  effects := []
  result := .unit

theorem grounded_lending : lending.Grounded where
  closed := by
    intro cell
    match cell with
    | 0 => trivial
    | n + 1 => trivial
  live := by
    intro id v hv
    match id with
    | 0 =>
        cases hv
        exact Nat.one_pos
    | 1 =>
        cases hv
        trivial
    | n + 2 => cases hv

theorem given_lending : ∀ arg ∈ [some 0, some 1, none], lending.Given arg := by
  intro arg harg id hid
  subst hid
  match id with
  | 0 => exact ⟨_, rfl, fun hpart => nomatch hpart⟩
  | 1 => exact ⟨_, rfl, fun hpart => nomatch hpart⟩
  | n + 2 => simp at harg

theorem suits_lending :
    List.Forall₂ (Suits lending addTo) addTo.params [some 0, some 1] := by
  refine .cons ⟨0, _, .ref .int, rfl, rfl, rfl, by decide, ?_⟩
    (.cons ⟨1, _, .int, rfl, rfl, rfl, by decide, ?_⟩ .nil)
  · exact ⟨rfl, rfl⟩
  · rfl

theorem lent_lending :
    (∃ a ∈ addTo.params.zip [some 0, some 1], lending.Lent a cell) ↔ cell = 0 := by
  constructor
  · rintro ⟨a, hmem, href, id, v, hid, hv, hleads⟩
    cases hmem with
    | head =>
        cases hid
        cases hv
        cases hleads with
        | here hk => exact List.mem_singleton.mp hk
        | through hcell hrest =>
            cases List.mem_singleton.mp hcell
            exact absurd hrest (Heap.not_leads_of_no_cells rfl)
    | tail _ hmem =>
        cases List.mem_singleton.mp hmem
        cases href
  · rintro rfl
    exact ⟨_, List.mem_cons_self, rfl, 0, _, rfl, rfl, .here List.mem_cons_self⟩

end World
end ScriptCore
