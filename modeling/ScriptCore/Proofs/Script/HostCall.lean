import Mathlib.Data.List.Forall2
import Mathlib.Data.List.Nodup
import ScriptCore.Proofs.Promise.Agreement
import ScriptCore.Proofs.Scope.Detachment
import ScriptCore.Proofs.World.Parameters

/-!
# What host functions receive

Values are passed to a host function by position, and it receives them by
position.  In between they are bound to the names of the parameters.  A name that
several parameters share is bound to the last value, so this is what the function
receives for each of them.  Where the names differ, it receives a copy of every
value in its place.
-/

namespace ScriptCore

namespace NameMap

theorem get?_insert_eq_or {α : Type} (m : NameMap α) (name other : String) (value : α) :
    (m.insert name value).get? other = ([(name, value)].lookup other).or (m.get? other) := by
  rw [get?_insert, List.lookup_cons]
  by_cases heq : other = name
  · rw [if_pos heq, beq_iff_eq.mpr heq]
    rfl
  · rw [if_neg heq, beq_eq_false_iff_ne.mpr heq]
    rfl

end NameMap

namespace World

variable {w w₁ w₂ : World} {n : ScopeId} {s : Scope} {f : Signature}

/-!
## Parameters that share names
-/

theorem run_bindParam {p : Param} {arg : Option VariableId} (hground : w.Grounded)
    (hwidens : w.Widens w₁) (hn : w.scopes.size ≤ n) (hs : w₁.scopes[n]? = some s)
    (hsuits : Suits w f p arg) (hgiven : w.Given arg) (index : Nat) :
    ∃ id w₂, (bindParam f n index p arg).run w₁ = (.ok (), w₂) ∧ w.Widens w₂ ∧ w₁.Retains w₂ ∧
      w₂.scopes[n]? = some { s with bindings := s.bindings.insert p.name id } ∧
      Binds w w₂ (p, arg) (p.name, id) := by
  rcases bindParam_cases hwidens.toRetains hground hgiven hs f index p with
    ⟨_, x, h, hheap, hpassed, hrun⟩ | ⟨failure, hrefusal, _⟩
  · have hn₁ : n < w₁.scopes.size := (Array.getElem?_eq_some_iff.mp hs).1
    refine ⟨w₁.vars.size, _, hrun, hwidens.bound hn hheap _ _, ?_, ?_, rfl, x, ?_, hpassed⟩
    · exact ⟨hheap, fun id u hu => getElem?_push_old hu _⟩
    · exact Array.getElem?_setIfInBounds_self_of_lt hn₁
    · exact Array.getElem?_push_size
  · exact absurd hsuits hrefusal.not_suits

/-- Binding parameters one after another, whatever their names are.  The last binding of a name
counts. -/
theorem run_bindFrom (hground : w.Grounded) (hn : w.scopes.size ≤ n) (params : List Param) :
    ∀ {w₁ : World} {s : Scope} {args : Args} (index : Nat), w.Widens w₁ →
      w₁.scopes[n]? = some s → List.Forall₂ (Suits w f) params args →
      (∀ arg ∈ args, w.Given arg) →
      ∃ made bindings w₂, (bindFrom f n index params args).run w₁ = (.ok (), w₂) ∧
        w.Widens w₂ ∧ w₁.Retains w₂ ∧ w₂.scopes[n]? = some { s with bindings } ∧
        (∀ name, bindings.get? name = (made.reverse.lookup name).or (s.bindings.get? name)) ∧
        List.Forall₂ (Binds w w₂) (params.zip args) made := by
  induction params with
  | nil =>
      intro w₁ s args index hwidens hs hall _
      cases hall
      exact ⟨[], s.bindings, w₁, rfl, hwidens, Retains.refl w₁, hs, fun _ => rfl, .nil⟩
  | cons p params ih =>
      intro w₁ s args index hwidens hs hall hgiven
      cases hall with
      | @cons _ arg _ args hsuits hall =>
          rcases run_bindParam hground hwidens hn hs hsuits (hgiven arg List.mem_cons_self) index
            with ⟨id, w₂, hrun, hwidens₂, hretains, hs₂, hfirst⟩
          rcases ih (index + 1) hwidens₂ hs₂ hall
            (fun a ha => hgiven a (List.mem_cons_of_mem arg ha)) with
            ⟨made, bindings, w₃, hruns, hwidens₃, hretains₃, hs₃, hbindings, hmade⟩
          refine ⟨(p.name, id) :: made, bindings, w₃, ?_, hwidens₃, hretains.trans hretains₃, hs₃,
            ?_, .cons (hfirst.retains hretains₃) hmade⟩
          · rw [bindFrom, Op.run_bind, hrun, Op.next_ok]
            exact hruns
          · intro name
            -- the binding of this parameter counts if no later one has its name
            rw [hbindings, NameMap.get?_insert_eq_or, List.reverse_cons, List.lookup_append,
              Option.or_assoc]

theorem run_bindParams {args : Args} (closure : Option ScopeId) (hground : w.Grounded)
    (hall : List.Forall₂ (Suits w f) f.params args) (hgiven : ∀ arg ∈ args, w.Given arg) :
    ∃ made s w', (bindParams f closure args).run w = (.ok w.scopes.size, w') ∧ w.Retains w' ∧
      w'.scopes[w.scopes.size]? = some s ∧ s.outer = closure ∧
      (∀ name, s.bindings.get? name = made.reverse.lookup name) ∧
      List.Forall₂ (Binds w w') (f.params.zip args) made := by
  rcases run_bindFrom (f := f) hground (Nat.le_refl _) f.params 0
    (Widens.newScope w { outer := closure }) Array.getElem?_push_size hall hgiven with
    ⟨made, bindings, w', hrun, hwidens, _, hs, hbindings, hmade⟩
  refine ⟨made, _, w', ?_, hwidens.toRetains, hs, rfl, ?_, hmade⟩
  · have hnew : (newScope closure).run w =
        (.ok w.scopes.size, { w with scopes := w.scopes.push { outer := closure } }) := rfl
    unfold bindParams
    rw [if_neg (not_not.mpr hall.length_eq.symm), Op.run_bind, hnew, Op.next_ok, Op.run_bind,
      hrun, Op.next_ok, Op.run_pure]
  · intro name
    rw [hbindings]
    exact Option.or_none

theorem find?_outermost (hs : w.scopes[n]? = some s) (houter : s.outer = none) (name : String) :
    w.find? (some n) name = s.bindings.get? name := by
  have hchain : w.scopeChain (some n) = [s] := by
    unfold scopeChain
    cases hsize : w.scopes.size with
    | zero =>
        have hn : n < w.scopes.size := (Array.getElem?_eq_some_iff.mp hs).1
        rw [hsize] at hn
        exact absurd hn (Nat.not_lt_zero n)
    | succ fuel =>
        rw [chain, hs]
        simp only [houter]
        cases fuel with
        | zero => rfl
        | succ fuel => rfl
  unfold find?
  rw [hchain, List.findSome?_cons]
  cases s.bindings.get? name with
  | none => rfl
  | some id => rfl

/-!
## Values as arguments
-/

/-- A parameter accepts the value, of which there can be a copy. -/
structure Acceptable (w : World) (p : Param) (v : Value) : Prop where
  live : w.heap.Live v
  whole : v.Whole
  duplicable : v.isDuplicable = true
  type : ∃ type, w.heap.typeOf v = .ok type ∧ p.type.orAny.equal type = true

/-- New variables hold the values for the arguments.  Apart from log lines, nothing else has
changed. -/
structure Supplied (w w' : World) (vs : List Value) (args : Args) : Prop where
  others : ∃ lines, w' = { w with vars := w'.vars, lines }
  old : ∀ (id : VariableId) (v : Variable), w.vars[id]? = some v → w'.vars[id]? = some v
  new : ∀ (id : VariableId) (v : Variable), w'.vars[id]? = some v →
    w.vars[id]? = some v ∨ v.slot ∈ vs
  args : List.Forall₂ (fun v arg => ∃ id, arg = some id ∧
    w'.vars[id]? = some { declared := .missing, slot := v }) vs args

namespace Supplied

variable {vs : List Value} {args : Args}

theorem nil (w : World) : Supplied w w [] [] where
  others := ⟨w.lines, rfl⟩
  old _ _ hv := hv
  new _ _ hv := Or.inl hv
  args := .nil

theorem cons {v : Value}
    (hrest : Supplied { w with vars := w.vars.push { declared := .missing, slot := v } } w₁ vs
      args) : Supplied w w₁ (v :: vs) (some w.vars.size :: args) where
  others := hrest.others
  old id u hu := hrest.old id u (getElem?_push_old hu _)
  new id u hu := by
    rcases hrest.new id u hu with hpushed | hmem
    · change (w.vars.push _)[id]? = some u at hpushed
      rw [Array.getElem?_push] at hpushed
      by_cases hid : id = w.vars.size
      · rw [if_pos hid] at hpushed
        cases hpushed
        exact Or.inr List.mem_cons_self
      · rw [if_neg hid] at hpushed
        exact Or.inl hpushed
    · exact Or.inr (List.mem_cons_of_mem v hmem)
  args := .cons ⟨_, rfl, hrest.old _ _ Array.getElem?_push_size⟩ hrest.args

theorem logged (hsupplied : Supplied w w₁ vs args) (lines : List String) :
    Supplied w { w₁ with lines } vs args where
  others := by
    rcases hsupplied.others with ⟨_, hothers⟩
    exact ⟨lines, by rw [hothers]⟩
  old := hsupplied.old
  new := hsupplied.new
  args := hsupplied.args

theorem heap (hsupplied : Supplied w w₁ vs args) : w₁.heap = w.heap := by
  rcases hsupplied.others with ⟨_, hothers⟩
  rw [hothers]

theorem retains (hsupplied : Supplied w w₁ vs args) : w.Retains w₁ where
  heap := by
    rw [hsupplied.heap]
    exact Heap.Widens.refl w.heap
  vars := hsupplied.old

theorem grounded (hsupplied : Supplied w w₁ vs args) (hground : w.Grounded)
    (hlive : ∀ v ∈ vs, w.heap.Live v) : w₁.Grounded where
  closed := by
    rw [hsupplied.heap]
    exact hground.closed
  live id v hv := by
    rw [hsupplied.heap]
    rcases hsupplied.new id v hv with hold | hmem
    · exact hground.live id v hold
    · exact hlive v.slot hmem

end Supplied

theorem isReference_of_isDuplicable {v : Value} (hdup : v.isDuplicable = true) :
    v.isReference = false := by
  cases v with
  | reference cell => cases hdup
  | _ => rfl

theorem Acceptable.content {p : Param} {v : Value} (haccept : w.Acceptable p v) (h : Heap) :
    h.contentOf v = v :=
  Heap.contentOf_of_not_reference h (isReference_of_isDuplicable haccept.duplicable)

theorem Supplied.suits {params : List Param} {vs : List Value} {args : Args}
    (hsupplied : Supplied w w₁ vs args) (hplain : ∀ p ∈ params, p.isReference = false)
    (hall : List.Forall₂ w.Acceptable params vs) :
    List.Forall₂ (Suits w₁ f) params args ∧ ∀ arg ∈ args, w₁.Given arg := by
  have hheap := hsupplied.heap
  have hargs := hsupplied.args
  clear hsupplied
  induction hall generalizing args with
  | nil =>
      cases hargs
      exact ⟨.nil, fun arg harg => absurd harg List.not_mem_nil⟩
  | @cons p v params vs haccept _ ih =>
      cases hargs with
      | cons hfirst hargs =>
          rcases hfirst with ⟨id, rfl, hid⟩
          rcases haccept.type with ⟨type, htype, hequal⟩
          rcases ih (fun p hp => hplain p (List.mem_cons_of_mem _ hp)) hargs with ⟨hsuits, hgiven⟩
          refine ⟨.cons ⟨id, _, type, rfl, hid, ?_, hequal, ?_⟩ hsuits, ?_⟩
          · rw [hheap]
            exact htype
          · unfold Passable
            rw [hplain p List.mem_cons_self, if_neg Bool.false_ne_true, haccept.content]
            exact haccept.duplicable
          · intro arg harg
            rcases List.mem_cons.mp harg with rfl | hmem
            · rintro id' ⟨⟩
              refine ⟨_, hid, ?_⟩
              rw [haccept.content]
              exact haccept.whole
            · exact hgiven arg hmem

theorem exists_acceptable {params : List Param} {vs : List Value} {v : Value}
    (hall : List.Forall₂ w.Acceptable params vs) (hmem : v ∈ vs) : ∃ p, w.Acceptable p v := by
  induction hall with
  | nil => cases hmem
  | cons hfirst _ ih =>
      rcases List.mem_cons.mp hmem with rfl | hmem
      · exact ⟨_, hfirst⟩
      · exact ih hmem

theorem run_resolve_function {name : String} {fid : FunctionId}
    (hsources : w.sources = Source.standard) (hname : w.tables.functions.get? name = some fid)
    (scope : Option ScopeId) (args : Args) :
    ∃ lines, (resolve scope name args).run w = (.ok fid, { w with lines }) := by
  rcases run_log w .debug "resolved function"
    [("name", .text name), ("source", .text Source.functions.text)] with ⟨lines, hlog⟩
  have hask : (askSource scope name args .functions).run w = (.ok (some fid), w) := by
    unfold askSource
    rw [Op.run_bind, Op.run_get, Op.next_ok, hname]
    rfl
  have hfound : (askSources scope name args Source.standard).run w =
      (.ok fid, { w with lines }) := by
    rw [Source.standard, askSources, Op.run_bind, hask, Op.next_ok]
    simp only
    rw [Op.run_bind, hlog, Op.next_ok, Op.run_pure]
  rw [← hsources] at hfound
  exact ⟨lines, hfound⟩

end World

namespace Script

open World Exec

theorem run_supply (name : String) :
    ∀ (vs : List Value) (s : Session), (∀ v ∈ vs, Bindable s.world.heap .missing v) →
      ∃ (args : Args) (w' : World),
        (vs.mapM fun v => some <$> op (Op.withName name (bindValue .missing v))).run s =
          .done { s with world := w' } (.ok args) ∧ Supplied s.world w' vs args := by
  intro vs
  induction vs with
  | nil =>
      intro s _
      exact ⟨[], s.world, rfl, .nil s.world⟩
  | cons v vs ih =>
      intro s hbindable
      have hfirst : (some <$> op (Op.withName name (bindValue .missing v)) :
          Exec (Option VariableId)).run s = .done { s with world := { s.world with
            vars := s.world.vars.push { declared := .missing, slot := v } } }
            (.ok (some s.world.vars.size)) := by
        rw [← bind_pure_comp, Exec.run_bind, run_op, Op.run_withName,
          run_bindValue (hbindable v List.mem_cons_self)]
        rfl
      rcases ih { s with world := { s.world with
            vars := s.world.vars.push { declared := .missing, slot := v } } }
        (fun u hu => hbindable u (List.mem_cons_of_mem v hu)) with ⟨args, w', hrun, hsupplied⟩
      refine ⟨some s.world.vars.size :: args, w', ?_, hsupplied.cons⟩
      rw [List.mapM_cons, Exec.run_bind, hfirst, Task.andThen, next, Exec.run_bind, hrun]
      rfl

/-!
## Host functions
-/

def hostFunction (name : String) (params : List Param) (result : Ty) (steps : List Step)
    (fid : FunctionId) : Function where
  signature := { name, spawn := false, params, effects := [], result }
  closure := none
  body := .host name fid steps

structure Hosts (w : World) (name : String) (params : List Param) (result : Ty) (steps : List Step)
    (fid : FunctionId) : Prop where
  named : w.tables.functions.get? name = some fid
  function : w.heap.functions[fid]? = some (hostFunction name params result steps fid)

variable {name : String} {params : List Param} {result : Ty} {steps : List Step}
variable {fid : FunctionId}

theorem run_addFunction {w : World} {f : Function} (hf : w.heap.functions[fid]? = some f)
    (hname : f.signature.name = name) :
    ∃ w', (addFunction name (some fid)).run w = (.ok (), w') ∧
      w'.tables.functions.get? name = some fid ∧ w'.heap.functions[fid]? = some f := by
  have hfid : fid < w.heap.functions.size := (Array.getElem?_eq_some_iff.mp hf).1
  unfold addFunction nameFunction
  simp only
  rw [Op.run_bind, Op.run_bind, run_function hf, Op.next_ok]
  subst hname
  cases f.signature.name.isEmpty with
  | true =>
      refine ⟨_, rfl, NameMap.get?_insert_self _ _ _, ?_⟩
      exact Array.getElem?_setIfInBounds_self_of_lt hfid
  | false => exact ⟨_, rfl, NameMap.get?_insert_self _ _ _, hf⟩

theorem run_bindHost (name : String) (params : List Param) (result : Ty) (steps : List Step)
    (s : Session) :
    ∃ fid w', (bindHost name params result steps).run s = .done { s with world := w' } (.ok ()) ∧
      Hosts w' name params result steps fid := by
  let fid := s.world.heap.functions.size
  let f := hostFunction name params result steps fid
  let w₁ : World := { s.world with heap := (s.world.heap.newFunction f).2 }
  have hnew : w₁.heap.functions[fid]? = some f := Array.getElem?_push_size
  have hbind : (bindHost name params result steps).run s =
      (op (addFunction name (some fid))).run { s with world := w₁ } := rfl
  have hname : f.signature.name = name := rfl
  rcases run_addFunction hnew hname with ⟨w', hrun, hnamed, hfunction⟩
  refine ⟨fid, w', ?_, hnamed, hfunction⟩
  rw [hbind, run_op, hrun]

def lastValue? (params : List Param) (vs : List Value) (name : String) : Option Value :=
  ((params.map (·.name)).zip vs).reverse.lookup name

/-- What the parameters stand for in the body: for each the last value for its name. -/
def delivered (params : List Param) (vs : List Value) : List Value :=
  params.map fun p => (lastValue? params vs p.name).getD .absent

theorem run_hostArg {s : Session} {scope : ScopeId} {p : Param} {id : VariableId} {v : Variable}
    (hfind : s.world.find? (some scope) p.name = some id) (hv : s.world.vars[id]? = some v)
    (hplain : v.slot.isReference = false) (name : String) :
    (hostArg name scope p).run s = .done s (.ok v.slot) := by
  unfold hostArg
  rw [Exec.run_bind, Exec.run_get, Task.andThen, next, hfind]
  simp only
  rw [run_op, Op.run_bind, run_slot hv, Op.next_ok]
  unfold contentOf
  rw [Op.run_bind, Op.run_get, Op.next_ok, Op.run_pure,
    Heap.contentOf_of_not_reference _ hplain]

theorem run_mapM_answers {α β : Type} {R : α → β → Prop} {ask : α → Exec β} {s : Session}
    (l : List α) (hask : ∀ a ∈ l, ∃ b, (ask a).run s = .done s (.ok b) ∧ R a b) :
    ∃ bs, (l.mapM ask).run s = .done s (.ok bs) ∧ List.Forall₂ R l bs := by
  induction l with
  | nil => exact ⟨[], rfl, .nil⟩
  | cons a l ih =>
      rcases hask a List.mem_cons_self with ⟨b, hrun, hb⟩
      rcases ih (fun a ha => hask a (List.mem_cons_of_mem _ ha)) with ⟨bs, hruns, hbs⟩
      refine ⟨b :: bs, ?_, .cons hb hbs⟩
      rw [List.mapM_cons, Exec.run_bind, hrun, Task.andThen, next, Exec.run_bind, hruns]
      rfl

theorem exists_lastValue {vs : List Value} {p : Param} (hlength : params.length = vs.length)
    (hmem : p ∈ params) : ∃ v, lastValue? params vs p.name = some v := by
  apply Option.ne_none_iff_exists'.mp
  intro hnone
  apply NameMap.lookup_eq_none_iff.mp hnone
  rw [List.map_reverse, List.mem_reverse, List.map_fst_zip (by simp [hlength])]
  exact List.mem_map_of_mem hmem

/-- The variable holds a copy of the value, and no reference. -/
def HoldsCopy (w w' : World) (v : Value) (id : VariableId) : Prop :=
  ∃ u, w'.vars[id]? = some u ∧ u.slot.isReference = false ∧ w.heap.Copied w'.heap v u.slot

theorem holdsCopy_of_binds {w w₁ w₂ : World} {vs : List Value} {args : Args}
    {made : List (String × VariableId)} (hheap : w₁.heap = w.heap)
    (hplain : ∀ p ∈ params, p.isReference = false)
    (hall : List.Forall₂ w.Acceptable params vs)
    (hargs : List.Forall₂ (fun v arg => ∃ id, arg = some id ∧
      w₁.vars[id]? = some { declared := .missing, slot := v }) vs args)
    (hmade : List.Forall₂ (Binds w₁ w₂) (params.zip args) made) :
    List.Forall₂ (fun a e => e.1 = a.1 ∧ HoldsCopy w w₂ a.2 e.2) ((params.map (·.name)).zip vs)
      made := by
  induction hall generalizing args made with
  | nil =>
      cases hmade
      exact .nil
  | @cons p v params vs haccept _ ih =>
      cases hargs with
      | cons hfirst hargs =>
          cases hmade with
          | cons hbinds hmade =>
              refine .cons ?_ (ih (fun p hp => hplain p (List.mem_cons_of_mem _ hp)) hargs hmade)
              rcases hfirst with ⟨id, rfl, hid⟩
              rcases hbinds with ⟨hname, x, hx, hpassed⟩
              cases hpassed with
              | cell href _ _ => cases href.symm.trans (hplain p List.mem_cons_self)
              | copy _ hv hcopied hreference _ =>
                  cases hid.symm.trans hv
                  rw [haccept.content, hheap] at hcopied
                  exact ⟨hname, _, hx, hreference, hcopied⟩

theorem run_evaluateBody_host {invoke : Invoke} {thread : ThreadId} {f g : Function}
    {scope : ScopeId} {owner : FunctionId} {s : Session} {args : List Value}
    (hbody : f.body = .host name owner steps)
    (howner : s.world.heap.functions[owner]? = some g)
    (hargs : (g.signature.params.mapM (hostArg name scope)).run s = .done s (.ok args)) :
    (evaluateBody invoke thread f scope).run s =
      (runBody invoke { args, edits := s.edits.length } steps).run s := by
  unfold evaluateBody
  rw [hbody]
  simp only
  rw [Exec.run_bind, run_op, run_function howner, Task.andThen, next, Exec.run_bind, hargs]
  rfl

/-- A call of a host function binds the parameters, and its body receives for each of them a copy of
the last value for its name. -/
theorem run_host {w : World} {s : Session} {vs : List Value} {args : Args}
    (hhosts : Hosts w name params result steps fid) (hground : w.Grounded)
    (hplain : ∀ p ∈ params, p.isReference = false)
    (hall : List.Forall₂ w.Acceptable params vs) (hsupplied : Supplied w s.world vs args)
    (depth : Nat) (thread : ThreadId) :
    ∃ received w', s.world.Retains w' ∧
      List.Forall₂ (fun p x => ∃ v, lastValue? params vs p.name = some v ∧
        w.heap.Copied w'.heap v x) params received ∧
      (invoke (depth + 1) thread fid args false).run s =
        ((runBody (invoke depth) { args := received, edits := s.edits.length } steps).run
          { s with world := w' }).andThen fun u outcome =>
            .done u (returned (hostFunction name params result steps fid).signature u.world.heap
              outcome) := by
  have hfunction : s.world.heap.functions[fid]? =
      some (hostFunction name params result steps fid) := by
    rw [hsupplied.heap]
    exact hhosts.function
  have hlive : ∀ v ∈ vs, w.heap.Live v := by
    intro v hmem
    rcases exists_acceptable hall hmem with ⟨p, haccept⟩
    exact haccept.live
  rcases hsupplied.suits (f := (hostFunction name params result steps fid).signature) hplain hall
    with ⟨hsuits, hgiven⟩
  rcases run_bindParams none (hsupplied.grounded hground hlive) hsuits hgiven with
    ⟨made, scope, w', hrun, hretains, hscope, houter, hbindings, hmade⟩
  have hbound : Bound s fid args (hostFunction name params result steps fid) s.world.scopes.size
      { s with world := w' } := ⟨hfunction, w', hrun, rfl⟩
  -- the scope is searched by name from the last binding on, and so are the values
  have hcopies := List.forall₂_reverse_iff.mpr
    (holdsCopy_of_binds hsupplied.heap hplain hall hsupplied.args hmade)
  have hanswers : ∀ p ∈ params, ∃ x, (hostArg name s.world.scopes.size p).run
      { s with world := w' } = .done { s with world := w' } (.ok x) ∧
      ∃ v, lastValue? params vs p.name = some v ∧ w.heap.Copied w'.heap v x := by
    intro p hp
    rcases exists_lastValue hall.length_eq hp with ⟨v, hv⟩
    have hrelated : Option.Rel _ (lastValue? params vs p.name) (made.reverse.lookup p.name) :=
      NameMap.lookup_related hcopies p.name
    generalize hid : made.reverse.lookup p.name = found at hrelated
    rw [hv] at hrelated
    cases hrelated with
    | some hholds =>
        rcases hholds with ⟨u, hu, hreference, hcopied⟩
        refine ⟨u.slot, run_hostArg ?_ hu hreference name, v, hv, hcopied⟩
        rw [find?_outermost hscope houter, hbindings]
        exact hid
  rcases run_mapM_answers params hanswers with ⟨received, hreceived, hvalues⟩
  refine ⟨received, w', hretains, hvalues, ?_⟩
  rw [hbound.run_invoke depth thread false]
  show (runCall (invoke depth) thread (hostFunction name params result steps fid) _ false).run _ = _
  rw [run_runCall, run_evaluateBody_host rfl (hretains.heap.grows.functions _ _ hfunction)
    hreceived]

theorem run_callPlain_host {s : Session} {vs : List Value} (hground : s.world.Grounded)
    (hsources : s.world.sources = Source.standard)
    (hhosts : Hosts s.world name params result steps fid)
    (hplain : ∀ p ∈ params, p.isReference = false)
    (hall : List.Forall₂ s.world.Acceptable params vs) (depth : Nat) (thread : ThreadId) :
    ∃ received w', s.world.Retains w' ∧
      List.Forall₂ (fun p x => ∃ v, lastValue? params vs p.name = some v ∧
        s.world.heap.Copied w'.heap v x) params received ∧
      (callPlain (invoke (depth + 1)) thread name vs false).run s =
        ((runBody (invoke depth) { args := received, edits := s.edits.length } steps).run
          { s with world := w' }).andThen fun u outcome =>
            .done u (returned (hostFunction name params result steps fid).signature u.world.heap
              outcome) := by
  have hbindable : ∀ v ∈ vs, Bindable s.world.heap .missing v := by
    intro v hmem
    rcases exists_acceptable hall hmem with ⟨p, haccept⟩
    rcases haccept.type with ⟨type, htype, _⟩
    exact ⟨haccept.whole.isAbsent, type, htype, Or.inl rfl⟩
  rcases run_supply name vs s hbindable with ⟨args, w₁, hsupply, hsupplied⟩
  have hothers : w₁.sources = s.world.sources ∧ w₁.tables = s.world.tables := by
    rcases hsupplied.others with ⟨lines, hothers⟩
    rw [hothers]
    exact ⟨rfl, rfl⟩
  rcases run_resolve_function (hothers.1.trans hsources) (hothers.2 ▸ hhosts.named) none args with
    ⟨lines, hresolve⟩
  rcases run_host (s := { s with world := { w₁ with lines } }) hhosts hground hplain hall
    (hsupplied.logged lines) depth thread with ⟨received, w', hretains, hvalues, hrun⟩
  refine ⟨received, w', (hsupplied.logged lines).retains.trans hretains, hvalues, ?_⟩
  unfold callPlain
  rw [Exec.run_bind, hsupply, Task.andThen, next, Exec.run_bind, run_op, hresolve]
  exact hrun

/-- The received values are copies of the given ones if and only if these have the contents of the
delivered ones. -/
theorem copies_iff {h h' : Heap} {us vs xs : List Value}
    (hcopies : List.Forall₂ (h.Copied h') us xs) :
    List.Forall₂ (h.Copied h') vs xs ↔ us.map h.reveal = vs.map h.reveal := by
  induction hcopies generalizing vs with
  | nil => cases vs <;> simp
  | @cons u x us xs hfirst _ ih =>
      cases vs with
      | nil => simp
      | cons v vs =>
          rw [List.forall₂_cons, List.map_cons, List.map_cons, List.cons.injEq, ih]
          apply and_congr_left'
          constructor
          · intro hcopied
            exact hfirst.content.symm.trans hcopied.content
          · intro hsame
            refine ⟨hfirst.heap, hfirst.live, hfirst.content.trans hsame, ?_⟩
            rw [← Heap.isDuplicable_of_reveal hsame]
            exact hfirst.duplicable

theorem delivered_of_nodup {vs : List Value} (hnames : (params.map (·.name)).Nodup)
    (hlength : params.length = vs.length) : delivered params vs = vs := by
  have hdistinct : NameMap.Distinct ((params.map (·.name)).zip vs).reverse := by
    unfold NameMap.Distinct
    rw [List.map_reverse, List.nodup_reverse, List.map_fst_zip (by simp [hlength])]
    exact hnames
  have hplaces : List.Forall₂ (· = ·) (delivered params vs) vs := by
    unfold delivered
    rw [List.forall₂_map_left_iff, List.forall₂_iff_zip]
    refine ⟨hlength, ?_⟩
    intro p v hmem
    have hpair : (p.name, v) ∈ ((params.map (·.name)).zip vs).reverse := by
      rw [List.mem_reverse, List.zip_map_left]
      exact List.mem_map_of_mem (f := Prod.map Param.name id) hmem
    have hfound : lastValue? params vs p.name = some v := hdistinct.lookup_eq_some_iff.mpr hpair
    rw [hfound]
    rfl
  exact List.forall₂_eq_eq_eq ▸ hplaces

/-- A host function that is called with acceptable values runs once, and then its result is checked.
Its arguments are copies of the delivered values, which are the last ones for the names of the
parameters.  So they are copies of the given values if and only if every value has the content of
the last one for its name, as it does where the names differ.  Nothing changes for the caller
meanwhile. -/
theorem host_receives_last_values {s : Session} {vs : List Value} (hground : s.world.Grounded)
    (hsources : s.world.sources = Source.standard)
    (hhosts : Hosts s.world name params result steps fid)
    (hplain : ∀ p ∈ params, p.isReference = false)
    (hall : List.Forall₂ s.world.Acceptable params vs) (depth : Nat) (thread : ThreadId) :
    (∀ s₀, ∃ fid w', (bindHost name params result steps).run s₀ =
      .done { s₀ with world := w' } (.ok ()) ∧ Hosts w' name params result steps fid) ∧
    ∃ args w', (callPlain (invoke (depth + 1)) thread name vs false).run s =
        ((runBody (invoke depth) { args, edits := s.edits.length } steps).run
          { s with world := w' }).andThen (fun u outcome =>
            .done u (returned (hostFunction name params result steps fid).signature u.world.heap
              outcome)) ∧
      s.world.Retains w' ∧
      List.Forall₂ (s.world.heap.Copied w'.heap) (delivered params vs) args ∧
      (List.Forall₂ (s.world.heap.Copied w'.heap) vs args ↔
        (delivered params vs).map s.world.heap.reveal = vs.map s.world.heap.reveal) ∧
      ((params.map (·.name)).Nodup → List.Forall₂ (s.world.heap.Copied w'.heap) vs args) := by
  refine ⟨run_bindHost name params result steps, ?_⟩
  rcases run_callPlain_host hground hsources hhosts hplain hall depth thread with
    ⟨args, w', hretains, hvalues, hrun⟩
  have hdelivered : List.Forall₂ (s.world.heap.Copied w'.heap) (delivered params vs) args := by
    unfold delivered
    rw [List.forall₂_map_left_iff]
    apply hvalues.imp
    rintro p x ⟨v, hv, hcopied⟩
    rw [hv]
    exact hcopied
  refine ⟨args, w', hrun, hretains, hdelivered, copies_iff hdelivered, ?_⟩
  intro hnames
  rw [delivered_of_nodup hnames hall.length_eq] at hdelivered
  exact hdelivered

def twins : List Param :=
  [{ name := "x", type := .missing }, { name := "x", type := .missing }]

/-- A session with a host function that gives back its first argument. -/
def withTwins : Session where
  world :=
    { heap :=
        { functions := #[hostFunction "first" twins .missing
            [.mk none none (.argument 0) (.primitive .finish)] 0] }
      tables := { functions := { entries := [("first", 0)] } } }

theorem grounded_withTwins : withTwins.world.Grounded where
  closed _ := trivial
  live _ _ hv := by cases hv

theorem acceptable_withTwins (b : Bool) :
    withTwins.world.Acceptable { name := "x", type := .missing } (.bool b) where
  live := trivial
  whole := by
    intro hpart
    cases hpart
  duplicable := rfl
  type := ⟨.bool, rfl, by decide⟩

theorem hosts_withTwins : Hosts withTwins.world "first" twins .missing
    [.mk none none (.argument 0) (.primitive .finish)] 0 :=
  ⟨rfl, rfl⟩

theorem acceptable_twins :
    List.Forall₂ withTwins.world.Acceptable twins [.bool true, .bool false] :=
  .cons (acceptable_withTwins true) (.cons (acceptable_withTwins false) .nil)

theorem twins_receive_last_value :
    withTwins.world.Grounded ∧ Hosts withTwins.world "first" twins .missing
        [.mk none none (.argument 0) (.primitive .finish)] 0 ∧
      List.Forall₂ withTwins.world.Acceptable twins [.bool true, .bool false] ∧
      ∃ (args : List Value) (w' : World),
        List.Forall₂ (withTwins.world.heap.Copied w'.heap) [.bool false, .bool false] args ∧
        ¬ List.Forall₂ (withTwins.world.heap.Copied w'.heap) [.bool true, .bool false] args := by
  rcases (host_receives_last_values grounded_withTwins rfl hosts_withTwins (by decide)
    acceptable_twins 0 0).2 with ⟨args, w', _, _, hdelivered, hiff, _⟩
  refine ⟨grounded_withTwins, hosts_withTwins, acceptable_twins, args, w', hdelivered, ?_⟩
  rw [hiff]
  intro hsame
  cases hsame

/-- The function gives back its first argument, and this is the second value. -/
theorem twins_lose_first_value :
    (bindHost "first" twins .missing [.mk none none (.argument 0) (.primitive .finish)]).run
        { world := {} } = .done withTwins (.ok ()) ∧
      ∃ u, (callPlain (invoke 1) 0 "first" [.bool true, .bool false] false).run withTwins =
        .done u (.ok (.bool false)) := by
  refine ⟨rfl, ?_⟩
  rcases run_callPlain_host grounded_withTwins rfl hosts_withTwins (by decide) acceptable_twins 0 0
    with ⟨args, w', _, hvalues, hrun⟩
  cases hvalues with
  | @cons _ x _ _ hfirst _ =>
      rcases hfirst with ⟨v, hv, hcopied⟩
      cases hv
      have hx : x = .bool false := by
        have hcontent := hcopied.content
        cases x <;> cases hcontent
        rfl
      subst hx
      have htype : w'.heap.typeOf (orUnit (.bool false)) = .ok .bool := hcopied.typeOf
      have hcheck : Ty.check .missing .bool = .ok () := rfl
      refine ⟨{ withTwins with world := w' }, hrun.trans ?_⟩
      show Task.done _ (returned _ w'.heap (.ok (.bool false))) = _
      simp only [returned, htype, hostFunction, hcheck]
      rfl

end Script
end ScriptCore
