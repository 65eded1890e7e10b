import ScriptCore.Proofs.World.Binding
import ScriptCore.Proofs.World.Guard

/-!
# What operations on global variables do

Every declaration makes a variable and binds it at the place of its tier.  A
shared mutable variable that exists already is bound anew inside its lock,
which comes to the same where the lock is free.
-/

namespace ScriptCore
namespace World

variable {w w' : World} {declared : Ty} {value : Value} {name : String} {thread : ThreadId}

/-!
## Declarations
-/

theorem declareLocal_cases {r : Except Failure Unit} (hclosed : w.heap.Closed)
    (hlive : w.heap.Live value)
    (hrun : (declareLocal thread name declared value).run w = (r, w')) :
    ∃ r₁, Placed w (.threadLocal thread name) declared value true r₁ w' ∧
      r = r₁.map fun _ => () := by
  unfold declareLocal at hrun
  rcases Op.bind_cases hrun with ⟨f, hbind, hr⟩ | ⟨id, w₁, hbind, hrest⟩
  · rcases Op.withName_cases hbind with ⟨f', hbind', _⟩ | ⟨id, _, hr'⟩
    · exact ⟨.error f, Placed.failed f (bindMutable_made hclosed hlive hbind'), hr⟩
    · cases hr'
  · rcases Op.withName_cases hbind with ⟨f', _, hr'⟩ | ⟨id', hbind', hr'⟩
    · cases hr'
    · cases hr'
      cases hrest
      exact ⟨.ok id, Placed.bound (bindMutable_made hclosed hlive hbind'), rfl⟩

theorem declareFrozen_cases {r : Except Failure Unit} (hclosed : w.heap.Closed)
    (hlive : w.heap.Live value)
    (hrun : (declareFrozen name declared value).run w = (r, w')) :
    ∃ r₁, Placed w (.frozen name) declared value false r₁ w' ∧ r = r₁.map fun _ => () := by
  unfold declareFrozen at hrun
  rw [Op.run_bind, Op.run_get, Op.next_ok] at hrun
  by_cases hguarded : w.guarded.contains name = true
  · rw [if_pos hguarded] at hrun
    cases hrun
    exact ⟨.error _, Placed.failed _ (Made.refused (.panic .absentValue)), rfl⟩
  rw [if_neg hguarded] at hrun
  rcases Op.bind_cases hrun with ⟨f, hdetach, hr⟩ | ⟨x, w₁, hdetach, hrest⟩
  · rcases Op.withName_cases hdetach with ⟨f', hdetach', _⟩ | ⟨x, _, hr'⟩
    · rcases Op.build_cases hdetach' with ⟨_, _, _, hw⟩ | ⟨_, _, _, hr', _⟩
      · subst hw
        exact ⟨.error f, Placed.failed f (Made.refused f), hr⟩
      · cases hr'
    · cases hr'
  rcases Op.withName_cases hdetach with ⟨f', _, hr'⟩ | ⟨x', hdetach', hr'⟩
  · cases hr'
  cases hr'
  rcases Op.build_cases hdetach' with ⟨f', _, hr', _⟩ | ⟨x', h, hx, hr', hw₁⟩
  · cases hr'
  cases hr'
  subst hw₁
  have hdetached := Heap.detach_ok hclosed hlive hx
  rcases Op.bind_cases hrest with ⟨f, hbind, hr⟩ | ⟨id, w₂, hbind, hmodify⟩
  · rcases Op.withName_cases hbind with ⟨f', hbind', _⟩ | ⟨id, _, hr'⟩
    · have hmade : Made w declared value false _ _ := made_of_bindValue hdetached hbind'
      exact ⟨.error f, Placed.failed f hmade, hr⟩
    · cases hr'
  · rcases Op.withName_cases hbind with ⟨f', _, hr'⟩ | ⟨id', hbind', hr'⟩
    · cases hr'
    · cases hr'
      cases hmodify
      have hmade : Made w declared value false _ _ := made_of_bindValue hdetached hbind'
      exact ⟨.ok id, Placed.bound hmade, rfl⟩

def retarget (name : String) (id : VariableId) : Op Unit := do
  match (← get).guarded.get? name with
  | some g => setGuard name { g with var := id }
  | none => return ()

/-- Bind a shared mutable variable anew, inside its lock if there is one. -/
def rebind (thread : ThreadId) (name : String) (id : VariableId) : Op Unit := do
  match (← get).guarded.get? name with
  | some g => withGuard thread name g fun _ => retarget name id
  | none => setGuard name { var := id }

section

variable {g : Guard} {id : VariableId}

theorem run_retarget (hg : w.guarded.get? name = some g) :
    (retarget name id).run w =
      (.ok (), { w with guarded := w.guarded.insert name { g with var := id } }) := by
  unfold retarget
  rw [Op.run_bind, Op.run_get, Op.next_ok, hg]
  rfl

theorem run_rebind (hg : w.guarded.get? name = some g) :
    (rebind thread name id).run w =
      (withGuard thread name g fun _ => retarget name id).run w := by
  unfold rebind
  simp only [Op.run_bind, Op.run_get, Op.next_ok, hg]

theorem run_rebind_none (hg : w.guarded.get? name = none) :
    (rebind thread name id).run w = (.ok (), w.bindAt id (.guarded name)) := by
  unfold rebind
  rw [Op.run_bind, Op.run_get, Op.next_ok, hg]
  rfl

end

theorem rebind_cases {id : VariableId} {r : Except Failure Unit}
    (hrun : (rebind thread name id).run w = (r, w')) :
    (∃ f, r = .error f ∧ w' = w) ∨ r = .ok () ∧ w' = w.bindAt id (.guarded name) := by
  cases hg : w.guarded.get? name with
  | none =>
      rw [run_rebind_none hg] at hrun
      cases hrun
      exact Or.inr ⟨rfl, rfl⟩
  | some g =>
      rw [run_rebind hg] at hrun
      rcases withGuard_cases hrun with ⟨_, hfailed⟩ | ⟨hfree, w₁, hwork, hw⟩
      · exact Or.inl hfailed
      -- inside the lock the name is bound anew, and leaving it takes the record of the holder away
      have hheld : (w.hold name g thread).guarded.get? name =
          some { g with holder := some thread } := NameMap.get?_insert_self _ _ _
      rw [run_retarget hheld] at hwork
      cases hwork
      refine Or.inr ⟨rfl, ?_⟩
      rw [hw]
      change release _ name false = _
      have hleave : ({ g with var := id, holder := some thread } : Guard).leave false =
          { var := id } := by
        simp [Guard.leave, hfree.2]
      rw [release_regular (NameMap.get?_insert_self _ _ _), hleave, NameMap.insert_insert]
      simp only [hold, NameMap.insert_insert, bindAt]

theorem declareGuarded_eq (thread : ThreadId) (name : String) (declared : Ty) (value : Value) :
    declareGuarded thread name declared value =
      Op.withName name (bindMutable declared value) >>= rebind thread name := rfl

theorem declareGuarded_cases {r : Except Failure Unit} (hclosed : w.heap.Closed)
    (hlive : w.heap.Live value)
    (hrun : (declareGuarded thread name declared value).run w = (r, w')) :
    ∃ r₁, Placed w (.guarded name) declared value true r₁ w' ∧ r = r₁.map fun _ => () := by
  rw [declareGuarded_eq] at hrun
  rcases Op.bind_cases hrun with ⟨f, hbind, hr⟩ | ⟨id, w₁, hbind, hrest⟩
  · rcases Op.withName_cases hbind with ⟨f', hbind', _⟩ | ⟨id, _, hr'⟩
    · exact ⟨.error f, Placed.failed f (bindMutable_made hclosed hlive hbind'), hr⟩
    · cases hr'
  · rcases Op.withName_cases hbind with ⟨f', _, hr'⟩ | ⟨id', hbind', hr'⟩
    · cases hr'
    · cases hr'
      have hmade := bindMutable_made hclosed hlive hbind'
      rcases rebind_cases hrest with ⟨f, hr, hw⟩ | ⟨hr, hw⟩
      · subst hw
        exact ⟨.error f, Placed.failed f hmade, hr⟩
      · subst hw
        exact ⟨.ok id, Placed.bound hmade, hr⟩

theorem run_declare_frozen {id : VariableId} (hfrozen : w.frozen.get? name = some id) (code : Int) :
    (declare thread name code declared value).run w =
      (.error (.error (frozenFault name)), w) := by
  unfold declare
  rw [Op.run_bind, Op.run_get, Op.next_ok, if_pos (NameMap.contains_of_some hfrozen)]
  rfl

theorem run_declare_shared (hfrozen : w.frozen.get? name = none) :
    (declare thread name 2 declared value).run w =
      (declareGuarded thread name declared value).run w := by
  unfold declare
  rw [Op.run_bind, Op.run_get, Op.next_ok, if_neg (NameMap.not_contains_of_none hfrozen)]
  rfl

theorem declare_cases {code : Int} {r : Except Failure Unit} (hclosed : w.heap.Closed)
    (hlive : w.heap.Live value)
    (hrun : (declare thread name code declared value).run w = (r, w')) :
    (∃ f, r = .error f ∧ w' = w) ∨
      ∃ tier r₁, Tier.ofCode? code = some tier ∧
        Placed w (tier.place thread name) declared value tier.isMutable r₁ w' ∧
        r = r₁.map fun _ => () := by
  unfold declare at hrun
  rw [Op.run_bind, Op.run_get, Op.next_ok] at hrun
  by_cases hfrozen : w.frozen.contains name = true
  · rw [if_pos hfrozen] at hrun
    cases hrun
    exact Or.inl ⟨_, rfl, rfl⟩
  rw [if_neg hfrozen] at hrun
  cases htier : Tier.ofCode? code with
  | none =>
      rw [htier] at hrun
      cases hrun
      exact Or.inl ⟨_, rfl, rfl⟩
  | some tier =>
      rw [htier] at hrun
      refine Or.inr ⟨tier, ?_⟩
      cases tier with
      | threadLocal =>
          rcases declareLocal_cases hclosed hlive hrun with ⟨r₁, hplaced, hr⟩
          exact ⟨r₁, rfl, hplaced, hr⟩
      | sharedImmutable =>
          rcases declareFrozen_cases hclosed hlive hrun with ⟨r₁, hplaced, hr⟩
          exact ⟨r₁, rfl, hplaced, hr⟩
      | sharedMutable =>
          rcases declareGuarded_cases hclosed hlive hrun with ⟨r₁, hplaced, hr⟩
          exact ⟨r₁, rfl, hplaced, hr⟩

theorem declareGlobal_cases {code : Int} {r : Except Failure Unit} (hclosed : w.heap.Closed)
    (hlive : w.heap.Live value)
    (hrun : (declareGlobal thread name code declared value).run w = (r, w')) :
    (∃ f, r = .error f ∧ w' = w) ∨
      ∃ tier r₁ w₁ lines, Tier.ofCode? code = some tier ∧
        Placed w (tier.place thread name) declared value tier.isMutable r₁ w₁ ∧
        (r = r₁.map fun _ => ()) ∧ w' = { w₁ with lines } := by
  unfold declareGlobal at hrun
  rcases Op.bind_cases hrun with ⟨f, hdeclare, hr⟩ | ⟨_, w₁, hdeclare, hlog⟩
  · rcases declare_cases hclosed hlive hdeclare with ⟨_, _, hw⟩ | ⟨tier, r₁, htier, hplaced, hr₁⟩
    · exact Or.inl ⟨f, hr, hw⟩
    · exact Or.inr ⟨tier, r₁, w', w'.lines, htier, hplaced, hr.trans hr₁, rfl⟩
  · rcases declare_cases hclosed hlive hdeclare with ⟨_, hf, _⟩ | ⟨tier, r₁, htier, hplaced, hr₁⟩
    · cases hf
    · rcases run_log w₁ .debug "global declared"
        [("name", .text name), ("tier", .text (Tier.textOfCode code))] with ⟨lines, hlines⟩
      rw [hlines] at hlog
      cases hlog
      exact Or.inr ⟨tier, r₁, w₁, lines, htier, hplaced, hr₁, rfl⟩

/-!
## Reading and assigning
-/

/-- Where a name is found when it is read, and what is done there. -/
inductive Looked (w : World) (thread : ThreadId) (scope : Option ScopeId) (name : String) :
    Except Failure VariableId → World → Prop where
  | inScope {id : VariableId} (hscope : w.find? scope name = some id) :
      Looked w thread scope name (.ok id) w
  | threadLocal {id : VariableId} (hscope : w.find? scope name = none)
      (hlocal : (w.locals thread).get? name = some id) : Looked w thread scope name (.ok id) w
  | frozen {id : VariableId} {r : Except Failure VariableId} {w' : World}
      (hscope : w.find? scope name = none) (hlocal : (w.locals thread).get? name = none)
      (hfrozen : w.frozen.get? name = some id)
      (hrun : (Op.withName name (snapshot id)).run w = (r, w')) : Looked w thread scope name r w'
  | guarded {g : Guard} {r : Except Failure VariableId} {w' : World}
      (hscope : w.find? scope name = none) (hlocal : (w.locals thread).get? name = none)
      (hfrozen : w.frozen.get? name = none) (hguarded : w.guarded.get? name = some g)
      (hrun : (Op.withName name (withGuard thread name g snapshot)).run w = (r, w')) :
      Looked w thread scope name r w'
  | unbound (hscope : w.find? scope name = none) (hlocal : (w.locals thread).get? name = none)
      (hfrozen : w.frozen.get? name = none) (hguarded : w.guarded.get? name = none) :
      Looked w thread scope name (.error (.error (unboundFault name))) w

section

variable {scope : Option ScopeId} {id : VariableId} {g : Guard}

theorem run_lookup_frozen (hscope : w.find? scope name = none)
    (hlocal : (w.locals thread).get? name = none) (hfrozen : w.frozen.get? name = some id) :
    (lookup thread scope name).run w = (Op.withName name (snapshot id)).run w := by
  unfold lookup lookupGlobal?
  simp only [Op.run_bind, Op.run_get, Op.next_ok, hscope, hlocal, hfrozen]
  rw [← Op.run_bind, ← Op.run_bind]
  simp only [bind_assoc, pure_bind, bind_pure]

theorem run_lookup_guarded (hscope : w.find? scope name = none)
    (hlocal : (w.locals thread).get? name = none) (hfrozen : w.frozen.get? name = none)
    (hguarded : w.guarded.get? name = some g) :
    (lookup thread scope name).run w =
      (Op.withName name (withGuard thread name g snapshot)).run w := by
  unfold lookup lookupGlobal?
  simp only [Op.run_bind, Op.run_get, Op.next_ok, hscope, hlocal, hfrozen, hguarded]
  rw [← Op.run_bind, ← Op.run_bind]
  simp only [bind_assoc, pure_bind, bind_pure]

end

theorem lookup_cases {scope : Option ScopeId} {r : Except Failure VariableId}
    (hrun : (lookup thread scope name).run w = (r, w')) : Looked w thread scope name r w' := by
  cases hscope : w.find? scope name with
  | some id =>
      unfold lookup at hrun
      rw [Op.run_bind, Op.run_get, Op.next_ok, hscope] at hrun
      cases hrun
      exact Looked.inScope hscope
  | none =>
      cases hlocal : (w.locals thread).get? name with
      | some id =>
          unfold lookup lookupGlobal? at hrun
          simp only [Op.run_bind, Op.run_get, Op.next_ok, hscope, hlocal] at hrun
          cases hrun
          exact Looked.threadLocal hscope hlocal
      | none =>
          cases hfrozen : w.frozen.get? name with
          | some id =>
              rw [run_lookup_frozen hscope hlocal hfrozen] at hrun
              exact Looked.frozen hscope hlocal hfrozen hrun
          | none =>
              cases hguarded : w.guarded.get? name with
              | some g =>
                  rw [run_lookup_guarded hscope hlocal hfrozen hguarded] at hrun
                  exact Looked.guarded hscope hlocal hfrozen hguarded hrun
              | none =>
                  unfold lookup lookupGlobal? at hrun
                  simp only [Op.run_bind, Op.run_get, Op.next_ok, hscope, hlocal, hfrozen,
                    hguarded] at hrun
                  cases hrun
                  exact Looked.unbound hscope hlocal hfrozen hguarded

def sealedFault (name : String) : Error :=
  .ofKind .immutableAssignment name "cannot assign to a shared-immutable global"

/-- Where a name is found when it is assigned to, and what is done there. -/
inductive Assigned (w : World) (thread : ThreadId) (scope : Option ScopeId) (name : String)
    (value : Value) : Except Failure Unit → World → Prop where
  | guarded {g : Guard} {r : Except Failure Unit} {w' : World}
      (hguarded : w.guarded.get? name = some g)
      (hrun : (Op.withName name (withGuard thread name g fun id => assignValue id value)).run w =
        (r, w')) : Assigned w thread scope name value r w'
  | frozen {id : VariableId} (hguarded : w.guarded.get? name = none)
      (hfrozen : w.frozen.get? name = some id) :
      Assigned w thread scope name value (.error (.error (sealedFault name))) w
  | threadLocal {id : VariableId} {r : Except Failure Unit} {w' : World}
      (hguarded : w.guarded.get? name = none) (hfrozen : w.frozen.get? name = none)
      (hlocal : (w.locals thread).get? name = some id)
      (hrun : (Op.withName name (assignValue id value)).run w = (r, w')) :
      Assigned w thread scope name value r w'
  | inScope {id : VariableId} {r : Except Failure Unit} {w' : World}
      (hguarded : w.guarded.get? name = none) (hfrozen : w.frozen.get? name = none)
      (hlocal : (w.locals thread).get? name = none) (hscope : w.find? scope name = some id)
      (hrun : (Op.withName name (assignValue id value)).run w = (r, w')) :
      Assigned w thread scope name value r w'
  | unbound (hguarded : w.guarded.get? name = none) (hfrozen : w.frozen.get? name = none)
      (hlocal : (w.locals thread).get? name = none) (hscope : w.find? scope name = none) :
      Assigned w thread scope name value (.error (.error (unboundFault name))) w

section

variable {scope : Option ScopeId} {id : VariableId} {g : Guard}

theorem run_assign_guarded (hguarded : w.guarded.get? name = some g) :
    (assign thread scope name value).run w =
      (Op.withName name (withGuard thread name g fun id => assignValue id value)).run w := by
  unfold assign assignGlobal
  simp only [Op.run_bind, Op.run_get, Op.next_ok, hguarded]
  rw [← Op.run_bind, ← Op.run_bind]
  simp only [bind_assoc, pure_bind, if_true, bind_pure_unit]

theorem run_assign_local (hguarded : w.guarded.get? name = none)
    (hfrozen : w.frozen.get? name = none) (hlocal : (w.locals thread).get? name = some id) :
    (assign thread scope name value).run w =
      (Op.withName name (assignValue id value)).run w := by
  unfold assign assignGlobal
  simp only [Op.run_bind, Op.run_get, Op.next_ok, hguarded, NameMap.contains, hfrozen,
    Option.isSome_none, Bool.false_eq_true, if_false, hlocal]
  rw [← Op.run_bind, ← Op.run_bind]
  simp only [bind_assoc, pure_bind, if_true, bind_pure_unit]

theorem run_assign_update (hguarded : w.guarded.get? name = none)
    (hfrozen : w.frozen.get? name = none) (hlocal : (w.locals thread).get? name = none) :
    (assign thread scope name value).run w =
      (do
        if ← update scope name value then return ()
        Op.fail (unboundFault name) : Op Unit).run w := by
  unfold assign assignGlobal
  simp only [Op.run_bind, Op.run_get, Op.next_ok, hguarded, NameMap.contains, hfrozen,
    Option.isSome_none, Bool.false_eq_true, if_false, hlocal, Op.run_pure]

theorem run_assign_inScope (hguarded : w.guarded.get? name = none)
    (hfrozen : w.frozen.get? name = none) (hlocal : (w.locals thread).get? name = none)
    (hscope : w.find? scope name = some id) :
    (assign thread scope name value).run w =
      (Op.withName name (assignValue id value)).run w := by
  rw [run_assign_update hguarded hfrozen hlocal]
  unfold update
  simp only [Op.run_bind, Op.run_get, Op.next_ok, hscope]
  rw [← Op.run_bind, ← Op.run_bind]
  simp only [bind_assoc, pure_bind, if_true, bind_pure_unit]

end

theorem assign_cases {scope : Option ScopeId} {r : Except Failure Unit}
    (hrun : (assign thread scope name value).run w = (r, w')) :
    Assigned w thread scope name value r w' := by
  cases hguarded : w.guarded.get? name with
  | some g =>
      rw [run_assign_guarded hguarded] at hrun
      exact Assigned.guarded hguarded hrun
  | none =>
      cases hfrozen : w.frozen.get? name with
      | some id =>
          unfold assign assignGlobal at hrun
          simp only [Op.run_bind, Op.run_get, Op.next_ok, hguarded, NameMap.contains, hfrozen,
            Option.isSome_some, if_true] at hrun
          cases hrun
          exact Assigned.frozen hguarded hfrozen
      | none =>
          cases hlocal : (w.locals thread).get? name with
          | some id =>
              rw [run_assign_local hguarded hfrozen hlocal] at hrun
              exact Assigned.threadLocal hguarded hfrozen hlocal hrun
          | none =>
              cases hscope : w.find? scope name with
              | some id =>
                  rw [run_assign_inScope hguarded hfrozen hlocal hscope] at hrun
                  exact Assigned.inScope hguarded hfrozen hlocal hscope hrun
              | none =>
                  rw [run_assign_update hguarded hfrozen hlocal] at hrun
                  unfold update at hrun
                  simp only [Op.run_bind, Op.run_get, Op.next_ok, hscope] at hrun
                  cases hrun
                  exact Assigned.unbound hguarded hfrozen hlocal hscope

def unguardedFault (name : String) : Error :=
  .ofKind .unboundName name "no shared-mutable global"

theorem run_guardOf {g : Guard} (hg : w.guarded.get? name = some g) :
    (guardOf name).run w = (.ok g, w) := by
  unfold guardOf
  rw [Op.run_bind, Op.run_get, Op.next_ok, hg]
  rfl

theorem run_guardOf_none (hg : w.guarded.get? name = none) :
    (guardOf name).run w = (.error (.error (unguardedFault name)), w) := by
  unfold guardOf
  rw [Op.run_bind, Op.run_get, Op.next_ok, hg]
  rfl

theorem run_withMutableGlobal {α : Type} {g : Guard} (hg : w.guarded.get? name = some g)
    (work : VariableId → Op α) :
    (withMutableGlobal thread name work).run w =
      (Op.withName name (withGuard thread name g work)).run w := by
  unfold withMutableGlobal
  rw [Op.run_bind, run_guardOf hg, Op.next_ok]

theorem run_withMutableGlobal_none {α : Type} (hg : w.guarded.get? name = none)
    (work : VariableId → Op α) :
    (withMutableGlobal thread name work).run w = (.error (.error (unguardedFault name)), w) := by
  unfold withMutableGlobal
  rw [Op.run_bind, run_guardOf_none hg, Op.next_error]

/-!
## Threads
-/

theorem run_fork (w : World) :
    ∃ lines, fork.run w = (.ok w.threads.size, { w with threads := w.threads.push {}, lines }) := by
  rcases run_log { w with threads := w.threads.push {} } .debug "interpreter cloned"
    [("clone", .text anonymous)] with ⟨lines, hlines⟩
  refine ⟨lines, ?_⟩
  unfold fork newThread
  simp only [Op.run_bind, Op.run_get, Op.next_ok, Op.run_set, Op.run_pure, hlines]

theorem locals_newThread (w : World) (lines : List String) (thread : ThreadId) :
    ({ w with threads := w.threads.push {}, lines } : World).locals thread = w.locals thread := by
  unfold locals
  rw [Array.getD_eq_getD_getElem?, Array.getD_eq_getD_getElem?, Array.getElem?_push]
  by_cases hthread : thread = w.threads.size
  · simp [hthread]
  · rw [if_neg hthread]

end World
end ScriptCore
