import ScriptCore.Proofs.World.Globals

/-!
# Operations that work on a shared mutable variable

A name is looked up, assigned to, declared again, or updated by a callback.
Each of these operations works inside the lock of the variable, if it gets
there.  Where the lock does not let it in, it fails and changes no lock.
-/

namespace ScriptCore
namespace World

variable {α : Type} {w w' : World} {name : String} {g : Guard} {thread : ThreadId}

/-!
## Operations that leave the locks alone
-/

def HasGuards (guards : NameMap Guard) (w : World) : Prop :=
  w.guarded = guards

section

variable {guards : NameMap Guard}

theorem leaves_build (b : Heap.Building α) : Op.Keeps (HasGuards guards) (Op.build b) := by
  intro w r w' hw hrun
  rcases Op.build_cases hrun with ⟨_, _, _, rfl⟩ | ⟨_, _, _, _, rfl⟩
  · exact hw
  · exact hw

theorem leaves_bindValue (declared : Ty) (value : Value) :
    Op.Keeps (HasGuards guards) (bindValue declared value) := by
  intro w r w' hw hrun
  rcases bindValue_cases hrun with ⟨_, _, rfl⟩ | ⟨_, _, rfl⟩
  · exact hw
  · exact hw

theorem leaves_bindMutable (declared : Ty) (value : Value) :
    Op.Keeps (HasGuards guards) (bindMutable declared value) :=
  (leaves_build _).bind fun _ => (leaves_build _).bind fun _ => leaves_bindValue declared _

theorem leaves_snapshot (id : VariableId) : Op.Keeps (HasGuards guards) (snapshot id) := by
  intro w r w' hw hrun
  cases hv : w.vars[id]? with
  | none =>
      rw [(snapshot_none hv hrun).2]
      exact hw
  | some v =>
      rcases snapshot_cases hv hrun with ⟨_, _, _, rfl⟩ | ⟨_, _, _, _, rfl⟩
      · exact hw
      · exact hw

theorem leaves_assignValue (id : VariableId) (value : Value) :
    Op.Keeps (HasGuards guards) (assignValue id value) := by
  intro w r w' hw hrun
  cases assignValue_updated hrun with
  | refused f _ => exact hw
  | stored _ => exact hw

theorem leaves_log (level : Log.Level) (message : String) (attrs : List (String × Log.AttrValue)) :
    Op.Keeps (HasGuards guards) (log level message attrs) := by
  intro w r w' hw hrun
  rcases run_log w level message attrs with ⟨lines, hlines⟩
  rw [hlines] at hrun
  cases hrun
  exact hw

end

/-!
## Accesses
-/

/-- An operation on the variable with a name. -/
inductive Access where
  | lookup (scope : Option ScopeId)
  | assign (scope : Option ScopeId) (value : Value)
  /-- The variable is declared as a shared mutable one. -/
  | declare (declared : Ty) (value : Value)
  | update (work : VariableId → Op Unit)

namespace Access

def perform (thread : ThreadId) (name : String) : Access → Op Unit
  | .lookup scope => (fun _ => ()) <$> World.lookup thread scope name
  | .assign scope value => World.assign thread scope name value
  | .declare declared value => declareGlobal thread name 2 declared value
  | .update work => withMutableGlobal thread name work

/-- The operation gets as far as the lock of the shared mutable variable: a lookup finds the name
nowhere else, and a declaration has a value that fits. -/
def Reaches (w : World) (thread : ThreadId) (name : String) : Access → Prop
  | .lookup scope =>
      w.find? scope name = none ∧ (w.locals thread).get? name = none ∧ w.frozen.get? name = none
  | .assign _ _ => True
  | .declare declared value =>
      w.frozen.get? name = none ∧ ∃ id w', (bindMutable declared value).run w = (.ok id, w')
  | .update _ => True

/-- The world when the operation gets to the lock: a declaration has made its variable by then. -/
def atLock (w : World) : Access → World
  | .declare declared value => ((bindMutable declared value).run w).2
  | _ => w

def callback (w : World) (name : String) (id : VariableId) : Access → Op Unit
  | .lookup _ => (fun _ => ()) <$> snapshot id
  | .assign _ value => assignValue id value
  | .declare declared value =>
      match ((bindMutable declared value).run w).1 with
      | .ok made => retarget name made
      | .error _ => pure ()
  | .update work => work id

def inside (w : World) (thread : ThreadId) (name : String) (g : Guard) (a : Access) :
    Except Failure Unit :=
  ((a.callback w name g.var).run ((a.atLock w).hold name g thread)).1

theorem inside_lookup (w : World) (thread : ThreadId) (name : String) (g : Guard)
    (scope : Option ScopeId) : (Access.lookup scope).inside w thread name g =
      ((snapshot g.var).run (w.hold name g thread)).1.map fun _ => () := by
  have hlock : (Access.lookup scope).atLock w = w := rfl
  unfold inside callback
  rw [Op.run_map, hlock]
  rcases (snapshot g.var).run (w.hold name g thread) with ⟨r, w₁⟩
  cases r <;> rfl

theorem inside_declare {declared : Ty} {value : Value} {id : VariableId} {w₁ : World}
    (hbind : (bindMutable declared value).run w = (.ok id, w₁)) :
    (Access.declare declared value).inside w thread name g =
      ((retarget name id).run (w₁.hold name g thread)).1 := by
  unfold inside callback atLock
  simp only [hbind]

theorem guarded_atLock (w : World) (a : Access) : (a.atLock w).guarded = w.guarded := by
  cases a with
  | declare declared value =>
      rcases hrun : (bindMutable declared value).run w with ⟨r, w'⟩
      change ((bindMutable declared value).run w).2.guarded = _
      rw [hrun]
      exact leaves_bindMutable declared value w r w' rfl hrun
  | _ => rfl

end Access

/-- The lock turns the thread away with a fault. -/
structure TurnsAway (g : Guard) (thread : ThreadId) (name : String) (fault : Error) : Prop where
  run : ∀ w, (enterGuard thread name g).run w = (.error (.error fault), w)
  named : fault.withName name = fault

theorem withName_ofKind (kind : FaultKind) (name detail : String) :
    (Error.ofKind kind name detail).withName name = .ofKind kind name detail := by
  unfold Error.withName Error.ofKind
  simp only [Error.bare]
  by_cases hname : name.isEmpty = true
  · rw [if_pos hname]
  · rw [if_neg hname]

theorem turnsAway_poisoned (hholder : g.holder = none) (hpoisoned : g.isPoisoned = true)
    (thread : ThreadId) (name : String) : TurnsAway g thread name (poisonedFault name) where
  run w := by
    unfold enterGuard
    rw [Guard.enter_poisoned hholder hpoisoned]
    rfl
  named := withName_ofKind _ _ _

theorem turnsAway_reentrant (hholder : g.holder = some thread) (name : String) :
    TurnsAway g thread name (reentrantFault name) where
  run w := by
    unfold enterGuard Guard.enter
    simp only [hholder, if_true]
    rfl
  named := withName_ofKind _ _ _

namespace TurnsAway

variable {fault : Error}

theorem withGuard (h : TurnsAway g thread name fault) (work : VariableId → Op α) (w : World) :
    (World.withGuard thread name g work).run w = (.error (.error fault), w) := by
  unfold World.withGuard
  rw [Op.run_bind, h.run, Op.next_error]

theorem withName (h : TurnsAway g thread name fault) (work : VariableId → Op α) (w : World) :
    (Op.withName name (World.withGuard thread name g work)).run w = (.error (.error fault), w) := by
  rw [Op.run_withName, h.withGuard work w, Op.named_error, Failure.withName, h.named]

theorem rebind (h : TurnsAway g thread name fault) (hg : w.guarded.get? name = some g)
    (id : VariableId) : (World.rebind thread name id).run w = (.error (.error fault), w) := by
  rw [run_rebind hg, h.withGuard]

theorem perform (h : TurnsAway g thread name fault) (hg : w.guarded.get? name = some g)
    (a : Access) (hreaches : a.Reaches w thread name) :
    (a.perform thread name).run w = (.error (.error fault), a.atLock w) := by
  cases a with
  | lookup scope =>
      obtain ⟨hscope, hlocal, hfrozen⟩ := hreaches
      have hrun := run_lookup_guarded hscope hlocal hfrozen hg
      rw [h.withName] at hrun
      exact Op.run_map_of hrun
  | assign scope value =>
      change (World.assign thread scope name value).run w = _
      rw [run_assign_guarded hg, h.withName]
      rfl
  | declare declared value =>
      obtain ⟨hfrozen, id, w₁, hbind⟩ := hreaches
      have hlock : (Access.declare declared value).atLock w = w₁ := congrArg Prod.snd hbind
      have hg₁ : w₁.guarded.get? name = some g := by
        rw [← hlock, Access.guarded_atLock, hg]
      have hdeclare : (declareGuarded thread name declared value).run w =
          (.error (.error fault), w₁) := by
        rw [declareGuarded_eq, Op.run_bind, Op.run_withName, hbind, Op.named_ok, Op.next_ok,
          h.rebind hg₁]
      change (declareGlobal thread name 2 declared value).run w = _
      unfold declareGlobal
      rw [Op.run_bind, run_declare_shared hfrozen, hdeclare, Op.next_error, hlock]
  | update work =>
      change (withMutableGlobal thread name work).run w = _
      rw [run_withMutableGlobal hg, h.withName]
      rfl

end TurnsAway

end World
end ScriptCore
