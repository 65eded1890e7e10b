import ScriptCore.World.Globals

/-!
# Places of bindings

A name can be bound in a scope, among the variables of a thread, and in the
two shared tiers.  The equations say how binding a name at one place shows at
all of them.
-/

namespace ScriptCore

/-- Where a name can be bound. -/
inductive Place where
  | inScope (scope : ScopeId) (name : String)
  | threadLocal (thread : ThreadId) (name : String)
  | frozen (name : String)
  | guarded (name : String)
deriving DecidableEq

def Place.isShared : Place → Bool
  | .inScope .. => false
  | .threadLocal .. => false
  | .frozen _ => true
  | .guarded _ => true

def Tier.place (thread : ThreadId) (name : String) : Tier → Place
  | .threadLocal => .threadLocal thread name
  | .sharedImmutable => .frozen name
  | .sharedMutable => .guarded name

def Tier.isMutable : Tier → Bool
  | .sharedImmutable => false
  | _ => true

namespace World

def varIn? (w : World) : Place → Option VariableId
  | .inScope scope name => w.scopes[scope]?.bind fun s => s.bindings.get? name
  | .threadLocal thread name => (w.locals thread).get? name
  | .frozen name => w.frozen.get? name
  | .guarded name => (w.guarded.get? name).map (·.var)

def bindAt (w : World) (id : VariableId) : Place → World
  | .inScope scope name =>
      { w with
        scopes := w.scopes.modify scope fun s =>
          { s with bindings := s.bindings.insert name id } }
  | .threadLocal thread name =>
      { w with threads := w.threads.setIfInBounds thread ((w.locals thread).insert name id) }
  | .frozen name => { w with frozen := w.frozen.insert name id }
  | .guarded name => { w with guarded := w.guarded.insert name { var := id } }

def HasPlace (w : World) : Place → Prop
  | .inScope scope _ => scope < w.scopes.size
  | .threadLocal thread _ => thread < w.threads.size
  | _ => True

variable (w : World) (id : VariableId)

@[simp] theorem heap_bindAt (p : Place) : (w.bindAt id p).heap = w.heap := by
  cases p <;> rfl

@[simp] theorem vars_bindAt (p : Place) : (w.bindAt id p).vars = w.vars := by
  cases p <;> rfl

theorem outer_bindAt (p : Place) (s : ScopeId) :
    (w.bindAt id p).scopes[s]?.map (·.outer) = w.scopes[s]?.map (·.outer) := by
  cases p with
  | inScope scope name =>
      change (w.scopes.modify scope _)[s]?.map _ = _
      rw [Array.getElem?_modify]
      by_cases hs : scope = s
      · subst hs
        cases w.scopes[scope]? <;> simp
      · rw [if_neg hs]
  | _ => rfl

theorem bindAt_inScope {scope : ScopeId} {s : Scope} (hs : w.scopes[scope]? = some s)
    (name : String) : w.bindAt id (.inScope scope name) =
      { w with
        scopes := w.scopes.setIfInBounds scope
          { s with bindings := s.bindings.insert name id } } := by
  have hscopes : w.scopes.modify scope (fun s => { s with bindings := s.bindings.insert name id }) =
      w.scopes.setIfInBounds scope { s with bindings := s.bindings.insert name id } := by
    apply Array.ext_getElem?
    intro i
    have hscope : scope < w.scopes.size := (Array.getElem?_eq_some_iff.mp hs).1
    rw [Array.getElem?_modify, Array.getElem?_setIfInBounds]
    by_cases hi : scope = i
    · subst hi
      rw [if_pos rfl, if_pos rfl, if_pos hscope, hs, Option.map_some]
    · rw [if_neg hi, if_neg hi]
  simp only [bindAt, hscopes]

theorem locals_setIfInBounds (thread other : ThreadId) (new : NameMap VariableId)
    (hthread : thread < w.threads.size) :
    ({ w with threads := w.threads.setIfInBounds thread new } : World).locals other =
      if other = thread then new else w.locals other := by
  unfold locals
  by_cases heq : thread = other
  · subst heq
    simp [Array.getD_eq_getD_getElem?, hthread]
  · have hne : other ≠ thread := fun h => heq h.symm
    simp [Array.getD_eq_getD_getElem?, heq, hne]

theorem varIn?_bindAt {p : Place} (hp : w.HasPlace p) (q : Place) :
    (w.bindAt id p).varIn? q = if q = p then some id else w.varIn? q := by
  cases p with
  | inScope scope name =>
      cases q with
      | inScope scope' name' =>
          change ((w.scopes.modify scope _)[scope']?.bind _) = _
          rw [Array.getElem?_modify]
          by_cases heq : scope = scope'
          · subst heq
            have hs : w.scopes[scope]? = some w.scopes[scope] := Array.getElem?_eq_getElem hp
            by_cases hname : name' = name
            · subst hname
              simp [hs]
            · simp [hs, hname, NameMap.get?_insert_ne, varIn?]
          · have hne : scope' ≠ scope := fun h => heq h.symm
            simp [heq, hne, varIn?]
      | _ => simp [varIn?, bindAt, locals]
  | threadLocal thread name =>
      cases q with
      | threadLocal other name' =>
          unfold bindAt varIn?
          simp only [locals_setIfInBounds w thread other _ hp]
          by_cases heq : other = thread
          · subst heq
            by_cases hname : name' = name
            · subst hname
              simp
            · simp [hname, NameMap.get?_insert_ne]
          · simp [heq]
      | _ => simp [varIn?, bindAt]
  | frozen name =>
      cases q with
      | frozen name' =>
          change (w.frozen.insert name id).get? name' = _
          by_cases hname : name' = name
          · subst hname
            simp
          · simp [hname, NameMap.get?_insert_ne, varIn?]
      | _ => simp [varIn?, bindAt, locals]
  | guarded name =>
      cases q with
      | guarded name' =>
          change ((w.guarded.insert name { var := id }).get? name').map (·.var) = _
          by_cases hname : name' = name
          · subst hname
            simp
          · simp [hname, NameMap.get?_insert_ne, varIn?]
      | _ => simp [varIn?, bindAt, locals]

end World
end ScriptCore
