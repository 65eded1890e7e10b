import ScriptCore.Proofs.Storage.Tidy

/-!
# Storage refines independent slots

Every command of a run keeps the world tidy and answers by the slots of the
store.  Hence at each point of a run every place shows what the last
successful command on it has written, whatever has happened at other places.
-/

namespace ScriptCore
namespace World

variable {m : Store} {w w' : World} {p : Place} {id : VariableId} {v : Variable}
variable {thread : ThreadId} {scope : Option ScopeId} {name : String} {value : Value}

/-!
## Finding places
-/

theorem findSome?_eq_bind_find? {α β : Type} (f : α → Option β) (l : List α) :
    l.findSome? f = (l.find? fun a => (f a).isSome).bind f := by
  induction l with
  | nil => rfl
  | cons a rest ih =>
      rw [List.findSome?_cons, List.find?_cons]
      cases hfa : f a with
      | none => simpa using ih
      | some b => simp [hfa]

theorem Tidy.findSome?_chain (h : Tidy m w) (name : String) (fuel : Nat) :
    ∀ s, s < fuel → s < w.scopes.size →
      (w.chain fuel (some s)).findSome? (fun scope => scope.bindings.get? name) =
        (m.path (some s)).findSome? fun s => w.varIn? (.inScope s name) := by
  -- an outer scope has a smaller number, so the fuel lasts to the end of the chain
  induction fuel with
  | zero =>
      intro s hs
      exact absurd hs (Nat.not_lt_zero s)
  | succ fuel ih =>
      intro s hfuel hs
      have hscope : w.scopes[s]? = some w.scopes[s] := Array.getElem?_eq_getElem hs
      have hpath : m.path (some s) = s :: m.path w.scopes[s].outer := by
        simp [Store.path, h.paths s _ hscope]
      have hvar : w.varIn? (.inScope s name) = w.scopes[s].bindings.get? name := by
        simp [varIn?, hscope]
      rw [chain, hscope, hpath, List.findSome?_cons, List.findSome?_cons, hvar]
      cases w.scopes[s].bindings.get? name with
      | some id => rfl
      | none =>
          cases houter : w.scopes[s].outer with
          | none =>
              cases fuel <;> rfl
          | some o =>
              have ho : o < s := h.nested s o _ hscope houter
              exact ih o (Nat.lt_of_lt_of_le ho (Nat.le_of_lt_succ hfuel)) (Nat.lt_trans ho hs)

theorem Tidy.find?_eq (h : Tidy m w) (hscope : Command.ScopeExists w scope) (name : String) :
    w.find? scope name =
      (m.path scope).findSome? fun s => w.varIn? (.inScope s name) := by
  unfold find? scopeChain
  cases scope with
  | none => cases w.scopes.size <;> rfl
  | some s =>
      have hs := hscope s rfl
      exact h.findSome?_chain name w.scopes.size s hs hs

def nearestPlace? (m : Store) (scope : Option ScopeId) (name : String) : Option Place :=
  m.first ((m.path scope).map (.inScope · name))

theorem Tidy.first_eq (h : Tidy m w) (places : List Place) :
    m.first places = places.find? fun p => (w.varIn? p).isSome := by
  unfold Store.first
  simp only [h.isSome]

theorem Tidy.find?_eq_nearest (h : Tidy m w) (hscope : Command.ScopeExists w scope)
    (name : String) : w.find? scope name = (nearestPlace? m scope name).bind w.varIn? := by
  have hmap := findSome?_eq_bind_find? w.varIn? ((m.path scope).map (Place.inScope · name))
  rw [List.findSome?_map] at hmap
  rw [h.find?_eq hscope, nearestPlace?, h.first_eq, ← hmap]
  rfl

theorem Tidy.nearest_some (h : Tidy m w) (hscope : Command.ScopeExists w scope)
    (hfind : w.find? scope name = some id) :
    ∃ s, nearestPlace? m scope name = some (.inScope s name) ∧
      w.varIn? (.inScope s name) = some id := by
  rw [h.find?_eq_nearest hscope] at hfind
  cases hnear : nearestPlace? m scope name with
  | none =>
      rw [hnear] at hfind
      cases hfind
  | some q =>
      rw [hnear] at hfind
      have hmem := List.mem_of_find?_eq_some hnear
      rcases List.mem_map.mp hmem with ⟨s, _, hs⟩
      subst hs
      exact ⟨s, rfl, hfind⟩

theorem Tidy.nearest_none (h : Tidy m w) (hscope : Command.ScopeExists w scope)
    (hfind : w.find? scope name = none) : nearestPlace? m scope name = none := by
  rw [h.find?_eq_nearest hscope] at hfind
  cases hnear : nearestPlace? m scope name with
  | none => rfl
  | some q =>
      have hsome := Store.isSome_first hnear
      rw [h.isSome] at hsome
      rw [hnear, Option.bind_some] at hfind
      rw [hfind] at hsome
      cases hsome

theorem first_readOrder (m : Store) (thread : ThreadId) (scope : Option ScopeId) (name : String) :
    m.first (m.readOrder thread scope name) =
      (nearestPlace? m scope name).or
        (m.first [.threadLocal thread name, .frozen name, .guarded name]) := by
  unfold Store.readOrder nearestPlace? Store.first
  rw [List.find?_append]

/-!
## Declarations
-/

theorem Extends.hasPlace (hext : w.Extends w') (hp : w.HasPlace p) : w'.HasPlace p := by
  cases p with
  | inScope scope name =>
      change scope < w'.scopes.size
      rw [hext.scopes]
      exact hp
  | threadLocal thread name =>
      change thread < w'.threads.size
      rw [hext.threads]
      exact hp
  | _ => trivial

theorem Tidy.ownsCell (h : Tidy m w) {declared : Ty} {isMutable : Bool} (hext : w.Extends w')
    (hholds : Holds w w' declared value isMutable id v) : w'.OwnsCell v := by
  intro q j u cell hq hu hucell hvcell
  rw [hext.varIn?] at hq
  rcases h.bound q j hq with ⟨u₀, hu₀, _⟩
  cases (hext.vars j u₀ hu₀).symm.trans hu
  have hold : cell < w.heap.cells.size := by
    have hlive := h.sane.live j u hu₀
    rw [hucell] at hlive
    exact hlive
  exact absurd hold (Nat.not_lt.mpr (hholds.ownCell cell hvcell))

theorem Tidy.placed (h : Tidy m w) {declared : Ty} {isMutable : Bool}
    {r : Except Failure VariableId} (hp : w.HasPlace p) (hlive : w.heap.Live value)
    (hplaced : Placed w p declared value isMutable r w') :
    Tidy (if r.isOk then m.put p { declared, isMutable, content := w.heap.read value } else m)
      w' := by
  cases hplaced with
  | failed f hmade => exact h.extends hmade.extends (hmade.sane h.sane hlive)
  | bound hmade =>
      rcases hmade.holds hlive with ⟨v, hholds⟩
      have hext := hmade.extends
      have h₁ := h.extends hext (hmade.sane h.sane hlive)
      have hbound := h₁.bindAt (hext.hasPlace hp) hholds.var hholds.present
        (h.ownsCell hext hholds)
      rw [shown, hholds.declared, hholds.isMutable, hholds.content] at hbound
      exact hbound

/-!
## Snapshots
-/

/-- What a snapshot of a bound variable gives, unless it stops. -/
inductive Snapped (w : World) (v : Variable) : Except Failure VariableId → World → Prop where
  | copied {x : Value} {h : Heap} (hx : w.heap.Copied h (w.heap.contentOf v.slot) x) :
      Snapped w v (.ok w.vars.size)
        { w with heap := h, vars := w.vars.push { declared := v.declared, slot := x } }
  | uncopyable {e : Error} (he : Heap.Uncopyable e)
      (hdup : (w.heap.contentOf v.slot).isDuplicable = false) : Snapped w v (.error (.error e)) w

theorem snapped_of_run {r : Except Failure VariableId} (hsane : w.Sane)
    (hv : w.vars[id]? = some v) (hpresent : (w.heap.contentOf v.slot).isAbsent = false)
    (hends : isPanic r = false) (hrun : (snapshot id).run w = (r, w')) : Snapped w v r w' := by
  rcases snapshot_cases hv hrun with ⟨f, hcopy, hr, hw⟩ | ⟨x, h, hcopy, hr, hw⟩
  · subst hr hw
    cases f with
    | panic p => cases hends
    | error e =>
        rw [Heap.run_copyContent, if_neg (by simp [hpresent])] at hcopy
        have herror := Heap.copy_error _ hcopy
        exact Snapped.uncopyable herror.1 herror.2
  · subst hr hw
    exact Snapped.copied (Heap.copyContent_ok hsane.closed (hsane.live id v hv) hcopy)

theorem Snapped.extends {r : Except Failure VariableId} (hsnap : Snapped w v r w') :
    w.Extends w' := by
  cases hsnap with
  | copied hx => exact Extends.withVariable w hx.heap.grows _
  | uncopyable _ _ => exact Extends.refl w

theorem Snapped.sane {r : Except Failure VariableId} (hsnap : Snapped w v r w')
    (hsane : w.Sane) : w'.Sane := by
  cases hsnap with
  | copied hx =>
      have hheap := hsane.withSameCells hx.heap.grows hx.heap.cells
      exact hheap.push hx.live
  | uncopyable _ _ => exact hsane

theorem snapped_of_guarded {g : Guard} {r : Except Failure VariableId} (hsane : w.Sane)
    (hg : w.guarded.get? name = some g) (hfree : g.IsFree) (hv : w.vars[g.var]? = some v)
    (hpresent : (w.heap.contentOf v.slot).isAbsent = false) (hends : isPanic r = false)
    (hrun : (withGuard thread name g snapshot).run w = (r, w')) : Snapped w v r w' := by
  have hheld : Sane (w.hold name g thread) := ⟨hsane.flat, hsane.closed, hsane.live⟩
  rcases withGuard_cases hrun with ⟨hbusy, _⟩ | ⟨_, w₁, hwork, hw⟩
  · exact absurd hfree hbusy
  have hsnap := snapped_of_run hheld hv hpresent hends hwork
  rw [hends, release_hold hg hfree hsnap.extends.guarded] at hw
  subst hw
  cases hsnap with
  | copied hx => exact Snapped.copied hx
  | uncopyable he hdup => exact Snapped.uncopyable he hdup

theorem isPanic_withName (name : String) (f : Failure) :
    isPanic (Except.error (f.withName name) : Except Failure VariableId) =
      isPanic (Except.error f : Except Failure VariableId) := by
  cases f <;> rfl

theorem snapped_of_named {x : Op VariableId} {r : Except Failure VariableId}
    (hsnap : ∀ r₁, isPanic r₁ = false → x.run w = (r₁, w') → Snapped w v r₁ w')
    (hends : isPanic r = false) (hrun : (Op.withName name x).run w = (r, w')) :
    Snapped w v r w' := by
  rcases Op.withName_cases hrun with ⟨f, hx, hr⟩ | ⟨a, hx, hr⟩
  · subst hr
    rw [isPanic_withName] at hends
    have hfailed := hsnap (.error f) hends hx
    cases hfailed with
    | @uncopyable e he hdup =>
        refine Snapped.uncopyable ?_ hdup
        unfold Heap.Uncopyable
        rw [Error.kinds_withName]
        exact he
  · subst hr
    exact hsnap (.ok a) hends hx

theorem Snapped.reads (h : Tidy m w) {r : Except Failure VariableId} (hsnap : Snapped w v r w')
    (hshared : p.isShared = true) (hp : w.varIn? p = some id) (hv : w.vars[id]? = some v) :
    Reads m w w' p (r.map .var) := by
  have hslot := h.slot hp hv
  cases hsnap with
  | @copied x heap hx =>
      refine Reads.copied hshared hslot ?_ (by simp) ?_
      · change (w.heap.reveal (w.heap.contentOf v.slot)).isDuplicable = true
        rw [Heap.isDuplicable_reveal]
        exact hx.duplicable
      · have hread : heap.read x = w.heap.read v.slot := by
          unfold Heap.read
          rw [heap.contentOf_of_not_reference hx.isReference]
          exact hx.content
        simp [slotOf?, shown, hx.isReference, hread]
  | uncopyable he hdup =>
      refine Reads.uncopyable hshared hslot ?_ he
      change (w.heap.reveal (w.heap.contentOf v.slot)).isDuplicable = false
      rw [Heap.isDuplicable_reveal]
      exact hdup

/-!
## Assignments
-/

theorem updated_of_named {x : Op Unit} {r : Except Failure Unit}
    (hupdated : ∀ r₁, isPanic r₁ = false → x.run w = (r₁, w') → Updated w id value r₁ w')
    (hends : isPanic r = false) (hrun : (Op.withName name x).run w = (r, w')) :
    Updated w id value r w' := by
  rcases Op.withName_cases hrun with ⟨f, hx, hr⟩ | ⟨a, hx, hr⟩
  · subst hr
    have hends' : isPanic (Except.error f : Except Failure Unit) = false := by
      cases f with
      | error e => rfl
      | panic p => cases hends
    cases hupdated (.error f) hends' hx with
    | refused f hno => exact Updated.refused _ hno
  · subst hr
    exact hupdated (.ok a) hends hx

theorem updated_of_guarded {g : Guard} {r : Except Failure Unit}
    (hg : w.guarded.get? name = some g) (hfree : g.IsFree) (hends : isPanic r = false)
    (hrun : (withGuard thread name g fun id => assignValue id value).run w = (r, w')) :
    Updated w g.var value r w' := by
  rcases withGuard_cases hrun with ⟨hbusy, _⟩ | ⟨_, w₁, hwork, hw⟩
  · exact absurd hfree hbusy
  rw [hends] at hw
  cases assignValue_updated hwork with
  | refused f hno =>
      rw [release_hold hg hfree rfl] at hw
      subst hw
      exact Updated.refused f fun cell hassign => hno cell ⟨hassign.present, hassign.fits⟩
  | @stored cell hassign =>
      have hassign' : Assignable w g.var value cell := ⟨hassign.present, hassign.fits⟩
      have hsame : ({ w.hold name g thread with
          heap := (w.hold name g thread).heap.store cell
            ((w.hold name g thread).heap.contentOf value) } : World).guarded =
          (w.hold name g thread).guarded := rfl
      rw [release_hold hg hfree hsame] at hw
      subst hw
      exact Updated.stored hassign'

theorem Tidy.updated (h : Tidy m w) {r : Except Failure Unit} (hp : w.varIn? p = some id)
    (hlive : w.heap.Live value) (hupdated : Updated w id value r w') :
    Tidy (if r.isOk then m.setContent p (w.heap.read value) else m) w' := by
  cases hupdated with
  | refused f _ => exact h
  | stored hassign =>
      rcases hassign.fits with ⟨v, _, _, hv, hslot, _⟩
      exact h.store hp hv hslot (h.sane.closed.contentOf hlive) (h.sane.flat.contentOf value)
        hassign.present

theorem Updated.writes {r : Except Failure Unit} (hupdated : Updated w id value r w')
    (hp : w.varIn? p = some id) : Writes w p value (r.map fun _ => .done) := by
  cases hupdated with
  | refused f hno =>
      constructor
      · intro hok
        cases hok
      · rintro ⟨id', cell, hid', hassign⟩
        cases hp.symm.trans hid'
        exact absurd hassign (hno cell)
  | @stored cell hassign =>
      constructor
      · intro _
        exact ⟨id, cell, hp, hassign⟩
      · intro _
        rfl

/-!
## One command
-/

theorem Tidy.lookup (h : Tidy m w) {r : Except Failure VariableId}
    (hscope : Command.ScopeExists w scope) (hends : isPanic r = false)
    (hrun : (World.lookup thread scope name).run w = (r, w')) :
    Tidy m w' ∧ LookupAnswers m w w' thread scope name (r.map .var) := by
  unfold LookupAnswers
  rw [first_readOrder, Store.first_cons, Store.first_cons, Store.first_cons, h.isSome, h.isSome,
    h.isSome]
  cases lookup_cases hrun with
  | inScope hfind =>
      rcases h.nearest_some hscope hfind with ⟨s, hnear, hs⟩
      rcases h.bound _ _ hs with ⟨v, hv, _⟩
      rw [hnear]
      exact ⟨h, Reads.bound rfl (h.slot hs hv) hs (by simp [slotOf?, hv])⟩
  | @threadLocal id hfind hlocal =>
      have hp : w.varIn? (.threadLocal thread name) = some id := hlocal
      rcases h.bound _ _ hp with ⟨v, hv, _⟩
      rw [h.nearest_none hscope hfind, hp]
      exact ⟨h, Reads.bound rfl (h.slot hp hv) hp (by simp [slotOf?, hv])⟩
  | @frozen id r w' hfind hlocal hfrozen hsnapshot =>
      have hnone : w.varIn? (.threadLocal thread name) = none := hlocal
      have hp : w.varIn? (.frozen name) = some id := hfrozen
      rcases h.bound _ _ hp with ⟨v, hv, hpresent⟩
      have hsnap : Snapped w v r w' :=
        snapped_of_named (fun r₁ => snapped_of_run h.sane hv hpresent) hends hsnapshot
      rw [h.nearest_none hscope hfind, hnone, hp]
      exact ⟨h.extends hsnap.extends (hsnap.sane h.sane), hsnap.reads h rfl hp hv⟩
  | @guarded g r w' hfind hlocal hfrozen hguarded hsnapshot =>
      have hnone : w.varIn? (.threadLocal thread name) = none := hlocal
      have hnone' : w.varIn? (.frozen name) = none := hfrozen
      have hp : w.varIn? (.guarded name) = some g.var := by simp [varIn?, hguarded]
      rcases h.bound _ _ hp with ⟨v, hv, hpresent⟩
      have hsnap : Snapped w v r w' :=
        snapped_of_named
          (fun r₁ => snapped_of_guarded h.sane hguarded (h.free name g hguarded) hv hpresent)
          hends hsnapshot
      rw [h.nearest_none hscope hfind, hnone, hnone', hp]
      exact ⟨h.extends hsnap.extends (hsnap.sane h.sane), hsnap.reads h rfl hp hv⟩
  | unbound hfind hlocal hfrozen hguarded =>
      have hnone : w.varIn? (.threadLocal thread name) = none := hlocal
      have hnone' : w.varIn? (.frozen name) = none := hfrozen
      have hnone'' : w.varIn? (.guarded name) = none := by simp [varIn?, hguarded]
      rw [h.nearest_none hscope hfind, hnone, hnone', hnone'']
      exact ⟨h, rfl⟩

theorem first_writeOrder (m : Store) (thread : ThreadId) (scope : Option ScopeId)
    (name : String) :
    m.first (m.writeOrder thread scope name) =
      if (m.slots (.guarded name)).isSome then some (.guarded name)
      else if (m.slots (.frozen name)).isSome then some (.frozen name)
      else if (m.slots (.threadLocal thread name)).isSome then some (.threadLocal thread name)
      else nearestPlace? m scope name := by
  change m.first (.guarded name :: .frozen name :: .threadLocal thread name :: _) = _
  rw [Store.first_cons, Store.first_cons, Store.first_cons]
  rfl

theorem Tidy.assign_at (h : Tidy m w) {r : Except Failure Unit} (hlive : w.heap.Live value)
    (hfirst : m.first (m.writeOrder thread scope name) = some p) (hopen : ∀ n, p ≠ .frozen n)
    (hp : w.varIn? p = some id) (hupdated : Updated w id value r w') :
    Tidy (if r.isOk then m.write w.heap (.assign thread scope name value) else m) w' ∧
      AssignAnswers m w thread scope name value (r.map fun _ => .done) := by
  have htidy := h.updated hp hlive hupdated
  have hwrites := hupdated.writes hp
  unfold AssignAnswers
  simp only [Store.write, hfirst]
  cases p with
  | frozen n => exact absurd rfl (hopen n)
  | _ => exact ⟨htidy, hwrites⟩

theorem Tidy.assign (h : Tidy m w) {r : Except Failure Unit}
    (hscope : Command.ScopeExists w scope) (hlive : w.heap.Live value) (hends : isPanic r = false)
    (hrun : (World.assign thread scope name value).run w = (r, w')) :
    Tidy (if r.isOk then m.write w.heap (.assign thread scope name value) else m) w' ∧
      AssignAnswers m w thread scope name value (r.map fun _ => .done) := by
  have hfirst := first_writeOrder m thread scope name
  rw [h.isSome, h.isSome, h.isSome] at hfirst
  cases assign_cases hrun with
  | @guarded g r w' hguarded hassign =>
      have hp : w.varIn? (.guarded name) = some g.var := by simp [varIn?, hguarded]
      have hupdated : Updated w g.var value r w' :=
        updated_of_named (fun r₁ => updated_of_guarded hguarded (h.free name g hguarded)) hends
          hassign
      rw [hp] at hfirst
      exact h.assign_at hlive hfirst (by intro n hn; cases hn) hp hupdated
  | @frozen id hguarded hfrozen =>
      have hnone : w.varIn? (.guarded name) = none := by simp [varIn?, hguarded]
      have hp : w.varIn? (.frozen name) = some id := hfrozen
      rw [hnone, hp] at hfirst
      refine ⟨h, ?_⟩
      unfold AssignAnswers
      rw [hfirst]
      rfl
  | @threadLocal id r w' hguarded hfrozen hlocal hassign =>
      have hnone : w.varIn? (.guarded name) = none := by simp [varIn?, hguarded]
      have hnone' : w.varIn? (.frozen name) = none := hfrozen
      have hp : w.varIn? (.threadLocal thread name) = some id := hlocal
      have hupdated : Updated w id value r w' :=
        updated_of_named (fun r₁ _ => assignValue_updated) hends hassign
      rw [hnone, hnone', hp] at hfirst
      exact h.assign_at hlive hfirst (by intro n hn; cases hn) hp hupdated
  | @inScope id r w' hguarded hfrozen hlocal hfind hassign =>
      have hnone : w.varIn? (.guarded name) = none := by simp [varIn?, hguarded]
      have hnone' : w.varIn? (.frozen name) = none := hfrozen
      have hnone'' : w.varIn? (.threadLocal thread name) = none := hlocal
      rcases h.nearest_some hscope hfind with ⟨s, hnear, hp⟩
      have hupdated : Updated w id value r w' :=
        updated_of_named (fun r₁ _ => assignValue_updated) hends hassign
      rw [hnone, hnone', hnone'', hnear] at hfirst
      exact h.assign_at hlive hfirst (by intro n hn; cases hn) hp hupdated
  | unbound hguarded hfrozen hlocal hfind =>
      have hnone : w.varIn? (.guarded name) = none := by simp [varIn?, hguarded]
      have hnone' : w.varIn? (.frozen name) = none := hfrozen
      have hnone'' : w.varIn? (.threadLocal thread name) = none := hlocal
      rw [hnone, hnone', hnone'', h.nearest_none hscope hfind] at hfirst
      refine ⟨h, ?_⟩
      unfold AssignAnswers
      rw [hfirst]
      rfl

theorem Tidy.withMutable (h : Tidy m w) {r : Except Failure Unit} (hlive : w.heap.Live value)
    (hends : isPanic r = false)
    (hrun : (withMutableGlobal thread name fun id => assignValue id value).run w = (r, w')) :
    Tidy (if r.isOk then m.write w.heap (.withMutable thread name value) else m) w' ∧
      GuardedAnswers m w name value (r.map fun _ => .done) := by
  unfold GuardedAnswers
  rw [h.isSome]
  cases hguarded : w.guarded.get? name with
  | none =>
      have hnone : w.varIn? (.guarded name) = none := by simp [varIn?, hguarded]
      rw [run_withMutableGlobal_none hguarded] at hrun
      cases hrun
      rw [hnone]
      exact ⟨h, rfl⟩
  | some g =>
      have hp : w.varIn? (.guarded name) = some g.var := by simp [varIn?, hguarded]
      rw [run_withMutableGlobal hguarded] at hrun
      have hupdated : Updated w g.var value r w' :=
        updated_of_named (fun r₁ => updated_of_guarded hguarded (h.free name g hguarded)) hends
          hrun
      rw [hp]
      exact ⟨h.updated hp hlive hupdated, hupdated.writes hp⟩

theorem Extends.withLines (w : World) (lines : List String) : w.Extends { w with lines } where
  scopes := rfl
  threads := rfl
  frozen := rfl
  guarded := rfl
  vars _ _ hv := hv
  heap := Heap.Grows.refl _

theorem Tidy.declareGlobal (h : Tidy m w) {code : Int} {declared : Ty} {r : Except Failure Unit}
    (hthread : thread < w.threads.size) (hlive : w.heap.Live value)
    (hrun : (World.declareGlobal thread name code declared value).run w = (r, w')) :
    Tidy (if r.isOk then m.write w.heap (.declare thread name code declared value) else m) w' := by
  rcases declareGlobal_cases h.sane.closed hlive hrun with
    ⟨f, hr, hw⟩ | ⟨tier, r₁, w₁, lines, htier, hplaced, hr, hw⟩
  · subst hr hw
    exact h
  · subst hr hw
    have hplace : w.HasPlace (tier.place thread name) := by
      cases tier with
      | threadLocal => exact hthread
      | _ => trivial
    have h₁ := h.placed hplace hlive hplaced
    have h₂ := h₁.extends (Extends.withLines w₁ lines)
      ⟨h₁.sane.flat, h₁.sane.closed, h₁.sane.live⟩
    rw [isOk_map]
    simp only [Store.write, htier]
    exact h₂

theorem Tidy.newHeap (h : Tidy m w) {heap : Heap} (hgrows : w.heap.Grows heap)
    (hsane : Sane { w with heap }) (lines : List String) : Tidy m { w with heap, lines } := by
  have hext := (Extends.withHeap w hgrows).trans (Extends.withLines { w with heap } lines)
  exact h.extends hext ⟨hsane.flat, hsane.closed, hsane.live⟩

theorem Tidy.step_of {c : Command} {r : Except Failure Reply} (hrun : c.perform.run w = (r, w'))
    (htidy : Tidy (if r.isOk then m.write w.heap c else m) w') :
    Tidy (m.step w c) (c.after w) := by
  unfold Store.step Store.succeeds
  rw [Command.outcome_of hrun, Command.after_of hrun]
  exact htidy

theorem Command.Ends.run {α : Type} {c : Command} (hends : c.Ends w) {r : Except Failure α}
    {g : α → Reply} (hperform : c.perform.run w = (r.map g, w')) : isPanic r = false := by
  unfold Command.Ends at hends
  rw [Command.outcome_of hperform, isPanic_map] at hends
  exact hends

theorem Tidy.step (h : Tidy m w) {c : Command} (hstorage : c.isStorage = true)
    (hvalid : c.Valid w) (hends : c.Ends w) : Tidy (m.step w c) (c.after w) ∧ c.Answers m w := by
  cases c with
  | newScope outer => exact ⟨Tidy.step_of rfl (h.newScope hvalid), trivial⟩
  | fork =>
      rcases run_fork w with ⟨lines, hrun⟩
      exact ⟨Tidy.step_of (Op.run_map_of hrun) (h.newThread lines), trivial⟩
  | box value =>
      rcases hrun : (Op.build (Heap.newReference value)).run w with ⟨r, w'⟩
      refine ⟨Tidy.step_of (Op.run_map_of hrun) ?_, trivial⟩
      change Tidy (if _ then m else m) w'
      rw [ite_self]
      rcases h.sane.newReference hvalid hrun with ⟨heap, hgrows, hsane, rfl⟩
      exact h.extends (Extends.withHeap w hgrows) hsane
  | newFunction f =>
      have hgrows := Heap.Grows.newFunction w.heap f
      exact ⟨Tidy.step_of rfl (h.newHeap hgrows (h.sane.withSameCells hgrows rfl) w.lines), trivial⟩
  | newPromise f =>
      rcases run_newPromise w f with ⟨lines, hrun⟩
      refine ⟨Tidy.step_of (Op.run_map_of hrun) ?_, trivial⟩
      have hgrows := Heap.Grows.newPromise w.heap
        { function := f.displayName, returnType := f.result, state := .pending }
      exact h.newHeap hgrows (h.sane.withSameCells hgrows rfl) lines
  | define scope name declared value isMutable =>
      rcases hrun : (World.define (some scope) name declared value isMutable).run w with ⟨r, w'⟩
      refine ⟨Tidy.step_of (Op.run_map_of hrun) ?_, trivial⟩
      rw [isOk_map]
      exact h.placed hvalid.1 hvalid.2 (define_cases h.sane.closed hvalid.2 hrun)
  | declare thread name code declared value =>
      rcases hrun : (World.declareGlobal thread name code declared value).run w with ⟨r, w'⟩
      refine ⟨Tidy.step_of (Op.run_map_of hrun) ?_, trivial⟩
      rw [isOk_map]
      exact h.declareGlobal hvalid.1 hvalid.2 hrun
  | lookup thread scope name =>
      rcases hrun : (World.lookup thread scope name).run w with ⟨r, w'⟩
      have hperform := Op.run_map_of (g := Reply.var) hrun
      rcases h.lookup hvalid.2 (hends.run hperform) hrun with ⟨htidy, hanswer⟩
      constructor
      · refine Tidy.step_of hperform ?_
        change Tidy (if _ then m else m) w'
        rw [ite_self]
        exact htidy
      · unfold Command.Answers
        rw [Command.outcome_of (c := .lookup thread scope name) hperform,
          Command.after_of (c := .lookup thread scope name) hperform]
        exact hanswer
  | assign thread scope name value =>
      rcases hrun : (World.assign thread scope name value).run w with ⟨r, w'⟩
      have hperform := Op.run_map_of (g := fun _ => Reply.done) hrun
      rcases h.assign hvalid.2.1 hvalid.2.2 (hends.run hperform) hrun with ⟨htidy, hanswer⟩
      constructor
      · refine Tidy.step_of hperform ?_
        rw [isOk_map]
        exact htidy
      · unfold Command.Answers
        rw [Command.outcome_of (c := .assign thread scope name value) hperform]
        exact hanswer
  | withMutable thread name value =>
      rcases hrun : (withMutableGlobal thread name fun id => assignValue id value).run w with
        ⟨r, w'⟩
      have hperform := Op.run_map_of (g := fun _ => Reply.done) hrun
      rcases h.withMutable hvalid.2 (hends.run hperform) hrun with ⟨htidy, hanswer⟩
      constructor
      · refine Tidy.step_of hperform ?_
        rw [isOk_map]
        exact htidy
      · unfold Command.Answers
        rw [Command.outcome_of (c := .withMutable thread name value) hperform]
        exact hanswer
  | conclude id outcome => cases hstorage
  | bind declared value isMutable => cases hstorage
  | assignValue id value => cases hstorage
  | call f args => cases hstorage

/-!
## Whole runs
-/

theorem tidy_fresh (hfresh : w.IsFresh) : Tidy {} w := by
  rcases hfresh with ⟨settings, logger, sources, hasEvaluator, rfl⟩
  have hnone : ∀ p : Place, ({ settings, logger, sources, hasEvaluator } : World).varIn? p =
      none := by
    intro p
    cases p with
    | threadLocal thread name =>
        cases thread with
        | zero => rfl
        | succ n => rfl
    | _ => rfl
  exact
    { sane :=
        { flat := fun cell => rfl
          closed := fun cell => trivial
          live := fun id v hv => nomatch hv }
      slots := fun p => slotAt?_none (hnone p)
      bound := by
        intro p id hp
        rw [hnone p] at hp
        cases hp
      owned := by
        intro p q i j u v cell hp
        rw [hnone p] at hp
        cases hp
      free := fun name g hg => nomatch hg
      paths_length := rfl
      paths := fun s scope hs => nomatch hs
      nested := fun s o scope hs => nomatch hs }

/-- Every step of the history is a storage command that ends. -/
def Orderly (past : List (World × Command)) : Prop :=
  ∀ e ∈ past, e.2.isStorage = true ∧ e.2.Ends e.1

theorem tidy_of_history {past : List (World × Command)} (hpast : History past w)
    (horderly : Orderly past) : Tidy (Store.replay past) w := by
  induction hpast with
  | fresh hfresh => exact tidy_fresh hfresh
  | step hpast c hvalid ih =>
      have hc := horderly _ (List.mem_cons_self)
      have hprevious := ih fun e he => horderly e (List.mem_cons_of_mem _ he)
      exact (hprevious.step hc.1 hvalid hc.2).1

/-- After any run every place shows what the last successful command on it has written, and the
next command answers by these slots. -/
theorem storage_refines_slots {past : List (World × Command)} (hpast : History past w)
    (horderly : Orderly past) :
    (∀ p, w.slotAt? p = (Store.replay past).slots p) ∧
      ∀ c : Command, c.isStorage = true → c.Valid w → c.Ends w →
        c.Answers (Store.replay past) w := by
  have htidy := tidy_of_history hpast horderly
  constructor
  · exact htidy.slots
  · intro c hstorage hvalid hends
    exact (htidy.step hstorage hvalid hends).2

/-- A second thread assigns to a shared variable of the first one. -/
theorem slotAt?_assigned_by_second_thread :
    ((Command.assign 1 none "n" (.int 5)).after
      (Command.fork.after ((Command.declare 0 "n" 2 .missing (.int 1)).after {}))).slotAt?
        (.guarded "n") =
      some { declared := .missing, isMutable := true, content := .int 5 } := by
  have hfresh : History [] {} := History.fresh ⟨_, _, _, _, rfl⟩
  have hdeclared := hfresh.step (.declare 0 "n" 2 .missing (.int 1)) ⟨Nat.one_pos, trivial⟩
  have hforked := hdeclared.step .fork trivial
  have hassigned := hforked.step (.assign 1 none "n" (.int 5))
    ⟨Nat.one_lt_two, (fun _ hs => nomatch hs), trivial⟩
  refine ((storage_refines_slots hassigned ?_).1 (.guarded "n")).trans rfl
  intro e he
  rcases List.mem_cons.mp he with rfl | he
  · exact ⟨rfl, rfl⟩
  rcases List.mem_cons.mp he with rfl | he
  · exact ⟨rfl, rfl⟩
  rcases List.mem_cons.mp he with rfl | he
  · exact ⟨rfl, rfl⟩
  · cases he

end World
end ScriptCore
