import ScriptCore.Proofs.Heap.Data
import ScriptCore.Proofs.NameMap
import ScriptCore.Proofs.Storage.Permanence
import ScriptCore.Proofs.Storage.Refinement

/-!
# Global variables that hold plain data

Plain data can be declared in any tier under a name that is new there.  It can
always be copied, so every thread that sees the variable can read it.
-/

namespace ScriptCore

def Tier.code : Tier → Int
  | .threadLocal => 0
  | .sharedImmutable => 1
  | .sharedMutable => 2

theorem Tier.ofCode?_code (tier : Tier) : Tier.ofCode? tier.code = some tier := by
  cases tier <;> rfl

theorem Tier.name_eq_of_place {thread : ThreadId} {name other : String} {tier tier' : Tier}
    (hplace : tier.place thread name = tier'.place thread other) : name = other := by
  cases tier <;> cases tier' <;> cases hplace <;> rfl

namespace World

variable {w w' : World} {thread : ThreadId} {name : String} {tier : Tier} {m : Store}

/-!
## Declaring plain data
-/

theorem run_detach_of_isData {x : Value} (hdata : (w.heap.reveal x).IsData) :
    (Op.build (Heap.detach x)).run w = (.ok x, w) := by
  have hdetach : (Heap.detach x).run w.heap = .ok (x, w.heap) := by
    unfold Heap.detach
    rw [Heap.isReference_of_isData hdata]
    rfl
  rw [Op.run_build, hdetach]

theorem run_bindMutable_of_isData {x : Value} (hdata : (w.heap.reveal x).IsData) :
    (bindMutable .missing x).run w =
      (.ok w.vars.size,
        { w with
          heap := (w.heap.newCell x).2
          vars :=
            w.vars.push { declared := .missing, slot := .reference w.heap.cells.size } }) := by
  have hbindable : Bindable (w.heap.newCell x).2 .missing (.reference w.heap.cells.size) := by
    have hcell : w.heap.cells.size < (w.heap.newCell x).2.cells.size := by
      rw [Heap.size_cells_newCell]
      exact Nat.lt_succ_self _
    have hcontent : (w.heap.newCell x).2.reveal ((w.heap.newCell x).2.load w.heap.cells.size) =
        w.heap.reveal x := by
      rw [Heap.load_newCell_self]
      exact Heap.reveal_grows (Heap.Grows.newCell w.heap x) x (Heap.live_of_isData x hdata)
    rw [← hcontent] at hdata
    rcases Heap.typeOf_reference_of_isData hcell hdata with ⟨type, htype⟩
    exact ⟨rfl, type, htype, Or.inl rfl⟩
  unfold bindMutable
  rw [Op.run_bind, run_detach_of_isData hdata, Op.next_ok, Op.run_bind, Op.run_build,
    Heap.run_newReference w.heap (Heap.isReference_of_isData hdata)]
  exact run_bindValue hbindable

theorem declare_of_isData (thread : ThreadId) (tier : Tier) {x : Value}
    (hdata : (w.heap.reveal x).IsData) (hfrozen : w.frozen.get? name = none)
    (hguarded : w.guarded.get? name = none) :
    ((declare thread name tier.code .missing x).run w).1 = .ok () := by
  unfold declare
  rw [Op.run_bind, Op.run_get, Op.next_ok, if_neg (NameMap.not_contains_of_none hfrozen),
    Tier.ofCode?_code]
  cases tier with
  | threadLocal =>
      change ((declareLocal thread name .missing x).run w).1 = _
      unfold declareLocal
      rw [Op.run_bind, Op.run_withName, run_bindMutable_of_isData hdata]
      rfl
  | sharedImmutable =>
      rcases Heap.typeOf_of_isData hdata with ⟨type, htype⟩
      have hbindable : Bindable w.heap .missing x :=
        ⟨Heap.isAbsent_of_isData hdata, type, htype, Or.inl rfl⟩
      change ((declareFrozen name .missing x).run w).1 = _
      unfold declareFrozen
      rw [Op.run_bind, Op.run_get, Op.next_ok, if_neg (NameMap.not_contains_of_none hguarded),
        Op.run_bind, Op.run_withName, run_detach_of_isData hdata, Op.named_ok, Op.next_ok,
        Op.run_bind, Op.run_withName, run_bindValue hbindable]
      rfl
  | sharedMutable =>
      change ((declareGuarded thread name .missing x).run w).1 = _
      rw [declareGuarded_eq, Op.run_bind, Op.run_withName, run_bindMutable_of_isData hdata,
        Op.named_ok, Op.next_ok, run_rebind_none]
      exact hguarded

theorem run_declareGlobal_of_isData (thread : ThreadId) (tier : Tier) {x : Value}
    (hdata : (w.heap.reveal x).IsData) (hfrozen : w.frozen.get? name = none)
    (hguarded : w.guarded.get? name = none) :
    ∃ w', (declareGlobal thread name tier.code .missing x).run w = (.ok (), w') := by
  have hdeclare := declare_of_isData thread tier hdata hfrozen hguarded
  rcases hrun : (declare thread name tier.code .missing x).run w with ⟨r, w₁⟩
  rw [hrun] at hdeclare
  subst hdeclare
  rcases run_log w₁ .debug "global declared"
    [("name", .text name), ("tier", .text (Tier.textOfCode tier.code))] with ⟨lines, hlog⟩
  refine ⟨{ w₁ with lines }, ?_⟩
  unfold declareGlobal
  rw [Op.run_bind, hrun, Op.next_ok, hlog]

/-!
## The names of a tier
-/

def tierNames (w : World) (thread : ThreadId) : Tier → List String
  | .threadLocal => (w.locals thread).entries.map (·.1)
  | .sharedImmutable => w.frozen.entries.map (·.1)
  | .sharedMutable => w.guarded.entries.map (·.1)

theorem globalNames_eq (w : World) (thread : ThreadId) (tier : Tier) :
    w.globalNames thread tier.code = NameMap.sortNames (w.tierNames thread tier) := by
  cases tier <;> rfl

theorem varIn?_place_eq_none_iff :
    w.varIn? (tier.place thread name) = none ↔ name ∉ w.tierNames thread tier := by
  cases tier with
  | threadLocal => exact NameMap.lookup_eq_none_iff
  | sharedImmutable => exact NameMap.lookup_eq_none_iff
  | sharedMutable =>
      change (w.guarded.get? name).map (·.var) = none ↔ _
      rw [Option.map_eq_none_iff]
      exact NameMap.lookup_eq_none_iff

theorem Extends.tierNames (hext : w.Extends w') (thread : ThreadId) (tier : Tier) :
    w'.tierNames thread tier = w.tierNames thread tier := by
  cases tier with
  | threadLocal => simp only [World.tierNames, locals, hext.threads]
  | sharedImmutable => simp only [World.tierNames, hext.frozen]
  | sharedMutable => simp only [World.tierNames, hext.guarded]

theorem tierNames_bindAt (id : VariableId) (hthread : thread < w.threads.size)
    (hnew : name ∉ w.tierNames thread tier) (other : Tier) :
    (w.bindAt id (tier.place thread name)).tierNames thread other =
      w.tierNames thread other ++ if other = tier then [name] else [] := by
  have hput : ∀ {α : Type} {value : α} {pairs : List (String × α)},
      name ∉ pairs.map (·.1) → (NameMap.put name value pairs).map (·.1) =
        pairs.map (·.1) ++ [name] := by
    intro α value pairs hpairs
    rw [NameMap.put_of_none (NameMap.lookup_eq_none_iff.mpr hpairs), List.map_append]
    rfl
  cases tier with
  | threadLocal =>
      have hlocals : (w.bindAt id (.threadLocal thread name)).locals thread =
          (w.locals thread).insert name id := by
        have hset := locals_setIfInBounds w thread thread ((w.locals thread).insert name id) hthread
        rw [if_pos rfl] at hset
        exact hset
      cases other with
      | threadLocal =>
          change ((w.bindAt id (.threadLocal thread name)).locals thread).entries.map (·.1) = _
          rw [hlocals]
          exact hput hnew
      | sharedImmutable => exact (List.append_nil _).symm
      | sharedMutable => exact (List.append_nil _).symm
  | sharedImmutable =>
      cases other with
      | sharedImmutable => exact hput hnew
      | threadLocal => exact (List.append_nil _).symm
      | sharedMutable => exact (List.append_nil _).symm
  | sharedMutable =>
      cases other with
      | sharedMutable => exact hput hnew
      | threadLocal => exact (List.append_nil _).symm
      | sharedImmutable => exact (List.append_nil _).symm

/-!
## Reading plain data
-/

variable {slot : Slot}

theorem snapshot_of_isData {id : VariableId} {v : Variable} {r : Except Failure VariableId}
    (hv : w.vars[id]? = some v) (hdata : (w.heap.read v.slot).IsData)
    (hrun : (snapshot id).run w = (r, w')) : ∃ copy, r = .ok copy := by
  rcases Heap.copyContent_of_isData hdata with ⟨x, h, hcopy⟩
  rcases snapshot_cases hv hrun with ⟨f, hfailed, _, _⟩ | ⟨_, _, _, hr, _⟩
  · cases hcopy.symm.trans hfailed
  · exact ⟨w.vars.size, hr⟩

theorem slotAt?_cases {p : Place} (hslot : w.slotAt? p = some slot) :
    ∃ id v, w.varIn? p = some id ∧ w.vars[id]? = some v ∧ shown w.heap v = slot := by
  unfold slotAt? slotOf? at hslot
  rcases Option.bind_eq_some_iff.mp hslot with ⟨id, hid, hshown⟩
  rcases Option.map_eq_some_iff.mp hshown with ⟨v, hv, hv'⟩
  exact ⟨id, v, hid, hv, hv'⟩

theorem Tidy.lookup_of_isData (h : Tidy m w)
    (hother : ∀ other, other ≠ tier → w.varIn? (other.place thread name) = none)
    (hslot : w.slotAt? (tier.place thread name) = some slot) (hdata : slot.content.IsData) :
    ∃ id w', (World.lookup thread none name).run w = (.ok id, w') := by
  rcases slotAt?_cases hslot with ⟨id, v, hid, hv, hshown⟩
  rw [← hshown] at hdata
  have hhere : ∀ (other : Tier) (id' : VariableId), w.varIn? (other.place thread name) = some id' →
      id' = id := by
    intro other id' hid'
    by_cases heq : other = tier
    · rw [heq] at hid'
      exact Option.some.inj (hid'.symm.trans hid)
    · cases hid'.symm.trans (hother other heq)
  rcases hrun : (World.lookup thread none name).run w with ⟨r, w'⟩
  suffices hok : ∃ found, r = .ok found by
    rcases hok with ⟨found, hr⟩
    exact ⟨found, w', by rw [hr]⟩
  -- where the place is shared, only a copy that fails could be in the way
  cases lookup_cases hrun with
  | inScope hscope => cases (w.find?_outside name).symm.trans hscope
  | threadLocal _ _ => exact ⟨_, rfl⟩
  | @frozen id' r w' _ _ hfrozen hsnapshot =>
      cases hhere .sharedImmutable id' hfrozen
      rcases Op.withName_cases hsnapshot with ⟨f, hrun', _⟩ | ⟨found, _, hr⟩
      · rcases snapshot_of_isData hv hdata hrun' with ⟨_, hok⟩
        cases hok
      · exact ⟨found, hr⟩
  | @guarded g r w' _ _ _ hguarded hsnapshot =>
      cases hhere .sharedMutable g.var (by simp [Tier.place, varIn?, hguarded])
      rcases Op.withName_cases hsnapshot with ⟨f, hrun', _⟩ | ⟨found, _, hr⟩
      · rcases withGuard_cases hrun' with ⟨hbusy, _⟩ | ⟨_, w₁, hwork, _⟩
        · exact absurd (h.free name g hguarded) hbusy
        · rcases snapshot_of_isData (w := w.hold name g thread) hv hdata hwork with ⟨_, hok⟩
          cases hok
      · exact ⟨found, hr⟩
  | unbound _ hlocal hfrozen hguarded =>
      have hnone : w.varIn? (tier.place thread name) = none := by
        cases tier with
        | threadLocal => exact hlocal
        | sharedImmutable => exact hfrozen
        | sharedMutable => exact Option.map_eq_none_iff.mpr hguarded
      cases hid.symm.trans hnone

theorem run_getGlobal {id : VariableId}
    (hlookup : (lookup thread none name).run w = (.ok id, w')) (hslot : w'.slotOf? id = some slot) :
    ∃ x, (getGlobal thread name).run w = (.ok x, w') ∧ w'.heap.reveal x = slot.content := by
  rcases Option.map_eq_some_iff.mp hslot with ⟨v, hv, hshown⟩
  refine ⟨w'.heap.contentOf v.slot, ?_, ?_⟩
  · unfold getGlobal
    rw [Op.run_bind, hlookup, Op.next_ok, Op.run_bind, run_slot hv, Op.next_ok, run_contentOf]
  · rw [← hshown]
    rfl

theorem Tidy.first_place (h : Tidy m w) {id : VariableId}
    (hother : ∀ other, other ≠ tier → w.varIn? (other.place thread name) = none)
    (hid : w.varIn? (tier.place thread name) = some id) :
    m.first (m.readOrder thread none name) = some (tier.place thread name) := by
  rw [first_readOrder, Store.first_cons, Store.first_cons, Store.first_cons, h.isSome, h.isSome,
    h.isSome]
  cases tier with
  | threadLocal =>
      have hhere : w.varIn? (.threadLocal thread name) = some id := hid
      rw [hhere]
      rfl
  | sharedImmutable =>
      have hlocal : w.varIn? (.threadLocal thread name) = none := hother .threadLocal (by decide)
      have hhere : w.varIn? (.frozen name) = some id := hid
      rw [hlocal, hhere]
      rfl
  | sharedMutable =>
      have hlocal : w.varIn? (.threadLocal thread name) = none := hother .threadLocal (by decide)
      have hfrozen : w.varIn? (.frozen name) = none := hother .sharedImmutable (by decide)
      have hhere : w.varIn? (.guarded name) = some id := hid
      rw [hlocal, hfrozen, hhere]
      rfl

theorem Tidy.getGlobal_of_isData (h : Tidy m w)
    (hother : ∀ other, other ≠ tier → w.varIn? (other.place thread name) = none)
    (hslot : w.slotAt? (tier.place thread name) = some slot) (hdata : slot.content.IsData) :
    ∃ x w', (getGlobal thread name).run w = (.ok x, w') ∧ w'.heap.reveal x = slot.content := by
  rcases h.lookup_of_isData hother hslot hdata with ⟨id, w', hrun⟩
  rcases slotAt?_cases hslot with ⟨_, _, hid, _, _⟩
  have hnone : Command.ScopeExists w none := by
    intro s hs
    cases hs
  -- the answer shows the slot, be it the variable itself or a copy of it
  have hanswer := (h.lookup hnone rfl hrun).2
  unfold LookupAnswers at hanswer
  rw [h.first_place hother hid] at hanswer
  rw [h.slots] at hslot
  cases hanswer with
  | bound _ hslot' _ hshown =>
      cases hslot.symm.trans hslot'
      rcases run_getGlobal hrun hshown with ⟨x, hx, hcontent⟩
      exact ⟨x, w', hx, hcontent⟩
  | copied _ hslot' _ _ hshown =>
      cases hslot.symm.trans hslot'
      rcases run_getGlobal hrun hshown with ⟨x, hx, hcontent⟩
      exact ⟨x, w', hx, hcontent⟩

theorem run_getGlobal_unbound (hother : ∀ tier : Tier, w.varIn? (tier.place thread name) = none) :
    (getGlobal thread name).run w = (.error (.error (unboundFault name)), w) := by
  have hlookup : (lookup thread none name).run w =
      (.error (.error (unboundFault name)), w) := by
    rcases hrun : (World.lookup thread none name).run w with ⟨r, w'⟩
    cases lookup_cases hrun with
    | inScope hscope => cases (w.find?_outside name).symm.trans hscope
    | threadLocal _ hlocal => cases (hother .threadLocal).symm.trans hlocal
    | frozen _ _ hfrozen _ => cases (hother .sharedImmutable).symm.trans hfrozen
    | guarded _ _ _ hguarded _ =>
        cases (Option.map_eq_none_iff.mp (hother .sharedMutable)).symm.trans hguarded
    | unbound _ _ _ _ => rfl
  unfold getGlobal
  rw [Op.run_bind, hlookup, Op.next_error]

end World
end ScriptCore
