import ScriptCore.Proofs.Settings.Acceptance
import ScriptCore.Proofs.Storage.PlainData
import ScriptCore.World.Start

/-!
# Worlds of accepted settings

The global variables of accepted settings are declared one after the other.
No declaration is refused, because the names are all different and the values
are plain data, so a world fails to start only where some value could not be
read.  Otherwise it has the global variables of the settings and no others.
-/

namespace ScriptCore

/-!
## Listing the variables
-/

/-- A global variable that is to be declared. -/
structure Listed where
  tier : Tier
  name : String
  initial : Initial

namespace Globals

def listedIn (g : Globals) (tier : Tier) : List Listed :=
  (g.ofTier tier).toSorted.map fun e => { tier, name := e.1, initial := e.2 }

def listed (g : Globals) : List Listed :=
  g.listedIn .sharedImmutable ++ (g.listedIn .sharedMutable ++ g.listedIn .threadLocal)

variable {g : Globals}

theorem filter_listedIn (g : Globals) (tier other : Tier) :
    (g.listedIn other).filter (·.tier = tier) = if other = tier then g.listedIn tier else [] := by
  have htier : ∀ e ∈ g.listedIn other, e.tier = other := by
    intro e he
    rcases List.mem_map.mp he with ⟨_, _, rfl⟩
    rfl
  by_cases heq : other = tier
  · subst heq
    rw [if_pos rfl]
    exact List.filter_eq_self.mpr fun e he => decide_eq_true (htier e he)
  · rw [if_neg heq]
    apply List.filter_eq_nil_iff.mpr
    intro e he hmem
    exact heq ((htier e he).symm.trans (of_decide_eq_true hmem))

theorem filter_listed (g : Globals) (tier : Tier) :
    g.listed.filter (·.tier = tier) = g.listedIn tier := by
  unfold listed
  rw [List.filter_append, List.filter_append, filter_listedIn, filter_listedIn, filter_listedIn]
  cases tier with
  | threadLocal => rfl
  | sharedImmutable => exact List.append_nil _
  | sharedMutable => exact List.append_nil _

theorem listedIn_names (g : Globals) (tier : Tier) :
    ((g.listedIn tier).map (·.name)).Perm (g.ofTier tier).names := by
  have hmap : (g.listedIn tier).map (·.name) = (g.ofTier tier).toSorted.map (·.1) := by
    unfold listedIn
    rw [List.map_map]
    rfl
  rw [hmap]
  exact ((NameMap.sortPairs_perm _).map _).trans (NameMap.sortNames_perm _).symm

theorem mem_listedIn {tier : Tier} {e : Listed} (he : e ∈ g.listedIn tier) :
    (e.name, e.initial) ∈ (g.ofTier tier).entries := by
  rcases List.mem_map.mp he with ⟨pair, hpair, rfl⟩
  exact (NameMap.sortPairs_perm _).mem_iff.mp hpair

theorem mem_listed {e : Listed} (he : e ∈ g.listed) :
    (e.name, e.initial) ∈ (g.ofTier e.tier).entries := by
  apply mem_listedIn
  rw [← filter_listed]
  exact List.mem_filter.mpr ⟨he, decide_eq_true rfl⟩

theorem listed_of_mem {tier : Tier} {pair : String × Initial}
    (hpair : pair ∈ (g.ofTier tier).entries) : ⟨tier, pair.1, pair.2⟩ ∈ g.listed := by
  have hmem : (⟨tier, pair.1, pair.2⟩ : Listed) ∈ g.listedIn tier :=
    List.mem_map.mpr ⟨pair, (NameMap.sortPairs_perm _).mem_iff.mpr hpair, rfl⟩
  rw [← filter_listed] at hmem
  exact (List.mem_filter.mp hmem).1

end Globals

/-!
## Declaring one variable after the other
-/

namespace World

variable {w w' : World} {g : Globals}

def seedListed (e : Listed) : Op Unit :=
  seed e.tier.code e.name e.initial

theorem seedGlobals_eq (g : Globals) : seedGlobals g = g.listed.forM seedListed := by
  have htier : ∀ tier, seedTier tier.code (g.ofTier tier) = (g.listedIn tier).forM seedListed := by
    intro tier
    unfold seedTier Globals.listedIn
    rw [List.forM_eq_forM, List.forM_eq_forM, List.forM_map]
    rfl
  unfold Globals.listed
  rw [List.forM_eq_forM, List.forM_append, List.forM_append, ← List.forM_eq_forM, ← htier,
    ← htier, ← htier]
  rfl

def initialSlot (tier : Tier) (value : Value) : Slot where
  declared := .missing
  isMutable := tier.isMutable
  content := ({} : Heap).reveal value

/-- The world shows the variables that have been declared, and no others. -/
structure Seeded (done : List Listed) (w : World) : Prop where
  tidy : ∃ m, Tidy m w
  single : w.threads.size = 1
  names : ∀ tier, w.tierNames 0 tier = (done.filter (·.tier = tier)).map (·.name)
  shown : ∀ e ∈ done, ∃ value, e.initial = .ok value ∧
    w.slotAt? (e.tier.place 0 e.name) = some (initialSlot e.tier value)

theorem names_unseeded {done : List Listed} (hseeded : Seeded done w) {name : String}
    (hnew : name ∉ done.map (·.name)) (tier : Tier) : name ∉ w.tierNames 0 tier := by
  intro hmem
  rw [hseeded.names tier] at hmem
  rcases List.mem_map.mp hmem with ⟨e, he, hname⟩
  exact hnew (List.mem_map.mpr ⟨e, (List.mem_filter.mp he).1, hname⟩)

theorem Tidy.declared {m : Store} (h : Tidy m w) {tier : Tier} {name : String} {x : Value}
    (hthread : 0 < w.threads.size) (hlive : w.heap.Live x)
    (hnew : name ∉ w.tierNames 0 tier)
    (hrun : (World.declareGlobal 0 name tier.code .missing x).run w = (.ok (), w')) :
    Tidy (m.put (tier.place 0 name)
        { declared := .missing, isMutable := tier.isMutable, content := w.heap.read x }) w' ∧
      w'.threads.size = w.threads.size ∧
      ∀ other, w'.tierNames 0 other =
        w.tierNames 0 other ++ if other = tier then [name] else [] := by
  have htidy := h.declareGlobal hthread hlive hrun
  simp only [Store.write, Tier.ofCode?_code] at htidy
  refine ⟨htidy, ?_⟩
  rcases declareGlobal_cases h.sane.closed hlive hrun with
    ⟨f, hf, _⟩ | ⟨tier', r₁, w₁, lines, htier, hplaced, hr, hw⟩
  · cases hf
  rw [Tier.ofCode?_code] at htier
  cases htier
  subst hw
  cases hplaced with
  | failed f _ => cases hr
  | @bound id w₂ hmade =>
      have hext := hmade.extends
      have hthread₂ : 0 < w₂.threads.size := by
        rw [hext.threads]
        exact hthread
      have hnew₂ : name ∉ w₂.tierNames 0 tier := by
        rw [hext.tierNames]
        exact hnew
      constructor
      · change (w₂.bindAt id (tier.place 0 name)).threads.size = _
        rw [← hext.threads]
        cases tier with
        | threadLocal => exact Array.size_setIfInBounds
        | sharedImmutable => rfl
        | sharedMutable => rfl
      · intro other
        have hnames := tierNames_bindAt id hthread₂ hnew₂ other
        rw [hext.tierNames] at hnames
        rw [← hnames]
        cases other <;> rfl

theorem run_seed_error (w : World) (code : Int) (name : String) (e : Error) :
    (seed code name (.error e)).run w =
      (.error (.error (.context ("global " ++ name) e)), w) := rfl

theorem run_seed_ok {code : Int} {name : String} {value x : Value} {h : Heap}
    (hcopy : (Heap.copy value).run w.heap = .ok (x, h))
    (hdeclare : (declareGlobal 0 name code .missing x).run { w with heap := h } = (.ok (), w')) :
    (seed code name (.ok value)).run w = (.ok (), w') := by
  unfold seed
  rw [Op.run_tryCatch, Op.run_bind, Op.run_build, hcopy]
  dsimp only
  rw [Op.next_ok, hdeclare]

theorem Seeded.snoc {done : List Listed} (hseeded : Seeded done w) {m : Store} (htidy : Tidy m w)
    {e : Listed} {value : Value} (hinitial : e.initial = .ok value)
    (hnew : e.name ∉ done.map (·.name))
    (htidy' : Tidy (m.put (e.tier.place 0 e.name) (initialSlot e.tier value)) w')
    (hsize : w'.threads.size = w.threads.size)
    (hnames : ∀ tier, w'.tierNames 0 tier =
      w.tierNames 0 tier ++ if tier = e.tier then [e.name] else []) : Seeded (done ++ [e]) w' where
  tidy := ⟨_, htidy'⟩
  single := hsize.trans hseeded.single
  names tier := by
    rw [hnames, hseeded.names, List.filter_append, List.map_append]
    by_cases htier : tier = e.tier
    · rw [if_pos htier, List.filter_cons_of_pos (by simp [htier])]
      rfl
    · rw [if_neg htier, List.filter_cons_of_neg (by simp [Ne.symm htier])]
      rfl
  shown e' he' := by
    rw [htidy'.slots]
    rcases List.mem_append.mp he' with hold | hlast
    · have hne : e'.tier.place 0 e'.name ≠ e.tier.place 0 e.name := by
        intro heq
        exact hnew (List.mem_map.mpr ⟨e', hold, Tier.name_eq_of_place heq⟩)
      rcases hseeded.shown e' hold with ⟨value', hinitial', hslot⟩
      rw [htidy.slots] at hslot
      exact ⟨value', hinitial', (if_neg hne).trans hslot⟩
    · cases List.mem_singleton.mp hlast
      exact ⟨value, hinitial, if_pos rfl⟩

theorem Seeded.step {done : List Listed} (hseeded : Seeded done w) {e : Listed} {value : Value}
    (hinitial : e.initial = .ok value) (hdata : (({} : Heap).reveal value).IsData)
    (hnew : e.name ∉ done.map (·.name)) :
    ∃ w', (seedListed e).run w = (.ok (), w') ∧ Seeded (done ++ [e]) w' := by
  rcases hseeded.tidy with ⟨m, htidy⟩
  have hlive : w.heap.Live value := Heap.live_of_isData value hdata
  have hreveal : w.heap.reveal value = ({} : Heap).reveal value := Heap.reveal_of_isData hdata
  -- the copy is plain data as well
  rcases Heap.copy_of_isData (hreveal ▸ hdata) with ⟨x, h, hcopy⟩
  have hcopied := Heap.copy_ok value hlive hcopy
  have hcontent : h.reveal x = ({} : Heap).reveal value := hcopied.content.trans hreveal
  have hx : (h.reveal x).IsData := hcontent ▸ hdata
  have hread : h.read x = ({} : Heap).reveal value := by
    rw [Heap.read, h.contentOf_of_not_reference (Heap.isReference_of_isData hx), hcontent]
  -- only the heap has grown, so the names are as before
  have hext : w.Extends { w with heap := h } := Extends.withHeap w hcopied.heap.grows
  have htidy₁ : Tidy m { w with heap := h } :=
    htidy.extends hext (htidy.sane.withSameCells hcopied.heap.grows hcopied.heap.cells)
  have hunbound : ∀ tier : Tier, ({ w with heap := h } : World).varIn? (tier.place 0 e.name) =
      none := fun tier => varIn?_place_eq_none_iff.mpr (names_unseeded hseeded hnew tier)
  have hguarded : w.guarded.get? e.name = none :=
    Option.map_eq_none_iff.mp (hunbound .sharedMutable)
  rcases run_declareGlobal_of_isData (w := { w with heap := h }) 0 e.tier hx
    (hunbound .sharedImmutable) hguarded with ⟨w', hdeclare⟩
  rcases htidy₁.declared (Nat.lt_of_lt_of_eq Nat.one_pos hseeded.single.symm) hcopied.live
    (names_unseeded hseeded hnew e.tier) hdeclare with ⟨htidy', hsize, hnames⟩
  refine ⟨w', ?_, hseeded.snoc htidy hinitial hnew ?_ hsize ?_⟩
  · unfold seedListed
    rw [hinitial]
    exact run_seed_ok hcopy hdeclare
  · rw [initialSlot, ← hread]
    exact htidy'
  · intro tier
    rw [hnames, hext.tierNames]

/-- Declaring variables with different names fails only at one whose value could not be read. -/
theorem Seeded.run {done : List Listed} (hseeded : Seeded done w) (rest : List Listed)
    (hnodup : ((done ++ rest).map (·.name)).Nodup)
    (hdecoded : ∀ e ∈ rest, Initial.IsDecoded e.initial) :
    (∃ w', (rest.forM seedListed).run w = (.ok (), w') ∧ Seeded (done ++ rest) w') ∨
      ∃ e ∈ rest, ∃ fault w', e.initial = .error fault ∧
        (rest.forM seedListed).run w =
          (.error (.error (.context ("global " ++ e.name) fault)), w') := by
  induction rest generalizing done w with
  | nil =>
      rw [List.append_nil]
      exact Or.inl ⟨w, rfl, hseeded⟩
  | cons e rest ih =>
      have hrun : ((e :: rest).forM seedListed).run w =
          Op.next ((seedListed e).run w) fun _ => rest.forM seedListed := Op.run_bind _ _ w
      cases hinitial : e.initial with
      | error fault =>
          have hfail := run_seed_error w e.tier.code e.name fault
          refine Or.inr ⟨e, List.mem_cons_self, fault, w, hinitial, ?_⟩
          rw [hrun, seedListed, hinitial, hfail, Op.next_error]
      | ok value =>
          have hdata := (hdecoded e List.mem_cons_self).isData hinitial
          have hnew : e.name ∉ done.map (·.name) := by
            rw [List.map_append, List.map_cons, List.nodup_append] at hnodup
            intro hmem
            exact hnodup.2.2 e.name hmem e.name List.mem_cons_self rfl
          rcases hseeded.step hinitial hdata hnew with ⟨w₁, hfirst, hseeded₁⟩
          rw [hfirst, Op.next_ok] at hrun
          rw [List.append_cons] at hnodup ⊢
          rcases ih hseeded₁ hnodup fun e' he' => hdecoded e' (List.mem_cons_of_mem e he') with
            ⟨w', hrest, hseeded'⟩ | ⟨e', he', fault, w', hfault, hrest⟩
          · exact Or.inl ⟨w', hrun.trans hrest, hseeded'⟩
          · exact Or.inr
              ⟨e', List.mem_cons_of_mem e he', fault, w', hfault, hrun.trans hrest⟩

/-!
## Exactly the settings
-/

/-- A thread has the global variables and no others: every tier lists its names, every name reads
as its initial value, and no other name is bound. -/
structure Offers (g : Globals) (w : World) (thread : ThreadId) : Prop where
  names : ∀ tier, w.globalNames thread tier.code = (g.ofTier tier).names
  values : ∀ tier name initial, (g.ofTier tier).get? name = some initial →
    ∃ value x w', initial = .ok value ∧ (getGlobal thread name).run w = (.ok x, w') ∧
      w'.heap.reveal x = ({} : Heap).reveal value
  unbound : ∀ name, (∀ tier, (g.ofTier tier).get? name = none) →
    (getGlobal thread name).run w = (.error (.error (unboundFault name)), w)

def Apart (g : Globals) : Prop :=
  ∀ (name : String) (tier other : Tier), name ∈ (g.ofTier tier).names →
    name ∈ (g.ofTier other).names → tier = other

theorem Tidy.offers {m : Store} (h : Tidy m w) {thread : ThreadId} (hapart : Apart g)
    (hnames : ∀ tier, (w.tierNames thread tier).Perm (g.ofTier tier).names)
    (hshown : ∀ tier, ∀ e ∈ (g.ofTier tier).entries, ∃ value, e.2 = .ok value ∧
      (({} : Heap).reveal value).IsData ∧
      w.slotAt? (tier.place thread e.1) = some (initialSlot tier value)) :
    Offers g w thread where
  names tier := by
    rw [globalNames_eq]
    exact NameMap.sortNames_eq_of_perm ((hnames tier).trans (NameMap.sortNames_perm _))
  values tier name initial hinitial := by
    rcases hshown tier (name, initial) (NameMap.mem_of_lookup hinitial) with
      ⟨value, hvalue, hdata, hslot⟩
    have hlisted : name ∈ (g.ofTier tier).names := by
      apply Classical.byContradiction
      intro hmissing
      cases hinitial.symm.trans (NameMap.get?_eq_none_iff.mpr hmissing)
    have hother : ∀ other, other ≠ tier → w.varIn? (other.place thread name) = none := by
      intro other hne
      rw [varIn?_place_eq_none_iff, (hnames other).mem_iff]
      exact fun hmem => hne (hapart name other tier hmem hlisted)
    rcases h.getGlobal_of_isData hother hslot hdata with ⟨x, w', hx, hcontent⟩
    exact ⟨value, x, w', hvalue, hx, hcontent⟩
  unbound name hnone := by
    apply run_getGlobal_unbound
    intro tier
    rw [varIn?_place_eq_none_iff, (hnames tier).mem_iff]
    exact NameMap.get?_eq_none_iff.mp (hnone tier)

section Start

variable (s : Settings) (logger : Log.Logger) (sources : List Source) (hasEvaluator : Bool)

theorem seeded_fresh : Seeded [] { settings := s, logger, sources, hasEvaluator } where
  tidy := ⟨{}, tidy_fresh ⟨s, logger, sources, hasEvaluator, rfl⟩⟩
  single := rfl
  names tier := by cases tier <;> rfl
  shown e he := by cases he

theorem start_of_run {r : Except Failure Unit}
    (hrun : (s.globals.listed.forM seedListed).run
      { settings := s, logger, sources, hasEvaluator } = (r, w)) :
    start s logger sources hasEvaluator = r.map fun _ => w := by
  unfold start
  rw [seedGlobals_eq]
  simp only [hrun]
  cases r <;> rfl

/-- A world starts with all its variables declared, or it fails at one whose value could not be
read. -/
theorem start_cases {s : Settings} (haccepted : s.Accepted) :
    (∃ w, start s logger sources hasEvaluator = .ok w ∧ Seeded s.globals.listed w) ∨
      ∃ e ∈ s.globals.listed, ∃ fault, e.initial = .error fault ∧
        start s logger sources hasEvaluator =
          .error (.error (.context ("global " ++ e.name) fault)) := by
  have hnodup : (s.globals.listed.map (·.name)).Nodup := by
    have hnames : (s.globals.listed.map (·.name)).Perm
        (s.globals.shared.names ++ (s.globals.guarded.names ++ s.globals.threadLocal.names)) := by
      unfold Globals.listed
      rw [List.map_append, List.map_append]
      exact (Globals.listedIn_names _ .sharedImmutable).append
        ((Globals.listedIn_names _ .sharedMutable).append (Globals.listedIn_names _ .threadLocal))
    exact hnames.nodup_iff.mpr haccepted.nodup
  have hdecoded : ∀ e ∈ s.globals.listed, Initial.IsDecoded e.initial :=
    fun e he => haccepted.decoded e.tier _ (Globals.mem_listed he)
  rcases (seeded_fresh s logger sources hasEvaluator).run s.globals.listed hnodup hdecoded with
    ⟨w, hrun, hseeded⟩ | ⟨e, he, fault, w, hfault, hrun⟩
  · exact Or.inl ⟨w, start_of_run s logger sources hasEvaluator hrun, hseeded⟩
  · exact Or.inr ⟨e, he, fault, hfault, start_of_run s logger sources hasEvaluator hrun⟩

end Start

variable {s : Settings}

theorem Seeded.slotAt?_eq (hseeded : Seeded s.globals.listed w) (haccepted : s.Accepted)
    (tier : Tier) {e : String × Initial} (he : e ∈ (s.globals.ofTier tier).entries) :
    ∃ value, e.2 = .ok value ∧ (({} : Heap).reveal value).IsData ∧
      w.slotAt? (tier.place 0 e.1) = some (initialSlot tier value) := by
  rcases hseeded.shown _ (Globals.listed_of_mem he) with ⟨value, hvalue, hslot⟩
  exact ⟨value, hvalue, (haccepted.decoded tier e he).isData hvalue, hslot⟩

theorem Seeded.names_perm (hseeded : Seeded g.listed w) (tier : Tier) :
    (w.tierNames 0 tier).Perm (g.ofTier tier).names := by
  rw [hseeded.names, Globals.filter_listed]
  exact Globals.listedIn_names g tier

theorem Seeded.offers (hseeded : Seeded s.globals.listed w) (haccepted : s.Accepted) :
    Offers s.globals w 0 := by
  rcases hseeded.tidy with ⟨m, htidy⟩
  apply htidy.offers
  · exact fun name tier other => haccepted.apart
  · exact hseeded.names_perm
  · exact fun tier e he => hseeded.slotAt?_eq haccepted tier he

theorem Seeded.offers_fork (hseeded : Seeded s.globals.listed w) (haccepted : s.Accepted) :
    ∃ thread w', fork.run w = (.ok thread, w') ∧
      Offers { s.globals with threadLocal := {} } w' thread := by
  rcases hseeded.tidy with ⟨m, htidy⟩
  rcases run_fork w with ⟨lines, hfork⟩
  refine ⟨w.threads.size, _, hfork, ?_⟩
  have hempty : w.locals w.threads.size = {} := by
    unfold locals
    simp
  apply (htidy.newThread lines).offers
  · intro name tier other hname hother
    have hlisted : ∀ tier : Tier,
        name ∈ (Globals.ofTier { s.globals with threadLocal := {} } tier).names →
        name ∈ (s.globals.ofTier tier).names := by
      intro tier hmem
      cases tier with
      | threadLocal =>
          rw [Globals.ofTier, NameMap.names_empty] at hmem
          cases hmem
      | sharedImmutable => exact hmem
      | sharedMutable => exact hmem
    exact haccepted.apart (hlisted tier hname) (hlisted other hother)
  · intro tier
    cases tier with
    | threadLocal =>
        unfold tierNames
        rw [locals_newThread, hempty]
        exact (NameMap.sortNames_perm []).symm
    | sharedImmutable => exact hseeded.names_perm .sharedImmutable
    | sharedMutable => exact hseeded.names_perm .sharedMutable
  · intro tier e he
    cases tier with
    | threadLocal => cases he
    | sharedImmutable => exact hseeded.slotAt?_eq haccepted .sharedImmutable he
    | sharedMutable => exact hseeded.slotAt?_eq haccepted .sharedMutable he

/-- Settings that are read from a document are accepted.  A world of accepted settings fails to
start only where the value of a variable could not be read, and says which.  Otherwise the first
thread has the global variables of the settings, and a new thread has those that are shared. -/
theorem starts_with_settings :
    (∀ text path s, Settings.parse text path = .ok s → s.Accepted) ∧
      ∀ s : Settings, s.Accepted → ∀ logger sources hasEvaluator,
        (∀ failure, start s logger sources hasEvaluator = .error failure →
          ∃ tier name fault, (s.globals.ofTier tier).get? name = some (.error fault) ∧
            failure = .error (.context ("global " ++ name) fault)) ∧
        ∀ w, start s logger sources hasEvaluator = .ok w →
          Offers s.globals w 0 ∧
            ∃ thread w', fork.run w = (.ok thread, w') ∧
              Offers { s.globals with threadLocal := {} } w' thread := by
  constructor
  · intro text path s hparse
    exact Settings.parse_accepted hparse
  intro s haccepted logger sources hasEvaluator
  rcases start_cases logger sources hasEvaluator haccepted with
    ⟨w, hstart, hseeded⟩ | ⟨e, he, fault, hfault, hstart⟩
  · constructor
    · intro failure hfailure
      cases hstart.symm.trans hfailure
    · intro w' hw'
      cases hstart.symm.trans hw'
      exact ⟨hseeded.offers haccepted, hseeded.offers_fork haccepted⟩
  · constructor
    · intro failure hfailure
      cases hstart.symm.trans hfailure
      have hmem := Globals.mem_listed he
      rw [hfault] at hmem
      exact ⟨e.tier, e.name, fault, (haccepted.distinct e.tier).lookup_eq_some_iff.mpr hmem, rfl⟩
    · intro w hw
      cases hstart.symm.trans hw

def threeTiers : String :=
  "globals: \x7blocal: \x7ba: [x]\x7d, shared: \x7bb: 1\x7d, mutable: \x7bc: null\x7d\x7d"

theorem parse_threeTiers :
    ∃ s, Settings.parse threeTiers "settings" = .ok s ∧
      s.globals.threadLocal.names = ["a"] ∧ s.globals.shared.names = ["b"] ∧
      s.globals.guarded.names = ["c"] ∧ s.globals.listed.all (·.initial.isOk) = true := by
  have hview : (Settings.parse threeTiers "settings").toOption.map (fun s =>
      (s.globals.threadLocal.names, s.globals.shared.names, s.globals.guarded.names,
        s.globals.listed.all (·.initial.isOk))) = some (["a"], ["b"], ["c"], true) := by
    decide +kernel
  cases hparse : Settings.parse threeTiers "settings" with
  | error e =>
      rw [hparse] at hview
      cases hview
  | ok s =>
      rw [hparse] at hview
      injection hview with hview
      injection hview with hlocal hview
      injection hview with hshared hview
      injection hview with hguarded hread
      exact ⟨s, rfl, hlocal, hshared, hguarded, hread⟩

/-- The variables of the document, as the first and a new thread have them. -/
theorem starts_with_three_tiers :
    ∃ s w thread w', Settings.parse threeTiers "settings" = .ok s ∧
      start s .discard Source.standard false = .ok w ∧ fork.run w = (.ok thread, w') ∧
      w.globalNames 0 0 = ["a"] ∧ w'.globalNames thread 0 = [] ∧
      w'.globalNames thread 1 = ["b"] ∧ w'.globalNames thread 2 = ["c"] ∧
      (getGlobal thread "a").run w' = (.error (.error (unboundFault "a")), w') := by
  rcases parse_threeTiers with ⟨s, hparse, hlocal, hshared, hguarded, hread⟩
  have haccepted := starts_with_settings.1 _ _ s hparse
  rcases starts_with_settings.2 s haccepted .discard Source.standard false with ⟨hfails, hstarts⟩
  cases hstart : start s .discard Source.standard false with
  | error failure =>
      rcases hfails failure hstart with ⟨tier, name, fault, hget, _⟩
      have hok := List.all_eq_true.mp hread _ (Globals.listed_of_mem (NameMap.mem_of_lookup hget))
      cases hok
  | ok w =>
      rcases hstarts w hstart with ⟨hfirst, thread, w', hfork, hclone⟩
      refine ⟨s, w, thread, w', hparse, hstart, hfork, (hfirst.names .threadLocal).trans hlocal, ?_,
        (hclone.names .sharedImmutable).trans hshared,
        (hclone.names .sharedMutable).trans hguarded, hclone.unbound "a" ?_⟩
      · exact (hclone.names .threadLocal).trans NameMap.names_empty
      · intro tier
        cases tier with
        | threadLocal => rfl
        | sharedImmutable =>
            apply NameMap.get?_eq_none_iff.mpr
            rw [Globals.ofTier, hshared]
            decide
        | sharedMutable =>
            apply NameMap.get?_eq_none_iff.mpr
            rw [Globals.ofTier, hguarded]
            decide

end World
end ScriptCore
