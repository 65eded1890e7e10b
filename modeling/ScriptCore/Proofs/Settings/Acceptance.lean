import ScriptCore.Proofs.Heap.Data
import ScriptCore.Proofs.Yaml.RoundTrip
import ScriptCore.Settings.Document
import ScriptCore.Tier

/-!
# Settings that are accepted

In accepted settings no name is listed twice, be it in one tier or in two, and
every initial value has been read from YAML data.  Such a value is plain data.
-/

namespace ScriptCore

def Globals.ofTier (g : Globals) : Tier → NameMap Initial
  | .threadLocal => g.threadLocal
  | .sharedImmutable => g.shared
  | .sharedMutable => g.guarded

/-- The initial value is the value of the data that some decoder gives, if it gives any. -/
def Initial.IsDecoded (initial : Initial) : Prop :=
  ∃ decoded : Except Error Yaml, initial = decoded >>= Yaml.toValue

/-- The settings are valid, and the initial values are decoded. -/
structure Settings.Accepted (s : Settings) : Prop where
  valid : s.validate = .ok ()
  decoded : ∀ tier, ∀ e ∈ (s.globals.ofTier tier).entries, Initial.IsDecoded e.2

/-!
## Plain data
-/

namespace Value

theorem mem_putField {name : String} {value : Value} {fields : List (String × Value)}
    {e : String × Value} (hmem : e ∈ putField name value fields) :
    e = (name, value) ∨ e ∈ fields := by
  induction fields with
  | nil => exact Or.inl (List.mem_singleton.mp hmem)
  | cons first rest ih =>
      rw [putField] at hmem
      by_cases heq : name == first.1
      · rw [if_pos heq] at hmem
        rcases List.mem_cons.mp hmem with hnew | hrest
        · exact Or.inl hnew
        · exact Or.inr (List.mem_cons_of_mem first hrest)
      rw [if_neg heq] at hmem
      by_cases hlt : name < first.1
      · rw [if_pos hlt] at hmem
        exact List.mem_cons.mp hmem
      · rw [if_neg hlt] at hmem
        rcases List.mem_cons.mp hmem with hfirst | hrest
        · exact Or.inr (hfirst ▸ List.mem_cons_self)
        · rcases ih hrest with hnew | hold
          · exact Or.inl hnew
          · exact Or.inr (List.mem_cons_of_mem first hold)

theorem mem_sortFields {fields : List (String × Value)} {e : String × Value}
    (hmem : e ∈ sortFields fields) : e ∈ fields := by
  rcases NameMap.mem_foldl (fun _ _ _ hput => mem_putField hput) hmem with hempty | hfields
  · cases hempty
  · exact hfields

end Value

namespace Heap

variable {h : Heap}

theorem fieldsData_of_forall {fs : List (String × Value)}
    (hdata : ∀ e ∈ fs, (h.reveal e.2).IsData) : Content.FieldsData (h.revealFields fs) := by
  induction fs with
  | nil => trivial
  | cons e rest ih =>
      constructor
      · exact hdata e List.mem_cons_self
      · exact ih fun e' he' => hdata e' (List.mem_cons_of_mem e he')

theorem chars_isData (cs : List Char) :
    Content.AllData (h.revealAll (cs.map fun c => .char (Value.codeOfChar c))) := by
  induction cs with
  | nil => trivial
  | cons c rest ih => exact ⟨trivial, ih⟩

mutual

theorem toValue_isData : (d : Yaml) → {v : Value} → d.toValue = .ok v → (h.reveal v).IsData
  | .null, v, hvalue => by cases hvalue; trivial
  | .bool _, v, hvalue => by cases hvalue; trivial
  | .int _, v, hvalue => by cases hvalue; trivial
  | .uint _, v, hvalue => by cases hvalue; trivial
  | .float _, v, hvalue => by cases hvalue; trivial
  | .text s, v, hvalue => by
      cases hvalue
      exact chars_isData s.toList
  | .time _, v, hvalue => nomatch hvalue
  | .seq items, v, hvalue => by
      rw [Yaml.toValue] at hvalue
      rcases except_bind hvalue with ⟨vs, hvalues, hrest⟩
      cases hrest
      exact toValues_isData items hvalues
  | .map entries, v, hvalue => by
      rw [Yaml.toValue] at hvalue
      rcases except_bind hvalue with ⟨fs, hfields, hrest⟩
      cases hrest
      apply fieldsData_of_forall
      intro e he
      exact toFields_isData entries hfields e (Value.mem_sortFields he)

theorem toValues_isData :
    (items : List Yaml) → {vs : List Value} → Yaml.toValues items = .ok vs →
      Content.AllData (h.revealAll vs)
  | [], vs, hvalues => by
      cases hvalues
      trivial
  | item :: rest, vs, hvalues => by
      rw [Yaml.toValues] at hvalues
      rcases except_bind hvalues with ⟨v, hvalue, hvalues⟩
      rcases except_bind hvalues with ⟨vs', hrest, hpure⟩
      cases hpure
      exact ⟨toValue_isData item hvalue, toValues_isData rest hrest⟩

theorem toFields_isData :
    (entries : List (Yaml × Yaml)) → {fs : List (String × Value)} →
      Yaml.toFields entries = .ok fs → ∀ e ∈ fs, (h.reveal e.2).IsData
  | [], fs, hfields => by
      cases hfields
      exact fun e he => nomatch he
  | (key, item) :: rest, fs, hfields => by
      rw [Yaml.toFields] at hfields
      rcases except_bind hfields with ⟨v, hvalue, hfields⟩
      rcases except_bind hfields with ⟨fs', hrest, hpure⟩
      cases hpure
      intro e he
      cases he with
      | head => exact toValue_isData item hvalue
      | tail _ he => exact toFields_isData rest hrest e he

end

end Heap

theorem Initial.IsDecoded.isData {initial : Initial} (hdecoded : Initial.IsDecoded initial)
    {value : Value} (hinitial : initial = .ok value) : (({} : Heap).reveal value).IsData := by
  rcases hdecoded with ⟨decoded, rfl⟩
  rcases except_bind hinitial with ⟨d, _, hvalue⟩
  exact Heap.toValue_isData d hvalue

/-!
## Names
-/

namespace Settings

theorem checkNames_ok {tier : String} {names : List String} {seen seen' : NameMap String}
    (hcheck : checkNames tier names seen = .ok seen') :
    names.Nodup ∧ (∀ name ∈ names, seen.get? name = none) ∧
      ∀ name, seen'.get? name = none → seen.get? name = none ∧ name ∉ names := by
  unfold checkNames at hcheck
  induction names generalizing seen with
  | nil =>
      cases hcheck
      exact ⟨List.nodup_nil, (fun _ hn => nomatch hn), fun _ hnone => ⟨hnone, List.not_mem_nil⟩⟩
  | cons first rest ih =>
      rw [List.foldlM_cons] at hcheck
      cases hseen : seen.get? first with
      | some earlier =>
          rw [hseen] at hcheck
          cases hcheck
      | none =>
          rw [hseen] at hcheck
          rcases ih hcheck with ⟨hnodup, hnew, hlast⟩
          -- the first name is seen when the others are checked
          have hfirst : first ∉ rest := by
            intro hmem
            have hnone := hnew first hmem
            rw [NameMap.get?_insert_self] at hnone
            cases hnone
          have hold : ∀ name, (seen.insert first tier).get? name = none →
              seen.get? name = none ∧ name ≠ first := by
            intro name hnone
            rw [NameMap.get?_insert] at hnone
            by_cases heq : name = first
            · rw [if_pos heq] at hnone
              cases hnone
            · rw [if_neg heq] at hnone
              exact ⟨hnone, heq⟩
          refine ⟨List.nodup_cons.mpr ⟨hfirst, hnodup⟩, ?_, ?_⟩
          · intro name hname
            rcases List.mem_cons.mp hname with heq | hmem
            · rw [heq]
              exact hseen
            · exact (hold name (hnew name hmem)).1
          · intro name hnone
            rcases hlast name hnone with ⟨hinserted, hrest⟩
            rcases hold name hinserted with ⟨hnone', hne⟩
            exact ⟨hnone', fun hmem => (List.mem_cons.mp hmem).elim hne hrest⟩

theorem checkGlobals_ok {g : Globals} (hcheck : checkGlobals g = .ok ()) :
    (g.shared.names ++ (g.guarded.names ++ g.threadLocal.names)).Nodup := by
  unfold checkGlobals at hcheck
  rcases except_bind hcheck with ⟨seen₁, hlocal, hcheck⟩
  rcases except_bind hcheck with ⟨seen₂, hshared, hcheck⟩
  rcases except_bind hcheck with ⟨seen₃, hguarded, _⟩
  rcases checkNames_ok hlocal with ⟨hnodup₁, _, hseen₁⟩
  rcases checkNames_ok hshared with ⟨hnodup₂, hnew₂, hseen₂⟩
  rcases checkNames_ok hguarded with ⟨hnodup₃, hnew₃, _⟩
  rw [List.nodup_append, List.nodup_append]
  refine ⟨hnodup₂, ⟨hnodup₃, hnodup₁, ?_⟩, ?_⟩
  · intro a ha b hb heq
    rw [← heq] at hb
    exact (hseen₁ a (hseen₂ a (hnew₃ a ha)).1).2 hb
  · intro a ha b hb heq
    rw [← heq] at hb
    rcases List.mem_append.mp hb with hmem | hmem
    · exact (hseen₂ a (hnew₃ a hmem)).2 ha
    · exact (hseen₁ a (hnew₂ a ha)).2 hmem

theorem Accepted.nodup {s : Settings} (haccepted : s.Accepted) :
    (s.globals.shared.names ++ (s.globals.guarded.names ++ s.globals.threadLocal.names)).Nodup := by
  have hvalid := haccepted.valid
  unfold validate at hvalid
  rcases except_bind hvalid with ⟨_, _, hvalid⟩
  rcases except_bind hvalid with ⟨_, _, hvalid⟩
  exact checkGlobals_ok hvalid

theorem Accepted.distinct {s : Settings} (haccepted : s.Accepted) (tier : Tier) :
    NameMap.Distinct (s.globals.ofTier tier).entries := by
  have hnodup := haccepted.nodup
  rw [List.nodup_append, List.nodup_append] at hnodup
  have htier : (s.globals.ofTier tier).names.Nodup := by
    cases tier with
    | threadLocal => exact hnodup.2.1.2.1
    | sharedImmutable => exact hnodup.1
    | sharedMutable => exact hnodup.2.1.1
  exact (NameMap.sortNames_perm _).nodup_iff.mp htier

theorem Accepted.apart {s : Settings} (haccepted : s.Accepted) {name : String} {tier other : Tier}
    (hname : name ∈ (s.globals.ofTier tier).names)
    (hother : name ∈ (s.globals.ofTier other).names) : tier = other := by
  have hnodup := haccepted.nodup
  rw [List.nodup_append, List.nodup_append] at hnodup
  rcases hnodup with ⟨_, ⟨_, _, hguarded⟩, hshared⟩
  have hshared' : ∀ name ∈ s.globals.shared.names,
      name ∉ s.globals.guarded.names ∧ name ∉ s.globals.threadLocal.names := by
    intro name hmem
    constructor
    · exact fun h => hshared name hmem name (List.mem_append_left _ h) rfl
    · exact fun h => hshared name hmem name (List.mem_append_right _ h) rfl
  cases tier <;> cases other
  case threadLocal.threadLocal => rfl
  case threadLocal.sharedImmutable => exact absurd hname (hshared' name hother).2
  case threadLocal.sharedMutable => exact absurd rfl (hguarded name hother name hname)
  case sharedImmutable.threadLocal => exact absurd hother (hshared' name hname).2
  case sharedImmutable.sharedImmutable => rfl
  case sharedImmutable.sharedMutable => exact absurd hother (hshared' name hname).1
  case sharedMutable.threadLocal => exact absurd rfl (hguarded name hname name hother)
  case sharedMutable.sharedImmutable => exact absurd hname (hshared' name hother).1
  case sharedMutable.sharedMutable => rfl

/-!
## Documents
-/

theorem initial_isDecoded (anchors : Array Yaml.Node) (n : Yaml.Node) :
    Initial.IsDecoded (initial anchors n) := by
  refine ⟨do
    let filled ← Error.inContext "yaml decode" (Yaml.Decode.run anchors .any n)
    return filled.toData, ?_⟩
  unfold initial
  cases Error.inContext "yaml decode" (Yaml.Decode.run anchors .any n) with
  | error e => rfl
  | ok filled => rfl

theorem initialsAt_isDecoded (anchors : Array Yaml.Node) (f : Yaml.Filled) (path : List String) :
    ∀ e ∈ (initialsAt anchors f path).entries, Initial.IsDecoded e.2 := by
  intro e he
  unfold initialsAt at he
  split at he
  · rcases List.mem_filterMap.mp (NameMap.mem_ofList he) with ⟨entry, _, hentry⟩
    split at hentry
    · cases hentry
      exact initial_isDecoded anchors _
    · cases hentry
  · cases he

theorem ofFilled_isDecoded (anchors : Array Yaml.Node) (f : Yaml.Filled) (tier : Tier) :
    ∀ e ∈ ((ofFilled anchors f).globals.ofTier tier).entries, Initial.IsDecoded e.2 := by
  cases tier with
  | threadLocal => exact initialsAt_isDecoded anchors f ["globals", "local"]
  | sharedImmutable => exact initialsAt_isDecoded anchors f ["globals", "shared"]
  | sharedMutable => exact initialsAt_isDecoded anchors f ["globals", "mutable"]

theorem parseUnchecked_isDecoded {text : String} {s : Settings}
    (hparse : parseUnchecked text = .ok s) (tier : Tier) :
    ∀ e ∈ (s.globals.ofTier tier).entries, Initial.IsDecoded e.2 := by
  unfold parseUnchecked at hparse
  rcases except_bind hparse with ⟨document, _, hrest⟩
  cases document with
  | none =>
      cases hrest
      intro e he
      cases tier <;> cases he
  | some d =>
      rcases except_bind hrest with ⟨filled, _, hpure⟩
      cases hpure
      exact ofFilled_isDecoded d.anchors filled tier

theorem ok_of_inContext {α : Type} {text : String} {r : Except Error α} {a : α}
    (hr : Error.inContext text r = .ok a) : r = .ok a := by
  cases r with
  | error e => cases hr
  | ok b =>
      cases hr
      rfl

theorem parse_accepted {text path : String} {s : Settings} (hparse : parse text path = .ok s) :
    s.Accepted := by
  unfold parse at hparse
  rcases except_bind hparse with ⟨written, hwritten, hparse⟩
  rcases except_bind hparse with ⟨_, hvalid, hpure⟩
  cases hpure
  constructor
  · exact ok_of_inContext hvalid
  · -- the defaults leave the global variables as they are
    have hdecoded := parseUnchecked_isDecoded (ok_of_inContext hwritten)
    exact hdecoded

end Settings
end ScriptCore
