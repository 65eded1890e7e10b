import ScriptCore.Proofs.Ty.Equality
import ScriptCore.Typeclass.Instances

/-!
# Dispatch and the history of registrations

The table of instances keeps the entries twice, under their keys and in a list
for the scan.  Both are determined by the registrations so far: an entry counts
as long as it is the latest one of its method and dispatch key, and the list is
in the order of time.
-/

namespace ScriptCore

structure Registration (β : Type) where
  className : String
  method : String
  type : Ty
  body : β

variable {β : Type}

def Instance.slot (e : Instance β) : String × String :=
  (e.method, e.type.key)

def Registration.entry (r : Registration β) (serial : Nat) : Instance β where
  serial := serial
  className := r.className
  method := r.method
  type := r.type
  body := r.body

namespace Instances

/-!
## Histories
-/

def register (t : Instances β) (r : Registration β) : Instances β :=
  t.add r.className r.method r.type r.body

def ofHistory (history : List (Registration β)) : Instances β :=
  history.foldl register {}

def numbered (history : List (Registration β)) : List (Instance β) :=
  history.mapIdx fun serial r => r.entry serial

def latest? (entries : List (Instance β)) (slot : String × String) : Option (Instance β) :=
  entries.reverse.find? fun e => e.slot == slot

def isLatest (entries : List (Instance β)) (e : Instance β) : Bool :=
  (latest? entries e.slot).any fun last => last.serial == e.serial

/-- The most recent entry of each method and key, in the order of time. -/
def current (entries : List (Instance β)) : List (Instance β) :=
  entries.filter (isLatest entries)

section

variable {history : List (Registration β)} {entries : List (Instance β)} {e e' : Instance β}

theorem numbered_append (history : List (Registration β)) (r : Registration β) :
    numbered (history ++ [r]) = numbered history ++ [r.entry history.length] := by
  unfold numbered
  rw [List.mapIdx_concat]

theorem mem_numbered (he : e ∈ numbered history) :
    ∃ r, history[e.serial]? = some r ∧ e = r.entry e.serial := by
  rcases List.mem_mapIdx.mp he with ⟨i, hi, rfl⟩
  exact ⟨history[i], List.getElem?_eq_getElem hi, rfl⟩

theorem serial_lt (he : e ∈ numbered history) : e.serial < history.length := by
  rcases mem_numbered he with ⟨r, hr, _⟩
  exact (List.getElem?_eq_some_iff.mp hr).1

theorem eq_of_serial (he : e ∈ numbered history) (he' : e' ∈ numbered history)
    (hserial : e.serial = e'.serial) : e = e' := by
  rcases mem_numbered he with ⟨r, hr, heq⟩
  rcases mem_numbered he' with ⟨r', hr', heq'⟩
  rw [hserial, hr'] at hr
  cases hr
  rw [heq, heq', hserial]

theorem nodup_numbered (history : List (Registration β)) : (numbered history).Nodup := by
  unfold List.Nodup
  rw [List.pairwise_iff_getElem]
  intro i j hi hj hij heq
  have hserial := congrArg Instance.serial heq
  simp only [numbered, List.getElem_mapIdx, Registration.entry] at hserial
  exact absurd hserial (Nat.ne_of_lt hij)

theorem latest?_append (entries : List (Instance β)) (e : Instance β) (slot : String × String) :
    latest? (entries ++ [e]) slot = if e.slot = slot then some e else latest? entries slot := by
  unfold latest?
  rw [List.reverse_append, List.reverse_singleton, List.singleton_append, List.find?_cons]
  by_cases hslot : e.slot = slot
  · rw [if_pos hslot, beq_iff_eq.mpr hslot]
  · rw [if_neg hslot, beq_eq_false_iff_ne.mpr hslot]

theorem mem_of_latest? {slot : String × String} (hlatest : latest? entries slot = some e) :
    e ∈ entries ∧ e.slot = slot := by
  constructor
  · exact List.mem_reverse.mp (List.mem_of_find?_eq_some hlatest)
  · simpa using List.find?_some hlatest

theorem mem_current : e ∈ current (numbered history) ↔
    latest? (numbered history) e.slot = some e := by
  unfold current isLatest
  rw [List.mem_filter]
  constructor
  · rintro ⟨he, hany⟩
    rcases (Option.any_eq_true _ _).mp hany with ⟨last, hlast, hserial⟩
    have hmem := (mem_of_latest? hlast).1
    rw [hlast, eq_of_serial hmem he (by simpa using hserial)]
  · intro hlatest
    refine ⟨(mem_of_latest? hlatest).1, ?_⟩
    rw [hlatest]
    simp

/-- A registration takes the place of the entry of its method and key, at the end of the list. -/
theorem current_append (history : List (Registration β)) (r : Registration β) :
    current (numbered (history ++ [r])) =
      (current (numbered history)).filter (fun e => e.slot != (r.entry history.length).slot) ++
        [r.entry history.length] := by
  have hnew : isLatest (numbered (history ++ [r])) (r.entry history.length) = true := by
    unfold isLatest
    rw [numbered_append, latest?_append, if_pos rfl]
    simp
  have hold : ∀ e ∈ numbered history, isLatest (numbered (history ++ [r])) e =
      ((e.slot != (r.entry history.length).slot) && isLatest (numbered history) e) := by
    intro e he
    unfold isLatest
    rw [numbered_append, latest?_append]
    by_cases hslot : (r.entry history.length).slot = e.slot
    · have hlt := serial_lt he
      have hne : (r.entry history.length).serial ≠ e.serial := Nat.ne_of_gt hlt
      simp [hslot, hne]
    · have hslot' : e.slot ≠ (r.entry history.length).slot := fun h => hslot h.symm
      simp [hslot, hslot']
  unfold current
  rw [numbered_append, List.filter_append, List.filter_filter, ← numbered_append,
    List.filter_congr hold]
  simp [hnew]

end

/-!
## The table
-/

theorem lookup_putKeyed (key other : String × String) (entry : Instance β)
    (keyed : List ((String × String) × Instance β)) :
    (putKeyed key entry keyed).lookup other =
      if key = other then some entry else keyed.lookup other := by
  induction keyed with
  | nil =>
      rw [putKeyed, List.lookup_cons]
      by_cases hkey : key = other
      · simp [hkey]
      · have hne : (other == key) = false := by simpa using fun h => hkey h.symm
        simp [hkey, hne]
  | cons pair rest ih =>
      obtain ⟨found, old⟩ := pair
      rw [putKeyed]
      by_cases hfound : key = found
      · subst hfound
        rw [if_pos (beq_self_eq_true key), List.lookup_cons, List.lookup_cons]
        by_cases hkey : key = other
        · simp [hkey]
        · have hne : (other == key) = false := by simpa using fun h => hkey h.symm
          simp [hkey, hne]
      · rw [if_neg (by simpa using hfound), List.lookup_cons, List.lookup_cons, ih]
        by_cases hkey : key = other
        · have hne : (other == found) = false := by
            rw [← hkey]
            simpa using hfound
          simp [hkey, hne]
        · simp [hkey]

/-- The table holds what the history says. -/
structure Reflects (t : Instances β) (history : List (Registration β)) : Prop where
  keyed : ∀ slot, t.keyed.lookup slot = latest? (numbered history) slot
  order : t.order = current (numbered history)
  nextSerial : t.nextSerial = history.length

variable {t : Instances β} {history : List (Registration β)}

theorem Reflects.filter_order (h : t.Reflects history) {slot : String × String}
    {old : Instance β} (hold : t.keyed.lookup slot = some old) :
    (t.order.filter fun e => e.serial != old.serial) = t.order.filter fun e => e.slot != slot := by
  rw [h.keyed] at hold
  rcases mem_of_latest? hold with ⟨hmem, hslot⟩
  apply List.filter_congr
  intro e he
  rw [h.order] at he
  have hlatest := mem_current.mp he
  rw [Bool.eq_iff_iff, bne_iff_ne, bne_iff_ne]
  apply not_congr
  constructor
  · intro hserial
    rw [eq_of_serial (mem_of_latest? hlatest).1 hmem hserial, hslot]
  · intro heq
    rw [heq, hold] at hlatest
    cases hlatest
    rfl

theorem Reflects.filter_order_none (h : t.Reflects history) {slot : String × String}
    (hnone : t.keyed.lookup slot = none) : (t.order.filter fun e => e.slot != slot) = t.order := by
  rw [List.filter_eq_self]
  intro e he
  rw [h.order] at he
  have hlatest := mem_current.mp he
  rw [bne_iff_ne]
  rintro rfl
  rw [h.keyed, hlatest] at hnone
  cases hnone

theorem Reflects.register (h : t.Reflects history) (r : Registration β) :
    (t.register r).Reflects (history ++ [r]) where
  keyed slot := by
    rw [numbered_append, latest?_append, ← h.keyed, ← h.nextSerial]
    exact lookup_putKeyed _ _ _ _
  order := by
    rw [current_append, ← h.order, ← h.nextSerial]
    unfold Instances.register add
    cases hold : t.keyed.lookup (r.method, r.type.key) with
    | some old =>
        simp only [hold, h.filter_order hold]
        rfl
    | none =>
        have hsame := h.filter_order_none hold
        simp only [hold]
        exact congrArg (· ++ [r.entry t.nextSerial]) hsame.symm
  nextSerial := by
    rw [List.length_append, List.length_singleton, ← h.nextSerial]
    rfl

theorem Reflects.foldl (h : t.Reflects history) (more : List (Registration β)) :
    (more.foldl Instances.register t).Reflects (history ++ more) := by
  induction more generalizing t history with
  | nil =>
      rw [List.append_nil]
      exact h
  | cons r rest ih =>
      have hrest := ih (h.register r)
      rw [List.append_assoc, List.singleton_append] at hrest
      exact hrest

theorem reflects_ofHistory (history : List (Registration β)) :
    (ofHistory history).Reflects history := by
  have hempty : ({} : Instances β).Reflects [] :=
    { keyed := fun _ => rfl
      order := rfl
      nextSerial := rfl }
  exact hempty.foldl history

/-!
## Dispatch
-/

theorem find?_eq_or (t : Instances β) (method : String) (argument : Ty) :
    t.find? method argument =
      (t.keyed.lookup (method, argument.key)).or
        (t.order.find? fun e => e.method == method && e.type.equal argument) := by
  unfold find?
  cases t.keyed.lookup (method, argument.key) with
  | some e => rfl
  | none => rfl

theorem find?_congr (t : Instances β) (method : String) {a b : Ty}
    (hnormal : a.normalize = b.normalize) : t.find? method a = t.find? method b := by
  have hkey : a.key = b.key := by
    unfold Ty.key
    rw [hnormal]
  have hequal : ∀ c : Ty, c.equal a = c.equal b := by
    intro c
    rw [← Ty.equal_normalize_right c a, hnormal, Ty.equal_normalize_right]
  simp only [find?_eq_or, hkey, hequal]

/-- Whatever has been registered: dispatch gives the latest entry under the method and the key of
the argument, or else the first of the current entries of the method whose type fits.  The list for
the scan and the table of keys hold the same entries, and the argument counts by its normal form. -/
theorem dispatch_by_history (history : List (Registration β)) :
    (∀ method argument, (ofHistory history).find? method argument =
      (latest? (numbered history) (method, argument.key)).or
        ((current (numbered history)).find? fun e =>
          e.method == method && e.type.equal argument)) ∧
    (ofHistory history).order.Nodup ∧
    (∀ e, e ∈ (ofHistory history).order ↔
      ∃ slot, (ofHistory history).keyed.lookup slot = some e) ∧
    (∀ slot e, (ofHistory history).keyed.lookup slot = some e → e.slot = slot) ∧
    (∀ method a b, a.normalize = b.normalize →
      (ofHistory history).find? method a = (ofHistory history).find? method b) := by
  have h := reflects_ofHistory history
  refine ⟨?_, ?_, ?_, ?_, ?_⟩
  · intro method argument
    rw [find?_eq_or, h.keyed, h.order]
  · rw [h.order]
    exact (nodup_numbered history).filter _
  · intro e
    rw [h.order, mem_current]
    constructor
    · intro hlatest
      exact ⟨e.slot, (h.keyed e.slot).trans hlatest⟩
    · rintro ⟨slot, hslot⟩
      rw [h.keyed] at hslot
      rw [(mem_of_latest? hslot).2, hslot]
  · intro slot e hslot
    rw [h.keyed] at hslot
    exact (mem_of_latest? hslot).2
  · intro method a b hnormal
    exact find?_congr (ofHistory history) method hnormal

/-- Two instances of one method, of which the generic one has been registered again.  A list of
references is dispatched like a list. -/
def showHistory : List (Registration Nat) :=
  [{ className := "Show", method := "show", type := .listOf (.named "a"), body := 0 },
    { className := "Show", method := "show", type := .listOf .int, body := 1 },
    { className := "Show", method := "show", type := .listOf (.named "a"), body := 2 }]

theorem dispatch_reference_like_list :
    (Ty.listOf (.ref .char)).normalize = (Ty.listOf .char).normalize ∧
    (ofHistory showHistory).find? "show" (.listOf (.ref .char)) =
      (ofHistory showHistory).find? "show" (.listOf .char) := by
  have hnormal : (Ty.listOf (.ref .char)).normalize = (Ty.listOf .char).normalize := rfl
  exact ⟨hnormal, (dispatch_by_history showHistory).2.2.2.2 "show" _ _ hnormal⟩

end Instances
end ScriptCore
