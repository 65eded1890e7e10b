import ScriptCore.Proofs.Heap.Copy

/-!
# Why a value has no copy

A copy fails at the first part of a value that cannot be copied.  The failure
can be read off the content, and it stays the same as long as the functions
and the names of the promises in the heap do: whatever is stored in cells, a
live value is copied with the same outcome as before.
-/

namespace ScriptCore

namespace Content

variable (names : PromiseId → String)

mutual

/-- Why a content has no copy, if it has none.  Promises are reported by the names of their
functions. -/
def obstacle? : Content → Option Failure
  | .absent => some (.panic .absentValue)
  | .list _ items => obstacleIn? items
  | .tuple items => obstacleIn? items
  | .algebraic _ fields => obstacleInFields? fields
  | .alias _ _ content => obstacle? content
  | .reference _ => some (.error Heap.referenceFault)
  | .promise id => some (.error (Heap.promiseFault (names id)))
  | _ => none

def obstacleIn? : List Content → Option Failure
  | [] => none
  | c :: rest => (obstacle? c).or (obstacleIn? rest)

def obstacleInFields? : List (String × Content) → Option Failure
  | [] => none
  | (_, c) :: rest => (obstacle? c).or (obstacleInFields? rest)

end

end Content

namespace Heap

def promiseName (h : Heap) (id : PromiseId) : String :=
  (h.promises[id]?.map (·.function)).getD ""

/-!
## Heaps that keep what can be read
-/

/-- Functions and the names of promises are kept.  Cells may have got other contents. -/
structure Retains (h h' : Heap) : Prop where
  wider : h.Wider h'
  functions : h.SameFunctions h'
  promises : ∀ id : PromiseId, id < h.promises.size → h'.promiseName id = h.promiseName id

namespace Retains

theorem refl (h : Heap) : h.Retains h where
  wider := (Grows.refl h).wider
  functions _ _ := rfl
  promises _ _ := rfl

theorem trans {h h₁ h₂ : Heap} (first : h.Retains h₁) (second : h₁.Retains h₂) :
    h.Retains h₂ where
  wider :=
    { cells := Nat.le_trans first.wider.cells second.wider.cells
      functions := Nat.le_trans first.wider.functions second.wider.functions
      promises := Nat.le_trans first.wider.promises second.wider.promises }
  functions id hid := by
    have hid' : id < h₁.functions.size := Nat.lt_of_lt_of_le hid first.wider.functions
    rw [second.functions id hid', first.functions id hid]
  promises id hid := by
    have hid' : id < h₁.promises.size := Nat.lt_of_lt_of_le hid first.wider.promises
    rw [second.promises id hid', first.promises id hid]

theorem of_grows {h h' : Heap} (hgrows : h.Grows h') (hpromises : h'.promises = h.promises) :
    h.Retains h' where
  wider := hgrows.wider
  functions := hgrows.sameFunctions
  promises id _ := by
    unfold promiseName
    rw [hpromises]

theorem newPromise (h : Heap) (p : Promise) : h.Retains (h.newPromise p).2 where
  wider := (Grows.newPromise h p).wider
  functions _ _ := rfl
  promises id hid := by
    simp [promiseName, Heap.newPromise, Array.getElem?_push, Nat.ne_of_lt hid]

theorem store (h : Heap) (cell : CellId) (value : Value) : h.Retains (h.store cell value) where
  wider := wider_store h cell value
  functions _ _ := rfl
  promises _ _ := rfl

end Retains

theorem Widens.retains {h h' : Heap} (hwidens : h.Widens h') : h.Retains h' :=
  Retains.of_grows hwidens.grows hwidens.promises

mutual

theorem obstacle?_retains {h h' : Heap} (hretains : h.Retains h') :
    (v : Value) → h.Live v →
      (h.reveal v).obstacle? h'.promiseName = (h.reveal v).obstacle? h.promiseName
  | .list _ _ items, hlive => obstacleIn?_retains hretains items hlive
  | .tuple _ items, hlive => obstacleIn?_retains hretains items hlive
  | .algebraic _ _ fields, hlive => obstacleInFields?_retains hretains fields hlive
  | .alias _ _ _ content, hlive => obstacle?_retains hretains content hlive
  | .promise id, hlive => by simp only [reveal, Content.obstacle?, hretains.promises id hlive]
  | .function _, _ => rfl
  | .reference _, _ => rfl
  | .absent, _ => rfl
  | .int _, _ => rfl
  | .uint _, _ => rfl
  | .float _, _ => rfl
  | .char _, _ => rfl
  | .byte _, _ => rfl
  | .bool _, _ => rfl

theorem obstacleIn?_retains {h h' : Heap} (hretains : h.Retains h') :
    (vs : List Value) → h.LiveAll vs →
      Content.obstacleIn? h'.promiseName (h.revealAll vs) =
        Content.obstacleIn? h.promiseName (h.revealAll vs)
  | [], _ => rfl
  | v :: rest, hlive => by
      simp only [revealAll, Content.obstacleIn?, obstacle?_retains hretains v hlive.1,
        obstacleIn?_retains hretains rest hlive.2]

theorem obstacleInFields?_retains {h h' : Heap} (hretains : h.Retains h') :
    (fs : List (String × Value)) → h.LiveFields fs →
      Content.obstacleInFields? h'.promiseName (h.revealFields fs) =
        Content.obstacleInFields? h.promiseName (h.revealFields fs)
  | [], _ => rfl
  | (_, v) :: rest, hlive => by
      simp only [revealFields, Content.obstacleInFields?, obstacle?_retains hretains v hlive.1,
        obstacleInFields?_retains hretains rest hlive.2]

end

theorem Widens.promiseName {h h' : Heap} (hwidens : h.Widens h') :
    h'.promiseName = h.promiseName := by
  funext id
  unfold Heap.promiseName
  rw [hwidens.promises]

/-!
## The failure of a copy
-/

def failure? {α : Type} (b : Building α) (h : Heap) : Option Failure :=
  match b.run h with
  | .ok _ => none
  | .error f => some f

section

variable {α β : Type} {x : Building α} {f : α → Building β} {h : Heap}

theorem failure?_bind {o : Option Failure}
    (hrest : ∀ a h₁, x.run h = .ok (a, h₁) → failure? (f a) h₁ = o) :
    failure? (x >>= f) h = (failure? x h).or o := by
  unfold failure?
  rw [StateT.run_bind]
  cases hx : x.run h with
  | error e => rfl
  | ok p => exact hrest p.1 p.2 hx

theorem failure?_bind_none (hrest : ∀ a h₁, failure? (f a) h₁ = none) :
    failure? (x >>= f) h = failure? x h := by
  rw [failure?_bind fun a h₁ _ => hrest a h₁, Option.or_none]

end

theorem failure?_copyFunction (h : Heap) (id : FunctionId) :
    failure? (copyFunction id) h = none := by
  unfold failure?
  cases hrun : (copyFunction id).run h with
  | error e => exact absurd hrun copyFunction_ne_error
  | ok p => rfl

mutual

theorem failure?_copy {h : Heap} :
    (v : Value) → h.Live v → failure? (copy v) h = (h.reveal v).obstacle? h.promiseName
  | .list _ _ items, hlive => by
      rw [copy, failure?_bind_none fun _ _ => rfl]
      exact failure?_copyAll items hlive
  | .tuple _ items, hlive => by
      rw [copy, failure?_bind_none fun _ _ => rfl]
      exact failure?_copyAll items hlive
  | .algebraic _ _ fields, hlive => by
      rw [copy, failure?_bind_none fun _ _ => rfl]
      exact failure?_copyFields fields hlive
  | .alias _ _ _ content, hlive => by
      rw [copy, failure?_bind_none fun _ _ => rfl]
      exact failure?_copy content hlive
  | .function id, _ => by
      rw [copy]
      exact failure?_copyFunction h id
  | .reference _, _ => rfl
  | .promise _, _ => rfl
  | .absent, _ => rfl
  | .int _, _ => rfl
  | .uint _, _ => rfl
  | .float _, _ => rfl
  | .char _, _ => rfl
  | .byte _, _ => rfl
  | .bool _, _ => rfl

theorem failure?_copyAll {h : Heap} :
    (vs : List Value) → h.LiveAll vs →
      failure? (copyAll vs) h = Content.obstacleIn? h.promiseName (h.revealAll vs)
  | [], _ => rfl
  | v :: rest, hlive => by
      rw [copyAll, revealAll, Content.obstacleIn?, ← failure?_copy v hlive.1]
      apply failure?_bind
      intro x h₁ hhead
      -- the copy of the first value has changed nothing that the others are read by
      have hheap := (copy_ok v hlive.1 hhead).heap
      rw [failure?_bind_none fun _ _ => rfl,
        failure?_copyAll rest (hlive.2.wider hheap.grows.wider), hheap.promiseName,
        revealAll_live hheap.grows.sameFunctions rest hlive.2]

theorem failure?_copyFields {h : Heap} :
    (fs : List (String × Value)) → h.LiveFields fs →
      failure? (copyFields fs) h = Content.obstacleInFields? h.promiseName (h.revealFields fs)
  | [], _ => rfl
  | (_, v) :: rest, hlive => by
      rw [copyFields, revealFields, Content.obstacleInFields?, ← failure?_copy v hlive.1]
      apply failure?_bind
      intro x h₁ hhead
      have hheap := (copy_ok v hlive.1 hhead).heap
      rw [failure?_bind_none fun _ _ => rfl,
        failure?_copyFields rest (hlive.2.wider hheap.grows.wider), hheap.promiseName,
        revealFields_live hheap.grows.sameFunctions rest hlive.2]

end

theorem failure?_copyContent {h : Heap} {v : Value} (hclosed : h.Closed) (hlive : h.Live v)
    (hpresent : (h.contentOf v).isAbsent = false) :
    failure? (copyContent v) h = (h.read v).obstacle? h.promiseName := by
  unfold read
  rw [← failure?_copy _ (hclosed.contentOf hlive)]
  unfold failure?
  rw [run_copyContent, if_neg (by simp [hpresent])]

end Heap
end ScriptCore
