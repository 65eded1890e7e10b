import ScriptCore.Proofs.World.Invariant

/-!
# Annotated variables

A variable with a declared type is meant to hold a content of this type.  All
operations that assign nothing keep it so: new variables are checked, copies
have the type of what was copied, and a parameter has passed a check too, be it
a copy or a second name for a cell.
-/

namespace ScriptCore
namespace World

/-- The content of the variable has its declared type, if there is one. -/
def Fits (h : Heap) (v : Variable) : Prop :=
  v.declared.isMissing = false →
    ∃ type, h.typeOf (h.contentOf v.slot) = .ok type ∧ v.declared.equal type = true

/-- All variables hold contents of their declared types. -/
def Sound (w : World) : Prop :=
  ∀ (id : VariableId) (v : Variable), w.vars[id]? = some v → Fits w.heap v

variable {w w' : World} {id : VariableId} {v : Variable} {h h' : Heap}

/-!
## Fitting contents
-/

theorem fits_of_accepts {declared type : Ty} {slot : Value} (htype : h.typeOf slot = .ok type)
    (haccepts : Accepts declared type) : Fits h { declared, slot } := by
  intro hdeclared
  have hequal : declared.equal type = true := by
    cases haccepts with
    | inl hmissing =>
        rw [hdeclared] at hmissing
        cases hmissing
    | inr hequal => exact hequal
  cases slot with
  | reference cell =>
      rcases Heap.typeOf_reference htype with ⟨inner, hinner, hcontent⟩
      subst hinner
      rw [Ty.equal_ref_right] at hequal
      exact ⟨inner, hcontent, hequal⟩
  | _ => exact ⟨type, htype, hequal⟩

theorem Fits.grows (hfits : Fits h v) (hgrows : h.Grows h') (hclosed : h.Closed)
    (hlive : h.Live v.slot) : Fits h' v := by
  intro hdeclared
  rcases hfits hdeclared with ⟨type, htype, hequal⟩
  refine ⟨type, ?_, hequal⟩
  rw [Heap.contentOf_grows hgrows hlive]
  exact Heap.typeOf_grows hgrows hclosed (hclosed.contentOf hlive) htype

theorem Fits.store (hfits : Fits h v) {cell : CellId} (x : Value)
    (hunseen : ¬ h.Sees cell v.slot) : Fits (h.store cell x) v := by
  intro hdeclared
  rcases hfits hdeclared with ⟨type, htype, hequal⟩
  refine ⟨type, ?_, hequal⟩
  cases hslot : v.slot with
  | reference other =>
      rw [hslot] at htype hunseen
      have hne : other ≠ cell := by
        intro heq
        rw [heq] at hunseen
        exact hunseen Heap.Sees.here
      change (h.store cell x).typeOf ((h.store cell x).load other) = .ok type
      rw [h.load_store_ne x hne]
      exact Heap.typeOf_store (fun hseen => hunseen (Heap.Sees.through hseen)) htype
  | _ =>
      rw [hslot] at htype hunseen
      exact Heap.typeOf_store hunseen htype

theorem Fits.copied (hfits : Fits h v) {x : Value}
    (hcopied : h.Copied h' (h.contentOf v.slot) x) : Fits h' { v with slot := x } := by
  intro hdeclared
  rcases hfits hdeclared with ⟨type, htype, hequal⟩
  refine ⟨type, ?_, hequal⟩
  change h'.typeOf (h'.contentOf x) = .ok type
  rw [h'.contentOf_of_not_reference hcopied.isReference, hcopied.typeOf]
  exact htype

/-!
## Worlds in order
-/

/-- Everything that is held exists, and all contents have their declared types. -/
structure Good (w : World) : Prop where
  sane : w.Sane
  sound : w.Sound

theorem Good.of_same (hgood : w.Good) (hheap : w'.heap = w.heap) (hvars : w'.vars = w.vars) :
    w'.Good where
  sane :=
    { flat := by rw [hheap]; exact hgood.sane.flat
      closed := by rw [hheap]; exact hgood.sane.closed
      live := by rw [hheap, hvars]; exact hgood.sane.live }
  sound := by
    unfold Sound
    rw [hheap, hvars]
    exact hgood.sound

theorem Good.withHeap (hgood : w.Good) (hgrows : w.heap.Grows h)
    (hsane : Sane { w with heap := h }) : Good { w with heap := h } where
  sane := hsane
  sound id v hv := (hgood.sound id v hv).grows hgrows hgood.sane.closed (hgood.sane.live id v hv)

theorem Good.push (hgood : w.Good) (hlive : w.heap.Live v.slot) (hfits : Fits w.heap v) :
    Good { w with vars := w.vars.push v } where
  sane := hgood.sane.push hlive
  sound id u hu := by
    change (w.vars.push v)[id]? = some u at hu
    rw [Array.getElem?_push] at hu
    by_cases hid : id = w.vars.size
    · rw [if_pos hid] at hu
      cases hu
      exact hfits
    · rw [if_neg hid] at hu
      exact hgood.sound id u hu

theorem Good.copied (hgood : w.Good) (hv : w.vars[id]? = some v) {x : Value}
    (hcopied : w.heap.Copied h (w.heap.contentOf v.slot) x) :
    Good { w with heap := h, vars := w.vars.push { v with slot := x } } := by
  have hgrown := hgood.withHeap hcopied.heap.grows
    (hgood.sane.withSameCells hcopied.heap.grows hcopied.heap.cells)
  exact hgrown.push hcopied.live ((hgood.sound id v hv).copied hcopied)

theorem good_invariant : Invariant Good where
  sane hgood := hgood.sane
  same hgood hunmoved := hgood.of_same hunmoved.1 hunmoved.2
  grown hgood hgrows hcells := hgood.withHeap hgrows (hgood.sane.withSameCells hgrows hcells)
  boxed hgood hlive hflat :=
    hgood.withHeap (Heap.Grows.newCell _ _)
      (hgood.sane.withCell (Heap.Widens.refl _) hlive hflat)
  bound hgood hlive hbindable := by
    rcases hbindable with ⟨_, type, htype, haccepts⟩
    exact hgood.push hlive (fits_of_accepts htype haccepts)
  copied hgood hv hcopied := hgood.copied hv hcopied

end World
end ScriptCore
