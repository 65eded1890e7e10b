import ScriptCore.Proofs.Heap.Typing
import ScriptCore.Proofs.Ty.Equality
import ScriptCore.Proofs.World.Variable

/-!
# Contents that keep their type

A variable without a declared type checks an assignment against the content
that it has at the time.  Equality of types is not transitive, so one check
says little about two assignments; but without wildcards it is equality of
normal forms, and then the content keeps the normal form of its type through
any number of assignments, by any variable that shares the cell.

A value is typed with the cells that it sees.  Storing it in one of them leaves
it without a type, and one kind of value gets past the check that way: the cell
itself under references and aliases.  The content then has no type for good,
and nothing can be assigned any more.
-/

namespace ScriptCore

theorem Ty.normalize_mem {t : Ty} {types : List Ty} (hmem : t ∈ types) :
    t.normalize ∈ normalizeAll types := by
  induction hmem with
  | head rest => exact List.mem_cons_self
  | tail first _ ih => exact List.mem_cons_of_mem _ ih

namespace Heap

variable {h h' : Heap} {k cell : CellId} {v x : Value} {type : Ty}

/-!
## Values that see their own cell
-/

theorem exists_typeVia (h : Heap) (depth : Nat) :
    ∃ ct, ∀ v, h.follow .bottomless h.typeVia depth v = h.typeVia ct v := by
  cases depth with
  | zero => exact ⟨_, fun _ => rfl⟩
  | succ n => exact ⟨_, fun _ => rfl⟩

theorem typesVia_mem {ct : CellId → Except Panic Ty} {items : List Value} {types : List Ty}
    (htypes : h.typesVia ct items = .ok types) (hmem : v ∈ items) :
    ∃ type ∈ types, h.typeVia ct v = .ok type := by
  induction items generalizing types with
  | nil => cases hmem
  | cons first rest ih =>
      rw [typesVia] at htypes
      cases hfirst : h.typeVia ct first with
      | error p =>
          rw [hfirst] at htypes
          cases htypes
      | ok head =>
          cases hrest : h.typesVia ct rest with
          | error p =>
              rw [hfirst, hrest] at htypes
              cases htypes
          | ok others =>
              rw [hfirst, hrest] at htypes
              cases htypes
              cases hmem with
              | head => exact ⟨head, List.mem_cons_self, hfirst⟩
              | tail _ hmem =>
                  rcases ih hrest hmem with ⟨type, htype, hv⟩
                  exact ⟨type, List.mem_cons_of_mem head htype, hv⟩

theorem typeVia_tuple {ct : CellId → Except Panic Ty} {mark : Mark} {items : List Value}
    (htype : h.typeVia ct (.tuple mark items) = .ok type) :
    ∃ types, h.typesVia ct items = .ok types ∧
      type = if types.isEmpty then .unit else .tuple types := by
  rw [typeVia] at htype
  cases htypes : h.typesVia ct items with
  | error p =>
      rw [htypes] at htype
      cases htype
  | ok types =>
      rw [htypes] at htype
      cases htype
      exact ⟨types, rfl, rfl⟩

theorem typeVia_alias {ct : CellId → Except Panic Ty} {mark : Mark} {name target : Ty}
    (hmissing : target.isMissing = true)
    (htype : h.typeVia ct (.alias mark name target v) = .ok type) :
    ∃ inner, h.typeVia ct v = .ok inner ∧ type = .alias name inner := by
  rw [typeVia, if_pos hmissing] at htype
  cases hinner : h.typeVia ct v with
  | error p =>
      rw [hinner] at htype
      cases htype
  | ok inner =>
      rw [hinner] at htype
      cases htype
      exact ⟨inner, rfl, rfl⟩

theorem follow_reference {depth : Nat}
    (htype : h.follow .bottomless h.typeVia depth (.reference k) = .ok type) :
    ∃ n inner, depth = n + 1 ∧ h.follow .bottomless h.typeVia n (h.load k) = .ok inner := by
  cases depth with
  | zero => cases htype
  | succ n =>
      rw [follow, typeVia] at htype
      cases hinner : h.follow .bottomless h.typeVia n (h.load k) with
      | error p =>
          rw [hinner] at htype
          cases htype
      | ok inner => exact ⟨n, inner, rfl, hinner⟩

/-- Typing a value that sees a cell types the content of the cell, with fewer cells left to
follow. -/
theorem Sees.follow_lt (hsees : h.Sees k v) {depth : Nat}
    (htype : h.follow .bottomless h.typeVia depth v = .ok type) :
    ∃ n < depth, ∃ inner, h.follow .bottomless h.typeVia n (h.load k) = .ok inner := by
  induction hsees generalizing depth type with
  | here =>
      rcases follow_reference htype with ⟨n, inner, rfl, hinner⟩
      exact ⟨n, Nat.lt_succ_self n, inner, hinner⟩
  | through _ ih =>
      rcases follow_reference htype with ⟨n, inner, rfl, hinner⟩
      rcases ih hinner with ⟨m, hm, hfollow⟩
      exact ⟨m, Nat.lt_succ_of_lt hm, hfollow⟩
  | item hmem _ ih =>
      rcases exists_typeVia h depth with ⟨ct, hct⟩
      rw [hct] at htype
      rcases typeVia_tuple htype with ⟨types, htypes, _⟩
      rcases typesVia_mem htypes hmem with ⟨inner, _, hinner⟩
      exact ih ((hct _).trans hinner)
  | content hmissing _ ih =>
      rcases exists_typeVia h depth with ⟨ct, hct⟩
      rw [hct] at htype
      rcases typeVia_alias hmissing htype with ⟨inner, hinner, _⟩
      exact ih ((hct _).trans hinner)

theorem not_sees_of_typed (htype : h.typeOf (h.load k) = .ok type) : ¬ h.Sees k (h.load k) := by
  intro hsees
  have hnone : ∀ depth type, h.follow .bottomless h.typeVia depth (h.load k) ≠ .ok type := by
    intro depth
    induction depth using Nat.strongRecOn with
    | ind depth ih =>
        intro type hfollow
        rcases hsees.follow_lt hfollow with ⟨n, hn, inner, hinner⟩
        exact ih n hn inner hinner
  exact hnone _ type htype

theorem load_eq_absent (hle : h.cells.size ≤ cell) : h.load cell = .absent := by
  unfold load
  rw [Array.getD_eq_getD_getElem?, Array.getElem?_eq_none hle]
  rfl

theorem Sees.store (hsees : h.Sees k v) (x : Value) : (h.store k x).Sees k v := by
  induction hsees with
  | here => exact .here
  | @through cell _ ih =>
      by_cases hcell : cell = k
      · rw [hcell]
        exact .here
      · refine .through ?_
        rw [load_store_ne h x hcell]
        exact ih
  | item hmem _ ih => exact .item hmem ih
  | content hmissing _ ih => exact .content hmissing ih

theorem lt_size_of_sees (hsees : h.Sees k (h.load cell)) : cell < h.cells.size := by
  refine Nat.lt_of_not_le fun hle => ?_
  rw [load_eq_absent hle] at hsees
  cases hsees

theorem Sees.grows (hsees : h.Sees k v) (hgrows : h.Grows h') : h'.Sees k v := by
  induction hsees with
  | here => exact .here
  | @through cell hcell ih =>
      refine .through ?_
      rw [hgrows.cells cell (lt_size_of_sees hcell)]
      exact ih
  | item hmem _ ih => exact .item hmem ih
  | content hmissing _ ih => exact .content hmissing ih

theorem lt_size_of_typed (htype : h.typeOf (h.load k) = .ok type) : k < h.cells.size := by
  refine Nat.lt_of_not_le fun hle => ?_
  rw [load_eq_absent hle, typeOf_absent] at htype
  cases htype

/-!
## The cell under other names
-/

/-- The value is the cell itself, under references and aliases. -/
inductive Renames (h : Heap) (k : CellId) : Value → Prop where
  | here : Renames h k (.reference k)
  | through {cell : CellId} (hcell : Renames h k (h.load cell)) : Renames h k (.reference cell)
  | content {mark : Mark} {name target : Ty} {content : Value}
      (hmissing : target.isMissing = true) (hcontent : Renames h k content) :
      Renames h k (.alias mark name target content)

theorem Renames.sees (hrenames : h.Renames k v) : h.Sees k v := by
  induction hrenames with
  | here => exact .here
  | through _ ih => exact .through ih
  | content hmissing _ ih => exact .content hmissing ih

/-- The type of a value that sees a cell has that of the content as a part.  It is the same, up to
references and aliases, only if the value is the cell under another name. -/
theorem Sees.renames_or_smaller (hsees : h.Sees k v) {content : Ty}
    (hcontent : h.typeOf (h.load k) = .ok content) (htype : h.typeOf v = .ok type) :
    h.Renames k v ∧ type.normalize = content.normalize ∨
      sizeOf content.normalize < sizeOf type.normalize := by
  induction hsees generalizing type with
  | here =>
      rcases typeOf_reference htype with ⟨inner, rfl, hinner⟩
      cases hcontent.symm.trans hinner
      exact Or.inl ⟨.here, rfl⟩
  | through _ ih =>
      rcases typeOf_reference htype with ⟨inner, rfl, hinner⟩
      rcases ih hinner with ⟨hrenames, hsame⟩ | hsmaller
      · exact Or.inl ⟨.through hrenames, hsame⟩
      · exact Or.inr hsmaller
  | item hmem _ ih =>
      rcases exists_typeVia h h.cells.size with ⟨ct, hct⟩
      rw [typeOf, explore, hct] at htype
      rcases typeVia_tuple htype with ⟨types, htypes, rfl⟩
      rcases typesVia_mem htypes hmem with ⟨inner, hinner, hv⟩
      have hpart : sizeOf inner.normalize < sizeOf (Ty.tuple types).normalize := by
        have hlt := List.sizeOf_lt_of_mem (Ty.normalize_mem hinner)
        rw [Ty.normalize, Ty.tuple.sizeOf_spec]
        exact Nat.lt_of_lt_of_le hlt (Nat.le_add_left _ _)
      have hsome : types.isEmpty = false := by
        cases types with
        | nil => cases hinner
        | cons _ _ => rfl
      rw [hsome, if_neg Bool.false_ne_true]
      rcases ih ((hct _).trans hv) with ⟨_, hsame⟩ | hsmaller
      · rw [← hsame]
        exact Or.inr hpart
      · exact Or.inr (Nat.lt_trans hsmaller hpart)
  | content hmissing _ ih =>
      rcases exists_typeVia h h.cells.size with ⟨ct, hct⟩
      rw [typeOf, explore, hct] at htype
      rcases typeVia_alias hmissing htype with ⟨inner, hinner, rfl⟩
      rcases ih ((hct _).trans hinner) with ⟨hrenames, hsame⟩ | hsmaller
      · exact Or.inl ⟨.content hmissing hrenames, hsame⟩
      · exact Or.inr hsmaller

/-- Of the values that could replace a content by their type, those that see the cell are the cell
under other names. -/
theorem sees_iff_renames {content : Ty} (hcontent : h.typeOf (h.load k) = .ok content)
    (htype : h.typeOf v = .ok type) (hsame : type.normalize = content.normalize) :
    h.Sees k v ↔ h.Renames k v := by
  refine ⟨fun hsees => ?_, Renames.sees⟩
  rcases hsees.renames_or_smaller hcontent htype with ⟨hrenames, _⟩ | hsmaller
  · exact hrenames
  · rw [hsame] at hsmaller
    exact absurd hsmaller (Nat.lt_irrefl _)

def Definite (h : Heap) (v : Value) : Prop :=
  ∃ type, h.typeOf v = .ok type ∧ type.hasWildcard = false

end Heap

namespace World

variable {w w₁ w₂ : World} {cell : CellId} {id : VariableId} {type actual : Ty}

/-- The variable has no declared type, and its content is in the cell. -/
def Shares (w : World) (cell : CellId) (id : VariableId) : Prop :=
  w.vars[id]? = some { declared := .missing, slot := .reference cell }

theorem shares_of_bindMutable {value : Value}
    (hbind : (bindMutable .missing value).run w = (.ok id, w₁)) :
    ∃ cell type, w₁.Shares cell id ∧ w₁.heap.typeOf (w₁.heap.load cell) = .ok type := by
  unfold bindMutable at hbind
  rcases Op.bind_cases hbind with ⟨_, _, hr⟩ | ⟨content, u, _, hrest⟩
  · cases hr
  rcases Op.bind_cases hrest with ⟨_, _, hr⟩ | ⟨slot, u₁, hbox, hbound⟩
  · cases hr
  have hreference : ∃ cell, slot = .reference cell := by
    rcases Op.build_cases hbox with ⟨_, _, hr, _⟩ | ⟨x, h, hx, hr, _⟩
    · cases hr
    cases hr
    cases hdetach : (Heap.detach content).run u.heap with
    | ok p =>
        rw [Heap.run_newReference_ok hdetach] at hx
        cases hx
        exact ⟨_, rfl⟩
    | error f =>
        cases f with
        | error e =>
            rw [Heap.run_newReference_moved hdetach] at hx
            cases hx
            exact ⟨_, rfl⟩
        | panic p =>
            rw [Heap.run_newReference_panic hdetach] at hx
            cases hx
  rcases hreference with ⟨cell, rfl⟩
  rcases bindValue_cases hbound with ⟨_, hr, _⟩ | ⟨hr, ⟨_, type, htype, _⟩, rfl⟩
  · cases hr
  cases hr
  rcases Heap.typeOf_reference htype with ⟨inner, _, hinner⟩
  exact ⟨cell, inner, Array.getElem?_push_size, hinner⟩

/-!
## One attempt
-/

/-- An attempt to assign a value to a variable. -/
structure Assignment where
  var : VariableId
  value : Value

namespace Assignment

variable {a : Assignment}

def run (a : Assignment) (w : World) : Except Failure Unit × World :=
  (assignValue a.var a.value).run w

def content (a : Assignment) (w : World) : Value :=
  w.heap.contentOf a.value

theorem present_of_typed {v : Value} {h : Heap} (htype : h.typeOf v = .ok type) :
    v.isAbsent = false := by
  cases v with
  | absent =>
      rw [Heap.typeOf_absent] at htype
      cases htype
  | _ => rfl

/-- Without wildcards, a value can be assigned if its type has the normal form that the type of the
content has. -/
theorem assignable_iff (hshares : w.Shares cell a.var)
    (hcontent : w.heap.typeOf (w.heap.load cell) = .ok type) (hplain : type.hasWildcard = false)
    (hactual : w.heap.typeOf (a.content w) = .ok actual) (hdefinite : actual.hasWildcard = false) :
    Assignable w a.var a.value cell ↔ actual.normalize = type.normalize := by
  constructor
  · rintro ⟨_, v, expected, actual', hv, _, hexpects, hactual', haccepts⟩
    cases hv.symm.trans hshares
    cases hactual'.symm.trans hactual
    cases (show w.heap.typeOf (w.heap.load cell) = .ok expected from hexpects).symm.trans hcontent
    rcases haccepts with hmissing | hequal
    · cases type with
      | missing => cases hplain
      | _ => cases hmissing
    · exact ((Ty.equal_iff_normalize_eq hplain hdefinite).mp hequal).symm
  · intro hsame
    refine ⟨present_of_typed hactual, _, type, actual, hshares, rfl, hcontent, hactual, Or.inr ?_⟩
    exact (Ty.equal_iff_normalize_eq hplain hdefinite).mpr hsame.symm

theorem run_accepted (hassign : Assignable w a.var a.value cell) :
    a.run w = (.ok (), { w with heap := w.heap.store cell (a.content w) }) :=
  run_assignValue hassign

theorem run_refused (hshares : w.Shares cell a.var) (hno : ¬ Assignable w a.var a.value cell) :
    ∃ f, a.run w = (.error f, w) := by
  have hupdated : Updated w a.var a.value (a.run w).1 (a.run w).2 := assignValue_updated rfl
  generalize a.run w = r at hupdated
  rcases r with ⟨r, w'⟩
  cases hupdated with
  | refused f _ => exact ⟨f, rfl⟩
  | @stored other hassign =>
      rcases hassign.fits with ⟨v, _, _, hv, hslot, _⟩
      cases hv.symm.trans hshares
      cases hslot
      exact absurd hassign hno

/-- An attempt succeeds exactly if the normal form of the type is right, and otherwise it changes
nothing. -/
theorem run_cases (hshares : w.Shares cell a.var)
    (hcontent : w.heap.typeOf (w.heap.load cell) = .ok type) (hplain : type.hasWildcard = false)
    (hactual : w.heap.typeOf (a.content w) = .ok actual) (hdefinite : actual.hasWildcard = false) :
    (actual.normalize = type.normalize ∧
      a.run w = (.ok (), { w with heap := w.heap.store cell (a.content w) })) ∨
    (actual.normalize ≠ type.normalize ∧ ∃ f, a.run w = (.error f, w)) := by
  have hiff := assignable_iff hshares hcontent hplain hactual hdefinite
  by_cases hsame : actual.normalize = type.normalize
  · exact Or.inl ⟨hsame, run_accepted (hiff.mpr hsame)⟩
  · exact Or.inr ⟨hsame, run_refused hshares fun hassign => hsame (hiff.mp hassign)⟩

end Assignment

/-- The content of the cell has a type without wildcards whose normal form is that of the given
type. -/
def HoldsLike (w : World) (cell : CellId) (type : Ty) : Prop :=
  ∃ content, w.heap.typeOf (w.heap.load cell) = .ok content ∧ content.hasWildcard = false ∧
    content.normalize = type.normalize

theorem HoldsLike.typed (hholds : w.HoldsLike cell type) :
    ∃ content, w.heap.typeOf (w.heap.load cell) = .ok content ∧
      content.normalize = type.normalize ∧ content.key = type.key := by
  rcases hholds with ⟨content, hcontent, _, hnormal⟩
  refine ⟨content, hcontent, hnormal, ?_⟩
  unfold Ty.key
  rw [hnormal]

theorem HoldsLike.attempt {a : Assignment} (hholds : w.HoldsLike cell type)
    (hshares : w.Shares cell a.var) (hdefinite : w.heap.Definite (a.content w))
    (hother : (a.run w).1 = .ok () → ¬ w.heap.Renames cell (a.content w)) :
    (a.run w).2.HoldsLike cell type := by
  rcases hholds with ⟨content, hcontent, hplain, hnormal⟩
  rcases hdefinite with ⟨actual, hactual, hclosed⟩
  rcases Assignment.run_cases hshares hcontent hplain hactual hclosed with
    ⟨hsame, hrun⟩ | ⟨_, f, hrun⟩
  · have hcell := Heap.lt_size_of_typed hcontent
    rw [hrun] at hother ⊢
    -- the value does not see the cell, so it keeps its type when it is stored there
    have hunseen : ¬ w.heap.Sees cell (a.content w) := by
      rw [Heap.sees_iff_renames hcontent hactual hsame]
      exact hother rfl
    refine ⟨actual, ?_, hclosed, hsame.trans hnormal⟩
    show (w.heap.store cell (a.content w)).typeOf ((w.heap.store cell (a.content w)).load cell) = _
    rw [Heap.load_store_self _ _ hcell]
    exact Heap.typeOf_store hunseen hactual
  · rw [hrun]
    exact ⟨content, hcontent, hplain, hnormal⟩

theorem HoldsLike.grows (hholds : w.HoldsLike cell type) (hclosed : w.heap.Closed)
    (hgrows : w.heap.Grows w₁.heap) : w₁.HoldsLike cell type := by
  rcases hholds with ⟨content, hcontent, hplain, hnormal⟩
  refine ⟨content, ?_, hplain, hnormal⟩
  rw [hgrows.cells cell (Heap.lt_size_of_typed hcontent)]
  exact Heap.typeOf_grows hgrows hclosed (hclosed cell) hcontent

/-!
## A content without a type
-/

def Knotted (w : World) (cell : CellId) : Prop :=
  w.heap.Sees cell (w.heap.load cell)

theorem Knotted.untyped (hknotted : w.Knotted cell) (type : Ty) :
    w.heap.typeOf (w.heap.load cell) ≠ .ok type :=
  fun htype => Heap.not_sees_of_typed htype hknotted

theorem Knotted.refuses {a : Assignment} (hknotted : w.Knotted cell)
    (hshares : w.Shares cell a.var) : ∃ f, a.run w = (.error f, w) := by
  refine Assignment.run_refused hshares ?_
  rintro ⟨_, v, expected, _, hv, _, hexpects, _⟩
  cases hv.symm.trans hshares
  exact hknotted.untyped expected hexpects

theorem Knotted.grows (hknotted : w.Knotted cell) (hgrows : w.heap.Grows w₁.heap) :
    w₁.Knotted cell := by
  unfold Knotted
  rw [hgrows.cells cell (Heap.lt_size_of_sees hknotted)]
  exact Heap.Sees.grows hknotted hgrows

theorem knotted_of_renames {a : Assignment} (hshares : w.Shares cell a.var)
    (hok : (a.run w).1 = .ok ()) (hrenames : w.heap.Renames cell (a.content w)) :
    (a.run w).2.Knotted cell := by
  by_cases hassign : Assignable w a.var a.value cell
  · rw [Assignment.run_accepted hassign]
    rcases hassign with ⟨_, v, expected, _, hv, _, hexpects, _⟩
    cases hv.symm.trans hshares
    show (w.heap.store cell (a.content w)).Sees cell ((w.heap.store cell (a.content w)).load cell)
    rw [Heap.load_store_self _ _ (Heap.lt_size_of_typed hexpects)]
    exact hrenames.sees.store _
  · rcases Assignment.run_refused hshares hassign with ⟨f, hrun⟩
    rw [hrun] at hok
    cases hok

/-!
## Whole runs
-/

/-- Attempts on variables that share the cell, one after another, each with the world in which it is
made, the latest first.  In between there may be new values, cells and variables. -/
inductive Assignments (cell : CellId) (w : World) : List (World × Assignment) → World → Prop where
  | start : Assignments cell w [] w
  | attempt {past : List (World × Assignment)} {w₁ : World} (hpast : Assignments cell w past w₁)
      (a : Assignment) (hshares : w₁.Shares cell a.var) :
      Assignments cell w ((w₁, a) :: past) (a.run w₁).2
  | growth {past : List (World × Assignment)} {w₁ w₂ : World} (hpast : Assignments cell w past w₁)
      (hclosed : w₁.heap.Closed) (hgrows : w₁.heap.Grows w₂.heap) : Assignments cell w past w₂

variable {past : List (World × Assignment)}

theorem Assignments.shares {e : World × Assignment} (hpast : Assignments cell w past w₁)
    (he : e ∈ past) : e.1.Shares cell e.2.var := by
  induction hpast with
  | start => cases he
  | attempt _ a hshares ih =>
      rcases List.mem_cons.mp he with rfl | he
      · exact hshares
      · exact ih he
  | growth _ _ _ ih => exact ih he

theorem Assignments.knotted {e : World × Assignment} (hpast : Assignments cell w past w₁)
    (he : e ∈ past) (hok : (e.2.run e.1).1 = .ok ())
    (hrenames : e.1.heap.Renames cell (e.2.content e.1)) : w₁.Knotted cell := by
  induction hpast with
  | start => cases he
  | attempt _ a hshares ih =>
      rcases List.mem_cons.mp he with rfl | he
      · exact knotted_of_renames hshares hok hrenames
      · rcases (ih he).refuses hshares with ⟨f, hrun⟩
        rw [hrun]
        exact ih he
  | growth _ _ hgrows ih => exact (ih he).grows hgrows

/-- In each state of a run the content has a type like that at the start, or it leads back to the
cell because the cell has been stored in itself. -/
theorem Assignments.holdsLike_or_knotted (hpast : Assignments cell w past w₁)
    (hholds : w.HoldsLike cell type)
    (hdefinite : ∀ e ∈ past, e.1.heap.Definite (e.2.content e.1)) :
    ∀ u ∈ w₁ :: past.map (·.1), u.HoldsLike cell type ∨
      u.Knotted cell ∧ ∃ e ∈ past, (e.2.run e.1).1 = .ok () ∧
        e.1.heap.Renames cell (e.2.content e.1) := by
  induction hpast with
  | start =>
      intro u hu
      cases List.mem_singleton.mp hu
      exact Or.inl hholds
  | @attempt _ u _ a hshares ih =>
      have hearlier := ih fun e he => hdefinite e (List.mem_cons_of_mem _ he)
      have hall := fun u' hu' => (hearlier u' hu').imp_right
        (And.imp_right (Exists.imp fun e => And.imp_left (List.mem_cons_of_mem (u, a))))
      rw [List.map_cons, List.forall_mem_cons]
      refine ⟨?_, hall⟩
      rcases hall u List.mem_cons_self with hlike | hknotted
      · by_cases hties : (a.run u).1 = .ok () ∧ u.heap.Renames cell (a.content u)
        · exact Or.inr
            ⟨knotted_of_renames hshares hties.1 hties.2, (u, a), List.mem_cons_self, hties⟩
        · exact Or.inl (hlike.attempt hshares (hdefinite (u, a) List.mem_cons_self)
            fun hok hrenames => hties ⟨hok, hrenames⟩)
      · rcases hknotted.1.refuses hshares with ⟨f, hrun⟩
        rw [hrun]
        exact Or.inr hknotted
  | growth _ hclosed hgrows ih =>
      have hall := List.forall_mem_cons.mp (ih hdefinite)
      refine List.forall_mem_cons.mpr ⟨?_, hall.2⟩
      exact hall.1.imp (·.grows hclosed hgrows) (·.imp_left (·.grows hgrows))

/-- An attempt succeeds exactly if the normal form of the type is right and the content has a type,
and otherwise it changes nothing. -/
theorem attempt_iff {a : Assignment} (hstate : w.HoldsLike cell type ∨ w.Knotted cell)
    (hshares : w.Shares cell a.var) (hactual : w.heap.typeOf (a.content w) = .ok actual)
    (hdefinite : actual.hasWildcard = false) :
    ((a.run w).1 = .ok () ↔ actual.normalize = type.normalize ∧
      ∃ content, w.heap.typeOf (w.heap.load cell) = .ok content) ∧
    ((a.run w).1 ≠ .ok () → (a.run w).2 = w) := by
  rcases hstate with ⟨content, hcontent, hplain, hnormal⟩ | hknotted
  · rcases Assignment.run_cases hshares hcontent hplain hactual hdefinite with
      ⟨hsame, hrun⟩ | ⟨hdiffers, f, hrun⟩
    · rw [hrun]
      exact ⟨⟨fun _ => ⟨hsame.trans hnormal, content, hcontent⟩, fun _ => rfl⟩,
        fun hne => absurd rfl hne⟩
    · rw [hrun]
      refine ⟨⟨(fun hok => nomatch hok), fun hsame => ?_⟩, fun _ => rfl⟩
      exact absurd (hsame.1.trans hnormal.symm) hdiffers
  · rcases hknotted.refuses hshares with ⟨f, hrun⟩
    rw [hrun]
    refine ⟨⟨(fun hok => nomatch hok), fun hsame => ?_⟩, fun _ => rfl⟩
    rcases hsame.2 with ⟨content, hcontent⟩
    exact absurd hcontent (hknotted.untyped content)

/-- A mutable variable without a declared type has its content in a cell.  Attempts are made to
assign values with types without wildcards, by variables without a declared type that share the
cell.  The type of the content keeps its normal form and its key through the whole run exactly if no
value has been accepted that is the cell itself under references and aliases; after such a value
there is no type any more.  An attempt succeeds exactly if the type of its value has the normal form
and there still is a type to compare with, and changes nothing otherwise. -/
theorem content_type_is_stable_iff {w₀ w : World} {initial : Value} {id : VariableId}
    (hbind : (bindMutable .missing initial).run w₀ = (.ok id, w)) :
    ∃ cell type, w.Shares cell id ∧ w.heap.typeOf (w.heap.load cell) = .ok type ∧
      ∀ past w', type.hasWildcard = false → Assignments cell w past w' →
        (∀ e ∈ past, e.1.heap.Definite (e.2.content e.1)) →
        ((∀ u ∈ w' :: past.map (·.1), ∃ content, u.heap.typeOf (u.heap.load cell) = .ok content ∧
            content.normalize = type.normalize ∧ content.key = type.key) ↔
          ∀ e ∈ past, (e.2.run e.1).1 = .ok () → ¬ e.1.heap.Renames cell (e.2.content e.1)) ∧
        (∀ e ∈ past, (e.2.run e.1).1 = .ok () → e.1.heap.Renames cell (e.2.content e.1) →
          ∀ content, w'.heap.typeOf (w'.heap.load cell) ≠ .ok content) ∧
        ∀ e ∈ past, ∀ actual, e.1.heap.typeOf (e.2.content e.1) = .ok actual →
          ((e.2.run e.1).1 = .ok () ↔ actual.normalize = type.normalize ∧
            ∃ content, e.1.heap.typeOf (e.1.heap.load cell) = .ok content) ∧
          ((e.2.run e.1).1 ≠ .ok () → (e.2.run e.1).2 = e.1) := by
  rcases shares_of_bindMutable hbind with ⟨cell, type, hshares, htype⟩
  refine ⟨cell, type, hshares, htype, ?_⟩
  intro past w' hplain hpast hdefinite
  have hstates := hpast.holdsLike_or_knotted ⟨type, htype, hplain, rfl⟩ hdefinite
  have huntyped : ∀ e ∈ past, (e.2.run e.1).1 = .ok () →
      e.1.heap.Renames cell (e.2.content e.1) →
      ∀ content, w'.heap.typeOf (w'.heap.load cell) ≠ .ok content :=
    fun e he hok hrenames => (hpast.knotted he hok hrenames).untyped
  refine ⟨⟨?_, ?_⟩, huntyped, ?_⟩
  · intro htyped e he hok hrenames
    rcases htyped w' List.mem_cons_self with ⟨content, hcontent, _⟩
    exact huntyped e he hok hrenames content hcontent
  · intro hother u hu
    rcases hstates u hu with hlike | ⟨_, e, he, hok, hrenames⟩
    · exact hlike.typed
    · exact absurd hrenames (hother e he hok)
  · intro e he actual hactual
    have hstate := hstates e.1 (List.mem_cons_of_mem _ (List.mem_map_of_mem he))
    rcases hdefinite e he with ⟨actual', hactual', hclosed⟩
    cases hactual'.symm.trans hactual
    exact attempt_iff (hstate.imp_right And.left) (hpast.shares he) hactual hclosed

def prepared : World where
  heap := { cells := #[.int 7] }

def numberBound : World :=
  ((bindMutable .missing (.int 1)).run prepared).2

def numberShared : World :=
  { numberBound with vars := numberBound.vars.push { declared := .missing, slot := .reference 1 } }

/-- The second variable gets the content of the other cell, passed as a reference. -/
def takeSeven : Assignment where
  var := 1
  value := .reference 0

def takeTruth : Assignment where
  var := 0
  value := .bool true

theorem closed_numberBound : numberBound.heap.Closed := by
  intro cell
  match cell with
  | 0 => trivial
  | 1 => trivial
  | n + 2 => trivial

theorem attempts_numberBound :
    Assignments 1 numberBound
      [((takeSeven.run numberShared).2, takeTruth), (numberShared, takeSeven)]
      (takeTruth.run (takeSeven.run numberShared).2).2 := by
  have hshared : Assignments 1 numberBound [] numberShared :=
    Assignments.start.growth closed_numberBound (Heap.Grows.refl _)
  exact (hshared.attempt takeSeven rfl).attempt takeTruth rfl

theorem number_stays_a_number :
    (bindMutable .missing (.int 1)).run prepared = (.ok 0, numberBound) ∧
    (∀ e ∈ [((takeSeven.run numberShared).2, takeTruth), (numberShared, takeSeven)],
      e.1.heap.Definite (e.2.content e.1)) ∧
    (takeSeven.run numberShared).1 = .ok () ∧
    (takeTruth.run (takeSeven.run numberShared).2).1 ≠ .ok () ∧
    ∃ content, (takeTruth.run (takeSeven.run numberShared).2).2.heap.typeOf
        ((takeTruth.run (takeSeven.run numberShared).2).2.heap.load 1) = .ok content ∧
      content.normalize = .int := by
  have hbind : (bindMutable .missing (.int 1)).run prepared = (.ok 0, numberBound) := rfl
  have hdefinite : ∀ e ∈ [((takeSeven.run numberShared).2, takeTruth), (numberShared, takeSeven)],
      e.1.heap.Definite (e.2.content e.1) ∧ ¬ e.1.heap.Renames 1 (e.2.content e.1) := by
    intro e he
    simp only [List.mem_cons, List.not_mem_nil, or_false] at he
    rcases he with rfl | rfl
    · exact ⟨⟨.bool, rfl, by decide⟩, fun hrenames => nomatch hrenames⟩
    · exact ⟨⟨.int, rfl, by decide⟩, fun hrenames => nomatch hrenames⟩
  rcases content_type_is_stable_iff hbind with ⟨cell, type, hshares, htype, hstable⟩
  cases (show numberBound.Shares 1 0 from rfl).symm.trans hshares
  have hint : numberBound.heap.typeOf (numberBound.heap.load 1) = .ok .int := rfl
  cases hint.symm.trans htype
  rcases hstable _ _ (by decide) attempts_numberBound fun e he => (hdefinite e he).1 with
    ⟨hstates, _, hattempts⟩
  refine ⟨hbind, fun e he => (hdefinite e he).1, ?_, ?_, ?_⟩
  · exact (hattempts (numberShared, takeSeven) (by simp) .int rfl).1.mpr ⟨rfl, .int, rfl⟩
  · intro hok
    have hsame := ((hattempts (_, takeTruth) (by simp) .bool rfl).1.mp hok).1
    exact absurd (Ty.named.inj hsame) (by decide)
  · rcases hstates.mpr (fun e he _ => (hdefinite e he).2) _ List.mem_cons_self with
      ⟨content, hcontent, hnormal, _⟩
    exact ⟨content, hcontent, hnormal⟩

/-- The number is to get its own cell under the name of a unit. -/
def takeOwnCell : Assignment where
  var := 0
  value := .alias 0 (.named "Meter") .missing (.reference 1)

/-- The alias has a type without wildcards, of which the normal form is that of the number.  It is
accepted, and the content has no type any more. -/
theorem own_cell_leaves_no_type :
    (bindMutable .missing (.int 1)).run prepared = (.ok 0, numberBound) ∧
    Assignments 1 numberBound [(numberBound, takeOwnCell)] (takeOwnCell.run numberBound).2 ∧
    numberBound.heap.Definite (takeOwnCell.content numberBound) ∧
    (takeOwnCell.run numberBound).1 = .ok () ∧
    ∀ content, (takeOwnCell.run numberBound).2.heap.typeOf
      ((takeOwnCell.run numberBound).2.heap.load 1) ≠ .ok content := by
  refine ⟨rfl, Assignments.start.attempt takeOwnCell rfl, ?_, rfl, ?_⟩
  · exact ⟨.alias (.named "Meter") (.ref .int), rfl, by decide⟩
  · intro content hcontent
    cases hcontent

end World
end ScriptCore
