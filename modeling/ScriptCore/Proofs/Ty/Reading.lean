import ScriptCore.Ty.Equal

/-!
# Written types can be read in one way

Tuples and applications share their parentheses, a function type is written
without any, and its effects are optional.  Still no two types in normal form
are written alike, as long as their names are words: at each point of a written
type the next character tells what comes next, and it is told apart from what
may follow a type.
-/

namespace ScriptCore
namespace Ty

/-!
## Words
-/

/-- The characters that stand between the names of a written type. -/
def isSeparator (c : Char) : Bool :=
  c == ' ' || c == ',' || c == '(' || c == ')' || c == '<' || c == '>'

/-- A name that no separator breaks up.  All alphanumeric names are words. -/
def isWord (name : String) : Bool :=
  !name.toList.isEmpty && name.toList.all fun c => !isSeparator c

theorem isWord_of_isAlphanum {name : String} (hne : name ≠ "")
    (hname : ∀ c ∈ name.toList, c.isAlphanum = true) : isWord name = true := by
  have hseparator : ∀ c : Char, isSeparator c = true → c.isAlphanum = false := by
    intro c hc
    simp only [isSeparator, Bool.or_eq_true, beq_iff_eq] at hc
    rcases hc with ((((rfl | rfl) | rfl) | rfl) | rfl) | rfl <;> rfl
  have hwhole : name.toList.isEmpty = false := by simpa using hne
  simp only [isWord, hwhole, Bool.not_false, Bool.true_and, List.all_eq_true, Bool.not_eq_true']
  intro c hc
  cases hsep : isSeparator c with
  | false => rfl
  | true =>
      have hno := hseparator c hsep
      rw [hname c hc] at hno
      cases hno

def Breaks : List Char → Prop
  | [] => True
  | c :: _ => isSeparator c = true

def Ends : List Char → Prop
  | [] => True
  | c :: _ => c = ' ' ∨ c = ',' ∨ c = ')' ∨ c = '>'

theorem Ends.breaks {r : List Char} (hr : Ends r) : Breaks r := by
  cases r with
  | nil => trivial
  | cons c rest => rcases hr with rfl | rfl | rfl | rfl <;> rfl

theorem word_append_inj {x y r s : List Char} (hx : x.all (fun c => !isSeparator c) = true)
    (hy : y.all (fun c => !isSeparator c) = true) (hr : Breaks r) (hs : Breaks s)
    (h : x ++ r = y ++ s) : x = y ∧ r = s := by
  induction x generalizing y with
  | nil =>
      cases y with
      | nil => exact ⟨rfl, h⟩
      | cons c y =>
          rw [List.nil_append] at h
          subst h
          simp [show isSeparator c = true from hr] at hy
  | cons c x ih =>
      cases y with
      | nil =>
          rw [List.nil_append] at h
          subst h
          simp [show isSeparator c = true from hs] at hx
      | cons d y =>
          injection h with hhead htail
          simp only [List.all_cons, Bool.and_eq_true] at hx hy
          rcases ih hx.2 hy.2 htail with ⟨hxy, hrs⟩
          exact ⟨by rw [hhead, hxy], hrs⟩

/-!
## Written forms
-/

def written (t : Ty) : List Char :=
  t.display.toList

def following (sep : List Char) : List Ty → List Char
  | [] => []
  | t :: rest => sep ++ (written t ++ following sep rest)

def listed : List Ty → List Char
  | [] => []
  | t :: rest => written t ++ following [',', ' '] rest

def writtenEffects : List Ty → List Char
  | [] => []
  | t :: rest => ' ' :: '<' :: (listed (t :: rest) ++ ['>'])

theorem intercalate_displayAll (sep : List Char) (t : Ty) (rest : List Ty) :
    sep.intercalate ((displayAll (t :: rest)).map String.toList) =
      written t ++ following sep rest := by
  induction rest generalizing t with
  | nil => simp [displayAll, following, written, List.intercalate]
  | cons u rest ih =>
      have hrest := ih u
      simp only [displayAll, List.map_cons] at hrest ⊢
      rw [List.intercalate_cons_cons, hrest]
      simp [following, written]

theorem toList_commas (ts : List Ty) :
    (", ".intercalate (displayAll ts)).toList = listed ts := by
  rw [String.toList_intercalate]
  cases ts with
  | nil => rfl
  | cons t rest => exact intercalate_displayAll [',', ' '] t rest

theorem written_named (name : String) : written (.named name) = name.toList := rfl

theorem written_unit : written .unit = ['(', ')'] := rfl

theorem written_tuple (elements : List Ty) :
    written (.tuple elements) = '(' :: (listed elements ++ [')']) := by
  unfold written
  rw [display, String.toList_append, String.toList_append, toList_commas]
  rfl

theorem toList_effectsText (effects : List Ty) :
    (effectsText (displayAll effects)).toList = writtenEffects effects := by
  cases effects with
  | nil => rfl
  | cons t rest =>
      have hlisted := toList_commas (t :: rest)
      rw [displayAll] at hlisted ⊢
      rw [effectsText, String.toList_append, String.toList_append, hlisted]
      · rfl
      · intro hnil
        cases hnil

theorem written_func (params effects : List Ty) (result : Ty) :
    written (.func params effects result) =
      'f' :: 'n' :: '(' :: (listed params ++ ')' ::
        (writtenEffects effects ++ ' ' :: '-' :: '>' :: ' ' :: written result)) := by
  unfold written
  rw [display]
  simp only [String.toList_append, toList_commas, toList_effectsText]
  simp

theorem written_app (head first : Ty) (rest : List Ty) :
    written (.app head (first :: rest)) =
      '(' :: (written head ++ (following [' '] (first :: rest) ++ [')'])) := by
  have hargs := intercalate_displayAll [' '] first rest
  unfold written
  rw [display]
  rw [displayAll] at hargs ⊢
  rw [appText]
  · simp only [String.toList_append, String.toList_intercalate]
    rw [show " ".toList = [' '] from rfl, hargs]
    simp [following, written]
  · intro hnil
    cases hnil

/-!
## Reading
-/

mutual

/-- The type is in normal form and all its names are words.  No tuple is empty, and no head of an
application goes without arguments. -/
def isReadable : Ty → Bool
  | .missing => false
  | .named name => isWord name
  | .tuple elements => !elements.isEmpty && allReadable elements
  | .func params effects result => allReadable params && allReadable effects && isReadable result
  | .app head args => isReadable head && !args.isEmpty && allReadable args
  | .ref _ => false
  | .alias _ _ => false
  | .unit => true

def allReadable : List Ty → Bool
  | [] => true
  | t :: rest => isReadable t && allReadable rest

end

def Closes : List Char → Prop
  | [] => False
  | c :: _ => c = ')' ∨ c = '>'

theorem closes_paren (r : List Char) : Closes (')' :: r) :=
  Or.inl rfl

theorem closes_angle (r : List Char) : Closes ('>' :: r) :=
  Or.inr rfl

theorem Closes.ends {r : List Char} (hr : Closes r) : Ends r := by
  cases r with
  | nil => cases hr
  | cons c rest => exact Or.inr (Or.inr hr)

/-- What the first characters of a type can tell about it. -/
inductive Kind where
  | name
  | function
  | unit
  | group

def kind : Ty → Kind
  | .tuple _ => .group
  | .func _ _ _ => .function
  | .app _ _ => .group
  | .unit => .unit
  | _ => .name

def kindOf : List Char → Kind
  | '(' :: ')' :: _ => .unit
  | '(' :: _ => .group
  | 'f' :: 'n' :: '(' :: _ => .function
  | _ => .name

theorem kindOf_open {text : List Char} (htext : ¬ Closes text) : kindOf ('(' :: text) = .group := by
  cases text with
  | nil => rfl
  | cons c rest =>
      by_cases hc : c = ')'
      · exact absurd (Or.inl hc) htext
      · simp [kindOf, hc]

theorem kindOf_word {word r : List Char} (hword : word.all (fun c => !isSeparator c) = true)
    (hne : word ≠ []) (hr : Ends r) : kindOf (word ++ r) = .name := by
  have hopen : ∀ rest, word ++ r ≠ '(' :: rest := by
    intro rest h
    rcases word_append_inj (y := []) hword rfl hr.breaks (by trivial) h with ⟨hnil, _⟩
    exact hne hnil
  have hfunc : ∀ rest, word ++ r ≠ 'f' :: 'n' :: '(' :: rest := by
    intro rest h
    rcases word_append_inj (y := ['f', 'n']) hword rfl hr.breaks (by trivial) h with ⟨_, hparen⟩
    rw [hparen] at hr
    rcases hr with hc | hc | hc | hc <;> cases hc
  generalize word ++ r = text at hopen hfunc ⊢
  fun_cases kindOf text with
  | case1 rest => exact absurd rfl (hopen _)
  | case2 rest _ => exact absurd rfl (hopen _)
  | case3 rest => exact absurd rfl (hfunc _)
  | case4 => rfl

theorem word_ne_nil {name : String} (hname : isWord name = true) : name.toList ≠ [] := by
  intro hnil
  simp [isWord, hnil] at hname

theorem written_not_closes {t : Ty} (ht : t.isReadable = true) (s : List Char) :
    ¬ Closes (written t ++ s) := by
  intro hcloses
  cases t with
  | named name =>
      rw [written_named] at hcloses
      cases hname : name.toList with
      | nil => exact word_ne_nil ht hname
      | cons c rest =>
          rw [hname] at hcloses
          rcases hcloses with rfl | rfl <;> simp [isReadable, isWord, hname, isSeparator] at ht
  | tuple elements =>
      rw [written_tuple] at hcloses
      rcases hcloses with hc | hc <;> cases hc
  | func params effects result =>
      rw [written_func] at hcloses
      rcases hcloses with hc | hc <;> cases hc
  | app head args =>
      cases args with
      | nil => simp [isReadable] at ht
      | cons first rest =>
          rw [written_app] at hcloses
          rcases hcloses with hc | hc <;> cases hc
  | unit => rcases hcloses with hc | hc <;> cases hc
  | _ => cases ht

theorem kindOf_written {t : Ty} (ht : t.isReadable = true) {r : List Char} (hr : Ends r) :
    kindOf (written t ++ r) = t.kind := by
  cases t with
  | named name =>
      have hword : name.toList.all (fun c => !isSeparator c) = true := by
        simp only [isReadable, isWord, Bool.and_eq_true] at ht
        exact ht.2
      exact kindOf_word hword (word_ne_nil ht) hr
  | tuple elements =>
      cases elements with
      | nil => simp [isReadable] at ht
      | cons e es =>
          simp only [isReadable, allReadable, Bool.and_eq_true] at ht
          rw [written_tuple, listed, List.cons_append, List.append_assoc, List.append_assoc]
          exact kindOf_open (written_not_closes ht.2.1 _)
  | func params effects result =>
      rw [written_func]
      rfl
  | app head args =>
      cases args with
      | nil => simp [isReadable] at ht
      | cons first rest =>
          simp only [isReadable, Bool.and_eq_true] at ht
          rw [written_app, List.cons_append, List.append_assoc]
          exact kindOf_open (written_not_closes ht.1.1 _)
  | unit => rfl
  | _ => cases ht

/-!
A type is recognized if its written form determines it, and also what comes
after it.  The parts of a type are recognized one after the other.
-/

def Recognized (a : Ty) : Prop :=
  ∀ (b : Ty) (r s : List Char), a.isReadable = true → b.isReadable = true → Ends r → Ends s →
    written a ++ r = written b ++ s → a = b ∧ r = s

/-- What stands between the types of a list. -/
inductive Separates : List Char → Prop where
  | blank : Separates [' ']
  | comma : Separates [',', ' ']

namespace Separates

variable {sep r s : List Char}

theorem ends_following (hsep : Separates sep) (hr : Closes r) (ts : List Ty) :
    Ends (following sep ts ++ r) := by
  cases ts with
  | nil => exact hr.ends
  | cons t rest =>
      cases hsep with
      | blank => exact Or.inl rfl
      | comma => exact Or.inr (Or.inl rfl)

theorem append_ne (hsep : Separates sep) (hr : Closes r) : sep ++ s ≠ r := by
  rintro rfl
  cases hsep with
  | blank => rcases hr with hc | hc <;> cases hc
  | comma => rcases hr with hc | hc <;> cases hc

theorem following_append_inj (hsep : Separates sep) {as bs : List Ty}
    (has : ∀ a ∈ as, Recognized a) (ha : allReadable as = true) (hb : allReadable bs = true)
    (hr : Closes r) (hs : Closes s) (h : following sep as ++ r = following sep bs ++ s) :
    as = bs ∧ r = s := by
  induction as generalizing bs with
  | nil =>
      cases bs with
      | nil => exact ⟨rfl, h⟩
      | cons b bs =>
          simp only [following, List.nil_append, List.append_assoc] at h
          exact absurd h.symm (hsep.append_ne hr)
  | cons a as ih =>
      cases bs with
      | nil =>
          simp only [following, List.nil_append, List.append_assoc] at h
          exact absurd h (hsep.append_ne hs)
      | cons b bs =>
          simp only [allReadable, Bool.and_eq_true] at ha hb
          simp only [following, List.append_assoc, List.append_cancel_left_eq] at h
          rcases has a List.mem_cons_self b _ _ ha.1 hb.1 (hsep.ends_following hr as)
            (hsep.ends_following hs bs) h with ⟨hfirst, hmore⟩
          have hrest : ∀ t ∈ as, Recognized t := fun t ht => has t (List.mem_cons_of_mem a ht)
          rcases ih hrest ha.2 hb.2 hmore with ⟨hrest, hrs⟩
          exact ⟨by rw [hfirst, hrest], hrs⟩

end Separates

section

variable {as bs : List Ty} {r s : List Char}

theorem listed_append_inj (has : ∀ a ∈ as, Recognized a) (ha : allReadable as = true)
    (hb : allReadable bs = true) (hr : Closes r) (hs : Closes s)
    (h : listed as ++ r = listed bs ++ s) : as = bs ∧ r = s := by
  cases as with
  | nil =>
      cases bs with
      | nil => exact ⟨rfl, h⟩
      | cons b bs =>
          simp only [allReadable, Bool.and_eq_true] at hb
          simp only [listed, List.nil_append, List.append_assoc] at h
          rw [h] at hr
          exact absurd hr (written_not_closes hb.1 _)
  | cons a as =>
      simp only [allReadable, Bool.and_eq_true] at ha
      cases bs with
      | nil =>
          simp only [listed, List.nil_append, List.append_assoc] at h
          rw [← h] at hs
          exact absurd hs (written_not_closes ha.1 _)
      | cons b bs =>
          simp only [allReadable, Bool.and_eq_true] at hb
          simp only [listed, List.append_assoc] at h
          have hsep := Separates.comma
          rcases has a List.mem_cons_self b _ _ ha.1 hb.1 (hsep.ends_following hr as)
            (hsep.ends_following hs bs) h with ⟨hfirst, hmore⟩
          have hrest : ∀ t ∈ as, Recognized t := fun t ht => has t (List.mem_cons_of_mem a ht)
          rcases hsep.following_append_inj hrest ha.2 hb.2 hr hs hmore with ⟨hrest, hrs⟩
          exact ⟨by rw [hfirst, hrest], hrs⟩

theorem effects_append_inj (has : ∀ a ∈ as, Recognized a) (ha : allReadable as = true)
    (hb : allReadable bs = true)
    (h : writtenEffects as ++ ' ' :: '-' :: r = writtenEffects bs ++ ' ' :: '-' :: s) :
    as = bs ∧ r = s := by
  cases as with
  | nil =>
      cases bs with
      | nil =>
          simp only [writtenEffects, List.nil_append, List.cons.injEq, true_and] at h
          exact ⟨rfl, h⟩
      | cons b bs => simp [writtenEffects] at h
  | cons a as =>
      cases bs with
      | nil => simp [writtenEffects] at h
      | cons b bs =>
          simp only [writtenEffects, List.cons_append, List.append_assoc, List.nil_append,
            List.cons.injEq, true_and] at h
          rcases listed_append_inj has ha hb (closes_angle _) (closes_angle _) h with
            ⟨heffects, hrest⟩
          simp only [List.cons.injEq, true_and] at hrest
          exact ⟨heffects, hrest⟩

end

/-- The first element of a tuple is followed by a comma or by the end of the tuple, and the head of
an application by a blank. -/
theorem following_comma_ne_blank (rest : List Ty) (first : Ty) (args : List Ty)
    (r s : List Char) :
    following [',', ' '] rest ++ ')' :: r ≠ following [' '] (first :: args) ++ s := by
  cases rest with
  | nil => simp [following]
  | cons t rest => simp [following]

theorem written_tuple_cons_append (e : Ty) (es : List Ty) (r : List Char) :
    written (.tuple (e :: es)) ++ r =
      '(' :: (written e ++ (following [',', ' '] es ++ ')' :: r)) := by
  simp [written_tuple, listed]

theorem written_app_cons_append (head first : Ty) (rest : List Ty) (r : List Char) :
    written (.app head (first :: rest)) ++ r =
      '(' :: (written head ++ (following [' '] (first :: rest) ++ ')' :: r)) := by
  simp [written_app]

theorem recognized_named (name : String) : Recognized (.named name) := by
  intro b r s ha hb hr hs h
  have hkind := congrArg kindOf h
  rw [kindOf_written ha hr, kindOf_written hb hs] at hkind
  cases b with
  | named other =>
      simp only [isReadable, isWord, Bool.and_eq_true] at ha hb
      rcases word_append_inj ha.2 hb.2 hr.breaks hs.breaks h with ⟨hname, hrs⟩
      exact ⟨by rw [String.toList_inj.mp hname], hrs⟩
  | tuple | func | app | unit => cases hkind
  | _ => cases hb

theorem recognized_unit : Recognized .unit := by
  intro b r s ha hb hr hs h
  have hkind := congrArg kindOf h
  rw [kindOf_written ha hr, kindOf_written hb hs] at hkind
  cases b with
  | unit =>
      simp only [written_unit, List.cons_append, List.cons.injEq, true_and, List.nil_append] at h
      exact ⟨rfl, h⟩
  | named | tuple | func | app => cases hkind
  | _ => cases hb

theorem recognized_tuple {elements : List Ty} (helements : ∀ e ∈ elements, Recognized e) :
    Recognized (.tuple elements) := by
  intro b r s ha hb hr hs h
  have hkind := congrArg kindOf h
  rw [kindOf_written ha hr, kindOf_written hb hs] at hkind
  cases b with
  | tuple others =>
      simp only [isReadable, Bool.and_eq_true] at ha hb
      simp only [written_tuple, List.cons_append, List.append_assoc, List.nil_append,
        List.cons.injEq, true_and] at h
      rcases listed_append_inj helements ha.2 hb.2 (closes_paren r) (closes_paren s) h with
        ⟨heq, hrest⟩
      simp only [List.cons.injEq, true_and] at hrest
      exact ⟨by rw [heq], hrest⟩
  | app head args =>
      cases elements with
      | nil => simp [isReadable] at ha
      | cons e es =>
          cases args with
          | nil => simp [isReadable] at hb
          | cons first rest =>
              rw [written_tuple_cons_append, written_app_cons_append] at h
              simp only [isReadable, allReadable, Bool.and_eq_true] at ha hb
              have hends := Separates.comma.ends_following (closes_paren r) es
              have hends' := Separates.blank.ends_following (closes_paren s) (first :: rest)
              rcases helements e List.mem_cons_self head _ _ ha.2.1 hb.1.1 hends hends'
                (List.cons.inj h).2 with ⟨_, hrest⟩
              exact absurd hrest (following_comma_ne_blank es first rest r _)
  | named | func | unit => cases hkind
  | _ => cases hb

theorem recognized_app {head : Ty} {args : List Ty} (hhead : Recognized head)
    (hargs : ∀ a ∈ args, Recognized a) : Recognized (.app head args) := by
  intro b r s ha hb hr hs h
  have hkind := congrArg kindOf h
  rw [kindOf_written ha hr, kindOf_written hb hs] at hkind
  cases args with
  | nil => simp [isReadable] at ha
  | cons first rest =>
      have hends := Separates.blank.ends_following (closes_paren r) (first :: rest)
      rw [written_app_cons_append] at h
      cases b with
      | app head' args' =>
          cases args' with
          | nil => simp [isReadable] at hb
          | cons first' rest' =>
              rw [written_app_cons_append] at h
              simp only [isReadable, Bool.and_eq_true] at ha hb
              have hends' := Separates.blank.ends_following (closes_paren s) (first' :: rest')
              rcases hhead head' _ _ ha.1.1 hb.1.1 hends hends' (List.cons.inj h).2 with
                ⟨heq, hmore⟩
              rcases Separates.blank.following_append_inj hargs ha.2 hb.2 (closes_paren r)
                (closes_paren s) hmore with ⟨heqs, hrest⟩
              simp only [List.cons.injEq, true_and] at hrest
              exact ⟨by rw [heq, heqs], hrest⟩
      | tuple others =>
          cases others with
          | nil => simp [isReadable] at hb
          | cons e es =>
              rw [written_tuple_cons_append] at h
              simp only [isReadable, allReadable, Bool.and_eq_true] at ha hb
              have hends' := Separates.comma.ends_following (closes_paren s) es
              rcases hhead e _ _ ha.1.1 hb.2.1 hends hends' (List.cons.inj h).2 with ⟨_, hrest⟩
              exact absurd hrest.symm (following_comma_ne_blank es first rest s _)
      | named | func | unit => cases hkind
      | _ => cases hb

theorem recognized_func {params effects : List Ty} {result : Ty}
    (hparams : ∀ p ∈ params, Recognized p) (heffects : ∀ e ∈ effects, Recognized e)
    (hresult : Recognized result) : Recognized (.func params effects result) := by
  intro b r s ha hb hr hs h
  have hkind := congrArg kindOf h
  rw [kindOf_written ha hr, kindOf_written hb hs] at hkind
  cases b with
  | func params' effects' result' =>
      simp only [isReadable, Bool.and_eq_true] at ha hb
      simp only [written_func, List.cons_append, List.append_assoc, List.cons.injEq,
        true_and] at h
      rcases listed_append_inj hparams ha.1.1 hb.1.1 (closes_paren _) (closes_paren _) h with
        ⟨hparams', hafter⟩
      rcases effects_append_inj heffects ha.1.2 hb.1.2 (List.cons.inj hafter).2 with
        ⟨heffects', harrow⟩
      simp only [List.cons.injEq, true_and] at harrow
      rcases hresult result' r s ha.2 hb.2 hr hs harrow with ⟨hresult', hrs⟩
      exact ⟨by rw [hparams', heffects', hresult'], hrs⟩
  | named | tuple | app | unit => cases hkind
  | _ => cases hb

mutual

theorem recognized : (t : Ty) → Recognized t
  | .missing => fun _ _ _ ha => by cases ha
  | .named name => recognized_named name
  | .tuple elements => recognized_tuple (allRecognized elements)
  | .func params effects result =>
      recognized_func (allRecognized params) (allRecognized effects) (recognized result)
  | .app head args => recognized_app (recognized head) (allRecognized args)
  | .ref _ => fun _ _ _ ha => by cases ha
  | .alias _ _ => fun _ _ _ ha => by cases ha
  | .unit => recognized_unit

theorem allRecognized : (ts : List Ty) → ∀ t ∈ ts, Recognized t
  | [] => fun _ ht => by cases ht
  | t :: rest => fun u hu => by
      rcases List.mem_cons.mp hu with hfirst | hrest
      · rw [hfirst]
        exact recognized t
      · exact allRecognized rest u hrest

end

/-- Types whose normal forms are readable have the same dispatch key exactly if they have the same
normal form. -/
theorem key_eq_iff_normalize_eq (a b : Ty) (ha : a.normalize.isReadable = true)
    (hb : b.normalize.isReadable = true) : a.key = b.key ↔ a.normalize = b.normalize := by
  constructor
  · intro hkey
    have hwritten : written a.normalize ++ [] = written b.normalize ++ [] := by
      unfold written
      rw [show a.normalize.display = b.normalize.display from hkey]
    exact (recognized a.normalize b.normalize [] [] ha hb trivial trivial hwritten).1
  · intro hnormal
    unfold key
    rw [hnormal]

/-- An application whose head is a function type, and a function type whose result is an
application: where the parentheses stand tells them apart, although one of the names is `fn`. -/
theorem key_of_function_head :
    (app (func [] [] (.named "fn")) [.ref int]).normalize.isReadable = true ∧
    (func [] [] (app (.named "fn") [int])).normalize.isReadable = true ∧
    (app (func [] [] (.named "fn")) [.ref int]).key ≠
      (func [] [] (app (.named "fn") [int])).key := by
  have hleft : (app (func [] [] (.named "fn")) [.ref int]).normalize.isReadable = true := by decide
  have hright : (func [] [] (app (.named "fn") [int])).normalize.isReadable = true := by decide
  refine ⟨hleft, hright, fun hkey => ?_⟩
  have hnormal := (key_eq_iff_normalize_eq _ _ hleft hright).mp hkey
  cases hnormal

end Ty
end ScriptCore
