import ScriptCore.Proofs.Promise.Agreement

/-!
# Names and context of errors

On its way out of calls an error gets two kinds of company.  Bodies put text in
front of it, and every call gives its name to the outermost fault, if that has
none.  An error should keep all text when it is named.  It does so unless the
fault behind the text is the one that has no name: the named fault then takes
the place of the whole error.  A call always leaves a name behind, so it is only
the innermost call that can drop text.
-/

namespace ScriptCore

def Fault.named (name : String) (f : Fault) : Fault :=
  if f.name.isEmpty then { f with name } else f

namespace Error

def contexts : Error → List String
  | .context text inner => text :: contexts inner
  | _ => []

def inside (texts : List String) (e : Error) : Error :=
  texts.foldr .context e

/-- The same error, except that the outermost fault gets a name if it has none. -/
def named (name : String) : Error → Error
  | .context text inner => .context text (named name inner)
  | .fault f => .fault (f.named name)
  | .caused f cause => .caused (f.named name) cause
  | e => e

def isUnnamed (e : Error) : Bool :=
  e.fault?.any fun f => f.name.isEmpty

variable (name : String) (texts : List String) (e : Error)

/-!
## Text in front of an error
-/

theorem inside_contexts_bare : e.bare.inside e.contexts = e := by
  induction e with
  | context text inner ih => exact congrArg (Error.context text) ih
  | _ => rfl

theorem contexts_bare : e.bare.contexts = [] := by
  induction e with
  | context text inner ih => exact ih
  | _ => rfl

theorem bare_bare : e.bare.bare = e.bare := by
  induction e with
  | context text inner ih => exact ih
  | _ => rfl

theorem kinds_inside : (e.inside texts).kinds = e.kinds := by
  induction texts with
  | nil => rfl
  | cons text rest ih => exact ih

theorem fault?_inside : (e.inside texts).fault? = e.fault? := by
  induction texts with
  | nil => rfl
  | cons text rest ih => exact ih

theorem bare_inside : (e.inside texts).bare = e.bare := by
  induction texts with
  | nil => rfl
  | cons text rest ih => exact ih

theorem contexts_inside : (e.inside texts).contexts = texts ++ e.contexts := by
  induction texts with
  | nil => rfl
  | cons text rest ih => exact congrArg (List.cons text) ih

theorem inside_inside (texts' : List String) :
    (e.inside texts).inside texts' = e.inside (texts' ++ texts) := by
  unfold inside
  rw [List.foldr_append]

theorem inside_inj {e e' : Error} : e.inside texts = e'.inside texts ↔ e = e' := by
  induction texts with
  | nil => rfl
  | cons text rest ih =>
      rw [← ih]
      constructor
      · intro heq
        exact (Error.context.inj heq).2
      · intro heq
        exact congrArg (Error.context text) heq

theorem fault?_bare : e.bare.fault? = e.fault? := by
  rw [← fault?_inside e.contexts, inside_contexts_bare]

theorem isUnnamed_inside : (e.inside texts).isUnnamed = e.isUnnamed := by
  unfold isUnnamed
  rw [fault?_inside]

/-!
## Naming an error
-/

theorem bare_named : (e.named name).bare = e.bare.named name := by
  induction e with
  | context text inner ih => exact ih
  | _ => rfl

theorem contexts_named : (e.named name).contexts = e.contexts := by
  induction e with
  | context text inner ih => exact congrArg (List.cons text) ih
  | _ => rfl

theorem fault?_named : (e.named name).fault? = e.fault?.map (Fault.named name) := by
  induction e with
  | context text inner ih => exact ih
  | _ => rfl

theorem named_eq_self {e : Error} (hnamed : e.isUnnamed = false) : e.named name = e := by
  induction e with
  | context text inner ih => exact congrArg (Error.context text) (ih hnamed)
  | fault f => exact congrArg Error.fault (if_neg (Bool.eq_false_iff.mp hnamed))
  | caused f cause =>
      exact congrArg (Error.caused · cause) (if_neg (Bool.eq_false_iff.mp hnamed))
  | _ => rfl

/-- An error whose outermost fault has a name stays as it is.  The named fault takes the place of
any other one. -/
theorem withName_eq : e.withName name = if e.isUnnamed then e.bare.named name else e := by
  unfold withName isUnnamed
  rw [← fault?_bare]
  cases hbare : e.bare with
  | context text inner =>
      -- what is bare has no text in front of it
      have htexts := contexts_bare e
      rw [hbare] at htexts
      cases htexts
  | fault f =>
      cases hname : f.name.isEmpty with
      | true => simp [fault?, named, Fault.named, hname]
      | false => simp [fault?, hname]
  | caused f cause =>
      cases hname : f.name.isEmpty with
      | true => simp [fault?, named, Fault.named, hname]
      | false => simp [fault?, hname]
  | _ => rfl

theorem bare_withName : (e.withName name).bare = (e.named name).bare := by
  rw [withName_eq]
  cases hunnamed : e.isUnnamed with
  | true => rw [if_pos rfl, bare_named, bare_named, bare_bare]
  | false => rw [if_neg Bool.false_ne_true, named_eq_self name hunnamed]

theorem contexts_withName :
    (e.withName name).contexts = if e.isUnnamed then [] else e.contexts := by
  rw [withName_eq]
  cases e.isUnnamed with
  | true => rw [if_pos rfl, if_pos rfl, contexts_named, contexts_bare]
  | false => rfl

theorem withName_eq_named_iff :
    e.withName name = e.named name ↔ e.isUnnamed = false ∨ e.contexts = [] := by
  have hsplit : e.withName name = e.named name ↔
      (e.withName name).contexts = (e.named name).contexts := by
    constructor
    · intro heq
      rw [heq]
    · intro htexts
      rw [← inside_contexts_bare (e.withName name), htexts, bare_withName, inside_contexts_bare]
  rw [hsplit, contexts_withName, contexts_named]
  cases e.isUnnamed with
  | true =>
      rw [if_pos rfl, eq_comm]
      simp
  | false => simp

theorem fault?_withName : (e.withName name).fault? = e.fault?.map (Fault.named name) := by
  rw [← fault?_bare, bare_withName, fault?_bare, fault?_named]

theorem isUnnamed_withName {name : String} (hname : name.isEmpty = false) :
    (e.withName name).isUnnamed = false := by
  unfold isUnnamed
  rw [fault?_withName]
  cases e.fault? with
  | none => rfl
  | some f =>
      show (f.named name).name.isEmpty = false
      unfold Fault.named
      cases hempty : f.name.isEmpty with
      | true => exact hname
      | false => exact hempty

theorem withName_eq_self {e : Error} (hnamed : e.isUnnamed = false) : e.withName name = e := by
  rw [withName_eq, hnamed]
  rfl

end Error

/-!
## Errors that leave a task
-/

namespace Task

variable {σ α β : Type} {P : σ → Prop}

/-- The task can come to the point where another task is all that is left of it, if it is given back
only states with the property. -/
inductive Reaches (P : σ → Prop) : Task σ α → Task σ α → Prop where
  | here (t : Task σ α) : Reaches P t t
  | wait {gate : String} {s s' : σ} {next : σ → Task σ α} {t : Task σ α} (hs : P s')
      (hreach : Reaches P (next s') t) : Reaches P (.wait gate s next) t
  | start {s s' : σ} {job : σ → Task σ Unit} {next : σ → Task σ α} {t : Task σ α} (hs : P s')
      (hreach : Reaches P (next s') t) : Reaches P (.start s job next) t
  | wake {gate : String} {s s' : σ} {next : σ → Task σ α} {t : Task σ α} (hs : P s')
      (hreach : Reaches P (next s') t) : Reaches P (.wake gate s next) t

theorem Reaches.trans {t t' t'' : Task σ α} (hfirst : t.Reaches P t') (hsecond : t'.Reaches P t'') :
    t.Reaches P t'' := by
  induction hfirst with
  | here t => exact hsecond
  | wait hs _ ih => exact .wait hs (ih hsecond)
  | start hs _ ih => exact .start hs (ih hsecond)
  | wake hs _ ih => exact .wake hs (ih hsecond)

theorem Reaches.ends {t t' : Task σ α} {u : σ} {a : α} (hreach : t.Reaches P t')
    (hends : t'.Ends P u a) : t.Ends P u a := by
  induction hreach with
  | here t => exact hends
  | wait hs _ ih => exact .wait hs (ih hends)
  | start hs _ ih => exact .start hs (ih hends)
  | wake hs _ ih => exact .wake hs (ih hends)

theorem Reaches.andThen {t t' : Task σ α} (hreach : t.Reaches P t') (f : σ → α → Task σ β) :
    (t.andThen f).Reaches P (t'.andThen f) := by
  induction hreach with
  | here t => exact .here _
  | wait hs _ ih => exact .wait hs ih
  | start hs _ ih => exact .start hs ih
  | wake hs _ ih => exact .wake hs ih

end Task

namespace Script

open World Exec

variable {α β γ : Type} {P : Session → Prop}

/-- The outer task can come to the inner one and go on from its end.  If the inner task ends with an
error, the outer task ends there too, with what becomes of the error. -/
def Relays (P : Session → Prop) (change : Error → Error) (inner : Task Session (Except Failure α))
    (outer : Task Session (Except Failure β)) : Prop :=
  ∃ next, outer.Reaches P (inner.andThen next) ∧
    ∀ u e, next u (.error (.error e)) = .done u (.error (.error (change e)))

theorem Relays.trans {change change' : Error → Error} {t : Task Session (Except Failure α)}
    {t' : Task Session (Except Failure β)} {t'' : Task Session (Except Failure γ)}
    (hfirst : Relays P change t t') (hsecond : Relays P change' t' t'') :
    Relays P (change' ∘ change) t t'' := by
  rcases hfirst with ⟨next, hreach, hnext⟩
  rcases hsecond with ⟨next', hreach', hnext'⟩
  refine ⟨fun u o => (next u o).andThen next', ?_, ?_⟩
  · rw [← Task.andThen_assoc]
    exact hreach'.trans (hreach.andThen next')
  · intro u e
    show (next u _).andThen next' = _
    rw [hnext]
    exact hnext' u (change e)

theorem Relays.ends {change : Error → Error} {inner : Task Session (Except Failure α)}
    {outer : Task Session (Except Failure β)} {u : Session} {e : Error}
    (hrelays : Relays P change inner outer) (hinner : inner.Ends P u (.error (.error e))) :
    outer.Ends P u (.error (.error (change e))) := by
  rcases hrelays with ⟨next, hreach, hnext⟩
  apply hreach.ends
  apply hinner.andThen
  rw [hnext]
  exact .done u _

def Runs (name : String) (body call : Task Session (Except Failure Value)) : Prop :=
  ∃ depth thread fid args f scope s s₁,
    Bound s fid args f scope s₁ ∧ f.signature.spawn = false ∧ f.signature.displayName = name ∧
      body = (evaluateBody (invoke depth) thread f scope).run s₁ ∧
      call = (invoke (depth + 1) thread fid args false).run s

theorem displayName_not_empty (f : Signature) : f.displayName.isEmpty = false := by
  unfold Signature.displayName
  cases hname : f.name.isEmpty with
  | true => rfl
  | false => exact hname

theorem Runs.name_not_empty {name : String} {body call : Task Session (Except Failure Value)}
    (hruns : Runs name body call) : name.isEmpty = false := by
  rcases hruns with ⟨_, _, _, _, f, _, _, _, _, _, rfl, _⟩
  exact displayName_not_empty f.signature

theorem Runs.relays {name : String} {body call : Task Session (Except Failure Value)}
    (hruns : Runs name body call) : Relays P (Error.withName name) body call := by
  rcases hruns with ⟨depth, thread, fid, args, f, scope, s, s₁, hbound, hspawn, rfl, rfl,
    rfl⟩
  rw [hbound.run_invoke depth thread false, hspawn, if_neg Bool.false_ne_true, run_runCall]
  exact ⟨_, .here _, fun u e => rfl⟩

/-!
## Bodies that put text in front of errors
-/

theorem relays_bind (x : Exec α) (f : α → Exec β) (s : Session) :
    Relays P id (x.run s) ((x >>= f).run s) := by
  rw [Exec.run_bind]
  exact ⟨next f, .here _, fun u e => rfl⟩

theorem relays_inContext (text : String) (work : Exec α) (s : Session) :
    Relays P (Error.context text) (work.run s) ((inContext text work).run s) := by
  unfold inContext
  rw [Exec.run_bind, run_outcome, Task.andThen_assoc]
  exact ⟨_, .here _, fun u e => rfl⟩

theorem relays_runSteps (invoke : Invoke) (frame : Frame) (step : Step) (rest : List Step)
    (s : Session) :
    Relays P id ((runStep invoke frame step).run s)
      ((runSteps invoke frame (step :: rest)).run s) := by
  rw [runSteps]
  exact relays_bind _ _ s

theorem relays_runBody (invoke : Invoke) (frame : Frame) (steps : List Step) (s : Session) :
    Relays P id ((runSteps invoke frame steps).run s) ((runBody invoke frame steps).run s) :=
  relays_bind _ _ s

/-- A step that runs others and puts text in front of their errors. -/
def wrapping (text : String) (steps : List Step) : Step :=
  .mk none none .absent (.withContext text steps)

theorem relays_wrapping (invoke : Invoke) (frame : Frame) (text : String) (steps : List Step)
    (s : Session) :
    Relays P (Error.context text) ((runSteps invoke frame steps).run s)
      ((runStep invoke frame (wrapping text steps)).run s) := by
  have hrun : (runStep invoke frame (wrapping text steps)).run s =
      (Flow.orOk <$> inContext text (runSteps invoke frame steps)).run s := by
    rw [wrapping, runStep]
    rfl
  rw [hrun, ← bind_pure_comp]
  exact (relays_inContext text _ s).trans (relays_bind _ _ s)

def calling (name : String) : Step :=
  .mk none none .absent (.call (.mk (.named name) [] .absent none false))

theorem relays_calling (frame : Frame) {name : String} {s : Session} {fid : FunctionId} {w : World}
    (hresolve : (resolve frame.scope name []).run s.world = (.ok fid, w)) (invoke : Invoke) :
    Relays P id ((invoke frame.thread fid [] false).run { s with world := w })
      ((runStep invoke frame (calling name)).run s) := by
  have hcall : Relays P id ((invoke frame.thread fid [] false).run { s with world := w })
      ((evaluateCall invoke frame (.mk (.named name) [] .absent none false)).run s) := by
    rw [evaluateCall, variableArgs, pure_bind, Exec.run_bind, run_op, hresolve]
    exact relays_bind (invoke frame.thread fid [] false) _ { s with world := w }
  rw [calling, runStep]
  exact hcall.trans (relays_bind _ _ s)

theorem relays_evaluateBody {f : Function} {text name : String}
    (hbody : f.body = .native [wrapping text [calling name]]) {thread : ThreadId} {scope : ScopeId}
    {s : Session} {fid : FunctionId} {w : World}
    (hresolve : (resolve (some scope) name []).run s.world = (.ok fid, w)) (invoke : Invoke) :
    Relays P (Error.inside [text]) ((invoke thread fid [] false).run { s with world := w })
      ((evaluateBody invoke thread f scope).run s) := by
  unfold evaluateBody
  rw [hbody]
  let frame : Frame := { thread, scope := some scope }
  have hcall := relays_calling (P := P) frame hresolve invoke
  have hsteps := hcall.trans (relays_runSteps invoke frame (calling name) [] s)
  have hwrapped := hsteps.trans (relays_wrapping invoke frame text [calling name] s)
  have hall := hwrapped.trans (relays_runSteps invoke frame _ [] s)
  exact hall.trans (relays_runBody invoke frame _ s)

/-!
## Calls inside each other
-/

/-- A call around another one: the name of the function, and the text that its body puts in front of
the error of the call inside. -/
structure Level where
  name : String
  texts : List String

/-- All text that the bodies of calls put in front of an error, the outermost first. -/
def Level.allTexts (levels : List Level) : List String :=
  levels.flatMap Level.texts

/-- A body runs in a call of a function with the name, and this call is inside others, the outermost
first.  Each body around it makes the next call and lets its error out, behind text. -/
inductive Nested (P : Session → Prop) (body : Task Session (Except Failure Value)) (name : String) :
    List Level → Task Session (Except Failure Value) → Prop where
  | innermost {call : Task Session (Except Failure Value)} (hruns : Runs name body call) :
      Nested P body name [] call
  | around {level : Level} {levels : List Level}
      {inner outer call : Task Session (Except Failure Value)}
      (hinner : Nested P body name levels inner)
      (hrelays : Relays P (Error.inside level.texts) inner outer)
      (hruns : Runs level.name outer call) : Nested P body name (level :: levels) call

variable {body call : Task Session (Except Failure Value)} {name : String} {levels : List Level}

theorem Nested.name_not_empty (hnested : Nested P body name levels call) :
    name.isEmpty = false := by
  induction hnested with
  | innermost hruns => exact hruns.name_not_empty
  | around _ _ _ ih => exact ih

/-- An error that the innermost call has named, behind the text that the others have added. -/
def emerging (name : String) (levels : List Level) (e : Error) : Error :=
  (e.withName name).inside (Level.allTexts levels)

theorem emerging_cons (hname : name.isEmpty = false) (level : Level) (levels : List Level) :
    emerging name (level :: levels) =
      Error.withName level.name ∘ Error.inside level.texts ∘ emerging name levels := by
  funext e
  show _ = Error.withName level.name (Error.inside level.texts (emerging name levels e))
  rw [Error.withName_eq_self]
  · unfold emerging
    rw [Error.inside_inside]
    rfl
  · unfold emerging
    rw [Error.isUnnamed_inside, Error.isUnnamed_inside]
    exact e.isUnnamed_withName hname

theorem Nested.relays (hnested : Nested P body name levels call) :
    Relays P (emerging name levels) body call := by
  induction hnested with
  | innermost hruns => exact hruns.relays
  | around hinner hrelays hruns ih =>
      rw [emerging_cons hinner.name_not_empty]
      exact (ih.trans hrelays).trans hruns.relays

/-- What has become of an error of a body where it leaves the outermost call. -/
structure Emerges (name : String) (levels : List Level) (e e' : Error) : Prop where
  kinds : e'.kinds = e.kinds
  /-- The outermost fault has the name that it had or that of the innermost call. -/
  fault : e'.fault? = e.fault?.map (Fault.named name)
  bare : e'.bare = (e.named name).bare
  /-- No text is lost that was added outside the innermost call. -/
  texts : e'.contexts = Level.allTexts levels ++ if e.isUnnamed then [] else e.contexts
  /-- Nothing at all is lost unless there was text in front of a fault without a name. -/
  complete : e' = (e.named name).inside (Level.allTexts levels) ↔
    e.isUnnamed = false ∨ e.contexts = []

theorem emerges_emerging (name : String) (levels : List Level) (e : Error) :
    Emerges name levels e (emerging name levels e) where
  kinds := by
    unfold emerging
    rw [Error.kinds_inside, Error.kinds_withName]
  fault := by
    unfold emerging
    rw [Error.fault?_inside, Error.fault?_withName]
  bare := by
    unfold emerging
    rw [Error.bare_inside, Error.bare_withName]
  texts := by
    unfold emerging
    rw [Error.contexts_inside, Error.contexts_withName]
  complete := by
    unfold emerging
    rw [Error.inside_inj, Error.withName_eq_named_iff]

/-- Naming an error keeps the fault that it names and all behind it.  Text in front of the fault is
kept as well, unless the fault had no name: then all of it is lost.  Hence the error of a body
leaves any number of calls with the kinds that it had and with the name of the innermost call, if
it had none.  It leaves them with all text, too, unless there was text in front of a fault without a
name already when the body ended. -/
theorem context_kept_iff_named (name : String) (e : Error) :
    (e.withName name).bare = (e.named name).bare ∧
      (e.withName name).contexts = (if e.isUnnamed then [] else e.contexts) ∧
      (e.withName name = e.named name ↔ e.isUnnamed = false ∨ e.contexts = []) ∧
      ∀ (P : Session → Prop) (body : Task Session (Except Failure Value)) (levels : List Level)
        (call : Task Session (Except Failure Value)), Nested P body name levels call →
        ∃ change, Relays P change body call ∧ ∀ e, Emerges name levels e (change e) := by
  refine ⟨e.bare_withName name, e.contexts_withName name, e.withName_eq_named_iff name, ?_⟩
  intro P body levels call hnested
  exact ⟨emerging name levels, hnested.relays, emerges_emerging name levels⟩

def nothingToBind : Error :=
  .ofKind .invalidCall "" "cannot bind a nil value"

/-- A function that tries to bind no value, and puts text in front of the error. -/
def binder : Function where
  signature := { name := "f", spawn := false, params := [], effects := [], result := .missing }
  closure := none
  body := .native
    [wrapping "inner" [.mk none none .absent (.primitive (.bindVariable "v" .missing false))]]

def bindersCaller : Function where
  signature := { name := "g", spawn := false, params := [], effects := [], result := .missing }
  closure := none
  body := .native [wrapping "outer" [calling "f"]]

def binding : Session where
  world :=
    { heap := { functions := #[binder, bindersCaller] }
      tables := { functions := { entries := [("f", 0), ("g", 1)] } } }

def bindingInside (depth : Nat) : Session :=
  { binding with world := { binding.world with scopes := .replicate (depth + 1) {} } }

theorem binding_fails_with_text_of_caller :
    ∃ body call e, Nested (fun _ => True) body "f" [{ name := "g", texts := ["outer"] }] call ∧
      body.Ends (fun _ => True) (bindingInside 1)
        (.error (.error (.context "inner" nothingToBind))) ∧
      call.Ends (fun _ => True) (bindingInside 1) (.error (.error e)) ∧
      Emerges "f" [{ name := "g", texts := ["outer"] }] (.context "inner" nothingToBind) e := by
  have hcaller : Bound binding 1 [] bindersCaller 0 (bindingInside 0) := ⟨rfl, _, rfl, rfl⟩
  have hbinder : Bound (bindingInside 0) 0 [] binder 1 (bindingInside 1) := ⟨rfl, _, rfl, rfl⟩
  have hinner : Runs "f" ((evaluateBody (invoke 0) 0 binder 1).run (bindingInside 1))
      ((invoke 1 0 0 [] false).run (bindingInside 0)) :=
    ⟨0, 0, 0, [], binder, 1, _, _, hbinder, rfl, rfl, rfl, rfl⟩
  have houter : Runs "g" ((evaluateBody (invoke 1) 0 bindersCaller 0).run (bindingInside 0))
      ((invoke 2 0 1 [] false).run binding) :=
    ⟨1, 0, 1, [], bindersCaller, 0, _, _, hcaller, rfl, rfl, rfl, rfl⟩
  have hresolve : (resolve (some 0) "f" []).run (bindingInside 0).world =
      (.ok 0, (bindingInside 0).world) := rfl
  have hnested : Nested (fun _ => True) _ "f" [{ name := "g", texts := ["outer"] }] _ :=
    .around (.innermost hinner) (relays_evaluateBody rfl hresolve (invoke 1)) houter
  have hbody : ((evaluateBody (invoke 0) 0 binder 1).run (bindingInside 1)).Ends (fun _ => True)
      (bindingInside 1) (.error (.error (.context "inner" nothingToBind))) := .done _ _
  rcases (context_kept_iff_named "f" nothingToBind).2.2.2 _ _ _ _ hnested with
    ⟨change, hrelays, hemerges⟩
  exact ⟨_, _, _, hnested, hbody, hrelays.ends hbody, hemerges _⟩

/-- The text that the body has put in front of the error is lost when the call names it. -/
theorem text_of_binder_lost :
    (evaluateBody (invoke 0) 0 binder 0).run (bindingInside 0) =
        .done (bindingInside 0) (.error (.error (.context "inner" nothingToBind))) ∧
      (invoke 1 0 0 [] false).run binding =
        .done (bindingInside 0) (.error (.error (nothingToBind.named "f"))) ∧
      nothingToBind.named "f" ≠ (Error.context "inner" nothingToBind).named "f" := by
  refine ⟨rfl, rfl, ?_⟩
  intro heq
  cases heq

end Script
end ScriptCore
