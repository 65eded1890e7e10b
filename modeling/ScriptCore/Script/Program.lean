import ScriptCore.Script.Run
import ScriptCore.Settings.Document
import ScriptCore.World.Start

/-!
# Programs

A program starts a session and runs its steps one after another.  A step that
fails ends there, and the next one goes on with what is left.
-/

namespace ScriptCore
namespace Script

inductive Logging where
  | discard
  | lines (level format : String)

structure Setup where
  /-- The text of the settings; the default settings without one. -/
  settings : Option String := none
  /-- The settings are taken as they are written. -/
  isUnchecked : Bool := false
  logging : Logging := .discard
  hasEvaluator : Bool := false
  sources : List Source := Source.standard

namespace Setup

def read (s : Setup) : Except Error Settings :=
  match s.settings with
  | none => .ok .default
  | some text =>
      if s.isUnchecked then Settings.parseUnchecked text else Settings.parse text "session.yaml"

def logger (s : Setup) : Log.Logger :=
  match s.logging with
  | .discard => .discard
  | .lines level format => .ofNames level format

def start (s : Setup) : Except Failure Session := do
  let settings ← s.read.mapError .error
  let world ← World.start settings s.logger s.sources s.hasEvaluator
  return { world }

end Setup

/-- What a step comes to, what it traced and what it logged. -/
structure Report where
  outcome : Except Failure Answer
  trace : List TraceEntry
  log : List String

def takeLog (s : Session) : List String × Session :=
  (s.world.lines.reverse, { s with world := { s.world with lines := [] } })

def runOn {α : Type} (script : Exec α) (s : Session) (waiting : Task.Waiting Session) :
    Session × Task.Waiting Session × Except Failure α :=
  let (s, waiting, result) :=
    Task.run (Task.wakeAll maxDepth) Task.abandon (script.run s) waiting
  (s, waiting, result.getD (.error (.panic .stuck)))

def report (step : Step) (s : Session) (waiting : Task.Waiting Session) :
    Session × Task.Waiting Session × Report :=
  let (s, waiting, outcome) := runOn (runTop step) { s with trace := [] } waiting
  let (log, s) := takeLog s
  (s, waiting, { outcome, trace := s.trace.reverse, log })

def reports : List Step → Session → Task.Waiting Session → List Report
  | [], _, _ => []
  | step :: rest, s, waiting =>
      let (s, waiting, r) := report step s waiting
      r :: reports rest s waiting

/-- What a program comes to: the log of its start and a report for every step. -/
structure Transcript where
  startLog : List String
  reports : List Report

def run (setup : Setup) (steps : List Step) : Except Failure Transcript := do
  let s ← setup.start
  let (startLog, s) := takeLog s
  return { startLog, reports := reports steps s [] }

/-- The value of an expression in an empty world, together with its heap. -/
def evalAlone (e : Expr) : Except Failure (Value × Heap) :=
  let (s, _, result) := runOn (eval e) { world := {} } []
  result.map fun v => (v, s.world.heap)

end Script
end ScriptCore
