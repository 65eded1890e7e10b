import ScriptCore.Decimal.Basic
import ScriptCore.Decimal.Layout
import ScriptCore.Decimal.Numeral
import ScriptCore.Decimal.Shortest
import ScriptCore.Duration
import ScriptCore.Error
import ScriptCore.Exchange
import ScriptCore.Heap.Basic
import ScriptCore.Heap.Copy
import ScriptCore.Heap.Observe
import ScriptCore.Heap.Yaml
import ScriptCore.Log.Level
import ScriptCore.Log.Line
import ScriptCore.NameMap
import ScriptCore.Param
import ScriptCore.Script.Answer
import ScriptCore.Script.Primitive
import ScriptCore.Script.Program
import ScriptCore.Script.Run
import ScriptCore.Script.Session
import ScriptCore.Script.Syntax
import ScriptCore.Script.Task
import ScriptCore.Settings.Basic
import ScriptCore.Settings.Document
import ScriptCore.Settings.Search
import ScriptCore.Text.Base64
import ScriptCore.Text.Hex
import ScriptCore.Text.Letter
import ScriptCore.Text.Printable
import ScriptCore.Text.Quoted
import ScriptCore.Text.Range
import ScriptCore.Text.Utf8
import ScriptCore.Tier
import ScriptCore.Ty.Basic
import ScriptCore.Ty.Equal
import ScriptCore.Typeclass.Basic
import ScriptCore.Typeclass.Instances
import ScriptCore.Value.Basic
import ScriptCore.View
import ScriptCore.World.Basic
import ScriptCore.World.Binding
import ScriptCore.World.Classes
import ScriptCore.World.Contention
import ScriptCore.World.Dispatch
import ScriptCore.World.Globals
import ScriptCore.World.Guard
import ScriptCore.World.Load
import ScriptCore.World.Promise
import ScriptCore.World.Scope
import ScriptCore.World.Start
import ScriptCore.World.Variable
import ScriptCore.Yaml.Cursor
import ScriptCore.Yaml.Data
import ScriptCore.Yaml.Decode
import ScriptCore.Yaml.Node
import ScriptCore.Yaml.Render.Document
import ScriptCore.Yaml.Render.KeyOrder
import ScriptCore.Yaml.Render.Scalar
import ScriptCore.Yaml.Resolve
import ScriptCore.Yaml.Tag
import ScriptCore.Yaml.Target
import ScriptCore.Yaml.Timestamp
import ScriptCore.Yaml.Token.Basic
import ScriptCore.Yaml.Token.Block
import ScriptCore.Yaml.Token.Folding
import ScriptCore.Yaml.Token.Plain
import ScriptCore.Yaml.Token.Property
import ScriptCore.Yaml.Token.Quoted
import ScriptCore.Yaml.Token.Scan
import ScriptCore.Yaml.Value
import ScriptCore.Proofs.Heap.Growth
import ScriptCore.Proofs.Operation
import ScriptCore.Proofs.Heap.Copy
import ScriptCore.Proofs.World.Variable
import ScriptCore.Proofs.World.Guard
import ScriptCore.Proofs.World.Place
import ScriptCore.Proofs.World.Binding
import ScriptCore.Proofs.World.Command
import ScriptCore.Proofs.Storage.Slots
import ScriptCore.Proofs.World.Globals
import ScriptCore.Proofs.Storage.Tidy
import ScriptCore.Proofs.Storage.Refinement
import ScriptCore.Proofs.Heap.Typing
import ScriptCore.Proofs.World.Invariant
import ScriptCore.Proofs.Typing.Preservation
import ScriptCore.Proofs.Typing.Soundness
import ScriptCore.Proofs.Lock.Entry
import ScriptCore.Proofs.Lock.Machine
import ScriptCore.Proofs.Lock.Access
import ScriptCore.Proofs.Lock.Adequacy
import ScriptCore.Proofs.Lock.Protocol
import ScriptCore.Proofs.Contention.Worker
import ScriptCore.Proofs.Contention.Counter
import ScriptCore.Proofs.Contention.Crew
import ScriptCore.Proofs.Ty.Equality
import ScriptCore.Proofs.Ty.Reading
import ScriptCore.Proofs.Typeclass.Dispatch
import ScriptCore.Proofs.Heap.Obstacle
import ScriptCore.Proofs.Storage.Evolution
import ScriptCore.Proofs.Storage.Permanence
import ScriptCore.Proofs.Heap.Reach
import ScriptCore.Proofs.Heap.Observation
import ScriptCore.Proofs.Storage.Acyclic
import ScriptCore.Proofs.NameMap
import ScriptCore.Proofs.Scope.Isolation
import ScriptCore.Proofs.Yaml.RoundTrip
import ScriptCore.Proofs.Heap.Data
import ScriptCore.Proofs.Settings.Acceptance
import ScriptCore.Proofs.Settings.Seeding
import ScriptCore.Proofs.Typeclass.Registry
import ScriptCore.Proofs.Typeclass.Defaults
import ScriptCore.Proofs.Promise.Completion
import ScriptCore.Proofs.Script.Task
import ScriptCore.Proofs.World.Looking
import ScriptCore.Proofs.World.Robust
import ScriptCore.Proofs.Script.Robust
import ScriptCore.Proofs.Script.Custody
import ScriptCore.Proofs.Promise.Agreement
import ScriptCore.Proofs.Heap.Snapshot
import ScriptCore.Proofs.Typeclass.Implementation
import ScriptCore.Proofs.World.Widening
import ScriptCore.Proofs.Scope.Detachment
import ScriptCore.Proofs.World.Parameters
import ScriptCore.Proofs.Promise.Joining
import ScriptCore.Proofs.Typeclass.Likeness
import ScriptCore.Proofs.Yaml.Reading
import ScriptCore.Proofs.Yaml.Entries
import ScriptCore.Proofs.Yaml.Homogeneity
import ScriptCore.Proofs.Typeclass.Construction
import ScriptCore.Proofs.Typing.Stability
import ScriptCore.Proofs.Script.Naming
import ScriptCore.Proofs.Script.HostCall
import ScriptCore.Proofs.Settings.Search
import ScriptCore.Proofs.Script.Nesting
