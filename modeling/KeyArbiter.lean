import KeyArbiter.Agenda.Run
import KeyArbiter.Agenda.Step
import KeyArbiter.Agenda.Task
import KeyArbiter.Arbiter.Book
import KeyArbiter.Arbiter.Dispatch
import KeyArbiter.Arbiter.Docket
import KeyArbiter.Arbiter.HeldKeys
import KeyArbiter.Command.Files
import KeyArbiter.Command.Layout
import KeyArbiter.Command.Line
import KeyArbiter.Command.Lookup
import KeyArbiter.Command.Number
import KeyArbiter.Command.Replay
import KeyArbiter.Command.Run
import KeyArbiter.Host.Scene
import KeyArbiter.Host.State
import KeyArbiter.Journal
import KeyArbiter.Json.Choice
import KeyArbiter.Json.Codec
import KeyArbiter.Json.Fault
import KeyArbiter.Json.Number
import KeyArbiter.Json.Record
import KeyArbiter.Json.Scan
import KeyArbiter.Json.Sequence
import KeyArbiter.Json.Skip
import KeyArbiter.Json.Text
import KeyArbiter.Json.Value
import KeyArbiter.Key.Basic
import KeyArbiter.Key.Event
import KeyArbiter.Key.Modifier
import KeyArbiter.Key.Sync
import KeyArbiter.Key.Table
import KeyArbiter.Layout
import KeyArbiter.Main
import KeyArbiter.Number.Binary64
import KeyArbiter.Number.Shortest
import KeyArbiter.Proofs.Agreement
import KeyArbiter.Proofs.Comeback
import KeyArbiter.Proofs.Course
import KeyArbiter.Proofs.Desk
import KeyArbiter.Proofs.Frame
import KeyArbiter.Proofs.Held
import KeyArbiter.Proofs.History
import KeyArbiter.Proofs.Immediate
import KeyArbiter.Proofs.Keystroke
import KeyArbiter.Proofs.Lifecycle
import KeyArbiter.Proofs.Moment
import KeyArbiter.Proofs.Order
import KeyArbiter.Proofs.Plain
import KeyArbiter.Proofs.Plan
import KeyArbiter.Proofs.Replays
import KeyArbiter.Proofs.Resolution
import KeyArbiter.Proofs.Rounds
import KeyArbiter.Proofs.Stream
import KeyArbiter.Proofs.Tickets
import KeyArbiter.Proofs.Twins
import KeyArbiter.Session.Command
import KeyArbiter.Session.Run
import KeyArbiter.Settings
import KeyArbiter.Text.Blank
import KeyArbiter.Text.LowerCase
import KeyArbiter.Text.Numeral
import KeyArbiter.Text.Quoted
import KeyArbiter.Wire.Event
import KeyArbiter.Wire.Message
import KeyArbiter.Wire.Method
import KeyArbiter.Wire.Trace
import KeyArbiter.Proofs.Releases
import KeyArbiter.Proofs.Scenery
import KeyArbiter.Proofs.Strokes
import KeyArbiter.Proofs.Channel
import KeyArbiter.Proofs.Sends
import KeyArbiter.Proofs.Disposed
import KeyArbiter.Proofs.Guards
import KeyArbiter.Proofs.Mended
import KeyArbiter.Proofs.Failures
import KeyArbiter.Proofs.Arrivals
import KeyArbiter.Proofs.Epochs
import KeyArbiter.Proofs.Forgetful
import KeyArbiter.Proofs.Lookups
import KeyArbiter.Proofs.Written
import KeyArbiter.Proofs.Readback
import KeyArbiter.Proofs.RoundTrip
import KeyArbiter.Proofs.Convergence
import KeyArbiter.Proofs.Grammar
import KeyArbiter.Proofs.Skipping
import KeyArbiter.Proofs.Spelling
import KeyArbiter.Proofs.Exactness
import KeyArbiter.Proofs.Objects
import KeyArbiter.Proofs.Fields
import KeyArbiter.Proofs.Shapes
import KeyArbiter.Proofs.Replies
import KeyArbiter.Proofs.Values
import KeyArbiter.Proofs.Requests
import KeyArbiter.Proofs.Identity
import KeyArbiter.Proofs.Digits
import KeyArbiter.Proofs.Numerals
import KeyArbiter.Proofs.Foretold
