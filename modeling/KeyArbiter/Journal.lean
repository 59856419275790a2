import KeyArbiter.Arbiter.Dispatch
import KeyArbiter.Wire.Message

/-!
# The journal

What happened, in order. Most entries can be told as a log record; a few stand only for calls into
the host.
-/

namespace KeyArbiter

/-- An arbiter's place among all that were built. -/
abbrev ArbiterId := Nat

inductive ResponderKind
  | embedder
  | channel
  | extra
  deriving DecidableEq, Repr

def ResponderKind.name : ResponderKind → String
  | .embedder => "embedder"
  | .channel => "channel"
  | .extra => "extra"

inductive Entry
  | attached (layout : String) (responders : Nat) (keyboardChannel : String)
  | disposed (pending returned : Nat)
  | layoutChanged (flushed : Nat)
  -- The life of an event.
  | replayed (id : Nat) (e : KeyEvent)
  | dispatched (d : Dispatch) (responders : Nat)
  | offered (id : Nat) (responder : ResponderKind)
  | orphanIgnored (id : Nat) (physical : PhysicalKey)
  | sentToRuntime (id : Nat) (e : RuntimeEvent)
  | sentOnChannel (id : Nat) (channel : String)
  | channelFailed (id : Nat) (channel : String) (e : ChannelError)
  | answered (responder : ResponderKind) (id : Nat) (claimed : Bool)
  | dropped (responder : ResponderKind) (id : Nat)
  | waiting (id remaining : Nat)
  | late (id : Nat) (claimed : Bool)
  | filtered (id : Nat) (e : KeyEvent) (claimed : Bool)
  | resolved (id : Nat) (claimed : Bool)
  | handedBack (id : Nat) (e : KeyEvent)
  | refused (id : Nat)
  -- Requests.
  | synchronizing (modifiers : Modifiers) (events : Nat)
  | unknownMethod (method : String)
  | malformedRequest (e : ChannelError)
  deriving DecidableEq, Repr

/-! ## Log records -/

/-- From the most severe. -/
inductive Level
  | error
  | warn
  | info
  | debug
  | trace
  deriving DecidableEq, Repr, Inhabited

namespace Level

def rank : Level → Nat
  | .error => 0
  | .warn => 1
  | .info => 2
  | .debug => 3
  | .trace => 4

def name : Level → String
  | .error => "ERROR"
  | .warn => "WARN"
  | .info => "INFO"
  | .debug => "DEBUG"
  | .trace => "TRACE"

end Level

structure Notice where
  level : Level
  message : String
  fields : List (String × String)
  deriving DecidableEq, Repr

def Transition.logName : Transition → String
  | .down => "Down"
  | .up => "Up"
  | .repeated => "Repeat"

open Text (decimal) in
open Json (flagText) in
open Dispatch (idText) in
def Entry.notice : Entry → Option Notice
  | .attached layout responders channel =>
    some ⟨.info, "keyboard coordinator attached",
      [("layout", layout), ("responders", decimal responders), ("keyboard_channel", channel)]⟩
  | .disposed pending returned =>
    some ⟨.debug, "keyboard coordinator disposed",
      [("pending", decimal pending), ("redispatched", decimal returned)]⟩
  | .layoutChanged flushed =>
    some ⟨.info, "keyboard layout changed", [("flushed", decimal flushed)]⟩
  | .replayed id e =>
    some ⟨.debug, "replayed event returned to the host", [("id", idText id), ("event", e.text)]⟩
  | .dispatched d responders =>
    some ⟨.debug, "dispatching key event",
      [("id", idText d.id), ("kind", d.transition.logName), ("physical", d.physical.text),
        ("logical", d.logical.text), ("responders", decimal responders)]⟩
  | .orphanIgnored id physical =>
    some ⟨.debug, "ignoring orphan release", [("id", idText id), ("physical", physical.text)]⟩
  | .channelFailed id channel e =>
    some ⟨.warn, "key event channel failed, treating as unhandled",
      [("id", idText id), ("channel", channel), ("error", e.text)]⟩
  | .answered responder id claimed =>
    some ⟨.trace, "responder answered",
      [("responder", responder.name), ("id", idText id), ("handled", flagText claimed)]⟩
  | .dropped responder id =>
    some ⟨.warn, "key response dropped without an answer, treating as unhandled",
      [("responder", responder.name), ("id", idText id)]⟩
  | .waiting id remaining =>
    some ⟨.trace, "waiting for responders", [("id", idText id), ("remaining", decimal remaining)]⟩
  | .late id claimed =>
    some ⟨.trace, "keyboard coordinator disposed, dropping late answer",
      [("id", idText id), ("handled", flagText claimed)]⟩
  | .filtered id _ claimed =>
    some ⟨.trace, "text input filter answered", [("id", idText id), ("handled", flagText claimed)]⟩
  | .resolved id claimed =>
    some ⟨.debug, "key event resolved", [("id", idText id), ("handled", flagText claimed)]⟩
  | .handedBack id e =>
    some ⟨.debug, "redispatching unhandled key event", [("id", idText id), ("event", e.text)]⟩
  | .refused id =>
    some ⟨.debug, "host did not re-inject the event, no replay expected", [("id", idText id)]⟩
  | .synchronizing modifiers events =>
    some ⟨.debug, "synchronizing modifier keys",
      [("state", decimal modifiers.bits.toNat), ("events", decimal events)]⟩
  | .unknownMethod method =>
    some ⟨.debug, "keyboard channel method not implemented", [("method", method)]⟩
  | .malformedRequest e =>
    some ⟨.warn, "malformed keyboard channel request", [("error", e.text)]⟩
  | .offered .. | .sentToRuntime .. | .sentOnChannel .. => none

/-! ## Journals -/

/-- An entry, and the arbiter that it is about. -/
structure Happening where
  arbiter : ArbiterId
  entry : Entry
  deriving DecidableEq, Repr

/-- The latest first. -/
abbrev Journal := List Happening

/-- The log records at this level or a more severe one, the earliest first. -/
def Journal.notices (j : Journal) (level : Level) : List Notice :=
  (j.reverse.filterMap (·.entry.notice)).filter (·.level.rank ≤ level.rank)

end KeyArbiter
