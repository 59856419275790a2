import KeyArbiter.Journal
import KeyArbiter.Layout
import KeyArbiter.Settings

/-!
# The scene

All that stays as it is while calls are in progress: how the host answers, the arbiters and their
responders, and what runs when an event comes back in the middle of a call.
-/

namespace KeyArbiter

/-! ## How the host answers -/

inductive EmbedderMode
  | respond (claimed : Bool)
  | record
  | respondAndRecord (claimed : Bool)
  deriving DecidableEq, Repr

inductive ChannelMode
  | respond (claimed : Bool)
  | record
  | fail (kind : TransportErrorKind)
  | raw (data : List UInt8)
  deriving DecidableEq, Repr

abbrev HookId := Nat

/-- What the host does with an event that is handed back. -/
inductive RedispatchMode
  | queue
  | refuse
  | refuseSynthesized
  | inline (hook : HookId)
  deriving DecidableEq, Repr

/-- Who is asked when a message comes in on a channel. -/
inductive Handler
  | arbiter (a : ArbiterId)
  | echo
  deriving DecidableEq, Repr

/-! ## Calls in the middle of a call -/

/-- What a hook does with its arbiter, given the event that it was called for. -/
inductive Action
  | replay
  | restamp (time : UInt32)
  | event (e : KeyEvent)
  | sync (modifiers : Modifiers) (time : UInt32)
  | answer (value : Bool)
  deriving DecidableEq, Repr

/-- Actions on an arbiter. The value of the last one is the hook's. -/
structure Hook where
  target : ArbiterId
  actions : List Action
  deriving DecidableEq, Repr

/-! ## Arbiters -/

inductive Rule
  | answer (claimed : Bool)
  | drop
  | hold
  | claim (transitions : List Transition)
  | reenter (hook : HookId)
  deriving DecidableEq, Repr

inductive Responder
  | embedder
  | channel (name keymap toolkit : String)
  | extra (rule : Rule)
  deriving DecidableEq, Repr

namespace Responder

def kind : Responder → ResponderKind
  | .embedder => .embedder
  | .channel .. => .channel
  | .extra _ => .extra

/-- The responder that sends key messages as these settings say. -/
def ofSettings (s : Settings) : Responder := .channel s.keyEventChannel s.keymap s.toolkit

end Responder

inductive LayoutChoice
  | fixed (layout : Layout)
  /-- The host's own layout, whose answers are scripted and whose queries are counted. -/
  | scripted

structure Setup where
  settings : Settings := {}
  layout : LayoutChoice := .fixed .us
  /-- Those that the settings do not ask for. -/
  extra : List Responder := []
  alive : Bool := true
  deriving Inhabited

/-- All responders in the order in which they are offered an event. -/
def Setup.responders (s : Setup) : List Responder :=
  (if s.settings.embedderResponder then [.embedder] else []) ++
    (if s.settings.channelResponder then [.ofSettings s.settings] else []) ++ s.extra

/-! ## All together -/

structure Scene where
  setups : List Setup := []
  hooks : List Hook := []
  embedder : EmbedderMode := .respond false
  channel : ChannelMode := .respond false
  filter : Bool := false
  redispatch : RedispatchMode := .queue
  overrides : Layout.Overrides := []
  handlers : List (String × Handler) := []
  deriving Inhabited

namespace Scene

def setup (s : Scene) (a : ArbiterId) : Setup := s.setups.getD a { alive := false }

def isAlive (s : Scene) (a : ArbiterId) : Bool := (s.setup a).alive

def responders (s : Scene) (a : ArbiterId) : List Responder := (s.setup a).responders

def layout (s : Scene) (a : ArbiterId) : Layout :=
  match (s.setup a).layout with
  | .fixed layout => layout
  | .scripted => .scripted s.overrides

def hook (s : Scene) (h : HookId) : Hook := s.hooks.getD h ⟨s.setups.length, []⟩

def handler? (s : Scene) (channel : String) : Option Handler :=
  (s.handlers.find? (·.1 == channel)).map (·.2)

/-- Installs a handler in place of an earlier one, or removes it. -/
def setHandler (s : Scene) (channel : String) (h : Option Handler) : Scene :=
  let others := s.handlers.filter (·.1 != channel)
  { s with handlers := match h with
      | some h => (channel, h) :: others
      | none => others }

end Scene

end KeyArbiter
