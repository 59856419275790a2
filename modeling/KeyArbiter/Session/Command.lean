import KeyArbiter.Host.State

/-!
# Commands and their results

What can be asked of a session: a host, the arbiters built on it, and the calls it keeps open.
-/

namespace KeyArbiter.Session

/-! ## Commands -/

/-- A hook, and how often it may run its actions. -/
structure HookSpec where
  hook : Hook
  budget : Nat
  deriving DecidableEq, Repr

/-- A responder to be added to those that the settings ask for. -/
inductive ResponderSpec
  | embedder
  | channel (s : Settings)
  | answer (claimed : Bool)
  | drop
  | hold
  | claim (transitions : List Transition)
  | reenter (h : HookSpec)
  deriving DecidableEq, Repr

inductive RedispatchSpec
  | queue
  | refuse
  | refuseSynthesized
  | inline (h : HookSpec)
  deriving DecidableEq, Repr

/-- What may become of an open answer: it is given, or dropped. -/
inductive Ending
  | answer (claimed : Bool)
  | drop
  deriving DecidableEq, Repr

inductive Command
  -- Arbiters
  | build (s : Settings) (scripted : Bool) (extra : List ResponderSpec)
  | dispose (a : ArbiterId)
  | settings (a : ArbiterId)
  | event (a : ArbiterId) (e : KeyEvent)
  | sync (a : ArbiterId) (modifiers : Modifiers) (time : UInt32)
  -- How the host answers
  | setEmbedder (mode : EmbedderMode)
  | setChannel (mode : ChannelMode)
  | setFilter (claimed : Bool)
  | setRedispatch (mode : RedispatchSpec)
  -- Open answers
  | takeRecords
  | respond (slot : Nat) (claimed : Bool)
  | dropRecord (slot : Nat)
  | takeCallback (slot : Nat)
  | endCallback (slot : Nat) (how : Ending)
  | endHeld (slot : Nat) (how : Ending)
  -- Events handed back
  | takeQueue
  | feed (a : ArbiterId) (slot : Nat)
  | loop (a : ArbiterId) (reversed : Bool)
  | takeInline
  | takeDispatches
  -- Layouts
  | layoutChange
  | override (q : LayoutQuery) (key : LogicalKey)
  | layoutLookup (q : LayoutQuery)
  -- Channels
  | receive (channel : String) (data : List UInt8)
  | hasHandler (channel : String)
  | sent
  | setEcho (channel : String) (on : Bool)
  -- Calls that no arbiter makes
  | hostSend (e : RuntimeEvent)
  | channelSend (channel : String) (data : List UInt8)
  | takeDirect
  | hostRedispatch (e : KeyEvent)
  | hostFilter
  deriving DecidableEq, Repr

/-! ## Results -/

structure SlottedRecord where
  slot : Nat
  call : Call
  pending : Bool

/-- A dispatch that a responder saw, and whether its arbiter's filter would be asked about it. -/
structure SeenDispatch where
  dispatch : Dispatch
  filterable : Bool
  deriving DecidableEq, Repr

inductive Result
  | nothing
  | flag (b : Bool)
  | place (n : Nat)
  | settings (s : Settings)
  | records (rs : List SlottedRecord)
  | events (es : List KeyEvent)
  | fed (es : List (KeyEvent × Option Bool))
  | dispatches (ds : List SeenDispatch)
  | lookup (layout : String) (key : LogicalKey)
  | data (bytes : List UInt8)
  | channels (names : List String)
  | direct (rs : List DirectResult)

/-! ## Snapshots -/

structure ArbiterView where
  held : List (PhysicalKey × LogicalKey)
  pending : Nat
  returned : Nat
  isClear : Bool
  deriving DecidableEq, Repr

structure HostView where
  records : Nat
  queued : Nat
  refused : Nat
  filterCalls : Nat
  sent : Nat
  lookups : Nat
  deriving DecidableEq, Repr

end KeyArbiter.Session

namespace KeyArbiter

def Book.view (b : Book) : Session.ArbiterView where
  held := b.held.toList
  pending := b.docket.awaiting
  returned := b.docket.returned
  isClear := b.docket.isClear

def State.hostView (st : State) : Session.HostView where
  records := st.records.length
  queued := st.queue.length
  refused := st.refused
  filterCalls := st.filterCalls
  sent := st.sent.length
  lookups := st.lookups

end KeyArbiter
