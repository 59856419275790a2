import KeyArbiter.Agenda.Run
import KeyArbiter.Session.Command
import KeyArbiter.Wire.Method

/-!
# Sessions

Commands are carried out one after the other; each runs all calls that it causes to their end.
-/

namespace KeyArbiter

structure Session where
  scene : Scene := {}
  state : State := {}
  /-- The records taken so far, by slot. -/
  records : List (Option CallRecord) := []
  /-- The completions moved out of records, by slot. -/
  callbacks : List (Option Completion) := []
  /-- The events handed back and taken so far. -/
  pool : List KeyEvent := []
  deriving Inhabited

namespace Session

/-! ## Calls -/

/-- Runs what a first step left to its end. -/
def finish (s : Session) (p : Progress) : Session :=
  { s with state := run s.scene p.1 p.2 }

/-- Delivers an event to an arbiter, which tells whether it was fresh. -/
def deliver (s : Session) (a : ArbiterId) (e : KeyEvent) : Session × Bool :=
  let (st, tasks, fresh) := s.state.arrive s.scene a e
  (s.finish (st, tasks), fresh)

def deliver? (s : Session) (a : ArbiterId) (e : KeyEvent) : Session × Option Bool :=
  if s.scene.isAlive a then
    let (s, fresh) := s.deliver a e
    (s, some fresh)
  else (s, none)

def deliverAll (s : Session) (a : ArbiterId) : List KeyEvent → Session × List (KeyEvent × Option Bool)
  | [] => (s, [])
  | e :: es =>
    let (s, fresh) := s.deliver? a e
    let (s, rest) := s.deliverAll a es
    (s, (e, fresh) :: rest)

def sync (s : Session) (a : ArbiterId) (modifiers : Modifiers) (time : UInt32) : Session :=
  s.finish (s.state.sync a modifiers time)

def conclude (s : Session) (c : Completion) : Ending → Session
  | .answer claimed => s.finish (s.state.complete claimed c)
  | .drop => s.finish (s.state.abandon c)

def concludeHeld (s : Session) (t : Ticket) : Ending → Session
  | .answer claimed => s.finish (s.state, [.deliver t (.answered claimed)])
  | .drop => s.finish (s.state, [.deliver t .dropped])

/-! ## Arbiters -/

def addHook (s : Session) (h : HookSpec) : Session × HookId :=
  ({ s with
      scene := { s.scene with hooks := s.scene.hooks ++ [h.hook] }
      state := { s.state with budgets := s.state.budgets ++ [h.budget] } },
    s.scene.hooks.length)

def addResponder (s : Session) : ResponderSpec → Session × Responder
  | .embedder => (s, .embedder)
  | .channel settings => (s, .ofSettings settings)
  | .answer claimed => (s, .extra (.answer claimed))
  | .drop => (s, .extra .drop)
  | .hold => (s, .extra .hold)
  | .claim transitions => (s, .extra (.claim transitions))
  | .reenter h =>
    let (s, id) := s.addHook h
    (s, .extra (.reenter id))

def addResponders (s : Session) : List ResponderSpec → Session × List Responder
  | [] => (s, [])
  | r :: rs =>
    let (s, r) := s.addResponder r
    let (s, rs) := s.addResponders rs
    (s, r :: rs)

def build (s : Session) (settings : Settings) (scripted : Bool) (extra : List ResponderSpec) :
    Session × ArbiterId :=
  let (s, extra) := s.addResponders extra
  let a := s.scene.setups.length
  let setup : Setup :=
    { settings, layout := if scripted then .scripted else .fixed .us, extra }
  let scene := { s.scene with setups := s.scene.setups ++ [setup] }
  let scene := scene.setHandler settings.keyboardChannel (some (.arbiter a))
  let entry := .attached (scene.layout a).name setup.responders.length settings.keyboardChannel
  ({ s with scene, state := s.state.note a entry }, a)

/-- Disposes of an arbiter, and with it of the handler of its keyboard channel, whoever installed
that. -/
def dispose (s : Session) (a : ArbiterId) : Session :=
  let setup := s.scene.setup a
  let scene := { s.scene with setups := s.scene.setups.set a { setup with alive := false } }
  let docket := (s.state.book a).docket
  { s with
    scene := scene.setHandler setup.settings.keyboardChannel none
    state := s.state.note a (.disposed docket.awaiting docket.returned) }

def layoutChange (s : Session) : Session :=
  let tell (st : State) (a : ArbiterId) : State :=
    if s.scene.isAlive a then
      let b := st.book a
      (st.setBook a b.forgetLayout).note a (.layoutChanged b.known.length)
    else st
  { s with state := (List.range s.scene.setups.length).foldl tell s.state }

/-! ## Channels -/

/-- The reply to a message that comes in on a channel, if someone handles it. -/
def receive (s : Session) (channel : String) (data : List UInt8) : Session × Option (List UInt8) :=
  match s.scene.handler? channel with
  | none => (s, none)
  | some .echo => (s, some data)
  | some (.arbiter a) =>
    if s.scene.isAlive a then
      match KeyboardChannel.answer (s.state.book a).held.toList data with
      | (reply, none) => (s, some reply)
      | (reply, some (.unknownMethod method)) =>
        ({ s with state := s.state.note a (.unknownMethod method) }, some reply)
      | (reply, some e) => ({ s with state := s.state.note a (.malformedRequest e) }, some reply)
    else (s, some [])

/-! ## Slots -/

/-- Takes what is in a slot and leaves it empty. -/
def takeSlot {α : Type} (slots : List (Option α)) (slot : Nat) : List (Option α) × Option α :=
  (slots.set slot none, slots.getD slot none)

def takeCompletion (s : Session) (slot : Nat) : Session × Option (Option Completion) :=
  match s.records.getD slot none with
  | none => (s, none)
  | some r => ({ s with records := s.records.set slot (some { r with completion := none }) },
      some r.completion)

/-! ## Commands -/

private def optional {α : Type} (f : α → Result) : Option α → Result
  | some a => f a
  | none => .nothing

def perform (s : Session) : Command → Session × Result
  | .build settings scripted extra =>
    let (s, a) := s.build settings scripted extra
    (s, .place a)
  | .dispose a => if s.scene.isAlive a then (s.dispose a, .flag true) else (s, .flag false)
  | .settings a =>
    (s, if s.scene.isAlive a then .settings (s.scene.setup a).settings else .nothing)
  | .event a e =>
    let (s, fresh) := s.deliver? a e
    (s, optional .flag fresh)
  | .sync a modifiers time =>
    (if s.scene.isAlive a then s.sync a modifiers time else s, .nothing)
  | .setEmbedder mode => ({ s with scene := { s.scene with embedder := mode } }, .nothing)
  | .setChannel mode => ({ s with scene := { s.scene with channel := mode } }, .nothing)
  | .setFilter claimed => ({ s with scene := { s.scene with filter := claimed } }, .nothing)
  | .setRedispatch mode =>
    let (s, mode) : Session × RedispatchMode := match mode with
      | .queue => (s, .queue)
      | .refuse => (s, .refuse)
      | .refuseSynthesized => (s, .refuseSynthesized)
      | .inline h =>
        let (s, id) := s.addHook h
        (s, .inline id)
    ({ s with scene := { s.scene with redispatch := mode } }, .nothing)
  | .takeRecords =>
    let taken := s.state.records
    let listed := taken.mapIdx fun i r =>
      ⟨s.records.length + i, r.call, r.completion.isSome⟩
    ({ s with
        state := { s.state with records := [] }
        records := s.records ++ taken.map some },
      .records listed)
  | .respond slot claimed =>
    match s.takeCompletion slot with
    | (s, none) => (s, .nothing)
    | (s, some none) => (s, .flag false)
    | (s, some (some c)) => (s.conclude c (.answer claimed), .flag true)
  | .dropRecord slot =>
    match takeSlot s.records slot with
    | (_, none) => (s, .flag false)
    | (records, some r) =>
      let s := { s with records }
      (match r.completion with
        | some c => s.conclude c .drop
        | none => s, .flag true)
  | .takeCallback slot =>
    match s.takeCompletion slot with
    | (s, some (some c)) =>
      ({ s with callbacks := s.callbacks ++ [some c] }, .place s.callbacks.length)
    | (s, _) => (s, .nothing)
  | .endCallback slot how =>
    match takeSlot s.callbacks slot with
    | (_, none) => (s, .flag false)
    | (callbacks, some c) => ({ s with callbacks }.conclude c how, .flag true)
  | .endHeld slot how =>
    match takeSlot s.state.held slot with
    | (_, none) => (s, .flag false)
    | (held, some t) =>
      ({ s with state := { s.state with held } }.concludeHeld t how, .flag true)
  | .takeQueue =>
    let queue := s.state.queue
    ({ s with state := { s.state with queue := [] }, pool := s.pool ++ queue }, .events queue)
  | .feed a slot =>
    match s.pool[slot]? with
    | none => (s, .nothing)
    | some e =>
      let (s, fresh) := s.deliver? a e
      (s, optional .flag fresh)
  | .loop a reversed =>
    let queue := s.state.queue
    let s := { s with state := { s.state with queue := [] } }
    let (s, fed) := s.deliverAll a (if reversed then queue.reverse else queue)
    (s, .fed fed)
  | .takeInline =>
    ({ s with state := { s.state with inlineReplays := [] } },
      .fed (s.state.inlineReplays.map fun (e, value) => (e, some value)))
  | .takeDispatches =>
    let seen := s.state.seen.map fun (a, d) =>
      ⟨d, d.filterable (s.scene.setup a).settings.textInputFiltersReleases⟩
    ({ s with state := { s.state with seen := [] } }, .dispatches seen)
  | .layoutChange => (s.layoutChange, .nothing)
  | .override q key =>
    ({ s with scene := { s.scene with overrides := s.scene.overrides.set q key } }, .nothing)
  | .layoutLookup q =>
    let layout := Layout.scripted s.scene.overrides
    ({ s with state := { s.state with lookups := s.state.lookups + 1 } },
      .lookup layout.name (layout.lookup q))
  | .receive channel data =>
    let (s, reply) := s.receive channel data
    (s, optional .data reply)
  | .hasHandler channel => (s, .flag (s.scene.handler? channel).isSome)
  | .sent => (s, .channels s.state.sent)
  | .setEcho channel on =>
    ({ s with scene := s.scene.setHandler channel (if on then some .echo else none) }, .nothing)
  | .hostSend e => (s.finish (s.state.sendToRuntime s.scene e none), .nothing)
  | .channelSend channel data =>
    (s.finish (s.state.sendOnChannel s.scene channel data none), .nothing)
  | .takeDirect =>
    ({ s with state := { s.state with direct := [] } }, .direct s.state.direct)
  | .hostRedispatch e =>
    let (st, tasks, taken) := s.state.redispatch s.scene e
    (s.finish (st, tasks), .flag taken)
  | .hostFilter =>
    ({ s with state := { s.state with filterCalls := s.state.filterCalls + 1 } },
      .flag s.scene.filter)

/-! ## What is seen after each command -/

structure Outcome where
  result : Result
  /-- One for each arbiter built so far, none for those disposed of. -/
  arbiters : List (Option ArbiterView)
  host : HostView
  journal : Journal

/-- Carries out a command and looks at what became of it. -/
def outcome (s : Session) (c : Command) : Session × Outcome :=
  let (s, result) := { s with state := { s.state with journal := [] } }.perform c
  let arbiters := s.scene.setups.mapIdx fun a setup =>
    if setup.alive then some (s.state.book a).view else none
  (s, ⟨result, arbiters, s.state.hostView, s.state.journal⟩)

def outcomes (s : Session) : List Command → List Outcome
  | [] => []
  | c :: cs =>
    let (s, o) := s.outcome c
    o :: s.outcomes cs

end Session

end KeyArbiter
