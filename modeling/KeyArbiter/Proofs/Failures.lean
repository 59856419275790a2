import KeyArbiter.Proofs.Mended
import KeyArbiter.Proofs.Stream
import KeyArbiter.Proofs.Tickets
import Mathlib

/-!
# Failures count as answers that claim nothing

A run in which responders fail, next to one in which some of them answer instead, at the same points
and without a claim: both have the same books, host and events after every move, and journals that
only tell of the failures.
-/

namespace KeyArbiter

open Session (Command Ending HookSpec ResponderSpec)

namespace Session

def ResponderSpec.mended : ResponderSpec → ResponderSpec
  | .drop => .answer false
  | r => r

/-! ## Sessions -/

/-- The session once failures are mended. Of a record only what is still open counts. -/
def mended (s : Session) : Session :=
  { s with
    scene := s.scene.mended
    state := s.state.mended
    records := s.records.map (·.filter (·.completion.isSome)) }

def launched (p : Session × List Task) : Session × List Task := (p.1.mended, p.2.map Task.mended)

theorem launched_eq_iff {p p' : Session × List Task} : launched p' = launched p ↔
    p'.1.mended = p.1.mended ∧ p'.2.map Task.mended = p.2.map Task.mended :=
  Prod.ext_iff

variable {s s' : Session}

theorem like_of (scene : s'.scene.mended = s.scene.mended) (state : s'.state.mended = s.state.mended)
    (records : s'.mended.records = s.mended.records) (callbacks : s'.callbacks = s.callbacks)
    (pool : s'.pool = s.pool) : s'.mended = s.mended := by
  simp only [mended] at records ⊢
  rw [scene, state, records, callbacks, pool]

section Like

variable (like : s'.mended = s.mended)
include like

theorem like_scene : s'.scene.mended = s.scene.mended := congrArg Session.scene like

theorem like_state : s'.state.mended = s.state.mended := congrArg Session.state like

theorem like_isAlive (a : ArbiterId) : s'.scene.isAlive a = s.scene.isAlive a :=
  Scene.like_isAlive (like_scene like) a

theorem like_book (a : ArbiterId) : s'.state.book a = s.state.book a :=
  (congrArg (·.book a) (like_state like) :)

theorem like_set {sc sc' : Scene} {st st' : State} (scenes : sc'.mended = sc.mended)
    (states : st'.mended = st.mended) :
    { s' with scene := sc', state := st' }.mended = { s with scene := sc, state := st }.mended :=
  like_of scenes states (congrArg Session.records like :) (congrArg Session.callbacks like :)
    (congrArg Session.pool like :)

theorem like_callbacks (callbacks : List (Option Completion)) :
    { s' with callbacks }.mended = { s with callbacks }.mended :=
  like_of (like_scene like :) (like_state like :) (congrArg Session.records like :) rfl
    (congrArg Session.pool like :)

theorem like_start {p p' : Progress} (same : Progress.mended p' = Progress.mended p) :
    launched (s'.start p') = launched (s.start p) := by
  obtain ⟨state, tasks⟩ := Progress.mended_eq_iff.1 same
  simp only [launched, start, tasks]
  rw [like_set like (like_scene like) state]

theorem like_meet (a : ArbiterId) (e : KeyEvent) :
    launched (s'.meet a e) = launched (s.meet a e) := by
  obtain ⟨state, tasks, -⟩ := State.like_arrive (like_scene like) (like_state like) a e
  simp only [meet, like_isAlive like]
  split
  · exact like_start like (by simp only [Progress.mended, state, tasks])
  · simp only [launched, like]

theorem like_close (c : Completion) (how : Ending) :
    launched (s'.close c how) = launched (s.close c how) := by
  cases how with
  | answer claimed => exact like_start like ((State.gives_complete claimed c).like (like_state like))
  | drop => exact like_start like ((State.gives_abandon c).like (like_state like))

/-! ### Building and disposing -/

theorem like_addHook (h : HookSpec) :
    (s'.addHook h).1.mended = (s.addHook h).1.mended ∧ (s'.addHook h).2 = (s.addHook h).2 := by
  have hooks : s'.scene.hooks = s.scene.hooks := congrArg (·.scene.hooks) like
  have scene := congrArg (fun sc => { sc with hooks := sc.hooks ++ [h.hook] }) (like_scene like)
  have state := congrArg (fun st => { st with budgets := st.budgets ++ [h.budget] })
    (like_state like)
  exact ⟨like_set like scene state, congrArg List.length hooks⟩

theorem like_addResponder (r : ResponderSpec) :
    (s'.addResponder r).1.mended = (s.addResponder r).1.mended ∧
      (s'.addResponder r).2 = (s.addResponder r).2 := by
  cases r with
  | reenter h =>
    obtain ⟨session, hook⟩ := like_addHook like h
    exact ⟨session, congrArg (fun h => Responder.extra (.reenter h)) hook⟩
  | _ => exact ⟨like, rfl⟩

end Like

theorem addResponder_mended (s : Session) (r : ResponderSpec) :
    (s.addResponder r.mended).1 = (s.addResponder r).1 ∧
      (s.addResponder r.mended).2.mended = (s.addResponder r).2.mended := by
  cases r <;> exact ⟨rfl, rfl⟩

theorem addResponders_mended (s : Session) (extra : List ResponderSpec) :
    (s.addResponders (extra.map ResponderSpec.mended)).1 = (s.addResponders extra).1 ∧
      (s.addResponders (extra.map ResponderSpec.mended)).2.map Responder.mended =
        (s.addResponders extra).2.map Responder.mended := by
  induction extra generalizing s with
  | nil => exact ⟨rfl, rfl⟩
  | cons r rs ih =>
    obtain ⟨first, responder⟩ := addResponder_mended s r
    obtain ⟨rest, responders⟩ := ih (s.addResponder r).1
    simp only [List.map_cons, addResponders, first]
    exact ⟨rest, by rw [responder, responders]⟩

theorem like_addResponders (like : s'.mended = s.mended) (extra : List ResponderSpec) :
    (s'.addResponders extra).1.mended = (s.addResponders extra).1.mended ∧
      (s'.addResponders extra).2 = (s.addResponders extra).2 := by
  induction extra generalizing s s' with
  | nil => exact ⟨like, rfl⟩
  | cons r rs ih =>
    obtain ⟨first, responder⟩ := like_addResponder like r
    obtain ⟨rest, responders⟩ := ih first
    exact ⟨rest, by simp only [addResponders, responder, responders]⟩

def attach (s : Session) (settings : Settings) (layout : LayoutChoice) (extra : List Responder) :
    Session :=
  let a := s.scene.setups.length
  let setup : Setup := { settings, layout, extra }
  let scene := { s.scene with setups := s.scene.setups ++ [setup] }
  let scene := scene.setHandler settings.keyboardChannel (some (.arbiter a))
  let entry := .attached (scene.layout a).name setup.responders.length settings.keyboardChannel
  { s with scene, state := s.state.note a entry }

theorem fst_build (s : Session) (settings : Settings) (scripted : Bool)
    (extra : List ResponderSpec) :
    (s.build settings scripted extra).1 = (s.addResponders extra).1.attach settings
      (if scripted then .scripted else .fixed .us) (s.addResponders extra).2 :=
  rfl

theorem like_attach (like : s'.mended = s.mended) (settings : Settings) (layout : LayoutChoice)
    {extra extra' : List Responder}
    (extras : extra'.map Responder.mended = extra.map Responder.mended) :
    (s'.attach settings layout extra').mended = (s.attach settings layout extra).mended := by
  have length := Scene.like_length (like_scene like)
  have added (s : Session) (extra : List Responder) : (s.attach settings layout extra).scene.mended =
      ({ s.scene.mended with
        setups := s.scene.mended.setups ++
          [({ settings, layout, extra := extra.map Responder.mended } : Setup)] }
        ).setHandler settings.keyboardChannel (some (.arbiter s.scene.setups.length)) := by
    simp only [attach, Scene.mended, Scene.setHandler, List.map_append, List.map_singleton,
      Setup.mended]
  have scene : (s'.attach settings layout extra').scene.mended =
      (s.attach settings layout extra).scene.mended := by
    rw [added, added, like_scene like, extras, length]
  have name := congrArg Layout.name (Scene.like_layout scene s.scene.setups.length)
  have responders : ({ settings, layout, extra := extra' } : Setup).responders.length =
      ({ settings, layout, extra } : Setup).responders.length := by
    have lengths : extra'.length = extra.length := by simpa using congrArg List.length extras
    simp only [Setup.responders, List.length_append, lengths]
  have noted (s : Session) (extra : List Responder) : (s.attach settings layout extra).state =
      s.state.note s.scene.setups.length (.attached
        ((s.attach settings layout extra).scene.layout s.scene.setups.length).name
        ({ settings, layout, extra } : Setup).responders.length settings.keyboardChannel) := rfl
  refine like_of scene ?_ (congrArg Session.records like :) (congrArg Session.callbacks like :)
    (congrArg Session.pool like :)
  rw [noted, noted, length, name, responders]
  exact State.like_note (like_state like) _ _

theorem like_build (like : s'.mended = s.mended) (settings : Settings) (scripted : Bool)
    (extra : List ResponderSpec) :
    (s'.build settings scripted extra).1.mended = (s.build settings scripted extra).1.mended := by
  obtain ⟨session, responders⟩ := like_addResponders like extra
  rw [fst_build, fst_build, responders]
  exact like_attach session settings _ rfl

theorem mended_build_mended (s : Session) (settings : Settings) (scripted : Bool)
    (extra : List ResponderSpec) :
    (s.build settings scripted (extra.map ResponderSpec.mended)).1.mended =
      (s.build settings scripted extra).1.mended := by
  obtain ⟨session, responders⟩ := addResponders_mended s extra
  rw [fst_build, fst_build, session]
  exact like_attach rfl settings _ responders

theorem like_dispose (like : s'.mended = s.mended) (a : ArbiterId) :
    (s'.dispose a).mended = (s.dispose a).mended := by
  have closed (s : Session) : (s.dispose a).scene.mended =
      ({ s.scene.mended with
        setups := s.scene.mended.setups.set a { s.scene.mended.setup a with alive := false } }
        ).setHandler (s.scene.mended.setup a).settings.keyboardChannel none := by
    rw [Scene.setup_mended]
    simp only [dispose, Scene.mended, Scene.setHandler, List.map_set]
    rfl
  refine like_set like ?_ ?_
  · have scene : (s'.dispose a).scene.mended = (s.dispose a).scene.mended := by
      rw [closed, closed, like_scene like]
    exact scene
  · rw [like_book like]
    exact State.like_note (like_state like) _ _

/-! ### Layouts and channels -/

theorem like_layoutChange (like : s'.mended = s.mended) :
    s'.layoutChange.mended = s.layoutChange.mended := by
  refine like_set like (like_scene like) ?_
  have state := like_state like
  simp only [like_isAlive like, Scene.like_length (like_scene like)]
  generalize s'.state = st', s.state = st at state
  induction List.range s.scene.setups.length generalizing st st' with
  | nil => exact state
  | cons a as ih =>
    rw [List.foldl_cons, List.foldl_cons]
    refine ih _ _ ?_
    split
    · have book : st'.book a = st.book a := congrArg (·.book a) state
      rw [book]
      exact State.like_note (State.like_setBook state a _) a _
    · exact state

theorem like_receive (like : s'.mended = s.mended) (channel : String) (data : List UInt8) :
    (s'.receive channel data).1.mended = (s.receive channel data).1.mended := by
  have handler : s'.scene.handler? channel = s.scene.handler? channel :=
    congrArg (·.handler? channel) (like_scene like)
  have noted (a : ArbiterId) (x : Entry) : { s' with state := s'.state.note a x }.mended =
      { s with state := s.state.note a x }.mended :=
    like_set like (like_scene like) (State.like_note (like_state like) a x)
  simp only [receive, handler, like_isAlive like, like_book like]
  split
  · exact like
  · exact like
  · split
    · split
      · exact like
      · exact noted _ _
      · exact noted _ _
    · exact like

/-! ### Records -/

def openAt (s : Session) (slot : Nat) : Option Completion :=
  (s.records.getD slot none).bind (·.completion)

def emptied (s : Session) (slot : Nat) : Session := { s with records := s.records.set slot none }

theorem openAt_mended (s : Session) (slot : Nat) : s.mended.openAt slot = s.openAt slot := by
  have kept : s.mended.records.getD slot none =
      (s.records.getD slot none).filter (·.completion.isSome) :=
    List.getD_map s.records none (Option.filter (·.completion.isSome))
  rw [openAt, openAt, kept]
  rcases s.records.getD slot none with _ | ⟨call, _ | c⟩ <;> rfl

theorem mended_set_closed (s : Session) (slot : Nat) {o : Option CallRecord}
    (closed : o.filter (·.completion.isSome) = none) :
    { s with records := s.records.set slot o }.mended = (s.emptied slot).mended := by
  simp only [mended, emptied, List.map_set, closed, Option.filter_none]

theorem mended_emptied (s : Session) {slot : Nat} (nothing : s.openAt slot = none) :
    s.mended = (s.emptied slot).mended := by
  have same : s.records.set slot (s.records.getD slot none) = s.records := by
    rcases lt_or_ge slot s.records.length with lt | le
    · rw [List.getD_eq_getElem _ _ lt, List.set_getElem_self]
    · exact List.set_eq_of_length_le le
  have closed : (s.records.getD slot none).filter (·.completion.isSome) = none := by
    unfold openAt at nothing
    rcases here : s.records.getD slot none with _ | ⟨call, _ | c⟩
    · rfl
    · rfl
    · rw [here] at nothing
      cases nothing
  calc s.mended
      = { s with records := s.records.set slot (s.records.getD slot none) }.mended := by rw [same]
    _ = (s.emptied slot).mended := s.mended_set_closed slot closed

theorem like_emptied (like : s'.mended = s.mended) (slot : Nat) :
    (s'.emptied slot).mended = (s.emptied slot).mended := by
  have records := congrArg (fun s => s.records.set slot none) like
  refine like_of (like_scene like :) (like_state like :) ?_ (congrArg Session.callbacks like :)
    (congrArg Session.pool like :)
  simpa only [mended, emptied, List.map_set, Option.filter_none] using records

def spend (s : Session) (slot : Nat) (use : Session → Completion → Session × List Task) :
    Session × List Task :=
  match s.openAt slot with
  | some c => use (s.emptied slot) c
  | none => (s.emptied slot, [])

theorem like_spend (like : s'.mended = s.mended) (slot : Nat)
    {use : Session → Completion → Session × List Task}
    (uses : ∀ {s s' : Session}, s'.mended = s.mended → ∀ c, launched (use s' c) = launched (use s c)) :
    launched (s'.spend slot use) = launched (s.spend slot use) := by
  have here : s'.openAt slot = s.openAt slot := by
    rw [← openAt_mended, like, openAt_mended]
  unfold spend
  rw [here]
  split
  · exact uses (like_emptied like slot) _
  · simp only [launched, like_emptied like]

theorem takeCompletion_open {slot : Nat} {o : Option (Option Completion)}
    (taken : s.takeCompletion slot = (s', o)) :
    s'.mended = (s.emptied slot).mended ∧ s.openAt slot = o.join := by
  unfold takeCompletion at taken
  split at taken
  · next here =>
    cases taken
    have nothing : s.openAt slot = none := by rw [openAt, here]; rfl
    exact ⟨s.mended_emptied nothing, nothing⟩
  · next r here =>
    cases taken
    exact ⟨s.mended_set_closed slot rfl, by rw [openAt, here]; rfl⟩

theorem launched_respond (s : Session) (slot : Nat) (claimed : Bool) :
    launched (s.launch (.respond slot claimed)) =
      launched (s.spend slot fun s c => s.close c (.answer claimed)) := by
  rcases taken : s.takeCompletion slot with ⟨s', o⟩
  obtain ⟨same, here⟩ := takeCompletion_open taken
  simp only [launch, taken, spend, here]
  rcases o with _ | _ | c
  · exact congrArg (·, []) same
  · exact congrArg (·, []) same
  · exact like_close same c _

theorem launched_dropRecord (s : Session) (slot : Nat) :
    launched (s.launch (.dropRecord slot)) = launched (s.spend slot fun s c => s.close c .drop) := by
  simp only [launch, takeSlot, spend]
  rcases here : s.records.getD slot none with _ | ⟨call, _ | c⟩
  · have nothing : s.openAt slot = none := by rw [openAt, here]; rfl
    simp only [nothing, launched, s.mended_emptied nothing]
  · have nothing : s.openAt slot = none := by rw [openAt, here]; rfl
    simp only [nothing]
    rfl
  · have open' : s.openAt slot = some c := by rw [openAt, here]; rfl
    simp only [open']
    rfl

theorem launched_takeCallback (s : Session) (slot : Nat) :
    launched (s.launch (.takeCallback slot)) =
      launched (s.spend slot fun s c => ({ s with callbacks := s.callbacks ++ [some c] }, [])) := by
  rcases taken : s.takeCompletion slot with ⟨s', o⟩
  obtain ⟨same, here⟩ := takeCompletion_open taken
  simp only [launch, perform, taken, spend, here]
  rcases o with _ | _ | c
  · exact congrArg (·, []) same
  · exact congrArg (·, []) same
  · have callbacks : s'.callbacks = s.callbacks := (congrArg Session.callbacks same :)
    simp only [launched, callbacks]
    exact congrArg (·, []) (like_callbacks same _)

/-! ## Commands -/

theorem like_still (like : s'.mended = s.mended) {sc sc' : Scene} {st st' : State}
    (scenes : sc'.mended = sc.mended) (states : st'.mended = st.mended) :
    launched ({ s' with scene := sc', state := st' }, []) =
      launched ({ s with scene := sc, state := st }, []) := by
  simp only [launched, like_set like scenes states]

theorem like_rescene (like : s'.mended = s.mended) (f : Scene → Scene)
    (keeps : ∀ sc, (f sc).mended = f sc.mended) :
    launched ({ s' with scene := f s'.scene }, []) = launched ({ s with scene := f s.scene }, []) :=
  like_still like (by rw [keeps, keeps, like_scene like]) (like_state like)

theorem like_restate (like : s'.mended = s.mended) (f : State → State)
    (keeps : ∀ st, (f st).mended = f st.mended) :
    launched ({ s' with state := f s'.state }, []) = launched ({ s with state := f s.state }, []) :=
  like_still like (like_scene like) (State.like_change (like_state like) f keeps)

theorem like_setRedispatch (like : s'.mended = s.mended) (mode : RedispatchSpec) :
    launched (s'.launch (.setRedispatch mode)) = launched (s.launch (.setRedispatch mode)) := by
  cases mode with
  | inline h =>
    obtain ⟨hooked, id⟩ := like_addHook like h
    have scene := congrArg (fun sc => { sc with redispatch := .inline (s.addHook h).2 })
      (like_scene hooked)
    simp only [launch, perform, id]
    exact like_still hooked scene (like_state hooked)
  | queue => exact like_rescene like (fun sc => { sc with redispatch := .queue }) fun _ => rfl
  | refuse => exact like_rescene like (fun sc => { sc with redispatch := .refuse }) fun _ => rfl
  | refuseSynthesized =>
    exact like_rescene like (fun sc => { sc with redispatch := .refuseSynthesized }) fun _ => rfl

theorem like_takeRecords (like : s'.mended = s.mended) :
    launched (s'.launch .takeRecords) = launched (s.launch .takeRecords) := by
  have taken : s'.state.records = s.state.records := congrArg (·.state.records) like
  have before : s'.mended.records = s.mended.records := congrArg Session.records like
  have emptied := congrArg (fun st => { st with records := [] }) (like_state like)
  simp only [launch, perform, launched, taken]
  refine congrArg (·, []) (like_of (like_scene like :) emptied ?_ (congrArg Session.callbacks like :)
    (congrArg Session.pool like :))
  simp only [mended] at before
  simp only [mended, List.map_append, before]

theorem like_endHeld (like : s'.mended = s.mended) (slot : Nat) (how : Ending) :
    launched (s'.launch (.endHeld slot how)) = launched (s.launch (.endHeld slot how)) := by
  have held : s'.state.held = s.state.held := congrArg (·.state.held) like
  simp only [launch, held]
  split
  · simp only [launched, like]
  · next slots t _ =>
    have state : { s'.state with held := slots }.mended = { s.state with held := slots }.mended :=
      congrArg (fun st => { st with held := slots }) (like_state like)
    have closed := like_set like (like_scene like) state
    cases how <;> exact congrArg (·, _) closed

theorem like_takeQueue (like : s'.mended = s.mended) :
    launched (s'.launch .takeQueue) = launched (s.launch .takeQueue) := by
  have queue : s'.state.queue = s.state.queue := congrArg (·.state.queue) like
  have pool : s'.pool = s.pool := (congrArg Session.pool like :)
  have state := congrArg (fun st => { st with queue := [] }) (like_state like)
  simp only [launch, perform, launched, queue, pool]
  exact congrArg (·, []) (like_of (like_scene like :) state (congrArg Session.records like :)
    (congrArg Session.callbacks like :) rfl)

/-- A command tells no failure from an answer that claims nothing. -/
theorem like_launch (like : s'.mended = s.mended) (c : Command) :
    launched (s'.launch c) = launched (s.launch c) := by
  have scene := like_scene like
  have state := like_state like
  have nothing : launched (s', []) = launched (s, []) := by simp only [launched, like]
  cases c with
  | build settings scripted extra =>
    simp only [launch, perform, launched, like_build like]
  | dispose a =>
    simp only [launch, perform, like_isAlive like]
    split
    · simp only [launched, like_dispose like]
    · exact nothing
  | settings a => exact nothing
  | event a e => exact like_meet like a e
  | sync a modifiers time =>
    simp only [launch, like_isAlive like]
    split
    · exact like_start like (State.like_sync state a modifiers time)
    · exact nothing
  | setEmbedder mode => exact like_rescene like (fun sc => { sc with embedder := mode }) fun _ => rfl
  | setChannel mode => exact like_rescene like (fun sc => { sc with channel := mode }) fun _ => rfl
  | setFilter claimed => exact like_rescene like (fun sc => { sc with filter := claimed }) fun _ => rfl
  | setRedispatch mode => exact like_setRedispatch like mode
  | takeRecords => exact like_takeRecords like
  | respond slot claimed =>
    rw [launched_respond, launched_respond]
    exact like_spend like slot fun like c => like_close like c _
  | dropRecord slot =>
    rw [launched_dropRecord, launched_dropRecord]
    exact like_spend like slot fun like c => like_close like c _
  | takeCallback slot =>
    rw [launched_takeCallback, launched_takeCallback]
    refine like_spend like slot fun {s s'} like c => ?_
    have callbacks : s'.callbacks = s.callbacks := (congrArg Session.callbacks like :)
    simp only [launched, callbacks, like_callbacks like]
  | endCallback slot how =>
    have callbacks : s'.callbacks = s.callbacks := (congrArg Session.callbacks like :)
    simp only [launch, callbacks]
    split
    · exact nothing
    · exact like_close (like_callbacks like _) _ how
  | endHeld slot how => exact like_endHeld like slot how
  | takeQueue => exact like_takeQueue like
  | feed a slot =>
    have pool : s'.pool = s.pool := (congrArg Session.pool like :)
    simp only [launch, pool]
    split
    · exact nothing
    · exact like_meet like a _
  | loop a reversed =>
    have queue : s'.state.queue = s.state.queue := congrArg (·.state.queue) like
    have state := congrArg (fun st => { st with queue := [] }) state
    simp only [launch, launched, queue, like_isAlive like]
    exact congrArg (·, _) (like_set like scene state)
  | takeInline => exact like_restate like (fun st => { st with inlineReplays := [] }) fun _ => rfl
  | takeDispatches => exact like_restate like (fun st => { st with seen := [] }) fun _ => rfl
  | layoutChange => simp only [launch, perform, launched, like_layoutChange like]
  | override q key =>
    exact like_rescene like (fun sc => { sc with overrides := sc.overrides.set q key }) fun _ => rfl
  | layoutLookup q =>
    exact like_restate like (fun st => { st with lookups := st.lookups + 1 }) fun _ => rfl
  | receive channel data => simp only [launch, perform, launched, like_receive like]
  | hasHandler channel => exact nothing
  | sent => exact nothing
  | setEcho channel on =>
    exact like_rescene like (·.setHandler channel (if on then some .echo else none)) fun _ => rfl
  | hostSend e =>
    have embedder : s'.scene.embedder = s.scene.embedder := congrArg (·.scene.embedder) like
    refine like_start like ?_
    unfold State.sendToRuntime
    rw [embedder]
    exact (State.gives_sendToRuntime s.scene e none).like state
  | channelSend channel data =>
    have mode : s'.scene.channel = s.scene.channel := congrArg (·.scene.channel) like
    refine like_start like ?_
    unfold State.sendOnChannel
    rw [mode]
    exact (State.gives_sendOnChannel s.scene channel data none).like state
  | takeDirect => exact like_restate like (fun st => { st with direct := [] }) fun _ => rfl
  | hostRedispatch e =>
    obtain ⟨redispatched, tasks, -⟩ := State.like_redispatch scene state e
    exact like_start like (Prod.ext redispatched tasks)
  | hostFilter =>
    exact like_restate like (fun st => { st with filterCalls := st.filterCalls + 1 }) fun _ => rfl

/-! ## Mending a command -/

/-- The command with which whoever drops a response would answer instead, without a claim. Calls that
no arbiter made are nobody's failures. -/
def mend (s : Session) : Command → Command
  | .build settings scripted extra =>
    .build settings scripted (extra.map ResponderSpec.mended)
  | .dropRecord slot =>
    if (s.ticketAt (.record slot)).isSome then .respond slot false else .dropRecord slot
  | .endCallback slot .drop =>
    .endCallback slot (if (s.ticketAt (.callback slot)).isSome then .answer false else .drop)
  | .endHeld slot .drop => .endHeld slot (.answer false)
  | c => c

theorem launched_close (s : Session) {c : Completion} (owned : c.owner.isSome) :
    launched (s.close c (.answer false)) = launched (s.close c .drop) := by
  obtain ⟨t, owned⟩ := Option.isSome_iff_exists.1 owned
  rw [close_owned s owned, close_owned s owned]
  rfl

theorem ticketAt_record (s : Session) (slot : Nat) :
    s.ticketAt (.record slot) = (s.openAt slot).bind Completion.owner := by
  simp only [ticketAt, openAt, Option.bind_assoc]
  rfl

theorem launched_mend (s : Session) (c : Command) :
    launched (s.launch (s.mend c)) = launched (s.launch c) := by
  unfold mend
  split
  · simp only [launch, perform, launched, mended_build_mended]
  · next slot =>
    split
    · next owned =>
      rw [launched_respond, launched_dropRecord]
      rw [ticketAt_record] at owned
      unfold spend
      split
      · next c here =>
        rw [here] at owned
        exact launched_close _ owned
      · rfl
    · rfl
  · next slot =>
    split
    · next owned =>
      simp only [launch, takeSlot]
      simp only [ticketAt] at owned
      cases here : s.callbacks.getD slot none with
      | none => rfl
      | some c =>
        rw [here] at owned
        exact launched_close _ owned
    · rfl
  · next slot =>
    simp only [launch, takeSlot]
    cases s.state.held.getD slot none with
    | none => rfl
    | some t => rfl
  · rfl

end Session

/-! ## Mending a send -/

/-- A message on this channel would not be answered by a reply. -/
def Scene.fails (sc : Scene) (channel : String) : Bool :=
  match sc.channel with
  | .fail _ => true
  | .raw data => !(KeyReply.decode channel data).isOk
  | .respond _ | .record => false

theorem State.mended_send_failed (sc : Scene) (st : State) {channel : String}
    (fails : sc.fails channel = true) (data : List UInt8) (t : Ticket) :
    Progress.mended (st.sendOnChannel { sc with channel := .respond false } channel data (some t)) =
      Progress.mended (st.sendOnChannel sc channel data (some t)) := by
  have answered (st : State) : Progress.mended
      (st.giveReply channel (.ok (replyData false)) (some t)) =
        (st.mended, [.deliver t (.answered false)]) := by
    have reply : ((Except.ok (replyData false)).mapError .transport >>= KeyReply.decode channel) =
        .ok ⟨false⟩ := decode_replyData channel false
    simp only [giveReply, reply]
    rfl
  unfold Scene.fails at fails
  simp only [sendOnChannel, answered]
  split at fails
  · next kind mode =>
    simp only [mode]
    exact (mended_giveReply_failed _ _ _ ⟨_, rfl⟩).symm
  · next data mode =>
    simp only [mode]
    refine (mended_giveReply_failed _ _ _ ?_).symm
    cases decoded : KeyReply.decode channel data with
    | error e => exact ⟨e, decoded⟩
    | ok r => simp [decoded, Except.isOk, Except.toBool] at fails
  · cases fails
  · cases fails

theorem State.mended_step_failed (sc : Scene) (st : State) (a : ArbiterId) (d : Dispatch)
    {channel : String} (fails : sc.fails channel = true) (keymap toolkit : String)
    (rs : List Responder) :
    Progress.mended (st.step { sc with channel := .respond false }
        (.offer a d (.channel channel keymap toolkit :: rs))) =
      Progress.mended (st.step sc (.offer a d (.channel channel keymap toolkit :: rs))) := by
  have sent := ((st.note a (.offered d.id .channel)).note a
    (.sentOnChannel d.id channel)).mended_send_failed sc fails
      (Json.utf8 (KeyMessage.codec.encode (.ofEvent d.event keymap toolkit))) ⟨a, .channel, d.id⟩
  obtain ⟨state, tasks⟩ := Progress.mended_eq_iff.1 sent
  simp only [step, offer, Responder.kind, Progress.mended, List.map_append, state, tasks]

/-! ## Journals -/

def Entry.verdict? : Entry → Option (Nat × Bool)
  | .resolved id claimed => some (id, claimed)
  | _ => none

theorem Journal.about_mended (j : Journal) (a : ArbiterId) :
    j.mended.about a = (j.about a).filterMap Entry.mended := by
  induction j with
  | nil => rfl
  | cons x j ih =>
    have cons : Journal.mended (x :: j) = match x.entry.mended with
        | some y => ⟨x.arbiter, y⟩ :: Journal.mended j
        | none => Journal.mended j := by
      rw [Journal.mended, List.filterMap_cons]
      cases x.entry.mended <;> rfl
    rw [cons, about_cons]
    by_cases own : x.arbiter = a
    · cases mended : x.entry.mended <;> simp [about_cons, own, mended, ih]
    · cases mended : x.entry.mended <;> simp [about_cons, own, ih]

theorem Journal.filterMap_about {β : Type} {f : Entry → Option β}
    (blind : ∀ x : Entry, x.mended.bind f = f x) {j j' : Journal} (like : j'.mended = j.mended)
    (a : ArbiterId) : (j'.about a).filterMap f = (j.about a).filterMap f := by
  have read (j : Journal) : (j.about a).filterMap f = (j.mended.about a).filterMap f := by
    rw [about_mended, List.filterMap_filterMap]
    exact List.filterMap_congr fun x _ => (blind x).symm
  rw [read, like, ← read]

/-! ## Runs -/

namespace Moment

/-- The moment once failures are mended. -/
def mended (m : Moment) : Moment := ⟨m.session.mended, m.tasks.map Task.mended⟩

variable {m m' : Moment}

theorem like_next (like : m'.mended = m.mended) (move : Move) :
    (m'.next move).mended = (m.next move).mended := by
  have session : m'.session.mended = m.session.mended := congrArg Moment.session like
  have tasks : m'.tasks.map Task.mended = m.tasks.map Task.mended := congrArg Moment.tasks like
  cases move with
  | go =>
    simp only [next]
    cases here : m.tasks with
    | nil =>
      have none : m'.tasks = [] := by simpa [here] using tasks
      simp only [none]
      exact like
    | cons t rest =>
      rw [here, List.map_cons] at tasks
      obtain ⟨t', rest', here', first, later⟩ := List.map_eq_cons_iff.1 tasks
      have stepped := State.like_tasks (Session.like_scene session) (Session.like_state session) first
      obtain ⟨state, left⟩ := Progress.mended_eq_iff.1 stepped
      simp only [here', mended, List.map_append, later]
      exact congrArg₂ Moment.mk (Session.like_set session (Session.like_scene session) state)
        (congrArg (· ++ rest.map Task.mended) left)
  | command c =>
    have launched := Session.like_launch session c
    obtain ⟨state, left⟩ := Session.launched_eq_iff.1 launched
    simp only [next, mended, List.map_append, tasks, state, left]

theorem like_moves (like : m'.mended = m.mended) (moves : List Move) :
    (moves.foldl next m').mended = (moves.foldl next m).mended := by
  induction moves generalizing m m' with
  | nil => exact like
  | cons move moves ih => exact ih (like_next like move)

/-- The innermost call is about to send a message that will not be answered by a reply. -/
def sendFails (m : Moment) : Bool :=
  match m.tasks with
  | .offer _ _ (.channel channel _ _ :: _) :: _ => m.scene.fails channel
  | _ => false

/-- Moves that do the same as one move, but where a responder would fail in it, it answers at this
point that it claims nothing. -/
def mend (m : Moment) : Move → List Move
  | .go =>
    if m.sendFails then
      [.command (.setChannel (.respond false)), .go, .command (.setChannel m.scene.channel)]
    else [.go]
  | .command c => [.command (m.session.mend c)]

theorem mended_mend (m : Moment) (move : Move) :
    ((m.mend move).foldl next m).mended = (m.next move).mended := by
  unfold mend
  split
  · split
    · next fails =>
      unfold sendFails at fails
      split at fails
      · next a d channel keymap toolkit rs rest here =>
        have stepped := State.mended_step_failed m.scene m.state a d fails keymap toolkit rs
        obtain ⟨state, left⟩ := Progress.mended_eq_iff.1 stepped
        simp only [List.foldl_cons, List.foldl_nil, next, Session.launch, Session.perform, here,
          List.nil_append, mended, List.map_append]
        exact congrArg₂ Moment.mk (Session.like_set rfl rfl state) (congrArg (· ++ _) left)
      · cases fails
    · rfl
  · next c =>
    have launched := m.session.launched_mend c
    obtain ⟨state, left⟩ := Session.launched_eq_iff.1 launched
    simp only [List.foldl_cons, List.foldl_nil, next, mended, List.map_append, state, left]

/-- The moves of a run, with the failures mended in those that are marked. -/
def mendMarked (m : Moment) : List (Move × Bool) → List Move
  | [] => []
  | (move, marked) :: run =>
    (if marked then m.mend move else [move]) ++ (m.next move).mendMarked run

theorem mended_mendMarked (like : m'.mended = m.mended) (run : List (Move × Bool)) :
    ((m.mendMarked run).foldl next m').mended = ((run.map Prod.fst).foldl next m).mended := by
  induction run generalizing m m' with
  | nil => exact like
  | cons first run ih =>
    obtain ⟨move, marked⟩ := first
    rw [mendMarked, List.foldl_append, List.map_cons, List.foldl_cons]
    refine ih ?_
    cases marked with
    | true => exact (like_moves like _).trans (m.mended_mend move)
    | false => exact like_next like move

theorem mendMarked_append (m : Moment) (run more : List (Move × Bool)) :
    m.mendMarked (run ++ more) =
      m.mendMarked run ++ ((run.map Prod.fst).foldl next m).mendMarked more := by
  induction run generalizing m with
  | nil => rfl
  | cons first run ih =>
    obtain ⟨move, marked⟩ := first
    simp only [List.cons_append, mendMarked, ih, List.append_assoc, List.map_cons, List.foldl_cons]

theorem mendMarked_take (m : Moment) (run : List (Move × Bool)) (k : Nat) :
    m.mendMarked (run.take k) <+: m.mendMarked run := by
  have whole := m.mendMarked_append (run.take k) (run.drop k)
  rw [List.take_append_drop] at whole
  rw [whole]
  exact List.prefix_append ..

/-- Any failures of responders may be replaced by answers that claim nothing, given at the same
points. After each move of the run, whatever it has come to has the same books, calls to the filter,
verdicts and events that were handed back, in this order: all that the host and the arbiters keep is
the same, and so is the journal but for what it tells of the failures. -/
theorem failures_claim_nothing (run : List (Move × Bool)) (k : Nat) :
    mendMarked {} (run.take k) <+: mendMarked {} run ∧
    let m := after ((run.take k).map Prod.fst)
    let m' := after (mendMarked {} (run.take k))
    (∀ a, m'.book a = m.book a ∧ m'.dispatches a = m.dispatches a ∧
      (m'.past a).filterMap Entry.verdict? = (m.past a).filterMap Entry.verdict? ∧
      (m'.past a).filterMap Entry.consult? = (m.past a).filterMap Entry.consult? ∧
      (m'.past a).filterMap Entry.handBack? = (m.past a).filterMap Entry.handBack?) ∧
    m'.state.filterCalls = m.state.filterCalls ∧ m'.state.queue = m.state.queue ∧
    m'.session.pool = m.session.pool ∧ m'.session.callbacks = m.session.callbacks ∧
    { m'.state with journal := m.state.journal } = m.state ∧
    m'.state.journal.mended = m.state.journal.mended ∧
    m'.mended = m.mended := by
  refine ⟨mendMarked_take .., ?_⟩
  intro m m'
  have like : m'.mended = m.mended := mended_mendMarked (Eq.refl (mended {})) (run.take k)
  have session : m'.session.mended = m.session.mended := congrArg Moment.session like
  have state := Session.like_state session
  have journal : m'.state.journal.mended = m.state.journal.mended := congrArg State.journal state
  have entries {β : Type} {f : Entry → Option β} (blind : ∀ x : Entry, x.mended.bind f = f x)
      (a : ArbiterId) : (m'.past a).filterMap f = (m.past a).filterMap f :=
    Journal.filterMap_about blind journal a
  refine ⟨fun a => ⟨Session.like_book session a, ?_, ?_, ?_, ?_⟩,
    (congrArg State.filterCalls state :), (congrArg State.queue state :),
    (congrArg Session.pool session :), (congrArg Session.callbacks session :), ?_, journal, like⟩
  · rw [dispatches, dispatchesOf, entries fun x => by cases x <;> rfl]
    rfl
  · exact entries (fun x => by cases x <;> rfl) a
  · exact entries (fun x => by cases x <;> rfl) a
  · exact entries (fun x => by cases x <;> rfl) a
  · exact (congrArg (fun st => { st with journal := m.state.journal }) state :)

-- A message that the transport does not deliver: it is sent to a host that answers, and then the
-- host is as it was.
example : (mendMarked {} [(.command (.build { embedderResponder := false } false []), true),
    (.command (.setChannel (.fail .noResponse)), true), (.command (.event 0 aPress), true),
    (.go, true)]).length = 6 := by decide +kernel

end Moment

end KeyArbiter
