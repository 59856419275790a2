import KeyArbiter.Proofs.Twins
import Mathlib

/-!
# Two ways to come back

A host that delivers what is handed back at once, and a host that delivers it after each call: the
arbiter does the same with both, and has nothing outstanding after each call.
-/

namespace KeyArbiter

section Feed

variable {sc : Scene} {came : List (KeyEvent × Bool)} {x y : State} {D : Multiset Duty}

theorem Twin.feed (lone : sc.Lone) (twin : Twin came x y) {es : List KeyEvent}
    (fresh : ∀ e ∈ es, e ∉ (y.book 0).docket.backs) (distinct : es.Nodup)
    (sound : Sound (sc.setup 0) (y.desk 0 D)) :
    Twin came (run sc.inlined x [.feed 0 es]) (run sc y [.feed 0 es]) := by
  induction es generalizing x y with
  | nil =>
    rw [run, State.step, List.nil_append, Session.run_nil, run, State.step, List.nil_append,
      Session.run_nil]
    exact twin
  | cons e es ih =>
    obtain ⟨new, others⟩ := List.nodup_cons.1 distinct
    have unexpected := fresh e (List.mem_cons_self ..)
    obtain ⟨d, x', y', tasks, rfl, arrived, arrived', twin', own, next, docket⟩ :=
      twin.arrive lone unexpected
    have lands := State.lands_arrive (a := 0) sc y D (lt_of_isAlive lone.alive) d.event
    have sound' := lands.course.preserves (fun step sound => sound.change lone.alive step) sound
    rw [arrived'] at lands sound'
    obtain ⟨twin'', stems⟩ := twin'.runs lone own sound'
    rw [Session.run_feed_cons, Session.run_feed_cons, arrived, arrived']
    refine ih twin'' (fun e' mem back => ?_) others (sound'.runs lone.alive lands.aimed)
    rw [docket] at stems
    rcases Docket.mem_backs_of_stems stems back with back | ⟨c, hc, same, rfl⟩
    · rw [Docket.backs_enter] at back
      exact fresh e' (List.mem_cons_of_mem _ mem) back
    · rcases List.mem_append.1 hc with hc | hc
      · have known : c.dispatch.id ≤ (y.book 0).docket.lastId := sound.le_lastId_of_case hc
        omega
      · obtain rfl := List.mem_singleton.1 hc
        exact new mem

end Feed

/-! ## What waits is delivered -/

/-- Nothing is changed but what has to do with events on their way back. -/
structure State.Returns (st st' : State) (left : List KeyEvent) : Prop where
  gist : st'.gist = st.gist
  book : (st'.book 0).opened = (st.book 0).opened
  queue : st'.queue = st.queue
  backs : (st'.book 0).docket.backs.Perm left
  ordered : (st'.book 0).docket.Ordered

theorem State.Returns.trans {st st' st'' : State} {left left' : List KeyEvent}
    (h : st.Returns st' left) (h' : st'.Returns st'' left') : st.Returns st'' left' :=
  ⟨h'.gist.trans h.gist, h'.book.trans h.book, h'.queue.trans h.queue, h'.backs, h'.ordered⟩

theorem State.arrive_back (sc : Scene) {st : State} {e : KeyEvent} {left : List KeyEvent}
    (backs : (st.book 0).docket.backs.Perm (e :: left)) (ordered : (st.book 0).docket.Ordered) :
    ∃ st', st.arrive sc 0 e = (st', [], false) ∧ st.Returns st' left := by
  have replay : (st.arrive sc 0 e).2.2 = false := by
    obtain ⟨c, hc, back, same⟩ := Docket.mem_backs.1 (backs.mem_iff.2 (List.mem_cons_self ..))
    rw [arrive_replay_iff, List.countP_pos_iff]
    exact ⟨c, hc, by simp [Docket.Expects, back, same]⟩
  obtain ⟨before, c, later, split, expects, -, arrived⟩ := arrive_of_replay ordered replay
  obtain ⟨back, rfl⟩ : c.returned = true ∧ c.dispatch.event = e := by
    simpa [Docket.Expects] using expects
  refine ⟨_, arrived, ?_, ?_, rfl, ?_, ?_⟩
  · simp [gist, Journal.told, setBook, Entry.replay?]
  · change ((st.setBook 0 _).book 0).opened = _
    rw [book_setBook]
    simp [Book.opened, Docket.opened, split, back]
  · change ((st.setBook 0 _).book 0).docket.backs.Perm left
    rw [book_setBook]
    rw [Docket.backs, split, List.filterMap_append, List.filterMap_cons_some (b := c.dispatch.event)
      (by simp [Case.back, back])] at backs
    rw [Docket.backs, List.filterMap_append]
    exact (List.perm_middle.symm.trans backs).cons_inv
  · change ((st.setBook 0 _).book 0).docket.Ordered
    rw [book_setBook]
    rw [Docket.Ordered, split] at ordered
    exact ordered.sublist (by simp)

namespace Session

theorem deliverAll_backs {s : Session} (alive : s.scene.isAlive 0) {es : List KeyEvent}
    (backs : (s.state.book 0).docket.backs.Perm es) (ordered : (s.state.book 0).docket.Ordered) :
    ∃ st, s.deliverAll 0 es = ({ s with state := st }, es.map (·, some false)) ∧
      s.state.Returns st [] := by
  induction es generalizing s with
  | nil => exact ⟨s.state, rfl, rfl, rfl, rfl, backs, ordered⟩
  | cons e es ih =>
    obtain ⟨st₁, arrived, first⟩ := State.arrive_back s.scene backs ordered
    have delivered : s.deliver? 0 e = ({ s with state := st₁ }, some false) := by
      simp only [deliver?, alive, if_true, deliver, arrived, finish, run_nil]
    obtain ⟨st, rest, more⟩ := ih (s := { s with state := st₁ }) alive first.backs first.ordered
    refine ⟨st, ?_, first.trans more⟩
    simp only [deliverAll, delivered, rest, List.map_cons]

/-! ## Twin sessions -/

/-- Nothing but the events on their way back tells the sessions apart. -/
structure Twins (came : List (KeyEvent × Bool)) (s s' : Session) : Prop where
  scene : s.scene = s'.scene.inlined
  lone : s'.scene.Lone
  records : s.records = s'.records
  callbacks : s.callbacks = s'.callbacks
  state : Twin came s.state s'.state

/-- A call that leaves the same tasks in twin sessions, all for one event. -/
structure Alike (came : List (KeyEvent × Bool)) (p p' : Session × List Task) : Prop where
  twins : Twins came p.1 p'.1
  tasks : p.2 = p'.2
  own : ∃ id, ∀ t ∈ p'.2, t.For id

end Session

/-! ## Commands -/

/-- The responder to be added makes no call of its own. -/
def Session.ResponderSpec.Calm : ResponderSpec → Prop
  | .reenter _ => False
  | _ => True

/-- A call from outside, an answer, or a change of how the host answers. -/
def Session.Command.External : Command → Prop
  | .event .. | .sync .. | .takeRecords | .respond .. | .dropRecord _ | .takeCallback _
  | .endCallback .. | .endHeld .. | .layoutChange | .override .. | .setEmbedder _ | .setChannel _
  | .setFilter _ => True
  | _ => False

namespace Session

variable {came : List (KeyEvent × Bool)} {s s' : Session}

theorem Twins.idle (twins : Twins came s s') : Alike came (s, []) (s', []) :=
  ⟨twins, rfl, 0, nofun⟩

theorem Twins.close (twins : Twins came s s') (c : Completion) (how : Ending) :
    Alike came (s.close c how) (s'.close c how) := by
  have gives : ∀ call : State → Progress, State.Gives c.owner call →
      Alike came (s.start (call s.state)) (s'.start (call s'.state)) := by
    intro call gives
    obtain ⟨twin, tasks, answers⟩ := twins.state.gives gives
    refine ⟨⟨twins.scene, twins.lone, twins.records, twins.callbacks, twin⟩, tasks,
      (c.owner.map (·.id)).getD 0, fun t ht => ?_⟩
    obtain ⟨ticket, mine, answer, rfl⟩ := answers t ht
    simp [Task.For, Option.mem_def.1 mine]
  cases how with
  | answer claimed => exact gives _ (State.gives_complete claimed c)
  | drop => exact gives _ (State.gives_abandon c)

theorem Twins.withRecords (twins : Twins came s s') (records : List (Option CallRecord)) :
    Twins came { s with records } { s' with records } :=
  ⟨twins.scene, twins.lone, rfl, twins.callbacks, twins.state⟩

theorem Twins.withCallbacks (twins : Twins came s s') (callbacks : List (Option Completion)) :
    Twins came { s with callbacks } { s' with callbacks } :=
  ⟨twins.scene, twins.lone, twins.records, rfl, twins.state⟩

theorem Twins.takeCompletion (twins : Twins came s s') (slot : Nat) :
    ∃ o s₁ s₁', s.takeCompletion slot = (s₁, o) ∧ s'.takeCompletion slot = (s₁', o) ∧
      Twins came s₁ s₁' := by
  unfold Session.takeCompletion
  rw [twins.records]
  split
  · exact ⟨_, _, _, rfl, rfl, twins⟩
  · exact ⟨_, _, _, rfl, rfl, twins.withRecords _⟩

theorem Twins.rescene (twins : Twins came s s') (sc : Scene) (setups : sc.setups = s'.scene.setups)
    (queues : sc.redispatch = .queue) :
    Twins came { s with scene := sc.inlined } { s' with scene := sc } := by
  have setup : sc.setup 0 = s'.scene.setup 0 := by rw [Scene.setup, setups]; rfl
  refine ⟨rfl, ⟨?_, ?_, ?_, queues⟩, twins.records, twins.callbacks, twins.state⟩
  · rw [setups]
    exact twins.lone.one
  · rw [Scene.isAlive, setup]
    exact twins.lone.alive
  · rw [Scene.responders, setup]
    exact twins.lone.calm

theorem layoutChange_eq (one : s.scene.setups.length = 1) (alive : s.scene.isAlive 0) :
    s.layoutChange = { s with
      state := (s.state.setBook 0 (s.state.book 0).forgetLayout).note 0
        (.layoutChanged (s.state.book 0).known.length) } := by
  simp [layoutChange, one, alive]

theorem Twins.layoutChange (twins : Twins came s s') :
    Twins came s.layoutChange s'.layoutChange := by
  have one : s.scene.setups.length = 1 := by
    rw [twins.scene]
    exact twins.lone.one
  have alive : s.scene.isAlive 0 := by
    rw [twins.scene]
    exact twins.lone.alive
  rw [layoutChange_eq one alive, layoutChange_eq twins.lone.one twins.lone.alive]
  refine ⟨twins.scene, twins.lone, twins.records, twins.callbacks, ?_⟩
  rw [twins.state.book]
  exact (twins.state.setBook (b := (s'.state.book 0).forgetLayout) (.refl _)).note 0 _

theorem Twins.launch (twins : Twins came s s') {c : Command} (external : c.External)
    (noEvent : ∀ a e, c ≠ .event a e) (noSync : ∀ a modifiers time, c ≠ .sync a modifiers time) :
    Alike came (s.launch c) (s'.launch c) := by
  cases c with
  | event a e => exact absurd rfl (noEvent a e)
  | sync a modifiers time => exact absurd rfl (noSync a modifiers time)
  | respond slot claimed =>
    obtain ⟨o, s₁, s₁', taken, taken', after⟩ := twins.takeCompletion slot
    simp only [Session.launch, taken, taken']
    rcases o with _ | _ | c
    · exact after.idle
    · exact after.idle
    · exact after.close c _
  | takeCallback slot =>
    obtain ⟨o, s₁, s₁', taken, taken', after⟩ := twins.takeCompletion slot
    simp only [Session.launch, Session.perform, taken, taken']
    rcases o with _ | _ | c
    · exact after.idle
    · exact after.idle
    · simp only [after.callbacks]
      exact (after.withCallbacks _).idle
  | dropRecord slot =>
    simp only [Session.launch, takeSlot, twins.records]
    rcases s'.records.getD slot none with _ | ⟨call, _ | c⟩
    · exact twins.idle
    · exact (twins.withRecords _).idle
    · exact (twins.withRecords _).close c .drop
  | endCallback slot how =>
    simp only [Session.launch, takeSlot, twins.callbacks]
    rcases s'.callbacks.getD slot none with _ | c
    · exact twins.idle
    · exact (twins.withCallbacks _).close c how
  | endHeld slot how =>
    have held : s.state.held = s'.state.held := (congrArg State.held twins.state.gist :)
    simp only [Session.launch, takeSlot, held]
    rcases s'.state.held.getD slot none with _ | t
    · exact twins.idle
    · have twin := twins.state.change (fun st => { st with held := s'.state.held.set slot none })
        (fun _ => rfl) fun _ => ⟨rfl, rfl, rfl⟩
      have after : Twins came
          { s with state := { s.state with held := s'.state.held.set slot none } }
          { s' with state := { s'.state with held := s'.state.held.set slot none } } :=
        ⟨twins.scene, twins.lone, twins.records, twins.callbacks, twin⟩
      cases how <;> exact ⟨after, rfl, t.id, by simp [closeHeld, Task.For]⟩
  | takeRecords =>
    have taken : s.state.records = s'.state.records := (congrArg State.records twins.state.gist :)
    have twin := twins.state.change (fun st => { st with records := [] })
      (fun _ => rfl) fun _ => ⟨rfl, rfl, rfl⟩
    refine Twins.idle ⟨twins.scene, twins.lone, ?_, twins.callbacks, twin⟩
    simp only [Session.perform, twins.records, taken]
  | layoutChange => exact twins.layoutChange.idle
  | setEmbedder mode =>
    simp only [Session.launch, Session.perform, twins.scene]
    exact (twins.rescene { s'.scene with embedder := mode } rfl twins.lone.queues).idle
  | setChannel mode =>
    simp only [Session.launch, Session.perform, twins.scene]
    exact (twins.rescene { s'.scene with channel := mode } rfl twins.lone.queues).idle
  | setFilter claimed =>
    simp only [Session.launch, Session.perform, twins.scene]
    exact (twins.rescene { s'.scene with filter := claimed } rfl twins.lone.queues).idle
  | override q key =>
    simp only [Session.launch, Session.perform, twins.scene]
    exact (twins.rescene { s'.scene with overrides := s'.scene.overrides.set q key } rfl
      twins.lone.queues).idle
  | _ => exact external.elim

/-! ## A command and what waits after it -/

/-- What waits is delivered after each command. -/
def looped (cs : List Command) : List Command := cs.flatMap fun c => [c, .loop 0 false]

def Result.back : Result → List (KeyEvent × Option Bool)
  | .fed es => es
  | _ => []

/-- The events that commands deliver from what waited, and whether they were fresh. -/
def backs (s : Session) : List Command → List (KeyEvent × Option Bool)
  | [] => []
  | c :: cs => (s.perform c).2.back ++ (s.perform c).1.backs cs

theorem Twins.feed (twins : Twins came s s') {es : List KeyEvent} (distinct : es.Nodup) 
    (settled : s'.state.queue = [])
    (sound : Sound (s'.scene.setup 0) (s'.state.desk 0 (s'.duties 0))) :
    Twins came (s.finish (s.state, [.feed 0 es])) (s'.finish (s'.state, [.feed 0 es])) := by
  have backs := twins.state.backs
  rw [settled] at backs
  have fresh : ∀ e ∈ es, e ∉ (s'.state.book 0).docket.backs := by simp [backs.eq_nil]
  have fed := twins.state.feed twins.lone fresh distinct sound
  refine ⟨twins.scene, twins.lone, twins.records, twins.callbacks, ?_⟩
  simp only [finish, twins.scene]
  exact fed

theorem Alike.settleAll {p p' : Session × List Task} (alike : Alike came p p')
    (sound : Sound (p'.1.scene.setup 0) (p'.1.state.desk 0 (taskDuties 0 p'.2 + p'.1.duties 0))) :
    Twins came (settleAll p) (settleAll p') := by
  obtain ⟨twins, tasks, id, own⟩ := alike
  refine ⟨twins.scene, twins.lone, twins.records, twins.callbacks, ?_⟩
  simp only [Session.settleAll, finish, tasks, twins.scene]
  exact (twins.state.runs twins.lone own sound).1

theorem sound_after (cs : List Command) {a : ArbiterId} (alive : (after cs).scene.isAlive a) :
    Sound ((after cs).scene.setup a) ((after cs).state.desk a ((after cs).duties a)) := by
  obtain ⟨moves, there⟩ := Moment.exists_after cs
  have sound := Moment.sound (a := a) moves (by rw [there]; exact alive)
  rw [there, Moment.desk, taskDuties_nil, zero_add] at sound
  exact sound

theorem sound_launch (cs : List Command) (c : Command) {a : ArbiterId}
    (alive : ((after cs).launch c).1.scene.isAlive a) :
    let p := (after cs).launch c
    Sound (p.1.scene.setup a) (p.1.state.desk a (taskDuties a p.2 + p.1.duties a)) := by
  obtain ⟨moves, there⟩ := Moment.exists_after cs
  have launched : Moment.after (moves ++ [.command c]) =
      ⟨((after cs).launch c).1, ((after cs).launch c).2⟩ := by
    rw [Moment.after_concat, there]
    simp only [Moment.next, List.append_nil]
  have sound := Moment.sound (a := a) (moves ++ [.command c]) (by rw [launched]; exact alive)
  rw [launched] at sound
  exact sound

theorem perform_event (s : Session) (a : ArbiterId) (e : KeyEvent) :
    (s.perform (.event a e)).1 =
      if s.scene.isAlive a then s.finish (s.state, [.feed a [e]]) else s :=
  fst_deliverAll s a [e]

theorem Twins.sync (twins : Twins came s s') (modifiers : Modifiers) (time : UInt32) :
    Twins came { s with state := (s.state.sync 0 modifiers time).1 }
      { s' with state := (s'.state.sync 0 modifiers time).1 } := by
  refine ⟨twins.scene, twins.lone, twins.records, twins.callbacks, ?_⟩
  simp only [State.sync, twins.state.heldKeys]
  split
  · exact twins.state
  · exact twins.state.note 0 _

theorem Twins.perform (twins : Twins came s s') {c : Command} (external : c.External)
    (settled : s'.state.queue = []) {cs : List Command} (reached : after cs = s') :
    Twins came (s.perform c).1 (s'.perform c).1 := by
  subst reached
  have sound := sound_after cs twins.lone.alive
  have alive (a : ArbiterId) : s.scene.isAlive a = (after cs).scene.isAlive a := by
    rw [twins.scene]
    rfl
  cases c with
  | event a e =>
    rw [perform_event, perform_event, alive]
    split
    · next here =>
      obtain rfl := twins.lone.eq_zero here
      exact twins.feed (List.nodup_singleton e) settled sound
    · exact twins
  | sync a modifiers time =>
    by_cases here : (after cs).scene.isAlive a
    · obtain rfl := twins.lone.eq_zero here
      have launched : (after cs).launch (.sync 0 modifiers time) =
          (after cs).start ((after cs).state.sync 0 modifiers time) := if_pos here
      have sound' := sound_launch cs (.sync 0 modifiers time) (a := 0) (by rw [launched]; exact here)
      rw [launched] at sound'
      rw [perform_sync s (by rw [alive]; exact here), perform_sync _ here, twins.state.heldKeys]
      refine (twins.sync modifiers time).feed (Modifiers.nodup_plan _ _ _) ?_ ?_
      · simp only [State.sync]
        split <;> exact settled
      · simpa [start, State.sync, Task.duties] using sound'
    · have here' : ¬ s.scene.isAlive a := by rw [alive]; exact here
      simp only [Session.perform, here, here']
      exact twins
  | _ =>
    have launched := twins.launch external (by simp) (by simp)
    rw [fst_perform, fst_perform]
    exact launched.settleAll (sound_launch cs _ launched.twins.lone.alive)

theorem back_perform (s : Session) {c : Command} (external : c.External) :
    (s.perform c).2.back = [] := by
  cases c with
  | event a e =>
    simp only [perform]
    rcases s.deliver? a e with ⟨_, _ | _⟩ <;> rfl
  | respond | dropRecord | takeCallback | endCallback | endHeld =>
    simp only [perform]
    split <;> rfl
  | sync | takeRecords | layoutChange | override | setEmbedder | setChannel | setFilter => rfl
  | _ => exact external.elim

theorem Twins.loop (twins : Twins came s s') (ordered : (s'.state.book 0).docket.Ordered) :
    Twins (came ++ s'.state.queue.map (·, false)) s (s'.perform (.loop 0 false)).1 ∧
      (s'.perform (.loop 0 false)).1.state.queue = [] ∧
      (s'.perform (.loop 0 false)).2.back = s'.state.queue.map (·, some false) := by
  obtain ⟨st, delivered, returns⟩ := deliverAll_backs
    (s := { s' with state := { s'.state with queue := [] } }) twins.lone.alive twins.state.backs
    ordered
  have performed : s'.perform (.loop 0 false) =
      ({ s' with state := st }, .fed (s'.state.queue.map (·, some false))) := by
    simp only [Session.perform, Bool.false_eq_true, if_false, delivered]
  have taken : st.queue = [] := returns.queue
  rw [performed]
  refine ⟨⟨twins.scene, twins.lone, twins.records, twins.callbacks, ?_⟩, taken, rfl⟩
  refine ⟨twins.state.gist.trans returns.gist.symm, twins.state.book.trans returns.book.symm,
    twins.state.queue, ?_, ?_⟩
  · simp only [taken, List.map_nil, List.append_nil]
    exact twins.state.replays
  · rw [taken]
    exact returns.backs

theorem Twins.steps (twins : Twins came s s') (settled : s'.state.queue = []) {before : List Command}
    (reached : after before = s') {steps : List Command} (external : ∀ c ∈ steps, c.External) :
    ∃ more, Twins (came ++ more) (s.performAll steps) (s'.performAll (looped steps)) ∧
      (s'.performAll (looped steps)).state.queue = [] ∧
      s'.backs (looped steps) = more.map (fun p => (p.1, some p.2)) ∧ ∀ p ∈ more, p.2 = false := by
  induction steps generalizing came s s' before with
  | nil => exact ⟨[], by rw [List.append_nil]; exact twins, settled, rfl, nofun⟩
  | cons c steps ih =>
    have performed := twins.perform (external c (List.mem_cons_self ..)) settled reached
    have reached₁ : after (before ++ [c]) = (s'.perform c).1 := by
      rw [after, List.foldl_append, ← reached]
      rfl
    have sound := sound_after (before ++ [c]) (a := 0) (by rw [reached₁]; exact performed.lone.alive)
    rw [reached₁] at sound
    obtain ⟨next, settled', back⟩ := performed.loop sound.ordered
    have reached₂ : after (before ++ [c, .loop 0 false]) =
        ((s'.perform c).1.perform (.loop 0 false)).1 := by
      rw [after, List.foldl_append, ← reached]
      rfl
    obtain ⟨more, rest, settled'', backs, negative⟩ :=
      ih next settled' reached₂ fun c hc => external c (List.mem_cons_of_mem _ hc)
    have quiet := s'.back_perform (external c (List.mem_cons_self ..))
    refine ⟨(s'.perform c).1.state.queue.map (·, false) ++ more, ?_, settled'', ?_, ?_⟩
    · rw [← List.append_assoc]
      exact rest
    · change (s'.perform c).2.back ++ (((s'.perform c).1.perform (.loop 0 false)).2.back ++
        ((s'.perform c).1.perform (.loop 0 false)).1.backs (looped steps)) = _
      rw [quiet, back, backs, List.map_append, List.map_map]
      rfl
    · intro p hp
      rcases List.mem_append.1 hp with hp | hp
      · obtain ⟨e, -, rfl⟩ := List.mem_map.1 hp
        rfl
      · exact negative p hp

/-! ## Freshly built -/

theorem addResponders_calm (s : Session) {extra : List ResponderSpec} (calm : ∀ r ∈ extra, r.Calm) :
    ∃ rs, s.addResponders extra = (s, rs) ∧ ∀ r ∈ rs, r.Calm := by
  induction extra with
  | nil => exact ⟨[], rfl, nofun⟩
  | cons spec extra ih =>
    obtain ⟨rs, added, all⟩ := ih fun r hr => calm r (List.mem_cons_of_mem _ hr)
    obtain ⟨r, one, here⟩ : ∃ r, s.addResponder spec = (s, r) ∧ r.Calm := by
      have first := calm spec (List.mem_cons_self ..)
      cases spec with
      | reenter => exact first.elim
      | _ => exact ⟨_, rfl, trivial⟩
    refine ⟨r :: rs, ?_, List.forall_mem_cons.2 ⟨here, all⟩⟩
    simp only [addResponders, one, added]

theorem calm_responders {setup : Setup} (calm : ∀ r ∈ setup.extra, r.Calm) :
    ∀ r ∈ setup.responders, r.Calm := by
  intro r hr
  rcases List.mem_append.1 hr with hr | hr
  · rcases List.mem_append.1 hr with hr | hr
    · split at hr
      · obtain rfl := List.mem_singleton.1 hr
        trivial
      · exact absurd hr List.not_mem_nil
    · split at hr
      · obtain rfl := List.mem_singleton.1 hr
        trivial
      · exact absurd hr List.not_mem_nil
  · exact calm r hr

/-- What is handed back comes back at once: it is delivered to the arbiter as it is. -/
def inlined (budget : Nat) : Command := .setRedispatch (.inline ⟨⟨0, [.replay]⟩, budget⟩)

theorem twins_built (settings : Settings) (scripted : Bool) {extra : List ResponderSpec}
    (calm : ∀ r ∈ extra, r.Calm) (budget : Nat) :
    Twins [] (after [.build settings scripted extra, inlined budget])
        (after [.build settings scripted extra]) ∧
      (after [.build settings scripted extra]).state.queue = [] := by
  obtain ⟨rs, added, all⟩ := addResponders_calm {} calm
  have built : (({} : Session).perform (.build settings scripted extra)).1 =
      (({} : Session).build settings scripted extra).1 := rfl
  simp only [after, List.foldl_cons, List.foldl_nil, built, build, added]
  refine ⟨⟨rfl, ⟨rfl, rfl, ?_, rfl⟩, rfl, rfl, ⟨rfl, rfl, rfl, rfl, List.Perm.nil⟩⟩, rfl⟩
  exact calm_responders all

/-- Two hosts: one delivers what is handed back at once, and one after each step. The arbiter makes
the same dispatches and the same calls in the same order with both, takes the same events for
replays, and after all steps the same keys are held, the same answers are open, and no replay is
expected any more. So it is after each step, as the steps up to it are steps as well. -/
theorem comebacks_agree (settings : Settings) (scripted : Bool) {extra : List ResponderSpec}
    (calm : ∀ r ∈ extra, r.Calm) (budget : Nat) {steps : List Command}
    (external : ∀ c ∈ steps, c.External) :
    let build := Command.build settings scripted extra
    let nested := after (build :: inlined budget :: steps)
    let queued := after (build :: looped steps)
    let x := nested.state
    let y := queued.state
    (x.journal.told = y.journal.told ∧ x.sent = y.sent ∧ x.filterCalls = y.filterCalls ∧
      x.records = y.records ∧ nested.records = queued.records ∧
      nested.callbacks = queued.callbacks ∧ x.seen = y.seen ∧ x.held = y.held) ∧
    (({} : Session).backs (build :: looped steps) = x.inlineReplays.map (fun p => (p.1, some p.2)) ∧
      ∀ p ∈ x.inlineReplays, p.2 = false) ∧
    (y.book 0).held = (x.book 0).held ∧
      (y.book 0).docket.awaiting = (x.book 0).docket.awaiting ∧
      (x.book 0).docket.returned = 0 ∧ (y.book 0).docket.returned = 0 ∧ y.queue = [] := by
  obtain ⟨start, nothing⟩ := twins_built settings scripted calm budget
  obtain ⟨more, twins, settled, backs, negative⟩ := start.steps nothing rfl external
  intro build nested queued x y
  have twin : Twin more x y := twins.state
  have settled : y.queue = [] := settled
  have replays : x.inlineReplays = more := by
    rw [twin.replays, settled, List.map_nil, List.append_nil]
  have none : (y.book 0).docket.backs = [] := by
    have perm := twin.backs
    rw [settled] at perm
    exact perm.eq_nil
  have same : x.book 0 = y.book 0 := by
    rw [twin.book, Book.opened, Docket.opened_of_backs none]
  have returned : (y.book 0).docket.returned = 0 := by
    rw [Docket.returned_eq_length_backs, none]
    rfl
  refine ⟨⟨(congrArg State.journal twin.gist :), (congrArg State.sent twin.gist :),
    (congrArg State.filterCalls twin.gist :), (congrArg State.records twin.gist :), twins.records,
    twins.callbacks, (congrArg State.seen twin.gist :), (congrArg State.held twin.gist :)⟩, ?_, ?_⟩
  · rw [replays]
    exact ⟨backs, negative⟩
  · rw [same]
    exact ⟨rfl, rfl, returned, returned, settled⟩

/-- A press that is held and dropped, the keys synchronized, and a second press. -/
def someSteps : List Command :=
  [.event 0 Moment.aPress, .endHeld 0 .drop, .sync 0 .control 5, .endHeld 1 (.answer false),
    .setFilter true, .event 0 { Moment.aPress with time := 9 }]

theorem comebacks_agree_someSteps :
    (∀ r ∈ [ResponderSpec.hold], r.Calm) ∧ (∀ c ∈ someSteps, c.External) ∧
      (after (.build {} false [.hold] :: inlined 1 :: someSteps)).state.journal.told =
        (after (.build {} false [.hold] :: looped someSteps)).state.journal.told := by
  have calm : ∀ r ∈ [ResponderSpec.hold], r.Calm := by simp [ResponderSpec.Calm]
  have external : ∀ c ∈ someSteps, c.External := by simp [someSteps, Command.External]
  exact ⟨calm, external, (comebacks_agree {} false calm 1 external).1.1⟩

end Session

end KeyArbiter
