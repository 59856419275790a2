import KeyArbiter.Session.Run
import Mathlib

/-!
# Moments

A session in the midst of its calls. A move does the innermost task, or carries out a command right
then: whoever is called back may make any call before it returns. Every session that commands lead
to is the session of some moment with no task left (`exists_after`).
-/

namespace KeyArbiter

open Session (Command)

namespace Session

/-! ## Commands in two parts -/

def start (s : Session) (p : Progress) : Session × List Task := ({ s with state := p.1 }, p.2)

def meet (s : Session) (a : ArbiterId) (e : KeyEvent) : Session × List Task :=
  if s.scene.isAlive a then
    let (st, tasks, _) := s.state.arrive s.scene a e
    s.start (st, tasks)
  else (s, [])

def close (s : Session) (c : Completion) : Ending → Session × List Task
  | .answer claimed => s.start (s.state.complete claimed c)
  | .drop => s.start (s.state.abandon c)

def closeHeld (s : Session) (t : Ticket) : Ending → Session × List Task
  | .answer claimed => (s, [.deliver t (.answered claimed)])
  | .drop => (s, [.deliver t .dropped])

/-- What a command does at once, and the tasks that it leaves. -/
def launch (s : Session) : Command → Session × List Task
  | .event a e => s.meet a e
  | .sync a modifiers time =>
    if s.scene.isAlive a then s.start (s.state.sync a modifiers time) else (s, [])
  | .respond slot claimed =>
    match s.takeCompletion slot with
    | (s, some (some c)) => s.close c (.answer claimed)
    | (s, _) => (s, [])
  | .dropRecord slot =>
    match takeSlot s.records slot with
    | (_, none) => (s, [])
    | (records, some r) =>
      let s := { s with records }
      match r.completion with
      | some c => s.close c .drop
      | none => (s, [])
  | .endCallback slot how =>
    match takeSlot s.callbacks slot with
    | (_, none) => (s, [])
    | (callbacks, some c) => { s with callbacks }.close c how
  | .endHeld slot how =>
    match takeSlot s.state.held slot with
    | (_, none) => (s, [])
    | (held, some t) => { s with state := { s.state with held } }.closeHeld t how
  | .feed a slot =>
    match s.pool[slot]? with
    | none => (s, [])
    | some e => s.meet a e
  | .loop a reversed =>
    let queue := s.state.queue
    let s := { s with state := { s.state with queue := [] } }
    (s, if s.scene.isAlive a then [.feed a (if reversed then queue.reverse else queue)] else [])
  | .hostSend e => s.start (s.state.sendToRuntime s.scene e none)
  | .channelSend channel data => s.start (s.state.sendOnChannel s.scene channel data none)
  | .hostRedispatch e =>
    let (st, tasks, _) := s.state.redispatch s.scene e
    s.start (st, tasks)
  -- The others call nobody.
  | c => ((s.perform c).1, [])

/-! ## Both parts together -/

def settleAll (p : Session × List Task) : Session := p.1.finish (p.1.state, p.2)

theorem run_nil (sc : Scene) (st : State) : run sc st [] = st := by
  rw [run]

theorem run_append (sc : Scene) (st : State) (tasks more : List Task) :
    run sc st (tasks ++ more) = run sc (run sc st tasks) more := by
  fun_induction run sc st tasks with
  | case1 st => rfl
  | case2 st t rest ih =>
    rw [List.cons_append, run, ← List.append_assoc]
    exact ih

@[simp] theorem settleAll_nil (s : Session) : settleAll (s, []) = s := by
  unfold settleAll finish
  rw [run_nil]

theorem settleAll_close (s : Session) (c : Completion) (how : Ending) :
    settleAll (s.close c how) = s.conclude c how := by
  cases how <;> rfl

theorem settleAll_meet (s : Session) (a : ArbiterId) (e : KeyEvent) :
    settleAll (s.meet a e) = (s.deliver? a e).1 := by
  unfold meet deliver?
  split
  · rfl
  · exact settleAll_nil s

theorem run_feed_cons (sc : Scene) (st : State) (a : ArbiterId) (e : KeyEvent)
    (es : List KeyEvent) :
    run sc st [.feed a (e :: es)] =
      run sc (run sc (st.arrive sc a e).1 (st.arrive sc a e).2.1) [.feed a es] := by
  rw [run, ← run_append]
  simp only [State.step, State.andThen, List.append_nil]

theorem fst_deliverAll (s : Session) (a : ArbiterId) (es : List KeyEvent) :
    (s.deliverAll a es).1 =
      if s.scene.isAlive a then s.finish (s.state, [.feed a es]) else s := by
  induction es generalizing s with
  | nil =>
    simp only [deliverAll, finish, run, State.step, List.nil_append, ite_self]
  | cons e es ih =>
    simp only [deliverAll, deliver?]
    by_cases alive : s.scene.isAlive a
    · simp only [alive, if_true]
      rw [ih]
      simp only [deliver, finish, alive, if_true, run_feed_cons]
    · simp only [alive, Bool.false_eq_true, if_false]
      rw [ih]
      simp only [alive, Bool.false_eq_true, if_false]

theorem fst_perform (s : Session) (c : Command) : (s.perform c).1 = settleAll (s.launch c) := by
  cases c with
  | event a e => exact (settleAll_meet s a e).symm
  | feed a slot =>
    simp only [perform, launch]
    cases s.pool[slot]? with
    | none => exact (settleAll_nil s).symm
    | some e => exact (settleAll_meet s a e).symm
  | sync a modifiers time =>
    simp only [perform, launch]
    split
    · rfl
    · exact (settleAll_nil s).symm
  | respond slot claimed =>
    simp only [perform, launch]
    rcases s.takeCompletion slot with ⟨s', _ | _ | c⟩
    · exact (settleAll_nil s').symm
    · exact (settleAll_nil s').symm
    · exact (settleAll_close s' c (.answer claimed)).symm
  | dropRecord slot =>
    simp only [perform, launch]
    rcases takeSlot s.records slot with ⟨records, _ | r⟩
    · exact (settleAll_nil s).symm
    · simp only
      cases r.completion with
      | none => exact (settleAll_nil _).symm
      | some c => exact (settleAll_close _ c .drop).symm
  | endCallback slot how =>
    simp only [perform, launch]
    rcases takeSlot s.callbacks slot with ⟨callbacks, _ | c⟩
    · exact (settleAll_nil s).symm
    · exact (settleAll_close _ c how).symm
  | endHeld slot how =>
    simp only [perform, launch]
    rcases takeSlot s.state.held slot with ⟨held, _ | t⟩
    · exact (settleAll_nil s).symm
    · cases how <;> rfl
  | loop a reversed =>
    simp only [perform, launch, fst_deliverAll]
    by_cases alive : s.scene.isAlive a
    · simp only [alive, if_true]
      rfl
    · simp only [alive, Bool.false_eq_true, if_false, settleAll_nil]
  | hostSend e => rfl
  | channelSend channel data => rfl
  | hostRedispatch e => rfl
  | _ => exact (settleAll_nil _).symm

def performAll (s : Session) (cs : List Command) : Session :=
  cs.foldl (fun s c => (s.perform c).1) s

def after (cs : List Command) : Session := cs.foldl (fun s c => (s.perform c).1) {}

end Session

/-! ## Moments and moves -/

structure Moment where
  session : Session := {}
  /-- The calls in progress, the innermost first. -/
  tasks : List Task := []

inductive Move
  /-- The innermost task is done. -/
  | go
  /-- A command is carried out, perhaps in the midst of a call. -/
  | command (c : Command)

namespace Moment

def state (m : Moment) : State := m.session.state

def scene (m : Moment) : Scene := m.session.scene

def book (m : Moment) (a : ArbiterId) : Book := m.state.book a

def next (m : Moment) : Move → Moment
  | .go =>
    match m.tasks with
    | [] => m
    | t :: rest =>
      let (st, tasks) := m.state.step m.scene t
      ⟨{ m.session with state := st }, tasks ++ rest⟩
  | .command c =>
    let (s, tasks) := m.session.launch c
    ⟨s, tasks ++ m.tasks⟩

/-- The moment that moves lead to, from a host without arbiters. -/
def after (moves : List Move) : Moment := moves.foldl next {}

theorem after_append (moves more : List Move) :
    after (moves ++ more) = more.foldl next (after moves) :=
  List.foldl_append

@[simp] theorem after_nil : after [] = {} := rfl

theorem after_concat (moves : List Move) (move : Move) :
    after (moves ++ [move]) = (after moves).next move := by
  rw [after_append]
  rfl

/-! ## Sessions are moments -/

theorem exists_run (s : Session) (tasks : List Task) :
    ∃ n, (List.replicate n Move.go).foldl next ⟨s, tasks⟩ = ⟨s.finish (s.state, tasks), []⟩ := by
  obtain ⟨sc, st, records, callbacks, pool⟩ := s
  simp only [Session.finish]
  fun_induction run sc st tasks with
  | case1 st => exact ⟨0, rfl⟩
  | case2 st t rest ih =>
    obtain ⟨n, h⟩ := ih
    exact ⟨n + 1, h⟩

theorem exists_concat {moves : List Move} {cs : List Command}
    (here : after moves = ⟨Session.after cs, []⟩) (c : Command) :
    ∃ n, after (moves ++ .command c :: List.replicate n .go) = ⟨Session.after (cs ++ [c]), []⟩ := by
  obtain ⟨n, run⟩ := exists_run ((Session.after cs).launch c).1 ((Session.after cs).launch c).2
  refine ⟨n, ?_⟩
  rw [after_append, here]
  simp only [List.foldl_cons, next, List.append_nil]
  rw [run]
  simp only [Session.after, List.foldl_append, List.foldl_cons, List.foldl_nil]
  rw [Session.fst_perform]
  rfl

theorem exists_after (cs : List Command) :
    ∃ moves, after moves = ⟨Session.after cs, []⟩ := by
  induction cs using List.reverseRecOn with
  | nil => exact ⟨[], rfl⟩
  | append_singleton cs c ih =>
    obtain ⟨moves, here⟩ := ih
    obtain ⟨n, there⟩ := exists_concat here c
    exact ⟨_, there⟩

/-! ## Runs by moves -/

def settled (m : Moment) : Session := m.session.finish (m.state, m.tasks)

theorem settled_of_idle {m : Moment} (idle : m.tasks = []) : m.settled = m.session := by
  unfold settled Session.finish
  rw [idle, Session.run_nil]
  rfl

theorem settled_goes (m : Moment) (n : Nat) :
    ((List.replicate n Move.go).foldl next m).settled = m.settled := by
  induction n generalizing m with
  | zero => rfl
  | succ n ih =>
    rw [List.replicate_succ, List.foldl_cons, ih]
    obtain ⟨s, tasks⟩ := m
    cases tasks with
    | nil => rfl
    | cons t rest =>
      simp only [settled, Session.finish]
      rw [run.eq_2]
      rfl

/-- A command that is carried out between two calls, step by step. -/
theorem perform_of_idle {moves : List Move} (idle : (after moves).tasks = []) (c : Command) (n : Nat)
    (done : (after (moves ++ .command c :: List.replicate n .go)).tasks = []) :
    ((after moves).session.perform c).1 =
      (after (moves ++ .command c :: List.replicate n .go)).session := by
  have launched : (after moves).next (.command c) =
      ⟨((after moves).session.launch c).1, ((after moves).session.launch c).2⟩ := by
    simp only [next, idle, List.append_nil]
  rw [Session.fst_perform, ← settled_of_idle done, after_append, List.foldl_cons, settled_goes,
    launched]
  rfl

end Moment

end KeyArbiter
