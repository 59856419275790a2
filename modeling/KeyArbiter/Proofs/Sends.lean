import KeyArbiter.Proofs.Scenery
import KeyArbiter.Proofs.Strokes
import Mathlib

/-!
# What the runtime is sent

The embedder is the first responder of an arbiter, and no other event of the arbiter is taken in
between the dispatch of an event and its first offer. So the runtime hears of the dispatches in their
order, whoever delivers other events in the midst of a call and whenever answers come in: it sees
well-formed strokes of every key.
-/

namespace KeyArbiter

open Session (Command)

/-! ## What is told of the runtime -/

def Entry.sent? : Entry → Option (Nat × RuntimeEvent)
  | .sentToRuntime id e => some (id, e)
  | _ => none

/-- The events that the runtime was sent for an arbiter, the first one first. -/
def sendsOf (past : List Entry) : List (Nat × RuntimeEvent) :=
  (past.filterMap Entry.sent?).reverse

/-- What the runtime is sent for dispatches. It does not hear of orphan releases. -/
def heard (ds : List Dispatch) : List (Nat × RuntimeEvent) :=
  (ds.filter (!·.orphan)).map fun d => (d.id, d.runtimeEvent)

theorem heard_concat (ds : List Dispatch) (d : Dispatch) :
    heard (ds ++ [d]) = heard ds ++ if d.orphan then [] else [(d.id, d.runtimeEvent)] := by
  cases orphan : d.orphan <;> simp [heard, orphan]

theorem mem_heard {ds : List Dispatch} {s : Nat × RuntimeEvent} :
    s ∈ heard ds ↔ ∃ d ∈ ds, d.orphan = false ∧ s = (d.id, d.runtimeEvent) := by
  simp only [heard, List.mem_map, List.mem_filter, Bool.not_eq_true', and_assoc, eq_comm (a := s)]

theorem ids_heard (ds : List Dispatch) :
    (heard ds).map Prod.fst = (ds.filter (!·.orphan)).map (·.id) := by
  simp [heard]

theorem word_heard (key : PhysicalKey) (ds : List Dispatch) :
    ((heard ds).filter (·.2.physical = key)).map (fun s => (s.2.transition, s.2.logical)) =
      wordOf key ds := by
  simp [heard, wordOf, List.filter_map, Function.comp_def, Dispatch.runtimeEvent, Bool.decide_and,
    List.filter_filter]

abbrev Told := List Dispatch × List (Nat × RuntimeEvent)

def Entry.Mute (x : Entry) : Prop := x.dispatch? = none ∧ x.sent? = none

theorem Entry.sent?_of_idle {x : Entry} (idle : x.event? = none) : x.sent? = none := by
  cases x with
  | sentToRuntime => cases idle
  | _ => rfl

namespace State

def told (st : State) (a : ArbiterId) : Told :=
  (dispatchesOf (st.journal.about a), sendsOf (st.journal.about a))

variable (st : State) {a b : ArbiterId}

theorem told_note_of_ne (ne : b ≠ a) (x : Entry) : (st.note b x).told a = st.told a := by
  unfold told note
  rw [Journal.about_cons, if_neg ne]

theorem told_note {x : Entry} (mute : x.Mute) : (st.note b x).told a = st.told a := by
  by_cases own : b = a
  · unfold told note
    rw [Journal.about_cons, if_pos own]
    simp [dispatchesOf, sendsOf, mute.1, mute.2]
  · exact told_note_of_ne st own x

theorem told_dispatched (d : Dispatch) (n : Nat) :
    (st.note a (.dispatched d n)).told a = ((st.told a).1 ++ [d], (st.told a).2) := by
  unfold told note
  rw [Journal.about_cons, if_pos rfl, dispatchesOf_dispatched]
  rfl

theorem told_sentToRuntime (id : Nat) (e : RuntimeEvent) :
    (st.note a (.sentToRuntime id e)).told a = ((st.told a).1, (st.told a).2 ++ [(id, e)]) := by
  unfold told note
  rw [Journal.about_cons, if_pos rfl]
  exact Prod.ext rfl (by simp [sendsOf, Entry.sent?])

end State

/-! ## Calls -/

/-- The task does not offer an event of this arbiter to the embedder. -/
def Task.Sober (a : ArbiterId) : Task → Prop
  | .offer b _ rs => b = a → .embedder ∉ rs
  | _ => True

def Scene.firstTask (sc : Scene) (a : ArbiterId) (d : Dispatch) : Task :=
  if (sc.responders a).isEmpty then .settle a d false else .offer a d (sc.responders a)

/-- All that a call can lead to before others are called: it does not concern the runtime, or an
event is taken in, and is offered before all else is done. -/
inductive Intake (sc : Scene) (a : ArbiterId) (told : Told) (p : Progress) : Prop
  | nothing (same : p.1.told a = told) (sober : ∀ t ∈ p.2, t.Sober a)
  | fresh {d : Dispatch} {rest : List Task} (next : p.1.told a = (told.1 ++ [d], told.2))
    (tasks : p.2 = sc.firstTask a d :: rest) (sober : ∀ t ∈ rest, t.Sober a)

namespace Intake

variable {sc : Scene} {a : ArbiterId} {told : Told} {p : Progress}

theorem still {st : State} (same : st.told a = told) : Intake sc a told (st, []) :=
  .nothing same (List.forall_mem_nil _)

theorem append (h : Intake sc a told p) {tasks : List Task} (sober : ∀ t ∈ tasks, t.Sober a) :
    Intake sc a told (p.1, p.2 ++ tasks) := by
  cases h with
  | nothing same before => exact .nothing same (List.forall_mem_append.2 ⟨before, sober⟩)
  | fresh next eq before =>
    exact .fresh next (by rw [eq]; rfl) (List.forall_mem_append.2 ⟨before, sober⟩)

end Intake

namespace State

variable (sc : Scene) (st : State) {a : ArbiterId}

theorem sober_deliver (t : Ticket) (answer : Delivery) :
    ∀ task ∈ [Task.deliver t answer], task.Sober a := by
  simp [Task.Sober]

theorem sober_feed (b : ArbiterId) (events : List KeyEvent) :
    ∀ task ∈ [Task.feed b events], task.Sober a := by
  simp [Task.Sober]

theorem intake_giveVerdict (claimed : Bool) (owner : Option Ticket) :
    Intake sc a (st.told a) (st.giveVerdict claimed owner) := by
  cases owner with
  | none => exact .still rfl
  | some t => exact .nothing rfl (sober_deliver t _)

theorem intake_giveReply (channel : String) (reply : Except TransportError (List UInt8))
    (owner : Option Ticket) : Intake sc a (st.told a) (st.giveReply channel reply owner) := by
  cases owner with
  | none => exact .still rfl
  | some t =>
    simp only [giveReply]
    split
    · exact .nothing rfl (sober_deliver t _)
    · exact .nothing (told_note st ⟨rfl, rfl⟩) (sober_deliver t _)

theorem intake_complete (claimed : Bool) (c : Completion) :
    Intake sc a (st.told a) (st.complete claimed c) := by
  cases c with
  | verdict owner => exact intake_giveVerdict sc st claimed owner
  | reply owner channel => exact intake_giveReply sc st channel _ owner

theorem intake_abandon (c : Completion) : Intake sc a (st.told a) (st.abandon c) := by
  cases c with
  | verdict owner | reply owner =>
    cases owner with
    | none => exact .still rfl
    | some t => exact .nothing rfl (sober_deliver t _)

theorem intake_sendToRuntime (e : RuntimeEvent) (owner : Option Ticket) :
    Intake sc a (st.told a) (st.sendToRuntime sc e owner) := by
  unfold sendToRuntime
  split
  · exact intake_giveVerdict sc st _ owner
  · exact .still rfl
  · exact intake_giveVerdict sc (st.keep _ _) _ owner

theorem intake_sendOnChannel (channel : String) (data : List UInt8) (owner : Option Ticket) :
    Intake sc a (st.told a) (st.sendOnChannel sc channel data owner) := by
  unfold sendOnChannel
  simp only
  split
  · exact intake_giveReply sc { st with sent := st.sent ++ [channel] } channel _ owner
  · exact .still rfl
  · exact intake_giveReply sc { st with sent := st.sent ++ [channel] } channel _ owner
  · exact intake_giveReply sc { st with sent := st.sent ++ [channel] } channel _ owner

/-! ### Events -/

theorem intake_arrive (b : ArbiterId) (e : KeyEvent) :
    Intake sc a (st.told a) ((st.arrive sc b e).1, (st.arrive sc b e).2.1) := by
  have turned (after : Book) (asked : Bool) : (st.turn sc b after asked).told a = st.told a := rfl
  rw [arrive_eq]
  rcases (st.book b).arrive (sc.layout b) (sc.responders b).length e with ⟨after, id | d, asked⟩
  · exact .still ((told_note _ ⟨rfl, rfl⟩).trans (turned after asked))
  · by_cases own : b = a
    · subst own
      refine .fresh ?_ rfl (List.forall_mem_nil _)
      rw [told_dispatched, turned]
    · refine .nothing ((told_note_of_ne _ own _).trans (turned after asked)) ?_
      intro t ht
      obtain rfl := List.mem_singleton.1 ht
      split
      · trivial
      · exact fun eq => absurd eq own

theorem intake_andThen (b : ArbiterId) (e : KeyEvent) {rest : Bool → List Task}
    (sober : ∀ value, ∀ t ∈ rest value, t.Sober a) :
    Intake sc a (st.told a) (andThen (st.arrive sc b e) rest) :=
  (intake_arrive sc st b e).append (sober _)

theorem intake_sync (b : ArbiterId) (modifiers : Modifiers) (time : UInt32) :
    Intake sc a (st.told a) (st.sync b modifiers time) := by
  unfold sync
  simp only
  split
  · exact .nothing rfl (sober_feed _ _)
  · exact .nothing (told_note st ⟨rfl, rfl⟩) (sober_feed _ _)

theorem sober_act (h : HookId) (e : KeyEvent) (actions : List Action) (value : Bool)
    (outlet : Outlet) : ∀ t ∈ [Task.act h e actions value outlet], t.Sober a := by
  simp [Task.Sober]

theorem intake_callHook (h : HookId) (e : KeyEvent) (outlet : Outlet) :
    Intake sc a (st.told a) (st.callHook sc h e outlet) := by
  unfold callHook
  simp only
  split
  · split
    · exact .nothing rfl (sober_act _ _ _ _ _)
    · split
      · exact .nothing rfl (sober_act _ _ _ _ _)
      · exact (intake_arrive sc st (sc.hook h).target e).append (sober_act _ _ _ _ _)
  · exact .nothing rfl (sober_act _ _ _ _ _)

theorem intake_redispatch (e : KeyEvent) :
    Intake sc a (st.told a) ((st.redispatch sc e).1, (st.redispatch sc e).2.1) := by
  unfold redispatch
  simp only
  split
  · exact .still rfl
  · exact .still rfl
  · split <;> exact .still rfl
  · exact intake_callHook sc st _ e .inline

theorem intake_handBack (b : ArbiterId) (id : Nat) (e : KeyEvent) :
    Intake sc a (st.told a) (st.handBack sc b id e) := by
  rw [handBack_eq]
  split
  · exact .still (told_note _ ⟨rfl, rfl⟩)
  · exact intake_redispatch sc st e

/-! ### Answers -/

theorem told_consult (b : ArbiterId) (d : Dispatch) (claimed : Bool) :
    (st.consult sc b d claimed).1.told a = st.told a := by
  unfold consult
  split
  · exact told_note _ ⟨rfl, rfl⟩
  · rfl

theorem intake_conclude (b : ArbiterId) (d : Dispatch) (claimed : Bool) :
    Intake sc a (st.told a) (st.conclude sc b d claimed) := by
  have resolved : (st.resolve b d claimed).told a = st.told a := told_note _ ⟨rfl, rfl⟩
  rw [conclude_eq]
  split
  · exact .still resolved
  · have back := intake_handBack (a := a) sc
      ((st.resolve b d claimed).note b (.handedBack d.id ‹KeyEvent›)) b d.id ‹KeyEvent›
    rwa [told_note _ ⟨rfl, rfl⟩, resolved] at back

theorem intake_settle (b : ArbiterId) (d : Dispatch) (claimed : Bool) :
    Intake sc a (st.told a) (st.settle sc b d claimed) := by
  have concluded := intake_conclude (a := a) sc (st.consult sc b d claimed).1 b d
    (st.consult sc b d claimed).2
  rwa [told_consult] at concluded

theorem intake_deliver (t : Ticket) (answer : Delivery) :
    Intake sc a (st.told a) (st.deliver sc t answer) := by
  have noted : (answer.entry t.responder t.id).Mute := by
    cases answer <;> exact ⟨rfl, rfl⟩
  have told := told_note (a := a) (b := t.arbiter) st noted
  rw [deliver_eq]
  simp only
  split
  · split
    · exact .still told
    · exact .still ((told_note _ ⟨rfl, rfl⟩).trans told)
    · exact .nothing told (by simp [Task.Sober])
  · exact .still ((told_note _ ⟨rfl, rfl⟩).trans told)

/-! ### Offers -/

theorem intake_offer (b : ArbiterId) (d : Dispatch) {r : Responder}
    (other : b = a → r ≠ .embedder) : Intake sc a (st.told a) (st.offer sc b d r) := by
  cases r with
  | embedder =>
    have ne : b ≠ a := fun own => other own rfl
    simp only [offer]
    split
    · exact .nothing (told_note_of_ne _ ne _) (sober_deliver _ _)
    · have sent := intake_sendToRuntime (a := a) sc
        (st.note b (.sentToRuntime d.id d.runtimeEvent)) d.runtimeEvent (some ⟨b, .embedder, d.id⟩)
      rwa [told_note_of_ne _ ne] at sent
  | channel name keymap toolkit =>
    have sent (data : List UInt8) := intake_sendOnChannel (a := a) sc
      (st.note b (.sentOnChannel d.id name)) name data (some ⟨b, .channel, d.id⟩)
    rw [told_note _ ⟨rfl, rfl⟩] at sent
    exact sent _
  | extra rule =>
    cases rule with
    | answer | drop | claim => exact .nothing rfl (sober_deliver _ _)
    | hold => exact .still rfl
    | reenter h => exact intake_callHook sc { st with seen := st.seen ++ [(b, d)] } h d.event _

/-- The runtime hears of a dispatch as it is offered to the embedder. -/
theorem offer_embedder (d : Dispatch) :
    (st.offer sc a d .embedder).1.told a =
        ((st.told a).1, (st.told a).2 ++ if d.orphan then [] else [(d.id, d.runtimeEvent)]) ∧
      ∀ t ∈ (st.offer sc a d .embedder).2, t.Sober a := by
  simp only [offer]
  cases d.orphan with
  | true =>
    simp only [if_true]
    refine ⟨?_, sober_deliver _ _⟩
    rw [told_note _ ⟨rfl, rfl⟩, List.append_nil]
  | false =>
    simp only [Bool.false_eq_true, if_false]
    have told := told_sentToRuntime (a := a) st d.id d.runtimeEvent
    unfold sendToRuntime
    split
    · exact ⟨told, sober_deliver _ _⟩
    · exact ⟨told, List.forall_mem_nil _⟩
    · exact ⟨told, sober_deliver _ _⟩

/-! ### Tasks -/

theorem intake_act (h : HookId) (e : KeyEvent) (value : Bool) {rest : Bool → List Task}
    (sober : ∀ value, ∀ t ∈ rest value, t.Sober a) (action : Action) :
    Intake sc a (st.told a) (st.act sc h e value rest action) := by
  cases action with
  | replay => exact intake_andThen sc st _ _ sober
  | restamp => exact intake_andThen sc st _ _ sober
  | event => exact intake_andThen sc st _ _ sober
  | answer value => exact .nothing rfl (sober value)
  | sync modifiers time => exact (intake_sync sc st _ modifiers time).append (sober value)

theorem intake_step {t : Task} (sober : t.Sober a) : Intake sc a (st.told a) (st.step sc t) := by
  match t with
  | .offer _ _ [] => exact .still rfl
  | .offer b d (r :: rs) =>
    have other : b = a → r ≠ .embedder := by
      rintro own rfl
      exact sober own (List.mem_cons_self ..)
    have offered := intake_offer sc (st.note b (.offered d.id r.kind)) b d other
    rw [told_note _ ⟨rfl, rfl⟩] at offered
    refine offered.append ?_
    intro t ht
    obtain rfl := List.mem_singleton.1 ht
    exact fun own mem => sober own (List.mem_cons_of_mem _ mem)
  | .deliver t answer => exact intake_deliver sc st t answer
  | .settle b d claimed => exact intake_settle sc st b d claimed
  | .act h e (action :: actions) value outlet =>
    exact intake_act sc st h e value (fun _ => sober_act _ _ _ _ _) action
  | .act _ _ [] value (.answer t) => exact .nothing rfl (sober_deliver _ _)
  | .act _ e [] value .inline => exact .still rfl
  | .feed _ [] => exact .still rfl
  | .feed b (e :: es) => exact intake_andThen sc st b e fun _ => sober_feed b es

end State

/-! ## Commands -/

namespace Session

variable (s : Session) {a : ArbiterId}

abbrev Takes (a : ArbiterId) (told : Told) (p : Session × List Task) : Prop :=
  Intake p.1.scene a told (p.1.state, p.2)

theorem takes_meet (b : ArbiterId) (e : KeyEvent) : Takes a (s.state.told a) (s.meet b e) := by
  unfold meet
  split
  · exact State.intake_arrive s.scene s.state b e
  · exact .still rfl

theorem takes_close (c : Completion) (how : Ending) : Takes a (s.state.told a) (s.close c how) := by
  cases how with
  | answer claimed => exact State.intake_complete s.scene s.state claimed c
  | drop => exact State.intake_abandon s.scene s.state c

theorem told_layoutChange : s.layoutChange.state.told a = s.state.told a :=
  s.layoutChange_induction (P := fun st => st.told a = s.state.told a) rfl fun _ _ same =>
    (State.told_note _ ⟨rfl, rfl⟩).trans same

theorem told_receive (channel : String) (data : List UInt8) :
    (s.receive channel data).1.state.told a = s.state.told a := by
  unfold receive
  split
  · rfl
  · rfl
  · split
    · split
      · rfl
      · exact State.told_note _ ⟨rfl, rfl⟩
      · exact State.told_note _ ⟨rfl, rfl⟩
    · rfl

theorem told_build (settings : Settings) (scripted : Bool) (extra : List ResponderSpec) :
    (s.build settings scripted extra).1.state.told a = s.state.told a := by
  have same := (addResponders_spec s a extra).1
  have past : (s.addResponders extra).1.state.journal.about a = s.state.journal.about a :=
    congrArg (fun desk => (desk 0).past) same
  have told : (s.addResponders extra).1.state.told a = s.state.told a := by
    unfold State.told
    rw [past]
  exact (State.told_note _ ⟨rfl, rfl⟩).trans told

theorem takes_launch (c : Command) : Takes a (s.state.told a) (s.launch c) := by
  cases c with
  | event b e => exact takes_meet s b e
  | feed b slot =>
    simp only [launch]
    split
    · exact .still rfl
    · exact takes_meet s b _
  | sync b modifiers time =>
    simp only [launch]
    split
    · exact State.intake_sync s.scene s.state b modifiers time
    · exact .still rfl
  | hostSend e => exact State.intake_sendToRuntime s.scene s.state e none
  | channelSend channel data => exact State.intake_sendOnChannel s.scene s.state channel data none
  | hostRedispatch e => exact State.intake_redispatch s.scene s.state e
  | respond slot claimed =>
    rcases taken : s.takeCompletion slot with ⟨s', o⟩
    obtain ⟨state, -, -⟩ := takeCompletion_spec taken a
    simp only [launch, taken, ← state]
    rcases o with _ | _ | c
    · exact .still rfl
    · exact .still rfl
    · exact takes_close s' c _
  | takeCallback slot =>
    rcases taken : s.takeCompletion slot with ⟨s', o⟩
    obtain ⟨state, -, -⟩ := takeCompletion_spec taken a
    simp only [launch, perform, taken, ← state]
    rcases o with _ | _ | c <;> exact .still rfl
  | dropRecord slot =>
    simp only [launch]
    split
    · exact .still rfl
    · next records r _ =>
      split
      · exact takes_close { s with records } _ .drop
      · exact .still rfl
  | endCallback slot how =>
    simp only [launch]
    split
    · exact .still rfl
    · next callbacks c _ => exact takes_close { s with callbacks } c how
  | endHeld slot how =>
    simp only [launch]
    split
    · exact .still rfl
    · cases how <;> exact .nothing rfl (State.sober_deliver _ _)
  | loop b reversed =>
    simp only [launch]
    split
    · exact .nothing rfl (State.sober_feed _ _)
    · exact .still rfl
  | build settings scripted extra => exact .still (told_build s settings scripted extra)
  | dispose b =>
    simp only [launch, perform]
    split
    · exact .still (State.told_note _ ⟨rfl, rfl⟩)
    · exact .still rfl
  | setRedispatch mode => cases mode <;> exact .still rfl
  | layoutChange =>
    simp only [launch, perform]
    exact .still (told_layoutChange s)
  | receive channel data =>
    simp only [launch, perform]
    exact .still (told_receive s channel data)
  | _ =>
    simp only [launch, perform]
    exact .still rfl

end Session

/-! ## In line -/

instance Task.decidableSober (a : ArbiterId) (t : Task) : Decidable (t.Sober a) :=
  match t with
  | .offer b _ rs => inferInstanceAs (Decidable (b = a → .embedder ∉ rs))
  | .deliver .. | .settle .. | .act .. | .feed .. => isTrue trivial

/-- An event of the arbiter was taken in, and is still to be offered to the embedder. -/
def Moment.Poised (m : Moment) (a : ArbiterId) : Prop := ∃ t ∈ m.tasks, ¬t.Sober a

instance Moment.decidablePoised (m : Moment) (a : ArbiterId) : Decidable (m.Poised a) :=
  inferInstanceAs (Decidable (∃ t ∈ m.tasks, ¬t.Sober a))

/-- The events of the arbiter come from one thread: no other one is taken in while one is still to be
offered to the embedder. Answers and all other commands may come from any thread, at any time. -/
def InTurn (a : ArbiterId) (moves : List Move) : Prop :=
  ∀ n < moves.length, (Moment.after (moves.take n)).Poised a →
    (Moment.after (moves.take (n + 1))).dispatches a = (Moment.after (moves.take n)).dispatches a

instance InTurn.decidable (a : ArbiterId) (moves : List Move) : Decidable (InTurn a moves) :=
  inferInstanceAs (Decidable (∀ n < moves.length, (Moment.after (moves.take n)).Poised a →
    (Moment.after (moves.take (n + 1))).dispatches a = (Moment.after (moves.take n)).dispatches a))

/-- The runtime heard of all dispatches, if it hears of any, or of all but one that is still to be
offered. -/
inductive InLine (hears : Bool) (a : ArbiterId) (m : Moment) : Prop
  | level (sent : (m.state.told a).2 = if hears then heard (m.state.told a).1 else [])
    (sober : ∀ t ∈ m.tasks, t.Sober a)
  | poised {ds : List Dispatch} {d : Dispatch} {rs : List Responder} {before rest : List Task}
    (on : hears = true) (told : m.state.told a = (ds ++ [d], heard ds))
    (tasks : m.tasks = before ++ .offer a d (.embedder :: rs) :: rest) (lone : .embedder ∉ rs)
    (sober : ∀ t ∈ before ++ rest, t.Sober a)

theorem Setup.responders_lone {setup : Setup} (lone : .embedder ∉ setup.extra) :
    if setup.settings.embedderResponder then
      ∃ rs, setup.responders = .embedder :: rs ∧ .embedder ∉ rs
    else .embedder ∉ setup.responders := by
  have others : .embedder ∉ (if setup.settings.channelResponder then
      [Responder.ofSettings setup.settings] else []) ++ setup.extra := by
    rw [List.mem_append, not_or]
    refine ⟨?_, lone⟩
    split <;> simp [Responder.ofSettings]
  unfold responders
  rw [List.append_assoc]
  split
  · exact ⟨_, rfl, others⟩
  · exact others

namespace InLine

variable {hears : Bool} {a : ArbiterId} {m : Moment}

theorem of_intake {told : Told} {p : Progress} {rest : List Task}
    (intake : Intake m.scene a told p) (sent : told.2 = if hears then heard told.1 else [])
    (lone : .embedder ∉ (m.scene.setup a).extra)
    (on : hears = (m.scene.setup a).settings.embedderResponder) (state : m.state = p.1)
    (tasks : m.tasks = p.2 ++ rest) (sober : ∀ t ∈ rest, t.Sober a) : InLine hears a m := by
  have joined {first : List Task} (before : ∀ t ∈ first, t.Sober a) :
      ∀ t ∈ first ++ rest, t.Sober a := List.forall_mem_append.2 ⟨before, sober⟩
  have responders := Setup.responders_lone lone
  rw [← on] at responders
  cases intake with
  | nothing same before =>
    refine .level ?_ ?_
    · rw [state, same]
      exact sent
    · rw [tasks]
      exact joined before
  | @fresh d more next first before =>
    cases hears with
    | true =>
      obtain ⟨rs, eq, aside⟩ := responders
      have eq : m.scene.responders a = .embedder :: rs := eq
      have toldNow : m.state.told a = (told.1 ++ [d], heard told.1) := by
        rw [state, next, sent]
        rfl
      have head : m.tasks = [] ++ .offer a d (.embedder :: rs) :: (more ++ rest) := by
        rw [tasks, first, Scene.firstTask, eq]
        rfl
      exact .poised rfl toldNow head aside (joined before)
    | false =>
      refine .level ?_ ?_
      · rw [state, next]
        exact sent
      · rw [tasks, first]
        refine List.forall_mem_cons.2 ⟨?_, joined before⟩
        unfold Scene.firstTask
        split
        · trivial
        · exact fun _ => responders

theorem of_calm {p : Progress} {ds : List Dispatch} {d : Dispatch} {rs : List Responder}
    {before rest : List Task} (intake : Intake m.scene a (ds ++ [d], heard ds) p)
    (calm : (m.state.told a).1 = ds ++ [d]) (state : m.state = p.1)
    (tasks : m.tasks = p.2 ++ (before ++ .offer a d (.embedder :: rs) :: rest))
    (lone : .embedder ∉ rs) (sober : ∀ t ∈ before ++ rest, t.Sober a) : InLine true a m := by
  cases intake with
  | nothing same first =>
    refine .poised rfl (by rw [state, same]) (tasks.trans (List.append_assoc ..).symm) lone ?_
    rw [List.append_assoc]
    exact List.forall_mem_append.2 ⟨first, sober⟩
  | fresh next =>
    -- There would be one more dispatch.
    rw [state, next] at calm
    simp at calm

theorem offered {ds : List Dispatch} {d : Dispatch} {rs : List Responder} {rest : List Task}
    (told : m.state.told a = (ds ++ [d], heard ds))
    (tasks : m.tasks = .offer a d (.embedder :: rs) :: rest) (lone : .embedder ∉ rs)
    (sober : ∀ t ∈ rest, t.Sober a) :
    (m.next .go).state.told a = (ds ++ [d], heard (ds ++ [d])) ∧
      ∀ t ∈ (m.next .go).tasks, t.Sober a := by
  obtain ⟨s, _⟩ := m
  subst tasks
  have told : s.state.told a = (ds ++ [d], heard ds) := told
  obtain ⟨sent, answers⟩ := State.offer_embedder (a := a) s.scene
    (s.state.note a (.offered d.id .embedder)) d
  rw [State.told_note _ ⟨rfl, rfl⟩, told, ← heard_concat] at sent
  have others : ∀ t ∈ [Task.offer a d rs], t.Sober a := by
    intro t ht
    obtain rfl := List.mem_singleton.1 ht
    exact fun _ => lone
  exact ⟨sent, List.forall_mem_append.2 ⟨List.forall_mem_append.2 ⟨answers, others⟩, sober⟩⟩

theorem unbuilt {moves : List Move} (h : (Moment.after moves).scene.setups.length ≤ a) :
    InLine hears a (Moment.after moves) := by
  have blank := (Moment.traced moves).unbuilt a h
  have sends : sendsOf ((Moment.after moves).desk a).past = [] := by
    rw [sendsOf, List.filterMap_eq_nil_iff.2 fun x hx => Entry.sent?_of_idle (blank.past x hx)]
    rfl
  have told : (Moment.after moves).state.told a = ([], []) :=
    Prod.ext (dispatchesOf_of_blank blank) sends
  refine .level (by rw [told]; cases hears <;> rfl) ?_
  intro t ht
  cases t with
  | offer b d rs =>
    rintro rfl mem
    have owed : Duty.offer d rs ∈ (Task.offer b d rs).duties b := by
      rw [Task.duties, if_pos rfl]
      cases rs with
      | nil => exact absurd mem List.not_mem_nil
      | cons r rs => exact Multiset.mem_singleton_self _
    have here : Duty.offer d rs ∈ ((Moment.after moves).desk b).duties :=
      Multiset.mem_add.2 (.inr (Multiset.mem_add.2 (.inl (mem_taskDuties ht owed))))
    rw [blank.duties] at here
    exact Multiset.notMem_zero _ here
  | _ => trivial

theorem next (h : InLine hears a m) (move : Move)
    (calm : m.Poised a → (m.next move).dispatches a = m.dispatches a)
    (lone : .embedder ∉ ((m.next move).scene.setup a).extra)
    (on : hears = ((m.next move).scene.setup a).settings.embedderResponder) :
    InLine hears a (m.next move) := by
  obtain ⟨s, tasks⟩ := m
  cases h with
  | level sent sober =>
    cases move with
    | command c => exact of_intake (Session.takes_launch s c) sent lone on rfl rfl sober
    | go =>
      cases tasks with
      | nil => exact .level sent sober
      | cons t rest =>
        obtain ⟨first, others⟩ := List.forall_mem_cons.1 sober
        exact of_intake (State.intake_step s.scene s.state first) sent lone on rfl rfl others
  | @poised ds d rs before rest hearing told line aside sober =>
    obtain rfl : tasks = _ := line
    replace told : s.state.told a = (ds ++ [d], heard ds) := told
    have ready : (⟨s, before ++ .offer a d (.embedder :: rs) :: rest⟩ : Moment).Poised a :=
      ⟨_, List.mem_append_right _ (List.mem_cons_self ..), by simp [Task.Sober]⟩
    have calm := (calm ready).trans (congrArg Prod.fst told)
    rw [hearing]
    cases move with
    | command c =>
      have intake := Session.takes_launch (a := a) s c
      rw [told] at intake
      exact of_calm intake calm rfl rfl aside sober
    | go =>
      -- The calls of commands that came since it was taken in are done before it is offered.
      cases before with
      | nil =>
        obtain ⟨now, sober⟩ := offered (m := ⟨s, _⟩) told rfl aside sober
        have all := congrArg Prod.fst now
        exact .level ((congrArg Prod.snd now).trans (congrArg heard all).symm) sober
      | cons t before =>
        obtain ⟨first, others⟩ := List.forall_mem_cons.1 sober
        have intake := State.intake_step s.scene s.state first
        rw [told] at intake
        exact of_calm intake calm rfl rfl aside others

theorem heard_of_idle (h : InLine hears a m) (idle : m.tasks = []) :
    (m.state.told a).2 = if hears then heard (m.state.told a).1 else [] := by
  cases h with
  | level sent sober => exact sent
  | poised on told tasks =>
    rw [idle] at tasks
    simp at tasks

theorem exists_heard (h : InLine hears a m) :
    ∃ ds, ds <+: (m.state.told a).1 ∧ (m.state.told a).2 = heard ds := by
  cases h with
  | level sent sober =>
    cases hears with
    | true => exact ⟨_, List.prefix_rfl, sent⟩
    | false => exact ⟨[], List.nil_prefix, sent⟩
  | poised on told =>
    rw [told]
    exact ⟨_, List.prefix_append _ _, rfl⟩

end InLine

/-! ## At every moment -/

theorem InTurn.none {a : ArbiterId} : InTurn a [] := fun _ lt => absurd lt (Nat.not_lt_zero _)

theorem InTurn.concat_iff {a : ArbiterId} {moves : List Move} {move : Move} :
    InTurn a (moves ++ [move]) ↔ InTurn a moves ∧ ((Moment.after moves).Poised a →
      ((Moment.after moves).next move).dispatches a = (Moment.after moves).dispatches a) := by
  have here (n : Nat) (le : n ≤ moves.length) : (moves ++ [move]).take n = moves.take n := by
    rw [List.take_append_of_le_length le]
  have all : (moves ++ [move]).take (moves.length + 1) = moves ++ [move] := by
    rw [List.take_of_length_le (by simp)]
  constructor
  · intro h
    constructor
    · intro n lt
      have := h n (by simp; omega)
      rwa [here n lt.le, here (n + 1) lt] at this
    · have := h moves.length (by simp)
      rwa [here _ le_rfl, List.take_length, all, Moment.after_concat] at this
  · rintro ⟨h, last⟩ n lt
    rcases Nat.lt_or_eq_of_le (Nat.le_of_lt_succ (by simpa using lt)) with lt | rfl
    · rw [here n lt.le, here (n + 1) lt]
      exact h n lt
    · rwa [here _ le_rfl, List.take_length, all, Moment.after_concat]

namespace Moment

variable {a : ArbiterId} {moves : List Move}

theorem lone_of_next {m : Moment} {move : Move}
    (lone : .embedder ∉ ((m.next move).scene.setup a).extra) :
    .embedder ∉ (m.scene.setup a).extra := by
  rcases lt_or_ge a m.scene.setups.length with built | le
  · obtain ⟨alive, same⟩ := m.setup_next move built
    rwa [same] at lone
  · rw [Scene.setup, List.getD_eq_getElem?_getD, List.getElem?_eq_none le]
    exact List.not_mem_nil

theorem lone_of_append {more : List Move}
    (lone : .embedder ∉ ((after (moves ++ more)).scene.setup a).extra) :
    .embedder ∉ ((after moves).scene.setup a).extra := by
  induction more using List.reverseRecOn with
  | nil => rwa [List.append_nil] at lone
  | append_singleton more move ih =>
    rw [← List.append_assoc, after_concat] at lone
    exact ih (lone_of_next lone)

theorem inLine (inTurn : InTurn a moves) (lone : .embedder ∉ ((after moves).scene.setup a).extra) :
    InLine ((after moves).scene.setup a).settings.embedderResponder a (after moves) := by
  induction moves using List.reverseRecOn with
  | nil => exact .unbuilt (Nat.zero_le _)
  | append_singleton moves move ih =>
    obtain ⟨inTurn, calm⟩ := InTurn.concat_iff.1 inTurn
    rw [after_concat] at lone ⊢
    refine InLine.next ?_ move calm lone rfl
    rcases lt_or_ge a (after moves).scene.setups.length with built | le
    · obtain ⟨alive, same⟩ := setup_next (after moves) move built
      rw [same] at lone ⊢
      exact ih inTurn lone
    · exact .unbuilt le

/-! ### Sessions -/

/-- An event that is still to be offered to the embedder is next in line. -/
def Ahead (m : Moment) (a : ArbiterId) : Prop := ∀ t ∈ m.tasks.tail, t.Sober a

theorem ahead_of_intake {m : Moment} {told : Told} {p : Progress} {rest : List Task}
    (intake : Intake m.scene a told p) (tasks : m.tasks = p.2 ++ rest)
    (sober : ∀ t ∈ rest, t.Sober a) : m.Ahead a := by
  unfold Ahead
  rw [tasks]
  cases intake with
  | nothing same before =>
    intro t ht
    exact List.forall_mem_append.2 ⟨before, sober⟩ t (List.mem_of_mem_tail ht)
  | fresh next first before =>
    rw [first]
    exact List.forall_mem_append.2 ⟨before, sober⟩

theorem Ahead.go {m : Moment} {hears : Bool} (ahead : m.Ahead a) (inLine : InLine hears a m) :
    (m.next .go).Ahead a ∧ (m.Poised a → (m.next .go).dispatches a = m.dispatches a) := by
  obtain ⟨s, tasks⟩ := m
  cases inLine with
  | level sent sober =>
    refine ⟨?_, fun ⟨t, mem, unsober⟩ => absurd (sober t mem) unsober⟩
    cases tasks with
    | nil => exact sober
    | cons t rest =>
      obtain ⟨first, others⟩ := List.forall_mem_cons.1 sober
      exact ahead_of_intake (State.intake_step s.scene s.state first) rfl others
  | @poised ds d rs before rest hearing told line aside sober =>
    obtain rfl : tasks = _ := line
    cases before with
    | nil =>
      obtain ⟨now, sober⟩ := InLine.offered told rfl aside sober
      refine ⟨fun t ht => sober t (List.mem_of_mem_tail ht), fun _ => ?_⟩
      exact (congrArg Prod.fst now).trans (congrArg Prod.fst told).symm
    | cons t before =>
      -- It would not be next in line.
      have sober := ahead (.offer a d (.embedder :: rs))
        (List.mem_append_right _ (List.mem_cons_self ..))
      exact absurd (List.mem_cons_self ..) (sober rfl)

theorem inTurn_goes (inTurn : InTurn a moves) (ahead : (after moves).Ahead a) (n : Nat)
    (lone : .embedder ∉ ((after (moves ++ List.replicate n .go)).scene.setup a).extra) :
    InTurn a (moves ++ List.replicate n .go) ∧ (after (moves ++ List.replicate n .go)).Ahead a := by
  induction n with
  | zero =>
    rw [List.replicate_zero, List.append_nil]
    exact ⟨inTurn, ahead⟩
  | succ n ih =>
    rw [List.replicate_succ', ← List.append_assoc, after_concat] at lone ⊢
    have lone := lone_of_next lone
    obtain ⟨inTurn, ahead⟩ := ih lone
    obtain ⟨next, calm⟩ := ahead.go (inLine inTurn lone)
    exact ⟨InTurn.concat_iff.2 ⟨inTurn, calm⟩, next⟩

theorem inTurn_between (idle : (after moves).tasks = []) (inTurn : InTurn a moves) (c : Command)
    (n : Nat)
    (lone : .embedder ∉
      ((after (moves ++ .command c :: List.replicate n .go)).scene.setup a).extra) :
    InTurn a (moves ++ .command c :: List.replicate n .go) := by
  have sober : ∀ t ∈ (after moves).tasks, t.Sober a := by simp [idle]
  have command : InTurn a (moves ++ [.command c]) :=
    InTurn.concat_iff.2 ⟨inTurn, fun ⟨t, mem, unsober⟩ => absurd (sober t mem) unsober⟩
  have ahead : (after (moves ++ [.command c])).Ahead a := by
    rw [after_concat]
    exact ahead_of_intake (Session.takes_launch (after moves).session c) rfl sober
  rw [List.append_cons] at lone ⊢
  exact (inTurn_goes command ahead n lone).1

end Moment

/-- Commands that are carried out one after the other deliver events as one thread does, whatever
hooks they run. -/
def SessionsInTurn : Prop :=
  ∀ cs : List Command, ∃ moves, Moment.after moves = ⟨Session.after cs, []⟩ ∧
    ∀ a, .embedder ∉ ((Session.after cs).scene.setup a).extra → InTurn a moves

theorem sessionsInTurn : SessionsInTurn := by
  intro cs
  induction cs using List.reverseRecOn with
  | nil => exact ⟨[], rfl, fun _ _ => .none⟩
  | append_singleton cs c ih =>
    obtain ⟨moves, here, inTurn⟩ := ih
    obtain ⟨n, there⟩ := Moment.exists_concat here c
    refine ⟨_, there, fun a lone => ?_⟩
    have lone : .embedder ∉
        ((Moment.after (moves ++ .command c :: List.replicate n .go)).scene.setup a).extra := by
      rw [there]
      exact lone
    have before := Moment.lone_of_append lone
    rw [here] at before
    exact Moment.inTurn_between (by rw [here]) (inTurn a before) c n lone

/-- The runtime is called for an event exactly when that is noted, and with what is noted. It is not
called for an orphan release. -/
def SendsNoted (a : ArbiterId) : Prop :=
  ∀ (sc : Scene) (st : State) (d : Dispatch),
    if d.orphan then
      ∃ st' : State,
        st.offer sc a d .embedder = (st', [.deliver ⟨a, .embedder, d.id⟩ (.answered true)]) ∧
        sendsOf (st'.journal.about a) = sendsOf (st.journal.about a)
    else
      ∃ st' : State, st.offer sc a d .embedder =
          st'.sendToRuntime sc d.runtimeEvent (some ⟨a, .embedder, d.id⟩) ∧
        sendsOf (st'.journal.about a) = sendsOf (st.journal.about a) ++ [(d.id, d.runtimeEvent)]

theorem sendsNoted (a : ArbiterId) : SendsNoted a := by
  intro sc st d
  unfold State.offer
  cases d.orphan with
  | true => exact ⟨_, rfl, congrArg Prod.snd (State.told_note st ⟨rfl, rfl⟩)⟩
  | false => exact ⟨_, rfl, congrArg Prod.snd (State.told_sentToRuntime st _ _)⟩

namespace Moment

/-- If the embedder is the first responder of an arbiter and no other one, or none at all, and events
come from one thread, the runtime is sent the dispatches of the arbiter in their order, but for orphan
releases: for each key, the start of whole strokes. Between two calls it was sent all of them. -/
theorem sends_in_strokes (moves : List Move) {a : ArbiterId} (inTurn : InTurn a moves)
    (lone : .embedder ∉ ((after moves).scene.setup a).extra) :
    let m := after moves
    let sends := sendsOf (m.past a)
    SessionsInTurn ∧ SendsNoted a ∧ (sends.map Prod.fst).Pairwise (· < ·) ∧
    (∀ key, ∃ groups, ((sends.filter (·.2.physical = key)).map
      fun s => (s.2.transition, s.2.logical)) <+: strokes groups) ∧
    (∀ s ∈ sends, ∃ d ∈ m.dispatches a, d.orphan = false ∧ s = (d.id, d.runtimeEvent)) ∧
    (m.tasks = [] → (m.scene.setup a).settings.embedderResponder = true →
      sends = ((m.dispatches a).filter (!·.orphan)).map fun d => (d.id, d.runtimeEvent)) := by
  have inLine := inLine inTurn lone
  obtain ⟨ds, first, sent⟩ := inLine.exists_heard
  intro m sends
  have first : ds <+: m.dispatches a := first
  have sent : sends = heard ds := sent
  refine ⟨sessionsInTurn, sendsNoted a, ?_, ?_, ?_, ?_⟩
  · have ascending : ds.Pairwise (·.id < ·.id) := (enrolled moves a).ascending.sublist first.sublist
    rw [sent, ids_heard]
    exact List.pairwise_map.2 (ascending.sublist List.filter_sublist)
  · intro key
    obtain ⟨groups, whole⟩ := (inStrokes moves a key).prefix_strokes
    rw [sent, word_heard]
    exact ⟨groups, (wordOf_mono key first).trans whole⟩
  · intro s hs
    rw [sent] at hs
    obtain ⟨d, hd, known, rfl⟩ := mem_heard.1 hs
    exact ⟨d, first.subset hd, known, rfl⟩
  · intro idle on
    exact (inLine.heard_of_idle idle).trans (if_pos on)

/-- A press, its release before the last responder has answered the press, and the runtime's answer
to the press before it is offered another one. -/
def answeredMeanwhile : List Move := List.flatten [
  [.command (.build { channelResponder := false } true
      [.reenter ⟨⟨0, [.event { aPress with isPress := false }]⟩, 1⟩]),
    .command (.setEmbedder .record), .command (.event 0 aPress)],
  List.replicate 11 .go,
  [.command .takeRecords, .command (.event 0 aPress), .command (.respond 0 false)],
  List.replicate 8 .go]

theorem sends_in_strokes_answeredMeanwhile :
    InTurn 0 answeredMeanwhile ∧
      .embedder ∉ ((after answeredMeanwhile).scene.setup 0).extra ∧
      (sendsOf ((after answeredMeanwhile).past 0)).map (fun s => (s.1, s.2.transition)) =
        [(1, .down), (2, .up), (3, .down)] ∧
      ((sendsOf ((after answeredMeanwhile).past 0)).map Prod.fst).Pairwise (· < ·) ∧
      ∃ groups, ((sendsOf ((after answeredMeanwhile).past 0)).filter
        (·.2.physical = ⟨0x70004⟩)).map (fun s => (s.2.transition, s.2.logical)) <+:
          strokes groups := by
  have inTurn : InTurn 0 answeredMeanwhile := by decide +kernel
  have lone : .embedder ∉ ((after answeredMeanwhile).scene.setup 0).extra := by decide +kernel
  obtain ⟨-, -, ascending, words, -⟩ := sends_in_strokes answeredMeanwhile inTurn lone
  exact ⟨inTurn, lone, by decide +kernel, ascending, words _⟩

end Moment

end KeyArbiter
