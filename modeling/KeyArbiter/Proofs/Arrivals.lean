import KeyArbiter.Proofs.Disposed
import KeyArbiter.Proofs.Stream
import Mathlib

/-!
# Arrivals

A move takes in one event at most, as the last thing that it does to any book. Whatever else it does
dispatches nothing, asks no layout, and leaves the keys that are down and the answers of the layout
as they are, unless the host announces another layout.
-/

namespace KeyArbiter

open Session (Command Ending)

/-! ## Without an arrival -/

namespace Entry

def flushed? : Entry → Option Nat
  | .layoutChanged n => some n
  | _ => none

/-- The entry tells neither of a dispatch nor of another layout. -/
def Unseen (x : Entry) : Prop := x.dispatch? = none ∧ x.flushed? = none

end Entry

theorem Journal.about_append (j j' : Journal) (a : ArbiterId) :
    about (j ++ j') a = about j a ++ about j' a := by
  unfold about
  rw [List.filter_append, List.map_append]

namespace Book.Alike

theorem refl (b : Book) : b.Alike b := ⟨rfl, rfl, fun _ => rfl⟩

theorem trans {b b' b'' : Book} (h : b.Alike b') (h' : b'.Alike b'') : b.Alike b'' :=
  ⟨h'.known.trans h.known, h'.lastId.trans h.lastId, fun key => (h'.held key).trans (h.held key)⟩

end Book.Alike

/-- From the one state to the other nothing arrived and no layout changed. -/
structure State.Idle (st st' : State) : Prop where
  books (a : ArbiterId) : (st.book a).Alike (st'.book a)
  lookups : st'.lookups = st.lookups
  journal : ∃ news : Journal, st'.journal = news ++ st.journal ∧ ∀ x ∈ news, x.entry.Unseen

namespace State.Idle

variable {st st' st'' : State}

theorem of_eq (books : st'.books = st.books) (lookups : st'.lookups = st.lookups)
    (journal : st'.journal = st.journal) : Idle st st' := by
  refine ⟨fun a => ?_, lookups, [], journal, List.forall_mem_nil _⟩
  have same : st'.book a = st.book a := by rw [State.book, books]; rfl
  rw [same]
  exact .refl _

theorem refl (st : State) : Idle st st := .of_eq rfl rfl rfl

theorem trans (h : Idle st st') (h' : Idle st' st'') : Idle st st'' := by
  obtain ⟨news, journal, unseen⟩ := h.journal
  obtain ⟨more, journal', unseen'⟩ := h'.journal
  exact ⟨fun a => (h.books a).trans (h'.books a), h'.lookups.trans h.lookups, more ++ news,
    by rw [journal', journal, List.append_assoc], List.forall_mem_append.2 ⟨unseen', unseen⟩⟩

theorem note (h : Idle st st') (a : ArbiterId) {x : Entry} (unseen : x.Unseen) :
    Idle st (st'.note a x) :=
  h.trans ⟨fun _ => .refl _, rfl, [⟨a, x⟩], rfl, by simpa using unseen⟩

theorem setBook (h : Idle st st') {a : ArbiterId} {b : Book} (alike : (st'.book a).Alike b) :
    Idle st (st'.setBook a b) := by
  refine h.trans ⟨fun a' => ?_, rfl, [], rfl, List.forall_mem_nil _⟩
  by_cases own : a' = a
  · subst own
    rwa [State.book_setBook]
  · rw [State.book_setBook_of_ne _ own]
    exact .refl _

end State.Idle

/-- What a call does until it calls others: it lets in one event at most, and that at last. -/
inductive State.Admits (sc : Scene) (st st' : State) : Prop
  | nothing (idle : Idle st st')
  | event {before : State} (idle : Idle st before) (a : ArbiterId) (e : KeyEvent)
    (eq : st' = (before.arrive sc a e).1)

theorem State.Admits.after {sc : Scene} {st before st' : State} (h : Admits sc before st')
    (idle : Idle st before) : Admits sc st st' := by
  cases h with
  | nothing idle' => exact .nothing (idle.trans idle')
  | event idle' a e eq => exact .event (idle.trans idle') a e eq

/-! ## Steps -/

namespace State

variable (sc : Scene) (st : State)

theorem idle_giveVerdict (claimed : Bool) (owner : Option Ticket) :
    Idle st (st.giveVerdict claimed owner).1 := by
  cases owner <;> exact .of_eq rfl rfl rfl

theorem idle_giveReply (channel : String) (reply : Except TransportError (List UInt8))
    (owner : Option Ticket) : Idle st (st.giveReply channel reply owner).1 := by
  cases owner with
  | none => exact .of_eq rfl rfl rfl
  | some t =>
    simp only [giveReply]
    split
    · exact .refl st
    · exact (Idle.refl st).note _ ⟨rfl, rfl⟩

theorem idle_complete (claimed : Bool) (c : Completion) : Idle st (st.complete claimed c).1 := by
  cases c with
  | verdict owner => exact idle_giveVerdict st claimed owner
  | reply owner channel => exact idle_giveReply st channel _ owner

theorem idle_abandon (c : Completion) : Idle st (st.abandon c).1 := by
  cases c with
  | verdict owner | reply owner => cases owner <;> exact .refl st

theorem idle_sendToRuntime (e : RuntimeEvent) (owner : Option Ticket) :
    Idle st (st.sendToRuntime sc e owner).1 := by
  have kept (completion : Option Completion) : Idle st (st.keep (.runtimeEvent e) completion) :=
    .of_eq rfl rfl rfl
  unfold sendToRuntime
  split
  · exact idle_giveVerdict st _ owner
  · exact kept _
  · exact (kept none).trans (idle_giveVerdict _ _ owner)

theorem idle_sendOnChannel (channel : String) (data : List UInt8) (owner : Option Ticket) :
    Idle st (st.sendOnChannel sc channel data owner).1 := by
  have sent : Idle st { st with sent := st.sent ++ [channel] } := .of_eq rfl rfl rfl
  unfold sendOnChannel
  simp only
  split
  · exact sent.trans (idle_giveReply _ channel _ owner)
  · exact sent.trans (.of_eq rfl rfl rfl)
  · exact sent.trans (idle_giveReply _ channel _ owner)
  · exact sent.trans (idle_giveReply _ channel _ owner)

theorem admits_arrive (a : ArbiterId) (e : KeyEvent) : Admits sc st (st.arrive sc a e).1 :=
  .event (.refl st) a e rfl

theorem idle_sync (a : ArbiterId) (modifiers : Modifiers) (time : UInt32) :
    Idle st (st.sync a modifiers time).1 := by
  simp only [sync]
  split
  · exact .refl st
  · exact (Idle.refl st).note _ ⟨rfl, rfl⟩

theorem admits_callHook (h : HookId) (e : KeyEvent) (outlet : Outlet) :
    Admits sc st (st.callHook sc h e outlet).1 := by
  simp only [callHook]
  split
  · split
    · exact .nothing (.of_eq rfl rfl rfl)
    · split
      · exact .nothing (.refl st)
      · exact admits_arrive sc st _ e
  · exact .nothing (.refl st)

theorem admits_redispatch (e : KeyEvent) : Admits sc st (st.redispatch sc e).1 := by
  simp only [redispatch]
  split
  · exact .nothing (.of_eq rfl rfl rfl)
  · exact .nothing (.of_eq rfl rfl rfl)
  · split <;> exact .nothing (.of_eq rfl rfl rfl)
  · exact admits_callHook sc st _ e .inline

theorem admits_handBack (a : ArbiterId) (id : Nat) (e : KeyEvent) :
    Admits sc st (st.handBack sc a id e).1 := by
  rw [handBack_eq]
  split
  · have closed : (st.book a).Alike { st.book a with docket := (st.book a).docket.close id } :=
      ⟨rfl, rfl, fun _ => rfl⟩
    have counted : Idle st { st with refused := st.refused + 1 } := .of_eq rfl rfl rfl
    exact .nothing ((counted.setBook closed).note a ⟨rfl, rfl⟩)
  · exact admits_redispatch sc st e

theorem idle_resolve (a : ArbiterId) (d : Dispatch) (claimed : Bool) :
    Idle st (st.resolve a d claimed) :=
  ((Idle.refl st).setBook ((st.book a).alike_settle d claimed)).note a ⟨rfl, rfl⟩

theorem admits_conclude (a : ArbiterId) (d : Dispatch) (claimed : Bool) :
    Admits sc st (st.conclude sc a d claimed).1 := by
  have resolved := idle_resolve st a d claimed
  rw [conclude_eq]
  split
  · exact .nothing resolved
  · exact (admits_handBack sc _ a d.id _).after (resolved.note a ⟨rfl, rfl⟩)

theorem idle_consult (a : ArbiterId) (d : Dispatch) (claimed : Bool) :
    Idle st (st.consult sc a d claimed).1 := by
  unfold consult
  split
  · have counted : Idle st { st with filterCalls := st.filterCalls + 1 } := .of_eq rfl rfl rfl
    exact counted.note a ⟨rfl, rfl⟩
  · exact .refl st

theorem admits_settle (a : ArbiterId) (d : Dispatch) (claimed : Bool) :
    Admits sc st (st.settle sc a d claimed).1 :=
  (admits_conclude sc _ a d _).after (idle_consult sc st a d claimed)

theorem idle_deliver (t : Ticket) (answer : Delivery) : Idle st (st.deliver sc t answer).1 := by
  have noted : Idle st (st.note t.arbiter (answer.entry t.responder t.id)) := by
    refine (Idle.refl st).note _ ?_
    cases answer <;> exact ⟨rfl, rfl⟩
  have answered := (st.book t.arbiter).alike_answer t.id answer.claimed
  rw [deliver_eq]
  simp only [book_note]
  generalize (st.book t.arbiter).docket.answer t.id answer.claimed = r at answered
  obtain ⟨docket, verdict⟩ := r
  have turned := noted.setBook answered
  split
  · cases verdict with
    | untracked | complete => exact turned
    | waiting => exact turned.note _ ⟨rfl, rfl⟩
  · exact noted.note _ ⟨rfl, rfl⟩

theorem admits_offer (a : ArbiterId) (d : Dispatch) (r : Responder) :
    Admits sc st (st.offer sc a d r).1 := by
  unfold offer
  cases r with
  | embedder =>
    simp only
    split
    · exact .nothing ((Idle.refl st).note _ ⟨rfl, rfl⟩)
    · exact .nothing (((Idle.refl st).note a ⟨rfl, rfl⟩).trans (idle_sendToRuntime sc _ _ _))
  | channel name keymap toolkit =>
    exact .nothing (((Idle.refl st).note a ⟨rfl, rfl⟩).trans (idle_sendOnChannel sc _ _ _ _))
  | extra rule =>
    have seen : Idle st { st with seen := st.seen ++ [(a, d)] } := .of_eq rfl rfl rfl
    cases rule with
    | answer | drop | claim => exact .nothing seen
    | hold => exact .nothing (seen.trans (.of_eq rfl rfl rfl))
    | reenter h => exact (admits_callHook sc _ h _ _).after seen

theorem admits_act (h : HookId) (e : KeyEvent) (value : Bool) (rest : Bool → List Task)
    (action : Action) : Admits sc st (st.act sc h e value rest action).1 := by
  cases action with
  | replay | restamp | event => exact admits_arrive sc st _ _
  | answer value => exact .nothing (.refl st)
  | sync modifiers time => exact .nothing (idle_sync st _ modifiers time)

theorem admits_step (t : Task) : Admits sc st (st.step sc t).1 := by
  match t with
  | .offer _ _ [] => exact .nothing (.refl st)
  | .offer a d (r :: rs) =>
    exact (admits_offer sc _ a d r).after ((Idle.refl st).note a ⟨rfl, rfl⟩)
  | .deliver t answer => exact .nothing (idle_deliver sc st t answer)
  | .settle a d claimed => exact admits_settle sc st a d claimed
  | .act h e (action :: actions) value outlet => exact admits_act sc st h e value _ action
  | .act _ _ [] value (.answer t) => exact .nothing (.refl st)
  | .act _ e [] value .inline => exact .nothing (.of_eq rfl rfl rfl)
  | .feed _ [] => exact .nothing (.refl st)
  | .feed a (e :: es) => exact admits_arrive sc st a e

end State

/-! ## Commands -/

def Session.Command.AboutLayout : Command → Prop
  | .layoutChange | .layoutLookup _ => True
  | _ => False

namespace Session

open State (Idle Admits)

variable (s : Session)

theorem admits_meet (a : ArbiterId) (e : KeyEvent) : Admits s.scene s.state (s.meet a e).1.state := by
  unfold meet
  split
  · exact State.admits_arrive s.scene s.state a e
  · exact .nothing (.refl _)

theorem idle_close (c : Completion) (how : Ending) : Idle s.state (s.close c how).1.state := by
  cases how with
  | answer claimed => exact s.state.idle_complete claimed c
  | drop => exact s.state.idle_abandon c

theorem idle_addResponders (extra : List ResponderSpec) :
    Idle s.state (s.addResponders extra).1.state := by
  induction extra generalizing s with
  | nil => exact .refl _
  | cons r rs ih =>
    have first : Idle s.state (s.addResponder r).1.state := by
      cases r <;> exact .of_eq rfl rfl rfl
    exact first.trans (ih (s.addResponder r).1)

theorem idle_receive (channel : String) (data : List UInt8) :
    Idle s.state (s.receive channel data).1.state := by
  unfold receive
  split
  · exact .refl _
  · exact .refl _
  · split
    · split
      · exact .refl _
      · exact (Idle.refl _).note _ ⟨rfl, rfl⟩
      · exact (Idle.refl _).note _ ⟨rfl, rfl⟩
    · exact .refl _

theorem admits_launch {c : Command} (other : ¬ c.AboutLayout) :
    Admits s.scene s.state (s.launch c).1.state := by
  cases c with
  | event a e => exact admits_meet s a e
  | feed a slot =>
    simp only [launch]
    split
    · exact .nothing (.refl _)
    · exact admits_meet s a _
  | sync a modifiers time =>
    simp only [launch]
    split
    · exact .nothing (s.state.idle_sync a modifiers time)
    · exact .nothing (.refl _)
  | hostSend e => exact .nothing (s.state.idle_sendToRuntime s.scene e none)
  | channelSend channel data => exact .nothing (s.state.idle_sendOnChannel s.scene channel data none)
  | hostRedispatch e => exact s.state.admits_redispatch s.scene e
  | respond slot claimed =>
    rcases taken : s.takeCompletion slot with ⟨s', o⟩
    obtain ⟨state, -, -⟩ := takeCompletion_spec taken 0
    simp only [launch, taken, ← state]
    rcases o with _ | _ | c
    · exact .nothing (.refl _)
    · exact .nothing (.refl _)
    · exact .nothing (s'.idle_close c _)
  | takeCallback slot =>
    rcases taken : s.takeCompletion slot with ⟨s', o⟩
    obtain ⟨state, -, -⟩ := takeCompletion_spec taken 0
    simp only [launch, perform, taken, ← state]
    rcases o with _ | _ | c <;> exact .nothing (.refl _)
  | dropRecord slot =>
    simp only [launch]
    split
    · exact .nothing (.refl _)
    · next records r _ =>
      split
      · exact .nothing (idle_close { s with records } _ .drop)
      · exact .nothing (.refl _)
  | endCallback slot how =>
    simp only [launch]
    split
    · exact .nothing (.refl _)
    · next callbacks c _ => exact .nothing (idle_close { s with callbacks } c how)
  | endHeld slot how =>
    simp only [launch]
    split
    · exact .nothing (.refl _)
    · cases how <;> exact .nothing (.of_eq rfl rfl rfl)
  | loop a reversed => exact .nothing (.of_eq rfl rfl rfl)
  | build settings scripted extra =>
    exact .nothing ((s.idle_addResponders extra).note _ ⟨rfl, rfl⟩)
  | dispose a =>
    simp only [launch, perform]
    split
    · exact .nothing ((Idle.refl _).note _ ⟨rfl, rfl⟩)
    · exact .nothing (.refl _)
  | setRedispatch mode => cases mode <;> exact .nothing (.of_eq rfl rfl rfl)
  | layoutChange | layoutLookup => exact absurd trivial other
  | receive channel data => exact .nothing (s.idle_receive channel data)
  | _ => exact .nothing (.of_eq rfl rfl rfl)

end Session

end KeyArbiter
