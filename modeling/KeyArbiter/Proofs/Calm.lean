import KeyArbiter.Proofs.Desk
import Mathlib

/-!
# Calls that only add

A call into the host, or to a responder that makes no call of its own, adds to what is kept and
noted, and leaves at most an answer. What it adds does not depend on what was there.
-/

namespace KeyArbiter

structure Gift where
  journal : Journal := []
  records : List CallRecord := []
  sent : List String := []
  held : List (Option Ticket) := []
  seen : List (ArbiterId × Dispatch) := []
  direct : List DirectResult := []

namespace State

def add (st : State) (g : Gift) : State :=
  { st with
    journal := g.journal ++ st.journal
    records := st.records ++ g.records
    sent := st.sent ++ g.sent
    held := st.held ++ g.held
    seen := st.seen ++ g.seen
    direct := st.direct ++ g.direct }

theorem add_nothing (st : State) : st.add {} = st := by
  simp [add]

theorem note_eq_add (st : State) (a : ArbiterId) (x : Entry) :
    st.note a x = st.add { journal := [⟨a, x⟩] } := by
  simp [add, note]

/-- A call that adds the same to every state, and leaves nothing but answers of the owner. -/
def Gives (owner : Option Ticket) (call : State → Progress) : Prop :=
  ∃ g tasks, (∀ t ∈ tasks, ∃ ticket ∈ owner, ∃ answer, t = .deliver ticket answer) ∧
    ∀ st, call st = (st.add g, tasks)

namespace Gives

variable {owner : Option Ticket} {call : State → Progress}

theorem nothing {g : Gift} (adds : ∀ st, call st = (st.add g, [])) : Gives owner call :=
  ⟨g, [], nofun, adds⟩

theorem answer {g : Gift} {t : Ticket} (answer : Delivery)
    (adds : ∀ st, call st = (st.add g, [.deliver t answer])) : Gives (some t) call :=
  ⟨g, _, by simp, adds⟩

theorem comp (gives : Gives owner call) {first : State → State} {g : Gift}
    (adds : ∀ st, first st = st.add g) : Gives owner fun st => call (first st) := by
  obtain ⟨g', tasks, answers, eq⟩ := gives
  refine ⟨⟨g'.journal ++ g.journal, g.records ++ g'.records, g.sent ++ g'.sent, g.held ++ g'.held,
    g.seen ++ g'.seen, g.direct ++ g'.direct⟩, tasks, answers, fun st => ?_⟩
  simp [eq, adds, add]

theorem note (gives : Gives owner call) (a : ArbiterId) (x : Entry) :
    Gives owner fun st => call (st.note a x) :=
  gives.comp fun st => st.note_eq_add a x

end Gives

/-! ## Calls into the host -/

theorem gives_giveVerdict (claimed : Bool) (owner : Option Ticket) :
    Gives owner (·.giveVerdict claimed owner) := by
  cases owner with
  | none => exact .nothing (g := { direct := [.verdict claimed] }) fun st => by simp [giveVerdict, add]
  | some t => exact .answer (.answered claimed) fun st => by rw [add_nothing]; rfl

theorem gives_giveReply (channel : String) (reply : Except TransportError (List UInt8))
    (owner : Option Ticket) : Gives owner (·.giveReply channel reply owner) := by
  cases owner with
  | none => exact .nothing (g := { direct := [.reply reply] }) fun st => by simp [giveReply, add]
  | some t =>
    unfold giveReply
    simp only
    split
    · next r _ => exact .answer (.answered r.handled) fun st => by rw [add_nothing]
    · next e _ => exact .answer (.answered false) fun st => by rw [note_eq_add]

theorem gives_complete (claimed : Bool) (c : Completion) :
    Gives c.owner (·.complete claimed c) := by
  cases c with
  | verdict owner => exact gives_giveVerdict claimed owner
  | reply owner channel => exact gives_giveReply channel _ owner

theorem gives_abandon (c : Completion) : Gives c.owner (·.abandon c) := by
  cases c with
  | verdict owner | reply owner =>
    cases owner with
    | none => exact .nothing fun st => by rw [add_nothing]; rfl
    | some t => exact .answer .dropped fun st => by rw [add_nothing]; rfl

theorem keep_eq_add (st : State) (call : Call) (completion : Option Completion) :
    st.keep call completion = st.add { records := [⟨call, completion⟩] } := by
  simp [add, keep]

variable (sc : Scene)

theorem gives_sendToRuntime (e : RuntimeEvent) (owner : Option Ticket) :
    Gives owner (·.sendToRuntime sc e owner) := by
  unfold sendToRuntime
  split
  · exact gives_giveVerdict _ owner
  · exact .nothing fun st => by rw [keep_eq_add]
  · exact (gives_giveVerdict _ owner).comp fun st => st.keep_eq_add _ _

theorem gives_sendOnChannel (channel : String) (data : List UInt8) (owner : Option Ticket) :
    Gives owner (·.sendOnChannel sc channel data owner) := by
  have sent (st : State) : { st with sent := st.sent ++ [channel] } = st.add { sent := [channel] } := by
    simp [add]
  unfold sendOnChannel
  simp only
  split
  · exact (gives_giveReply channel _ owner).comp sent
  · have kept : Gives owner fun st =>
        (st.keep (.message (messageValue data)) (some (.reply owner channel)), []) :=
      .nothing fun st => by rw [keep_eq_add]
    exact kept.comp sent
  · exact (gives_giveReply channel _ owner).comp sent
  · exact (gives_giveReply channel _ owner).comp sent

end State

/-! ## Responders -/

/-- The responder makes no call of its own before it returns. -/
def Responder.Calm : Responder → Prop
  | .extra (.reenter _) => False
  | _ => True

theorem Responder.eq_reenter {r : Responder} (calm : ¬ r.Calm) : ∃ h, r = .extra (.reenter h) := by
  unfold Calm at calm
  split at calm
  · exact ⟨_, rfl⟩
  · exact absurd trivial calm

theorem State.gives_offer (sc : Scene) (a : ArbiterId) (d : Dispatch) {r : Responder}
    (calm : r.Calm) : Gives (some ⟨a, r.kind, d.id⟩) (·.offer sc a d r) := by
  unfold offer
  cases r with
  | embedder =>
    simp only
    split
    · exact .answer (.answered true) fun st => by rw [note_eq_add]
    · exact (gives_sendToRuntime sc _ _).note a _
  | channel name keymap toolkit => exact (gives_sendOnChannel sc _ _ _).note a _
  | extra rule =>
    cases rule with
    | answer claimed =>
      exact .answer (g := { seen := [(a, d)] }) (.answered claimed) fun st => by simp [add]
    | drop => exact .answer (g := { seen := [(a, d)] }) .dropped fun st => by simp [add]
    | hold =>
      exact .nothing (g := { seen := [(a, d)], held := [some ⟨a, .extra, d.id⟩] })
        fun st => by simp [add, Responder.kind]
    | claim transitions =>
      exact .answer (g := { seen := [(a, d)] }) (.answered (transitions.contains d.transition))
        fun st => by simp [add]
    | reenter h => exact calm.elim

end KeyArbiter
