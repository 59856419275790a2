import KeyArbiter.Proofs.Immediate
import KeyArbiter.Proofs.Resolution
import Mathlib

/-!
# Tickets

A responder that is offered an event gets a ticket to answer. It may lie in a record of the host, be
taken with the record or moved out of it, be held by the responder, or be on its way in a call.
Wherever it lies, it is used once: no answer is lost, and none is given twice.
-/

namespace KeyArbiter

open Session (Command Ending)

/-! ## Where tickets lie -/

def CallRecord.ticket? (r : CallRecord) : Option Ticket := r.completion.bind Completion.owner

def Outlet.ticket? : Outlet → Option Ticket
  | .answer t => some t
  | .inline => none

namespace Task

/-- The ticket of an answer that is on its way, or that a hook is still to give. -/
def ticket? : Task → Option Ticket
  | .deliver t _ => some t
  | .act _ _ _ _ outlet => outlet.ticket?
  | _ => none

def unoffered (a : ArbiterId) (id : Nat) : Task → Nat
  | .offer b d rs => if b = a ∧ d.id = id then rs.length else 0
  | _ => 0

end Task

namespace Moment

variable (m : Moment)

/-- The tickets that were given out and not used yet. -/
def tickets : List Ticket :=
  m.state.records.filterMap CallRecord.ticket? ++ m.state.held.filterMap (fun o => o) ++
    m.session.records.filterMap (fun o => o.bind CallRecord.ticket?) ++
    m.session.callbacks.filterMap (fun o => o.bind Completion.owner) ++
    m.tasks.filterMap Task.ticket?

/-- How many answers for an event may still be given. -/
def live (a : ArbiterId) (id : Nat) : Nat :=
  m.tickets.countP fun t => t.arbiter = a ∧ t.id = id

def unoffered (a : ArbiterId) (id : Nat) : Nat := (m.tasks.map (Task.unoffered a id)).sum

end Moment

/-! ## Duties by weight -/

namespace Duty

def answers (id : Nat) : Duty → Nat
  | .ticket id' => if id' = id then 1 else 0
  | _ => 0

def offersLeft (id : Nat) : Duty → Nat
  | .offer d rs => if d.id = id then rs.length else 0
  | _ => 0

end Duty

def weigh (w : Duty → Nat) (duties : Multiset Duty) : Nat := (duties.map w).sum

section Weigh

variable (w : Duty → Nat)

@[simp] theorem weigh_zero : weigh w 0 = 0 := rfl

@[simp] theorem weigh_add (D D' : Multiset Duty) : weigh w (D + D') = weigh w D + weigh w D' := by
  simp [weigh]

@[simp] theorem weigh_singleton (x : Duty) : weigh w {x} = w x := by
  simp [weigh]

theorem weigh_replicate (n : Nat) (x : Duty) : weigh w (Multiset.replicate n x) = n * w x := by
  simp [weigh]

theorem weigh_offers (d : Dispatch) (rs : List Responder) (empty : w (.offer d []) = 0) :
    weigh w (Duty.offers d rs) = w (.offer d rs) := by
  cases rs with
  | nil => exact empty.symm
  | cons r rs => exact weigh_singleton ..

theorem weigh_eq_zero {D : Multiset Duty} (h : ∀ x ∈ D, w x = 0) : weigh w D = 0 := by
  rw [weigh, Multiset.sum_eq_zero_iff]
  intro n hn
  obtain ⟨x, hx, rfl⟩ := Multiset.mem_map.1 hn
  exact h x hx

theorem weigh_filter {id : Nat} (own : ∀ x : Duty, x.id ≠ id → w x = 0) (D : Multiset Duty) :
    weigh w (D.filter (·.id = id)) = weigh w D := by
  have rest : weigh w (D.filter fun x => ¬ x.id = id) = 0 :=
    weigh_eq_zero w fun x hx => own x (Multiset.mem_filter.1 hx).2
  calc weigh w (D.filter (·.id = id))
      = weigh w (D.filter (·.id = id)) + weigh w (D.filter fun x => ¬ x.id = id) := by rw [rest]; rfl
    _ = weigh w D := by rw [← weigh_add, Multiset.filter_add_not]

end Weigh

theorem Duty.answers_of_ne {id : Nat} (x : Duty) (ne : x.id ≠ id) : x.answers id = 0 := by
  cases x with
  | ticket => exact if_neg ne
  | offer | settle => rfl

theorem Duty.offersLeft_of_ne {id : Nat} (x : Duty) (ne : x.id ≠ id) : x.offersLeft id = 0 := by
  cases x with
  | offer => exact if_neg ne
  | ticket | settle => rfl

/-! ### Duties and tickets -/

section Count

variable (a : ArbiterId) (id : Nat)

theorem weigh_tickets {α : Type} (D : α → Multiset Duty) (f : α → Option Ticket)
    (each : ∀ x, weigh (Duty.answers id) (D x) = weigh (Duty.answers id) (ownerDuties a (f x)))
    (l : List α) :
    weigh (Duty.answers id) (l.map D).sum =
      (l.filterMap f).countP fun t => t.arbiter = a ∧ t.id = id := by
  induction l with
  | nil => rfl
  | cons x l ih =>
    rw [List.map_cons, List.sum_cons, weigh_add, ih, each]
    cases h : f x with
    | none =>
      rw [List.filterMap_cons_none h, ownerDuties, Option.elim_none, weigh_zero, zero_add]
    | some t =>
      rw [List.filterMap_cons_some h, List.countP_cons, ownerDuties, Option.elim_some, Ticket.duties,
        add_comm]
      by_cases own : t.arbiter = a
      · simp [own, Duty.answers]
      · simp [own]

theorem weigh_slots {α : Type} (D : α → Multiset Duty) (f : α → Option Ticket)
    (each : ∀ x, D x = ownerDuties a (f x)) (slots : List (Option α)) :
    weigh (Duty.answers id) (slotDuties D slots) =
      (slots.filterMap (·.bind f)).countP fun t => t.arbiter = a ∧ t.id = id := by
  refine weigh_tickets a id _ _ (fun o => ?_) slots
  cases o with
  | none => rfl
  | some x => rw [Option.elim_some, each, Option.bind_some]

theorem CallRecord.duties_eq (r : CallRecord) : r.duties a = ownerDuties a r.ticket? := by
  unfold CallRecord.duties CallRecord.ticket?
  cases r.completion <;> rfl

theorem Task.weigh_answers (t : Task) :
    weigh (Duty.answers id) (t.duties a) = weigh (Duty.answers id) (ownerDuties a t.ticket?) := by
  cases t with
  | deliver | feed => rfl
  | act h e actions value outlet => cases outlet <;> rfl
  | offer b d rs =>
    rw [Task.duties]
    split
    · exact weigh_offers _ d rs rfl
    · rfl
  | settle b d claimed =>
    rw [Task.duties]
    split <;> rfl

theorem Task.weigh_offersLeft (t : Task) :
    weigh (Duty.offersLeft id) (t.duties a) = t.unoffered a id := by
  have ticket (t : Ticket) : weigh (Duty.offersLeft id) (t.duties a) = 0 := by
    unfold Ticket.duties
    split <;> rfl
  cases t with
  | deliver t => exact ticket t
  | feed => rfl
  | act h e actions value outlet =>
    cases outlet with
    | answer t => exact ticket t
    | inline => rfl
  | offer b d rs =>
    rw [Task.duties, Task.unoffered]
    by_cases own : b = a
    · rw [if_pos own, weigh_offers _ d rs (by simp [Duty.offersLeft])]
      simp [Duty.offersLeft, own]
    · simp [own]
  | settle b d claimed =>
    rw [Task.duties]
    split <;> rfl

namespace Moment

variable (m : Moment)

theorem weigh_answers : weigh (Duty.answers id) (m.desk a).duties = m.live a id := by
  have records := weigh_tickets a id (CallRecord.duties a) CallRecord.ticket?
    (fun r => by rw [r.duties_eq]) m.state.records
  have held := weigh_slots a id (Ticket.duties a) some (fun _ => rfl) m.state.held
  have taken := weigh_slots a id (CallRecord.duties a) CallRecord.ticket?
    (fun r => r.duties_eq a) m.session.records
  have moved := weigh_slots a id (Completion.duties a) Completion.owner (fun _ => rfl)
    m.session.callbacks
  have tasks := weigh_tickets a id (Task.duties a) Task.ticket? (Task.weigh_answers a id) m.tasks
  have here : (fun o : Option Ticket => o.bind some) = fun o => o := by
    funext o
    cases o <;> rfl
  rw [here] at held
  simp only [Moment.desk, State.desk, State.duties, taskDuties, Session.duties, weigh_add, records,
    held, taken, moved, tasks, live, tickets, List.countP_append]
  omega

theorem weigh_offersLeft : weigh (Duty.offersLeft id) (m.desk a).duties = m.unoffered a id := by
  have light {D : Multiset Duty} (only : OnlyAnswers D) : weigh (Duty.offersLeft id) D = 0 := by
    refine weigh_eq_zero _ fun x hx => ?_
    rw [only x hx]
    rfl
  have tasks (tasks : List Task) : weigh (Duty.offersLeft id) (taskDuties a tasks) =
      (tasks.map (Task.unoffered a id)).sum := by
    induction tasks with
    | nil => rfl
    | cons t tasks ih => rw [taskDuties_cons, weigh_add, ih, Task.weigh_offersLeft]; rfl
  simp only [Moment.desk, State.desk, weigh_add, tasks, light (.state a _), light (.session a _)]
  simp [unoffered]

end Moment

end Count

/-! ## The balance of an event -/

/-- As many answers are still to come for an event as there are tickets and responders that it was
not offered to yet. -/
structure Dossier.Balanced (D : Dossier) (id : Nat) : Prop where
  outstanding : ∀ c ∈ D.cases, c.returned = false →
    c.outstanding = weigh (Duty.answers id) D.duties + weigh (Duty.offersLeft id) D.duties
  claimed : ∀ c ∈ D.cases, c.returned = false → c.claimed = (D.history.filterMap Entry.answer?).any (·)
  offered : (D.history.filterMap Entry.offer?).length =
    (D.history.filterMap Entry.answer?).length + weigh (Duty.answers id) D.duties
  live : 0 < weigh (Duty.answers id) D.duties → ∃ c ∈ D.cases, c.returned = false ∧
    ∀ claimed, .settle c.dispatch claimed ∉ D.duties
  awaited : ∀ c ∈ D.cases, c.returned = false →
    0 < c.outstanding ∨ .settle c.dispatch c.claimed ∈ D.duties

theorem Underway.length_offers {setup : Setup} {d : Dispatch} {rs : List Responder} {left : Nat}
    {claimed : Bool} {history : List Entry} (h : Underway setup d rs left claimed history) :
    (history.filterMap Entry.offer?).length + rs.length =
      (history.filterMap Entry.answer?).length + left := by
  have length := congrArg List.length h.offered
  rw [List.length_append, List.length_reverse, List.length_map, List.length_map] at length
  rw [length, h.answered]

theorem Dossier.Balanced.of_settled {setup : Setup} {d : Dispatch} {claimed : Bool}
    {late history : List Entry} {cases : List Case}
    (silent : ∀ x ∈ late, x.dispatch? = none ∧ x.offer? = none ∧ x.answer? = none)
    (underway : Underway setup d [] 0 claimed history) (back : ∀ c ∈ cases, c.returned = true)
    (id : Nat) : Dossier.Balanced ⟨cases, late ++ history, 0⟩ id := by
  have offers : late.filterMap Entry.offer? = [] :=
    List.filterMap_eq_nil_iff.2 fun x hx => (silent x hx).2.1
  have answers : late.filterMap Entry.answer? = [] :=
    List.filterMap_eq_nil_iff.2 fun x hx => (silent x hx).2.2
  have none {p : Case → Prop} : ∀ c ∈ cases, c.returned = false → p c := by
    intro c hc here
    simp [back c hc] at here
  refine ⟨none, none, ?_, fun some => absurd some (lt_irrefl _), none⟩
  rw [List.filterMap_append, List.filterMap_append, offers, answers]
  exact underway.length_offers

theorem Stage.balanced {setup : Setup} {id : Nat} {D : Dossier} (stage : Stage setup id D) :
    D.Balanced id := by
  cases stage with
  | unborn => exact ⟨nofun, nofun, rfl, fun some => absurd some (lt_irrefl _), nofun⟩
  | @waiting d rs k claimed history underway left =>
    have tickets : weigh (Duty.answers d.id)
        (Multiset.replicate k (.ticket d.id) + Duty.offers d rs) = k := by
      rw [weigh_add, weigh_replicate, weigh_offers _ _ _ rfl]
      simp [Duty.answers]
    have offers : weigh (Duty.offersLeft d.id)
        (Multiset.replicate k (.ticket d.id) + Duty.offers d rs) = rs.length := by
      rw [weigh_add, weigh_replicate, weigh_offers _ _ _ (by simp [Duty.offersLeft])]
      simp [Duty.offersLeft]
    have length := underway.length_offers
    refine ⟨?_, ?_, ?_, fun _ => ⟨_, List.mem_singleton_self _, rfl, fun claimed' owed => ?_⟩, ?_⟩
    · intro c hc _
      obtain rfl := List.mem_singleton.1 hc
      rw [tickets, offers]
    · intro c hc _
      obtain rfl := List.mem_singleton.1 hc
      exact underway.claimed
    · rw [tickets]
      change (history.filterMap _).length = (history.filterMap _).length + k
      omega
    · rcases Multiset.mem_add.1 owed with owed | owed
      · cases Multiset.eq_of_mem_replicate owed
      · cases rs <;> simp [Duty.offers] at owed
    · intro c hc _
      obtain rfl := List.mem_singleton.1 hc
      exact .inl left
  | @settling d claimed history underway =>
    have none : weigh (Duty.answers d.id) {.settle d claimed} = 0 := weigh_singleton ..
    refine ⟨?_, ?_, ?_, fun some => absurd some (by rw [none]; exact lt_irrefl 0), ?_⟩
    · intro c hc _
      obtain rfl := List.mem_singleton.1 hc
      rw [none, weigh_singleton]
      rfl
    · intro c hc _
      obtain rfl := List.mem_singleton.1 hc
      exact underway.claimed
    · rw [none]
      exact underway.length_offers
    · intro c hc _
      obtain rfl := List.mem_singleton.1 hc
      exact .inr (Multiset.mem_singleton_self _)
  | closed underway =>
    exact .of_settled (silent_settlement _ _ _ _ _) underway (fun _ hc => absurd hc List.not_mem_nil) _
  | returned underway =>
    refine .of_settled (silent_settlement _ _ _ _ _) underway ?_ _
    intro c hc
    obtain rfl := List.mem_singleton.1 hc
    rfl
  | @replayed d claimed consumes history underway =>
    rw [List.cons_append, ← List.cons_append]
    refine .of_settled ?_ underway (fun _ hc => absurd hc List.not_mem_nil) _
    exact List.forall_mem_cons.2 ⟨⟨rfl, rfl, rfl⟩, silent_settlement _ _ _ _ _⟩

/-! ## Holders -/

/-- Where a session keeps a ticket that it may use. -/
inductive Holder
  | record (slot : Nat)
  | callback (slot : Nat)
  | held (slot : Nat)
  deriving DecidableEq

def Session.ticketAt (s : Session) : Holder → Option Ticket
  | .record slot => (s.records.getD slot none).bind CallRecord.ticket?
  | .callback slot => (s.callbacks.getD slot none).bind Completion.owner
  | .held slot => s.state.held.getD slot none

def Holder.ended : Holder → Ending → Command
  | .record slot, .answer claimed => .respond slot claimed
  | .record slot, .drop => .dropRecord slot
  | .callback slot, how => .endCallback slot how
  | .held slot, how => .endHeld slot how

def Session.Ending.delivery : Ending → Delivery
  | .answer claimed => .answered claimed
  | .drop => .dropped

structure Ended (s : Session) (h : Holder) (s' : Session) : Prop where
  scene : s'.scene = s.scene
  state : s'.state = { s.state with held := s'.state.held, direct := s'.state.direct }
  kept : ∀ h', s'.ticketAt h' = if h' = h then none else s.ticketAt h'
  duties (a : ArbiterId) : ownerDuties a (s.ticketAt h) + (s'.state.duties a + s'.duties a) =
    s.state.duties a + s.duties a

namespace Ended

variable {s : Session} {slot : Nat}

theorem getD_set {α : Type} {slots : List (Option α)} {n : Nat} {x : α}
    (full : slots.getD n none = some x) (m : Nat) (o : Option α) :
    (slots.set n o).getD m none = if m = n then o else slots.getD m none := by
  have lt : n < slots.length := by
    by_contra le
    rw [List.getD_eq_default _ _ (not_lt.1 le)] at full
    cases full
  rw [List.getD_eq_getElem?_getD, List.getD_eq_getElem?_getD, List.getElem?_set]
  by_cases eq : m = n
  · simp [eq, lt]
  · simp [eq, Ne.symm eq]

theorem nothing (h : Holder) (empty : s.ticketAt h = none) : Ended s h s := by
  refine ⟨rfl, rfl, ?_, ?_⟩
  · intro h'
    split
    · next eq => rw [eq, empty]
    · rfl
  · intro a
    rw [empty]
    exact zero_add _

theorem direct {s' : Session} {h : Holder} (ended : Ended s h s') (direct : List DirectResult) :
    Ended s h { s' with state := { s'.state with direct } } := by
  refine ⟨ended.scene, ?_, fun h' => ?_, ended.duties⟩
  · simp only
    rw [ended.state]
  · rw [← ended.kept h']
    cases h' <;> rfl

theorem record {r : CallRecord} (full : s.records.getD slot none = some r) {o : Option CallRecord}
    (empty : o.bind CallRecord.ticket? = none) :
    Ended s (.record slot) { s with records := s.records.set slot o } := by
  refine ⟨rfl, rfl, ?_, ?_⟩
  · rintro (n | n | n)
    · simp only [Session.ticketAt, getD_set full, Holder.record.injEq]
      split
      · exact empty
      · rfl
    · rfl
    · rfl
  · intro a
    have freed := Session.slotDuties_set (CallRecord.duties a) full o
    have none : o.elim 0 (CallRecord.duties a) = 0 := by
      cases o with
      | none => rfl
      | some r =>
        rw [Option.bind_some] at empty
        rw [Option.elim_some, r.duties_eq, empty]
        rfl
    rw [none, zero_add] at freed
    simp only [Session.ticketAt, Session.duties, full, Option.bind_some, ← r.duties_eq, ← freed]
    abel

theorem callback {c : Completion} (full : s.callbacks.getD slot none = some c) :
    Ended s (.callback slot) { s with callbacks := s.callbacks.set slot none } := by
  refine ⟨rfl, rfl, ?_, ?_⟩
  · rintro (n | n | n)
    · rfl
    · simp only [Session.ticketAt, getD_set full, Holder.callback.injEq]
      split <;> rfl
    · rfl
  · intro a
    have freed := Session.slotDuties_set (Completion.duties a) full none
    rw [Option.elim_none, zero_add] at freed
    simp only [Session.ticketAt, Session.duties, full, Option.bind_some, ← freed]
    rw [Completion.duties]
    abel

theorem held {t : Ticket} (full : s.state.held.getD slot none = some t) :
    Ended s (.held slot) { s with state := { s.state with held := s.state.held.set slot none } } := by
  refine ⟨rfl, rfl, ?_, ?_⟩
  · rintro (n | n | n)
    · rfl
    · rfl
    · simp only [Session.ticketAt, getD_set full, Holder.held.injEq]
  · intro a
    have freed := Session.slotDuties_set (Ticket.duties a) full none
    rw [Option.elim_none, zero_add] at freed
    simp only [Session.ticketAt, State.duties, full, ownerDuties, Option.elim_some, ← freed]
    abel

end Ended

namespace Session

variable (s : Session)

theorem close_owned {c : Completion} {t : Ticket} (owned : c.owner = some t) (how : Ending) :
    s.close c how = (s, [.deliver t how.delivery]) := by
  have sent (channel : String) (data : List UInt8) : ((Except.ok data).mapError .transport >>=
      KeyReply.decode channel) = KeyReply.decode channel data := rfl
  cases c with
  | verdict owner =>
    obtain rfl : owner = some t := owned
    cases how <;> rfl
  | reply owner channel =>
    obtain rfl : owner = some t := owned
    cases how with
    | drop => rfl
    | answer claimed =>
      simp only [close, State.complete, State.giveReply, sent, decode_replyData]
      rfl

theorem close_unowned {c : Completion} (unowned : c.owner = none) (how : Ending) :
    ∃ direct, s.close c how = ({ s with state := { s.state with direct } }, []) := by
  cases c with
  | verdict owner | reply owner =>
    obtain rfl : owner = none := unowned
    cases how <;> exact ⟨_, rfl⟩

theorem close_ended {h : Holder} {s' : Session} {c : Completion} (ended : Ended s h s')
    (here : s.ticketAt h = c.owner) (how : Ending) :
    ∃ s'', s'.close c how = (s'', (s.ticketAt h).toList.map (.deliver · how.delivery)) ∧
      Ended s h s'' := by
  cases owner : c.owner with
  | none =>
    obtain ⟨direct, eq⟩ := close_unowned s' owner how
    exact ⟨_, by rw [eq, here, owner]; rfl, ended.direct direct⟩
  | some t => exact ⟨s', by rw [close_owned s' owner, here, owner]; rfl, ended⟩

theorem launch_ended (h : Holder) (how : Ending) :
    ∃ s', s.launch (h.ended how) = (s', (s.ticketAt h).toList.map (.deliver · how.delivery)) ∧
      Ended s h s' := by
  cases h with
  | record slot =>
    cases full : s.records.getD slot none with
    | none =>
      have empty : s.ticketAt (.record slot) = none := by rw [ticketAt, full]; rfl
      refine ⟨s, ?_, .nothing _ empty⟩
      rw [empty]
      cases how <;> simp only [Holder.ended, launch, takeCompletion, takeSlot, full] <;> rfl
    | some r =>
      have here : s.ticketAt (.record slot) = r.completion.bind Completion.owner := by
        rw [ticketAt, full]
        rfl
      have left := Ended.record full (o := some { r with completion := none }) rfl
      have gone := Ended.record full (o := none) rfl
      cases open? : r.completion with
      | none =>
        rw [open?] at here
        cases how with
        | answer claimed =>
          refine ⟨_, ?_, left⟩
          simp only [Holder.ended, launch, takeCompletion, full, open?, here]
          rfl
        | drop =>
          refine ⟨_, ?_, gone⟩
          simp only [Holder.ended, launch, takeSlot, full, open?, here]
          rfl
      | some c =>
        rw [open?, Option.bind_some] at here
        cases how with
        | answer claimed =>
          simp only [Holder.ended, launch, takeCompletion, full, open?]
          exact close_ended s left here _
        | drop =>
          simp only [Holder.ended, launch, takeSlot, full, open?]
          exact close_ended s gone here _
  | callback slot =>
    simp only [Holder.ended, launch, takeSlot]
    cases full : s.callbacks.getD slot none with
    | none =>
      have empty : s.ticketAt (.callback slot) = none := by rw [ticketAt, full]; rfl
      exact ⟨s, by rw [empty]; rfl, .nothing _ empty⟩
    | some c => exact close_ended s (.callback full) (by rw [ticketAt, full]; rfl) how
  | held slot =>
    simp only [Holder.ended, launch, takeSlot]
    cases full : s.state.held.getD slot none with
    | none => exact ⟨s, by rw [ticketAt, full]; rfl, .nothing _ full⟩
    | some t =>
      refine ⟨_, ?_, .held full⟩
      rw [ticketAt, full]
      cases how <;> rfl

end Session

/-! ## At every moment -/

/-- The end of a ticket delivers one answer and leaves its place empty. From an empty place nothing
is delivered. -/
def EndsOnce : Prop :=
  ∀ (s : Session) (h : Holder) (how : Ending),
    (s.launch (h.ended how)).2 = (s.ticketAt h).toList.map (.deliver · how.delivery) ∧
      ∀ h', (s.launch (h.ended how)).1.ticketAt h' = if h' = h then none else s.ticketAt h'

theorem endsOnce : EndsOnce := by
  intro s h how
  obtain ⟨s', eq, ended⟩ := s.launch_ended h how
  rw [eq]
  exact ⟨rfl, ended.kept⟩

/-- Every reply on a channel is one answer, and claims the event only if it is well-formed and says
so. -/
def RepliesOnce : Prop :=
  ∀ (st : State) (channel : String) (reply : Except TransportError (List UInt8)) (t : Ticket),
    ∃ claimed, (st.giveReply channel reply (some t)).2 = [.deliver t (.answered claimed)] ∧
      (claimed = true ↔
        ∃ data r, reply = .ok data ∧ KeyReply.decode channel data = .ok r ∧ r.handled = true)

theorem repliesOnce : RepliesOnce := by
  intro st channel reply t
  cases reply with
  | error e => exact ⟨false, rfl, by simp⟩
  | ok data =>
    have sent : ((Except.ok data).mapError .transport >>= KeyReply.decode channel) =
        KeyReply.decode channel data := rfl
    simp only [State.giveReply, sent]
    cases decoded : KeyReply.decode channel data with
    | error e => exact ⟨false, rfl, by simp [decoded]⟩
    | ok r => exact ⟨r.handled, rfl, by simp [decoded]⟩

theorem answersTo_cons {x : Entry} (silent : x.answer? = none) (past : List Entry) (id : Nat) :
    answersTo (x :: past) id = answersTo past id := by
  rw [answersTo, historyOf, List.filter_cons]
  split
  · rw [List.filterMap_cons_none silent]
    rfl
  · rfl

/-- An answer that is delivered is noted once, and leaves nobody with a ticket. -/
def DeliversOnce : Prop :=
  ∀ (sc : Scene) (st : State) (t : Ticket) (answer : Delivery),
    (st.deliver sc t answer).2.filterMap Task.ticket? = [] ∧
      ∀ a id, answersTo ((st.deliver sc t answer).1.journal.about a) id =
        if t.arbiter = a ∧ t.id = id then answer.claimed :: answersTo (st.journal.about a) id
        else answersTo (st.journal.about a) id

theorem deliversOnce : DeliversOnce := by
  intro sc st t answer
  have quiet (st : State) (x : Entry) (silent : x.answer? = none) (a : ArbiterId) (id : Nat) :
      answersTo ((st.note t.arbiter x).journal.about a) id = answersTo (st.journal.about a) id := by
    rw [State.note, Journal.about_cons]
    split
    · exact answersTo_cons silent ..
    · rfl
  have noted (a : ArbiterId) (id : Nat) :
      answersTo ((st.note t.arbiter (answer.entry t.responder t.id)).journal.about a) id =
        if t.arbiter = a ∧ t.id = id then answer.claimed :: answersTo (st.journal.about a) id
        else answersTo (st.journal.about a) id := by
    rw [State.note, Journal.about_cons]
    by_cases own : t.arbiter = a <;> by_cases same : t.id = id <;> cases answer <;>
      simp [answersTo, historyOf, own, same, Delivery.entry, Entry.event?, Entry.answer?,
        Delivery.claimed]
  rw [State.deliver_eq]
  simp only
  split
  · split
    · exact ⟨rfl, noted⟩
    · exact ⟨rfl, fun a id => (quiet _ _ rfl a id).trans (noted a id)⟩
    · exact ⟨rfl, noted⟩
  · exact ⟨rfl, fun a id => (quiet _ _ rfl a id).trans (noted a id)⟩

theorem mem_taskDuties {a : ArbiterId} {t : Task} {tasks : List Task} {x : Duty} (ht : t ∈ tasks)
    (hx : x ∈ t.duties a) : x ∈ taskDuties a tasks := by
  obtain ⟨before, later, rfl⟩ := List.append_of_mem ht
  rw [taskDuties_append, taskDuties_cons]
  exact Multiset.mem_add.2 (.inr (Multiset.mem_add.2 (.inl hx)))

namespace Moment

theorem live_pos {m : Moment} {a : ArbiterId} {t : Ticket} (ht : t ∈ m.tickets)
    (own : t.arbiter = a) : 0 < m.live a t.id :=
  List.countP_pos_iff.2 ⟨t, ht, by simp [own]⟩

theorem live_eq_zero {m : Moment} {a : ArbiterId} (none : ∀ t ∈ m.tickets, t.arbiter ≠ a) (id : Nat) :
    m.live a id = 0 :=
  List.countP_eq_zero.2 fun t ht => by simp [none t ht]

/-- No answer is lost, and none is given twice: whoever was offered an event has answered or holds a
ticket, and the case of the event counts those that have not. -/
theorem answers_balanced (moves : List Move) {a : ArbiterId}
    (alive : (after moves).scene.isAlive a) :
    let m := after moves
    let docket := (m.book a).docket
    EndsOnce ∧ RepliesOnce ∧ DeliversOnce ∧
    (∀ c ∈ docket.cases, c.returned = false →
      c.outstanding = m.live a c.dispatch.id + m.unoffered a c.dispatch.id ∧
        c.claimed = (answersTo (m.past a) c.dispatch.id).any (·)) ∧
    (∀ t ∈ m.tickets, t.arbiter = a → ∃ c ∈ docket.cases, c.dispatch.id = t.id ∧
      c.returned = false ∧ ∀ claimed, .settle a c.dispatch claimed ∉ m.tasks) ∧
    (∀ id, (offersOf (m.past a) id).length = (answersTo (m.past a) id).length + m.live a id) ∧
    (m.tasks = [] → (∀ t ∈ m.tickets, t.arbiter ≠ a) → docket.awaiting = 0) := by
  have sound := Moment.sound moves alive
  intro m docket
  have balanced (id : Nat) := (sound.stage id).balanced
  have tickets (id : Nat) :
      weigh (Duty.answers id) ((m.desk a).dossier id).duties = m.live a id := by
    rw [← weigh_answers]
    exact weigh_filter _ Duty.answers_of_ne _
  have offers (id : Nat) :
      weigh (Duty.offersLeft id) ((m.desk a).dossier id).duties = m.unoffered a id := by
    rw [← weigh_offersLeft]
    exact weigh_filter _ Duty.offersLeft_of_ne _
  have mine {c : Case} (hc : c ∈ docket.cases) :
      c ∈ ((m.desk a).dossier c.dispatch.id).cases := (Docket.mem_casesOf _).2 ⟨hc, rfl⟩
  have outstanding {c : Case} (hc : c ∈ docket.cases) (here : c.returned = false) :
      c.outstanding = m.live a c.dispatch.id + m.unoffered a c.dispatch.id := by
    rw [← tickets, ← offers]
    exact (balanced _).outstanding c (mine hc) here
  refine ⟨endsOnce, repliesOnce, deliversOnce, ?_, ?_, ?_, ?_⟩
  · intro c hc here
    exact ⟨outstanding hc here, (balanced _).claimed c (mine hc) here⟩
  · intro t ht own
    have live := live_pos ht own
    rw [← tickets] at live
    obtain ⟨c, hc, here, unsettled⟩ := (balanced t.id).live live
    obtain ⟨hc, same⟩ := (Docket.mem_casesOf _).1 hc
    refine ⟨c, hc, same, here, fun claimed settling => unsettled claimed ?_⟩
    refine Multiset.mem_filter.2 ⟨?_, same⟩
    refine Multiset.mem_add.2 (.inr (Multiset.mem_add.2 (.inl (mem_taskDuties settling ?_))))
    simp [Task.duties]
  · intro id
    rw [← tickets]
    exact (balanced id).offered
  · intro idle none
    refine List.countP_eq_zero.2 fun c hc here => ?_
    have here : c.returned = false := by simpa using here
    have unoffered : m.unoffered a c.dispatch.id = 0 := by
      rw [Moment.unoffered, idle]
      rfl
    rcases (balanced _).awaited c (mine hc) here with some | settling
    · rw [outstanding hc here, live_eq_zero none, unoffered] at some
      exact lt_irrefl 0 some
    · cases onlyAnswers idle a _ (Multiset.mem_filter.1 settling).1

/-- A press that is offered to the embedder, whose host keeps the call, and not yet to a responder
that holds its answers back. -/
def openPress : List Move :=
  [.command (.build { channelResponder := false } false [.hold]), .command (.setEmbedder .record),
    .command (.event 0 aPress), .go]

theorem answers_balanced_openPress :
    (after openPress).scene.isAlive 0 ∧ (after openPress).live 0 1 = 1 ∧
      (after openPress).unoffered 0 1 = 1 ∧
      (offersOf ((after openPress).past 0) 1).length =
        (answersTo ((after openPress).past 0) 1).length + 1 := by
  have alive : (after openPress).scene.isAlive 0 := by decide +kernel
  have live : (after openPress).live 0 1 = 1 := by decide +kernel
  obtain ⟨-, -, -, -, -, offered, -⟩ := answers_balanced openPress alive
  refine ⟨alive, live, by decide +kernel, ?_⟩
  rw [← live]
  exact offered 1

end Moment

end KeyArbiter
