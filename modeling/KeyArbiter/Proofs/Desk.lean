import KeyArbiter.Proofs.Moment
import Mathlib

/-!
# The desk of an arbiter

All that concerns one arbiter at a moment: its book, its part of the journal, and what is still owed
for its events, wherever that is kept. `Change` lists all that can happen on a desk.
-/

namespace KeyArbiter

/-! ## What is owed -/

/-- What is still owed for an event. -/
inductive Duty
  /-- The answer of one responder. -/
  | ticket (id : Nat)
  /-- Offering the event to responders. -/
  | offer (d : Dispatch) (responders : List Responder)
  /-- Settling an event that all have answered for. -/
  | settle (d : Dispatch) (claimed : Bool)

namespace Duty

def id : Duty → Nat
  | .ticket id => id
  | .offer d _ => d.id
  | .settle d _ => d.id

/-- What remains to be offered. Nothing is owed once the last responder had its turn. -/
def offers (d : Dispatch) : List Responder → Multiset Duty
  | [] => 0
  | r :: rs => {.offer d (r :: rs)}

def first (d : Dispatch) : List Responder → Duty
  | [] => .settle d false
  | r :: rs => .offer d (r :: rs)

end Duty

/-! ### Where it is kept -/

section Kept

variable (a : ArbiterId)

def Ticket.duties (t : Ticket) : Multiset Duty := if t.arbiter = a then {.ticket t.id} else 0

def Completion.owner : Completion → Option Ticket
  | .verdict owner => owner
  | .reply owner _ => owner

def ownerDuties (owner : Option Ticket) : Multiset Duty := owner.elim 0 (·.duties a)

def Completion.duties (c : Completion) : Multiset Duty := ownerDuties a c.owner

def Outlet.duties : Outlet → Multiset Duty
  | .answer t => t.duties a
  | .inline => 0

def CallRecord.duties (r : CallRecord) : Multiset Duty := r.completion.elim 0 (·.duties a)

def Task.duties : Task → Multiset Duty
  | .offer b d responders => if b = a then Duty.offers d responders else 0
  | .deliver t _ => t.duties a
  | .settle b d claimed => if b = a then {.settle d claimed} else 0
  | .act _ _ _ _ outlet => outlet.duties a
  | .feed _ _ => 0

def taskDuties (tasks : List Task) : Multiset Duty := (tasks.map (Task.duties a)).sum

def slotDuties {α : Type} (f : α → Multiset Duty) (slots : List (Option α)) : Multiset Duty :=
  (slots.map (·.elim 0 f)).sum

def State.duties (st : State) : Multiset Duty :=
  (st.records.map (CallRecord.duties a)).sum + slotDuties (Ticket.duties a) st.held

def Session.duties (s : Session) : Multiset Duty :=
  slotDuties (CallRecord.duties a) s.records + slotDuties (Completion.duties a) s.callbacks

end Kept

@[simp] theorem taskDuties_nil (a : ArbiterId) : taskDuties a [] = 0 := rfl

@[simp] theorem taskDuties_cons (a : ArbiterId) (t : Task) (tasks : List Task) :
    taskDuties a (t :: tasks) = t.duties a + taskDuties a tasks := by
  simp [taskDuties]

@[simp] theorem taskDuties_append (a : ArbiterId) (tasks more : List Task) :
    taskDuties a (tasks ++ more) = taskDuties a tasks + taskDuties a more := by
  simp [taskDuties]

/-! ## Parts of the journal -/

namespace Journal

/-- The entries about an arbiter, the latest first. -/
def about (j : Journal) (a : ArbiterId) : List Entry :=
  (j.filter (·.arbiter = a)).map (·.entry)

@[simp] theorem about_nil (a : ArbiterId) : about [] a = [] := rfl

theorem about_cons (h : Happening) (j : Journal) (a : ArbiterId) :
    about (h :: j) a = if h.arbiter = a then h.entry :: about j a else about j a := by
  unfold about
  by_cases eq : h.arbiter = a <;> simp [eq]

end Journal

/-- The event that an entry belongs to. Remarks belong to none. -/
def Entry.event? : Entry → Option Nat
  | .replayed id _ => some id
  | .dispatched d _ => some d.id
  | .offered id _ => some id
  | .orphanIgnored id _ => some id
  | .sentToRuntime id _ => some id
  | .sentOnChannel id _ => some id
  | .answered _ id _ => some id
  | .dropped _ id => some id
  | .waiting id _ => some id
  | .late id _ => some id
  | .filtered id _ _ => some id
  | .resolved id _ => some id
  | .handedBack id _ => some id
  | .refused id => some id
  | .channelFailed .. => none
  | .attached .. => none
  | .disposed .. => none
  | .layoutChanged _ => none
  | .synchronizing .. => none
  | .unknownMethod _ => none
  | .malformedRequest _ => none

def Responder.told (d : Dispatch) : Responder → List Entry
  | .embedder =>
    if d.orphan then [.orphanIgnored d.id d.physical] else [.sentToRuntime d.id d.runtimeEvent]
  | .channel name _ _ => [.sentOnChannel d.id name]
  | .extra _ => []

def Delivery.entry (who : ResponderKind) (id : Nat) : Delivery → Entry
  | .answered claimed => .answered who id claimed
  | .dropped => .dropped who id

/-! ## Desks -/

structure Desk where
  book : Book := {}
  /-- The entries about the arbiter, the latest first. -/
  past : List Entry := []
  duties : Multiset Duty := 0

def State.desk (st : State) (a : ArbiterId) (others : Multiset Duty) : Desk :=
  ⟨st.book a, st.journal.about a, st.duties a + others⟩

def Moment.desk (m : Moment) (a : ArbiterId) : Desk :=
  m.state.desk a (taskDuties a m.tasks + m.session.duties a)

namespace Desk

/-! ## What can happen -/

/-- Nothing has happened yet that belongs to an event. -/
structure Blank (k : Desk) : Prop where
  book : k.book = {}
  past : ∀ x ∈ k.past, x.event? = none
  duties : k.duties = 0

variable (setup : Setup) (k : Desk)

def remark (x : Entry) : Desk := { k with past := x :: k.past }

def forgetLayout : Desk := { k with book := k.book.forgetLayout }

def arrive (layout : Layout) (e : KeyEvent) : Desk :=
  let n := setup.responders.length
  match k.book.arrive layout n e with
  | (book, .replay id, _) => { k with book, past := .replayed id e :: k.past }
  | (book, .fresh d, _) =>
    ⟨book, .dispatched d n :: k.past, .first d setup.responders ::ₘ k.duties⟩

def offer (d : Dispatch) (r : Responder) (rs : List Responder) (others : Multiset Duty) : Desk where
  book := k.book
  past := r.told d ++ .offered d.id r.kind :: k.past
  duties := .ticket d.id ::ₘ (Duty.offers d rs + others)

def deliver (id : Nat) (who : ResponderKind) (answer : Delivery) (others : Multiset Duty) : Desk :=
  let past := answer.entry who id :: k.past
  if setup.alive then
    match k.book.docket.answer id answer.claimed with
    | (docket, .untracked) => ⟨{ k.book with docket }, past, others⟩
    | (docket, .waiting n) => ⟨{ k.book with docket }, .waiting id n :: past, others⟩
    | (docket, .complete claimed d) => ⟨{ k.book with docket }, past, .settle d claimed ::ₘ others⟩
  else ⟨k.book, .late id answer.claimed :: past, others⟩

def consult (d : Dispatch) (claimed consumes : Bool) : Desk × Bool :=
  if !claimed && d.filterable setup.settings.textInputFiltersReleases then
    (k.remark (.filtered d.id d.event consumes), consumes)
  else (k, claimed)

def conclude (d : Dispatch) (claimed refuses : Bool) (others : Multiset Duty) : Desk :=
  let past := .resolved d.id claimed :: k.past
  match k.book.settle d claimed with
  | (book, none) => ⟨book, past, others⟩
  | (book, some e) =>
    if refuses then
      ⟨{ book with docket := book.docket.close d.id }, .refused d.id :: .handedBack d.id e :: past,
        others⟩
    else ⟨book, .handedBack d.id e :: past, others⟩

def settle (d : Dispatch) (claimed consumes refuses : Bool) (others : Multiset Duty) : Desk :=
  let verdict := k.consult setup d claimed consumes
  verdict.1.conclude d verdict.2 refuses others

theorem settle_congr {k' : Desk} (book : k.book = k'.book) (past : k.past = k'.past) (d : Dispatch)
    (claimed consumes refuses : Bool) (others : Multiset Duty) :
    k.settle setup d claimed consumes refuses others =
      (k'.consult setup d claimed consumes).1.conclude d (k'.consult setup d claimed consumes).2
        refuses others := by
  obtain ⟨b, p, D⟩ := k
  obtain ⟨b', p', D'⟩ := k'
  subst book past
  unfold settle consult
  cases !claimed && d.filterable setup.settings.textInputFiltersReleases <;> rfl

theorem duties_consult (d : Dispatch) (claimed consumes : Bool) :
    (k.consult setup d claimed consumes).1.duties = k.duties := by
  unfold consult
  split <;> rfl

end Desk

/-- All that can happen on a desk at one stroke. Events are looked up in one of the `layouts`. -/
inductive Change (setup : Setup) (layouts : Layout → Prop) : Desk → Desk → Prop
  | remark {k : Desk} {x : Entry} (idle : x.event? = none) : Change setup layouts k (k.remark x)
  | forgetLayout {k : Desk} : Change setup layouts k k.forgetLayout
  | arrive {k : Desk} {layout : Layout} (asked : layouts layout) (e : KeyEvent) :
    Change setup layouts k (k.arrive setup layout e)
  | offer {k : Desk} {d : Dispatch} {r : Responder} {rs : List Responder} {others : Multiset Duty}
    (owed : k.duties = .offer d (r :: rs) ::ₘ others) :
    Change setup layouts k (k.offer d r rs others)
  | deliver {k : Desk} {id : Nat} {others : Multiset Duty} (owed : k.duties = .ticket id ::ₘ others)
    (who : ResponderKind) (answer : Delivery) :
    Change setup layouts k (k.deliver setup id who answer others)
  | settle {k : Desk} {d : Dispatch} {claimed : Bool} {others : Multiset Duty}
    (owed : k.duties = .settle d claimed ::ₘ others) (consumes refuses : Bool) :
    Change setup layouts k (k.settle setup d claimed consumes refuses others)

abbrev Course (setup : Setup) (layouts : Layout → Prop) : Desk → Desk → Prop :=
  Relation.ReflTransGen (Change setup layouts)

namespace Course

variable {setup : Setup} {layouts : Layout → Prop} {k k' : Desk}

theorem preserves {Inv : Desk → Prop}
    (change : ∀ {k k'}, Change setup layouts k k' → Inv k → Inv k') (h : Course setup layouts k k')
    (start : Inv k) : Inv k' := by
  induction h with
  | refl => exact start
  | tail _ last ih => exact change last ih

theorem mono {more : Layout → Prop} (sub : ∀ l, layouts l → more l)
    (h : Course setup layouts k k') : Course setup more k k' := by
  refine Relation.ReflTransGen.mono ?_ _ _ h
  intro k k' change
  cases change with
  | remark idle => exact .remark idle
  | forgetLayout => exact .forgetLayout
  | arrive asked e => exact .arrive (sub _ asked) e
  | offer owed => exact .offer owed
  | deliver owed who answer => exact .deliver owed who answer
  | settle owed consumes refuses => exact .settle owed consumes refuses

theorem blank (none : ∀ l, ¬ layouts l) (h : Course setup layouts k k') (start : k.Blank) :
    k'.Blank := by
  refine h.preserves ?_ start
  intro k k' change blank
  cases change with
  | remark idle =>
    refine ⟨blank.book, ?_, blank.duties⟩
    intro x hx
    rcases List.mem_cons.1 hx with rfl | hx
    · exact idle
    · exact blank.past x hx
  | forgetLayout => exact ⟨by simp [Desk.forgetLayout, blank.book, Book.forgetLayout], blank.past, blank.duties⟩
  | arrive asked e => exact absurd asked (none _)
  | offer owed | deliver owed | settle owed =>
    rw [blank.duties] at owed
    exact absurd owed (Multiset.zero_ne_cons)

end Course

end KeyArbiter
