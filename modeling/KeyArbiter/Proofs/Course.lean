import KeyArbiter.Proofs.Desk
import Mathlib

/-!
# What moves do to a desk

Each call of the machine is a course of changes on the desk of any one arbiter, and so is a move. The
desk of an arbiter that is alive was blank when the arbiter was built (`Moment.exists_course`).
-/

namespace KeyArbiter

def Scene.Consults (sc : Scene) (a : ArbiterId) (layout : Layout) : Prop :=
  a < sc.setups.length ∧ sc.layout a = layout

def Scene.refuses (sc : Scene) (e : KeyEvent) : Bool :=
  match sc.redispatch with
  | .refuse => true
  | .refuseSynthesized => e.synthesized
  | .queue => false
  | .inline _ => false

/-- What is delivered later goes to an arbiter that was built. -/
def Task.Aimed (sc : Scene) : Task → Prop
  | .act h _ (_ :: _) _ _ => (sc.hook h).target < sc.setups.length
  | .feed b _ => b < sc.setups.length
  | _ => True

def deskOf (p : Progress) (a : ArbiterId) (others : Multiset Duty) : Desk :=
  p.1.desk a (taskDuties a p.2 + others)

/-- A call is a course of changes, and aims well. -/
structure Lands (sc : Scene) (a : ArbiterId) (k : Desk) (p : Progress) (others : Multiset Duty) :
    Prop where
  course : Course (sc.setup a) (sc.Consults a) k (deskOf p a others)
  aimed : ∀ t ∈ p.2, t.Aimed sc

namespace Lands

variable {sc : Scene} {a : ArbiterId} {k k' : Desk} {p : Progress} {D : Multiset Duty}

theorem of_eq (eq : deskOf p a D = k) (aimed : ∀ t ∈ p.2, t.Aimed sc) : Lands sc a k p D :=
  ⟨eq ▸ .refl, aimed⟩

theorem after (h : Lands sc a k' p D) (first : Course (sc.setup a) (sc.Consults a) k k') :
    Lands sc a k p D :=
  ⟨first.trans h.course, h.aimed⟩

theorem append {tasks : List Task} (h : Lands sc a k p (taskDuties a tasks + D))
    (aimed : ∀ t ∈ tasks, t.Aimed sc) : Lands sc a k (p.1, p.2 ++ tasks) D := by
  constructor
  · have course := h.course
    unfold deskOf at course ⊢
    rwa [taskDuties_append, add_assoc]
  · intro t ht
    rcases List.mem_append.1 ht with ht | ht
    · exact h.aimed t ht
    · exact aimed t ht

end Lands

theorem lt_of_isAlive {sc : Scene} {a : ArbiterId} (alive : sc.isAlive a) :
    a < sc.setups.length := by
  by_contra h
  have : sc.setup a = { alive := false } := by
    unfold Scene.setup
    rw [List.getD_eq_default _ _ (not_lt.1 h)]
  simp [Scene.isAlive, this] at alive

namespace State

variable (sc : Scene) (st : State) {a : ArbiterId} (D : Multiset Duty)

/-! ## Notes and books -/

theorem desk_note_self (x : Entry) : (st.note a x).desk a D = (st.desk a D).remark x := by
  simp [desk, note, Desk.remark, Journal.about_cons, duties, book]

theorem desk_note_of_ne {b : ArbiterId} (ne : b ≠ a) (x : Entry) :
    (st.note b x).desk a D = st.desk a D := by
  simp [desk, note, Journal.about_cons, duties, book, ne]

theorem desk_setBook_self (b : Book) : (st.setBook a b).desk a D = { st.desk a D with book := b } := by
  simp [desk]
  exact ⟨rfl, rfl⟩

theorem desk_setBook_of_ne {b : ArbiterId} (ne : b ≠ a) (book : Book) :
    (st.setBook b book).desk a D = st.desk a D := by
  have : (st.setBook b book).book a = st.book a := book_setBook_of_ne st (Ne.symm ne) book
  simp only [desk, this]
  rfl

theorem course_note {setup : Setup} {layouts : Layout → Prop} (b : ArbiterId) {x : Entry}
    (idle : x.event? = none) :
    Course setup layouts (st.desk a D) ((st.note b x).desk a D) := by
  by_cases eq : b = a
  · subst eq
    rw [desk_note_self]
    exact .single (.remark idle)
  · rw [desk_note_of_ne st D eq]

def noteAll (b : ArbiterId) (entries : List Entry) : State :=
  { st with journal := entries.map (⟨b, ·⟩) ++ st.journal }

theorem desk_noteAll_self (entries : List Entry) :
    (st.noteAll a entries).desk a D =
      { st.desk a D with past := entries ++ (st.desk a D).past } := by
  induction entries with
  | nil => rfl
  | cons x entries ih =>
    have : st.noteAll a (x :: entries) = (st.noteAll a entries).note a x := rfl
    rw [this, desk_note_self, ih]
    rfl

theorem desk_noteAll_of_ne {b : ArbiterId} (ne : b ≠ a) (entries : List Entry) :
    (st.noteAll b entries).desk a D = st.desk a D := by
  induction entries with
  | nil => rfl
  | cons x entries ih =>
    have : st.noteAll b (x :: entries) = (st.noteAll b entries).note b x := rfl
    rw [this, desk_note_of_ne _ _ ne, ih]

/-! ## Verdicts and replies -/

theorem lands_ticket (t : Ticket) (answer : Delivery) :
    Lands sc a (st.desk a (t.duties a + D)) (st, [.deliver t answer]) D := by
  refine .of_eq ?_ (by simp [Task.Aimed])
  simp [deskOf, Task.duties]

theorem lands_giveVerdict (claimed : Bool) (owner : Option Ticket) :
    Lands sc a (st.desk a (ownerDuties a owner + D)) (st.giveVerdict claimed owner) D := by
  cases owner with
  | none => exact .of_eq rfl (by simp [giveVerdict])
  | some t => exact lands_ticket sc st D t _

theorem lands_giveReply (channel : String) (reply : Except TransportError (List UInt8))
    (owner : Option Ticket) :
    Lands sc a (st.desk a (ownerDuties a owner + D)) (st.giveReply channel reply owner) D := by
  cases owner with
  | none => exact .of_eq rfl (by simp [giveReply])
  | some t =>
    simp only [giveReply]
    split
    · exact lands_ticket sc st D t _
    · exact (lands_ticket sc _ D t _).after (course_note st _ _ rfl)

theorem lands_complete (claimed : Bool) (c : Completion) :
    Lands sc a (st.desk a (c.duties a + D)) (st.complete claimed c) D := by
  cases c with
  | verdict owner => exact lands_giveVerdict sc st D claimed owner
  | reply owner channel => exact lands_giveReply sc st D channel _ owner

theorem lands_abandon (c : Completion) :
    Lands sc a (st.desk a (c.duties a + D)) (st.abandon c) D := by
  cases c with
  | verdict owner | reply owner =>
    cases owner with
    | none =>
      refine .of_eq ?_ (by simp [abandon])
      simp [deskOf, abandon, Completion.duties, Completion.owner, ownerDuties]
    | some t => exact lands_ticket sc st D t .dropped

/-! ## Calls into the host -/

theorem desk_keep (call : Call) (completion : Option Completion) :
    (st.keep call completion).desk a D =
      st.desk a (completion.elim 0 (Completion.duties a) + D) := by
  have : (st.keep call completion).duties a =
      st.duties a + completion.elim 0 (Completion.duties a) := by
    simp [duties, keep, CallRecord.duties, add_right_comm]
  simp only [desk, this, add_assoc]
  rfl

theorem lands_sendToRuntime (e : RuntimeEvent) (owner : Option Ticket) :
    Lands sc a (st.desk a (ownerDuties a owner + D)) (st.sendToRuntime sc e owner) D := by
  unfold sendToRuntime
  split
  · exact lands_giveVerdict sc st D _ owner
  · exact .of_eq (by simp [deskOf, desk_keep, Completion.duties, Completion.owner]) (by simp)
  · have h := lands_giveVerdict (a := a) sc (st.keep (.runtimeEvent e) none) D ‹Bool› owner
    rwa [desk_keep, Option.elim_none, zero_add] at h

theorem lands_sendOnChannel (channel : String) (data : List UInt8) (owner : Option Ticket) :
    Lands sc a (st.desk a (ownerDuties a owner + D)) (st.sendOnChannel sc channel data owner) D := by
  unfold sendOnChannel
  have sent : ∀ D, { st with sent := st.sent ++ [channel] }.desk a D = st.desk a D := fun _ => rfl
  rw [← sent]
  simp only
  split
  · exact lands_giveReply sc _ D channel _ owner
  · exact .of_eq (by simp [deskOf, desk_keep, Completion.duties, Completion.owner]) (by simp)
  · exact lands_giveReply sc _ D channel _ owner
  · exact lands_giveReply sc _ D channel _ owner

/-! ## Events -/

def turn (b : ArbiterId) (after : Book) (asked : Bool) : State :=
  { st.setBook b after with lookups := st.lookups + queries sc b asked }

theorem arrive_eq (b : ArbiterId) (e : KeyEvent) :
    st.arrive sc b e =
      match (st.book b).arrive (sc.layout b) (sc.responders b).length e with
      | (after, .replay id, asked) => ((st.turn sc b after asked).note b (.replayed id e), [], false)
      | (after, .fresh d, asked) =>
        ((st.turn sc b after asked).note b (.dispatched d (sc.responders b).length),
          [if (sc.responders b).isEmpty then .settle b d false
            else .offer b d (sc.responders b)], true) := by
  simp only [arrive, turn]
  generalize (st.book b).arrive (sc.layout b) (sc.responders b).length e = r
  obtain ⟨after, id | d, asked⟩ := r <;> rfl

theorem desk_turn_self (after : Book) (asked : Bool) :
    (st.turn sc a after asked).desk a D = { st.desk a D with book := after } :=
  desk_setBook_self st D after

theorem desk_turn_of_ne {b : ArbiterId} (ne : b ≠ a) (after : Book) (asked : Bool) :
    (st.turn sc b after asked).desk a D = st.desk a D :=
  desk_setBook_of_ne st D ne after

theorem taskDuties_first (b : ArbiterId) (d : Dispatch) (responders : List Responder) :
    taskDuties a [if responders.isEmpty then .settle b d false else .offer b d responders] =
      if b = a then {.first d responders} else 0 := by
  cases responders <;> simp [Task.duties, Duty.first, Duty.offers]

theorem desk_arrive_self (e : KeyEvent) :
    deskOf ((st.arrive sc a e).1, (st.arrive sc a e).2.1) a D =
      (st.desk a D).arrive (sc.setup a) (sc.layout a) e := by
  have book : (st.desk a D).book = st.book a := rfl
  have responders : (sc.setup a).responders = sc.responders a := rfl
  rw [arrive_eq]
  unfold Desk.arrive
  simp only [book, responders]
  generalize (st.book a).arrive (sc.layout a) (sc.responders a).length e = r
  obtain ⟨after, id | d, asked⟩ := r
  · simp only [deskOf, desk_note_self, desk_turn_self, taskDuties_nil, zero_add]
    rfl
  · simp only [deskOf, desk_note_self, desk_turn_self, taskDuties_first, if_true]
    simp [Desk.remark, desk]

theorem desk_arrive_of_ne {b : ArbiterId} (ne : b ≠ a) (e : KeyEvent) :
    deskOf ((st.arrive sc b e).1, (st.arrive sc b e).2.1) a D = st.desk a D := by
  rw [arrive_eq]
  generalize (st.book b).arrive (sc.layout b) (sc.responders b).length e = r
  obtain ⟨after, id | d, asked⟩ := r
  · simp only [deskOf, desk_note_of_ne _ _ ne, desk_turn_of_ne sc st _ ne, taskDuties_nil, zero_add]
  · simp only [deskOf, desk_note_of_ne _ _ ne, desk_turn_of_ne sc st _ ne, taskDuties_first, ne,
      if_false, zero_add]

theorem lands_arrive {b : ArbiterId} (built : b < sc.setups.length) (e : KeyEvent) :
    Lands sc a (st.desk a D) ((st.arrive sc b e).1, (st.arrive sc b e).2.1) D := by
  constructor
  · by_cases eq : b = a
    · subst eq
      rw [desk_arrive_self]
      exact .single (.arrive ⟨built, rfl⟩ e)
    · rw [desk_arrive_of_ne sc st D eq]
  · rw [arrive_eq]
    generalize (st.book b).arrive (sc.layout b) (sc.responders b).length e = r
    obtain ⟨after, id | d, asked⟩ := r
    · exact fun t ht => absurd ht List.not_mem_nil
    · intro t ht
      obtain rfl := List.mem_singleton.1 ht
      split <;> trivial

theorem lands_sync {b : ArbiterId} (built : b < sc.setups.length) (modifiers : Modifiers)
    (time : UInt32) : Lands sc a (st.desk a D) (st.sync b modifiers time) D := by
  unfold sync
  refine ⟨?_, by simpa [Task.Aimed] using built⟩
  simp only [deskOf, taskDuties_cons, taskDuties_nil, Task.duties, add_zero, zero_add]
  split
  · exact .refl
  · exact course_note st D b rfl

theorem lands_callHook (h : HookId) (e : KeyEvent) (outlet : Outlet) :
    Lands sc a (st.desk a (outlet.duties a + D)) (st.callHook sc h e outlet) D := by
  have owed (actions : List Action) (value : Bool) :
      taskDuties a [.act h e actions value outlet] + D = outlet.duties a + D := by
    simp [Task.duties]
  unfold callHook
  simp only
  split
  · next alive =>
    have built := lt_of_isAlive alive
    split
    · refine .of_eq (by rw [deskOf, owed]; rfl) ?_
      intro t ht
      obtain rfl := List.mem_singleton.1 ht
      cases (sc.hook h).actions with
      | nil => trivial
      | cons x xs => exact built
    · split
      · exact .of_eq (by rw [deskOf, owed]) (by simp [Task.Aimed])
      · rw [← owed [] (st.arrive sc (sc.hook h).target e).2.2]
        exact (lands_arrive sc st _ built e).append (by simp [Task.Aimed])
  · exact .of_eq (by rw [deskOf, owed]) (by simp [Task.Aimed])

/-! ## Handing back -/

theorem redispatch_refused {e : KeyEvent} (h : sc.refuses e = true) :
    st.redispatch sc e = ({ st with refused := st.refused + 1 }, [], false) := by
  unfold Scene.refuses at h
  unfold redispatch
  split at h <;> simp_all

theorem redispatch_taken {e : KeyEvent} (h : sc.refuses e = false) :
    (st.redispatch sc e).2.2 = true := by
  unfold Scene.refuses at h
  unfold redispatch
  split at h <;> simp_all

theorem handBack_eq (b : ArbiterId) (id : Nat) (e : KeyEvent) :
    st.handBack sc b id e =
      if sc.refuses e then
        (({ st with refused := st.refused + 1 }.setBook b
          { st.book b with docket := (st.book b).docket.close id }).note b (.refused id), [])
      else ((st.redispatch sc e).1, (st.redispatch sc e).2.1) := by
  unfold handBack
  cases h : sc.refuses e with
  | true =>
    rw [redispatch_refused sc st h]
    rfl
  | false =>
    simp only [redispatch_taken sc st h, if_true, Bool.false_eq_true, if_false]

theorem lands_redispatch (e : KeyEvent) :
    Lands sc a (st.desk a D) ((st.redispatch sc e).1, (st.redispatch sc e).2.1) D := by
  have here (st' : State) (eq : st'.desk a D = st.desk a D) : Lands sc a (st.desk a D) (st', []) D :=
    .of_eq (by rw [deskOf, taskDuties_nil, zero_add, eq]) (by simp)
  unfold redispatch
  simp only
  split
  · exact here _ rfl
  · exact here _ rfl
  · split <;> exact here _ rfl
  · rename_i hook _
    have := lands_callHook (a := a) sc st D hook e .inline
    rwa [Outlet.duties, zero_add] at this

/-! ## Settling -/

theorem desk_consult_self (d : Dispatch) (claimed : Bool) :
    ((st.consult sc a d claimed).1.desk a D, (st.consult sc a d claimed).2) =
      (st.desk a D).consult (sc.setup a) d claimed sc.filter := by
  unfold consult Desk.consult
  split
  · rw [desk_note_self]
    rfl
  · rfl

theorem desk_consult_of_ne {b : ArbiterId} (ne : b ≠ a) (d : Dispatch) (claimed : Bool) :
    (st.consult sc b d claimed).1.desk a D = st.desk a D := by
  unfold consult
  split
  · rw [desk_note_of_ne _ _ ne]
    rfl
  · rfl

/-- What is noted and written before the host is asked to deliver the event again. -/
def resolve (b : ArbiterId) (d : Dispatch) (claimed : Bool) : State :=
  (st.setBook b ((st.book b).settle d claimed).1).note b (.resolved d.id claimed)

theorem conclude_eq (b : ArbiterId) (d : Dispatch) (claimed : Bool) :
    st.conclude sc b d claimed =
      match ((st.book b).settle d claimed).2 with
      | none => (st.resolve b d claimed, [])
      | some e => ((st.resolve b d claimed).note b (.handedBack d.id e)).handBack sc b d.id e := rfl

theorem desk_resolve_self (d : Dispatch) (claimed : Bool) :
    (st.resolve a d claimed).desk a D =
      ⟨((st.desk a D).book.settle d claimed).1, .resolved d.id claimed :: (st.desk a D).past,
        (st.desk a D).duties⟩ := by
  unfold resolve
  rw [desk_note_self, desk_setBook_self]
  rfl

theorem desk_resolve_of_ne {b : ArbiterId} (ne : b ≠ a) (d : Dispatch) (claimed : Bool) :
    (st.resolve b d claimed).desk a D = st.desk a D := by
  unfold resolve
  rw [desk_note_of_ne _ _ ne, desk_setBook_of_ne _ _ ne]

theorem lands_conclude_self (d : Dispatch) (claimed : Bool) :
    ∃ refuses, Lands sc a ((st.desk a D).conclude d claimed refuses (st.desk a D).duties)
      (st.conclude sc a d claimed) D := by
  have resolved := desk_resolve_self (a := a) st D d claimed
  rw [conclude_eq]
  unfold Desk.conclude
  have book : (st.desk a D).book = st.book a := rfl
  rw [book] at resolved ⊢
  generalize (st.book a).settle d claimed = r at resolved
  obtain ⟨after, none | e⟩ := r
  · refine ⟨false, .of_eq ?_ (by simp)⟩
    rw [deskOf, taskDuties_nil, zero_add, resolved]
  · have noted : ((st.resolve a d claimed).note a (.handedBack d.id e)).desk a D =
        ⟨after, .handedBack d.id e :: .resolved d.id claimed :: (st.desk a D).past,
          (st.desk a D).duties⟩ := by
      rw [desk_note_self, resolved]
      rfl
    simp only
    rw [handBack_eq]
    cases sc.refuses e with
    | true =>
      refine ⟨true, .of_eq ?_ (by simp)⟩
      have book : ((st.resolve a d claimed).note a (.handedBack d.id e)).book a = after :=
        congrArg Desk.book noted
      simp only [if_true, deskOf, taskDuties_nil, zero_add]
      rw [desk_note_self, desk_setBook_self, book]
      exact congrArg (fun k : Desk => Desk.mk { after with docket := after.docket.close d.id }
        (.refused d.id :: k.past) k.duties) noted
    | false =>
      refine ⟨false, ?_⟩
      have := lands_redispatch (a := a) sc ((st.resolve a d claimed).note a (.handedBack d.id e)) D e
      rwa [noted] at this

theorem lands_conclude_of_ne {b : ArbiterId} (ne : b ≠ a) (d : Dispatch) (claimed : Bool) :
    Lands sc a (st.desk a D) (st.conclude sc b d claimed) D := by
  have resolved := desk_resolve_of_ne st D ne d claimed
  rw [conclude_eq]
  cases ((st.book b).settle d claimed).2 with
  | none =>
    refine .of_eq ?_ (by simp)
    rw [deskOf, taskDuties_nil, zero_add, resolved]
  | some e =>
    have back : ((st.resolve b d claimed).note b (.handedBack d.id e)).desk a D = st.desk a D := by
      rw [desk_note_of_ne _ _ ne, resolved]
    simp only
    rw [handBack_eq]
    split
    · refine .of_eq ?_ (by simp)
      rw [deskOf, taskDuties_nil, zero_add, desk_note_of_ne _ _ ne, desk_setBook_of_ne _ _ ne]
      exact back
    · have := lands_redispatch (a := a) sc ((st.resolve b d claimed).note b (.handedBack d.id e)) D e
      rwa [back] at this

theorem lands_settle (b : ArbiterId) (d : Dispatch) (claimed : Bool) :
    Lands sc a (st.desk a ((Task.settle b d claimed).duties a + D)) (st.settle sc b d claimed) D := by
  unfold settle
  simp only
  by_cases eq : b = a
  · subst eq
    have consulted := desk_consult_self (a := b) sc st D d claimed
    obtain ⟨refuses, lands⟩ := lands_conclude_self (a := b) sc (st.consult sc b d claimed).1 D d
      (st.consult sc b d claimed).2
    refine lands.after (.single ?_)
    have owed : (st.desk b ((Task.settle b d claimed).duties b + D)).duties =
        .settle d claimed ::ₘ (st.desk b D).duties := by
      simp [desk, Task.duties]
    have same := Desk.settle_congr (sc.setup b) (st.desk b ((Task.settle b d claimed).duties b + D))
      (show _ = (st.desk b D).book from rfl) rfl d claimed sc.filter refuses (st.desk b D).duties
    have change : Change (sc.setup b) (sc.Consults b) _ _ := .settle owed sc.filter refuses
    rw [same, ← consulted] at change
    have duties := Desk.duties_consult (sc.setup b) (st.desk b D) d claimed sc.filter
    rw [← consulted] at duties
    rwa [← duties] at change
  · have := lands_conclude_of_ne sc (st.consult sc b d claimed).1 D eq d (st.consult sc b d claimed).2
    rw [desk_consult_of_ne sc st D eq] at this
    simpa [Task.duties, eq] using this

/-! ## Answers -/

theorem deliver_eq (t : Ticket) (answer : Delivery) :
    st.deliver sc t answer =
      let st := st.note t.arbiter (answer.entry t.responder t.id)
      if sc.isAlive t.arbiter then
        match (st.book t.arbiter).docket.answer t.id answer.claimed with
        | (docket, .untracked) => (st.setBook t.arbiter { st.book t.arbiter with docket }, [])
        | (docket, .waiting n) =>
          ((st.setBook t.arbiter { st.book t.arbiter with docket }).note t.arbiter
            (.waiting t.id n), [])
        | (docket, .complete claimed d) =>
          (st.setBook t.arbiter { st.book t.arbiter with docket }, [.settle t.arbiter d claimed])
      else (st.note t.arbiter (.late t.id answer.claimed), []) := by
  unfold deliver
  simp only [book_note]
  generalize (st.book t.arbiter).docket.answer t.id answer.claimed = r
  obtain ⟨docket, verdict⟩ := r
  cases verdict <;> rfl

theorem desk_deliver_self (t : Ticket) (answer : Delivery) :
    deskOf (st.deliver sc t answer) t.arbiter D =
      (st.desk t.arbiter (t.duties t.arbiter + D)).deliver (sc.setup t.arbiter) t.id t.responder
        answer (st.desk t.arbiter D).duties := by
  have book : (st.desk t.arbiter (t.duties t.arbiter + D)).book = st.book t.arbiter := rfl
  have alive : (sc.setup t.arbiter).alive = sc.isAlive t.arbiter := rfl
  rw [deliver_eq]
  unfold Desk.deliver
  simp only [book, alive, book_note]
  split
  · generalize (st.book t.arbiter).docket.answer t.id answer.claimed = r
    obtain ⟨docket, verdict⟩ := r
    cases verdict with
    | untracked | waiting =>
      simp only [deskOf, taskDuties_nil, zero_add, desk_note_self, desk_setBook_self]
      rfl
    | complete claimed d =>
      simp only [deskOf, taskDuties_cons, taskDuties_nil, Task.duties, if_true, add_zero,
        desk_note_self, desk_setBook_self]
      simp [Desk.remark, desk]
  · simp only [deskOf, taskDuties_nil, zero_add, desk_note_self]
    rfl

theorem desk_deliver_of_ne (t : Ticket) (ne : t.arbiter ≠ a) (answer : Delivery) :
    deskOf (st.deliver sc t answer) a D = st.desk a D := by
  rw [deliver_eq]
  simp only
  split
  · split <;> simp [deskOf, desk_note_of_ne _ _ ne, desk_setBook_of_ne _ _ ne, Task.duties, ne]
  · simp [deskOf, desk_note_of_ne _ _ ne]

theorem aimed_deliver (t : Ticket) (answer : Delivery) :
    ∀ task ∈ (st.deliver sc t answer).2, task.Aimed sc := by
  rw [deliver_eq]
  simp only
  split
  · split <;> simp [Task.Aimed]
  · simp

theorem lands_deliver (t : Ticket) (answer : Delivery) :
    Lands sc a (st.desk a (t.duties a + D)) (st.deliver sc t answer) D := by
  refine ⟨?_, aimed_deliver sc st t answer⟩
  by_cases eq : t.arbiter = a
  · subst eq
    have owed : (st.desk t.arbiter (t.duties t.arbiter + D)).duties =
        .ticket t.id ::ₘ (st.desk t.arbiter D).duties := by
      simp [desk, Ticket.duties]
    rw [desk_deliver_self]
    exact .single (.deliver owed t.responder answer)
  · rw [desk_deliver_of_ne sc st D t eq]
    simp [Ticket.duties, eq, Relation.ReflTransGen.refl]

/-! ## Offers -/

theorem lands_offer (b : ArbiterId) (d : Dispatch) (r : Responder) :
    Lands sc a
      ((st.noteAll b (r.told d)).desk a ((Ticket.mk b r.kind d.id).duties a + D))
      (st.offer sc b d r) D := by
  cases r with
  | embedder =>
    simp only [offer, Responder.told]
    split
    · exact lands_ticket sc _ D _ _
    · exact lands_sendToRuntime sc (st.note b (.sentToRuntime d.id d.runtimeEvent)) D _
        (some ⟨b, .embedder, d.id⟩)
  | channel name keymap toolkit =>
    exact lands_sendOnChannel sc (st.note b (.sentOnChannel d.id name)) D _ _
      (some ⟨b, .channel, d.id⟩)
  | extra rule =>
    have seen : (st.noteAll b (Responder.told d (.extra rule))).desk a =
        { st with seen := st.seen ++ [(b, d)] }.desk a := rfl
    rw [seen]
    cases rule with
    | answer | drop | claim => exact lands_ticket sc _ D _ _
    | hold =>
      refine .of_eq ?_ (by simp [offer])
      simp [deskOf, offer, desk, duties, slotDuties, book, add_assoc]
    | reenter h =>
      exact lands_callHook sc { st with seen := st.seen ++ [(b, d)] } D h d.event
        (.answer ⟨b, .extra, d.id⟩)

theorem lands_offer_cons (b : ArbiterId) (d : Dispatch) (r : Responder) (rs : List Responder) :
    Lands sc a (st.desk a ((Task.offer b d (r :: rs)).duties a + D))
      (st.step sc (.offer b d (r :: rs))) D := by
  have offered := (lands_offer (a := a) sc (st.note b (.offered d.id r.kind))
    (taskDuties a [.offer b d rs] + D) b d r).append (by simp [Task.Aimed])
  refine offered.after ?_
  by_cases eq : b = a
  · subst eq
    have owed : (st.desk b ((Task.offer b d (r :: rs)).duties b + D)).duties =
        .offer d (r :: rs) ::ₘ (st.duties b + D) := by
      simp [desk, Task.duties, Duty.offers]
    have change : Change (sc.setup b) (sc.Consults b) _ _ := .offer owed
    convert Relation.ReflTransGen.single change using 1
    rw [desk_noteAll_self, desk_note_self]
    simp [desk, Desk.offer, Desk.remark, Ticket.duties, Task.duties]
    abel_nf
  · rw [desk_noteAll_of_ne _ _ eq, desk_note_of_ne _ _ eq]
    simp [Ticket.duties, Task.duties, eq, Relation.ReflTransGen.refl]

/-! ## Hooks and feeds -/

theorem lands_andThen {b : ArbiterId} (built : b < sc.setups.length) (e : KeyEvent)
    {rest : Bool → List Task} {owed : Multiset Duty} (same : ∀ v, taskDuties a (rest v) = owed)
    (aimed : ∀ v, ∀ t ∈ rest v, t.Aimed sc) :
    Lands sc a (st.desk a (owed + D)) (andThen (st.arrive sc b e) rest) D := by
  rw [← same (st.arrive sc b e).2.2]
  exact (lands_arrive sc st _ built e).append (aimed _)

theorem lands_act (h : HookId) (e : KeyEvent) {action : Action} {actions : List Action}
    (value : Bool) (outlet : Outlet) (aimed : (Task.act h e (action :: actions) value outlet).Aimed sc) :
    Lands sc a (st.desk a (outlet.duties a + D))
      (st.step sc (.act h e (action :: actions) value outlet)) D := by
  have same (v : Bool) : taskDuties a [.act h e actions v outlet] = outlet.duties a := by
    simp [Task.duties]
  have later (v : Bool) : ∀ t ∈ [Task.act h e actions v outlet], t.Aimed sc := by
    intro t ht
    obtain rfl := List.mem_singleton.1 ht
    cases actions with
    | nil => trivial
    | cons => exact aimed
  cases action with
  | replay | restamp | event => exact lands_andThen sc st D aimed _ same later
  | answer v =>
    rw [← same v]
    exact Lands.append (p := (st, [])) (.of_eq (by simp [deskOf]) (by simp)) (later v)
  | sync modifiers time =>
    rw [← same value]
    exact (lands_sync sc st _ aimed modifiers time).append (later value)

theorem lands_step {t : Task} (aimed : t.Aimed sc) :
    Lands sc a (st.desk a (t.duties a + D)) (st.step sc t) D := by
  have nothing (st' : State) (eq : st'.desk a D = st.desk a (t.duties a + D)) :
      Lands sc a (st.desk a (t.duties a + D)) (st', []) D :=
    .of_eq (by rw [deskOf, taskDuties_nil, zero_add, eq]) (by simp)
  cases t with
  | offer b d responders =>
    cases responders with
    | nil => exact nothing st (by simp [Task.duties, Duty.offers])
    | cons r rs => exact lands_offer_cons sc st D b d r rs
  | deliver t answer => exact lands_deliver sc st D t answer
  | settle b d claimed => exact lands_settle sc st D b d claimed
  | act h e actions value outlet =>
    cases actions with
    | cons => exact lands_act sc st D h e value outlet aimed
    | nil =>
      cases outlet with
      | answer t =>
        refine .of_eq ?_ (by simp [step, Task.Aimed])
        simp [deskOf, step, Task.duties, Outlet.duties]
      | inline =>
        refine nothing _ ?_
        rw [Task.duties, Outlet.duties, zero_add]
        rfl
  | feed b events =>
    cases events with
    | nil => exact nothing st (by simp [Task.duties])
    | cons e es =>
      have same (_ : Bool) : taskDuties a [.feed b es] = (Task.feed b (e :: es)).duties a := by
        simp [Task.duties]
      refine lands_andThen sc st D aimed e same ?_
      intro _ t ht
      obtain rfl := List.mem_singleton.1 ht
      exact aimed

end State

end KeyArbiter
