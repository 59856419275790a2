import KeyArbiter.Proofs.Tickets
import Mathlib

/-!
# After disposal

Completions outlive their arbiter: in records, moved out of them, or held by responders. Whoever
still has one may answer or drop it. The answer is noted, and noted as late, and that is all.
-/

namespace KeyArbiter

open Session (Command Ending)

/-! ## What may be left -/

namespace Session

/-- What may come of an arbiter that is gone: its completions end or change hands. The host may also
announce other layouts. -/
inductive Leftover (s : Session) (a : ArbiterId) : Command → Prop
  | ended (h : Holder) (how : Ending) (own : ∀ t ∈ s.ticketAt h, t.arbiter = a) :
    Leftover s a (h.ended how)
  | takeRecords : Leftover s a .takeRecords
  | takeCallback (slot : Nat) : Leftover s a (.takeCallback slot)
  | layoutChange : Leftover s a .layoutChange

/-- Commands that are carried out one after the other, each of them a leftover then. -/
def Leftovers (a : ArbiterId) : Session → List Command → Prop
  | _, [] => True
  | s, c :: cs => s.Leftover a c ∧ Leftovers a (s.perform c).1 cs

end Session

/-- The end of a response whose arbiter is gone. -/
inductive Entry.Belated : Entry → Prop
  | answered (who : ResponderKind) (id : Nat) (claimed : Bool) : Belated (.answered who id claimed)
  | dropped (who : ResponderKind) (id : Nat) : Belated (.dropped who id)
  | late (id : Nat) (claimed : Bool) : Belated (.late id claimed)

theorem Delivery.belated (who : ResponderKind) (id : Nat) (answer : Delivery) :
    (answer.entry who id).Belated := by
  cases answer with
  | answered claimed => exact .answered who id claimed
  | dropped => exact .dropped who id

/-- All that is noted of leftovers. -/
def Happening.Leftover (sc : Scene) (a : ArbiterId) (x : Happening) : Prop :=
  (x.arbiter = a ∧ x.entry.Belated) ∨
    (sc.isAlive x.arbiter = true ∧ ∃ flushed, x.entry = .layoutChanged flushed)

def Desk.dealt (k : Desk) (id : Nat) : Nat :=
  (answersTo k.past id).length + weigh (Duty.answers id) k.duties

/-- What commands do that are left of an arbiter. Of the host, only what it gave out and what it
lists of calls that no arbiter made may change: it was not called. -/
structure Inert (a : ArbiterId) (cs : List Command) (s s' : Session) : Prop where
  scene : s'.scene = s.scene
  host : s'.state = { s.state with
    books := s'.state.books
    records := s'.state.records
    held := s'.state.held
    direct := s'.state.direct
    journal := s'.state.journal }
  records : s'.state.records = if .takeRecords ∈ cs then [] else s.state.records
  book (b : ArbiterId) : s'.state.book b =
    if .layoutChange ∈ cs ∧ s.scene.isAlive b = true then (s.state.book b).forgetLayout
    else s.state.book b
  journal : ∃ since, s'.state.journal = since ++ s.state.journal ∧
    ∀ x ∈ since, x.Leftover s.scene a
  dealt (b : ArbiterId) (tasks : List Task) (id : Nat) :
    (Moment.desk ⟨s', tasks⟩ b).dealt id = (Moment.desk ⟨s, tasks⟩ b).dealt id

namespace Inert

variable {a : ArbiterId} {s s' s'' : Session} {cs : List Command}

theorem refl : Inert a [] s s :=
  ⟨rfl, rfl, rfl, fun _ => by simp, ⟨[], rfl, List.forall_mem_nil _⟩, fun _ _ _ => rfl⟩

theorem cons {c : Command} (first : Inert a [c] s s') (rest : Inert a cs s' s'') :
    Inert a (c :: cs) s s'' := by
  refine ⟨rest.scene.trans first.scene, ?_, ?_, ?_, ?_, ?_⟩
  · rw [rest.host, first.host]
  · rw [rest.records, first.records]
    by_cases now : Command.takeRecords = c <;> by_cases later : .takeRecords ∈ cs <;>
      simp [now, later]
  · intro b
    rw [rest.book, first.book, first.scene]
    by_cases alive : s.scene.isAlive b <;> by_cases now : Command.layoutChange = c <;>
      by_cases later : .layoutChange ∈ cs <;> simp [alive, now, later, Book.forgetLayout]
  · obtain ⟨before, noted, known⟩ := first.journal
    obtain ⟨after, notedToo, knownToo⟩ := rest.journal
    rw [first.scene] at knownToo
    exact ⟨after ++ before, by rw [notedToo, noted, List.append_assoc],
      List.forall_mem_append.2 ⟨knownToo, known⟩⟩
  · intro b tasks id
    rw [rest.dealt, first.dealt]

theorem of_desk {c : Command} (scene : s'.scene = s.scene)
    (host : s'.state = { s.state with records := s'.state.records })
    (records : s'.state.records = if .takeRecords = c then [] else s.state.records)
    (still : .layoutChange ≠ c)
    (desk : ∀ b tasks, Moment.desk ⟨s', tasks⟩ b = Moment.desk ⟨s, tasks⟩ b) :
    Inert a [c] s s' := by
  refine ⟨scene, ?_, ?_, ?_, ⟨[], by rw [host]; rfl, List.forall_mem_nil _⟩, ?_⟩
  · rw [host]
  · rw [records]
    simp
  · intro b
    rw [if_neg (by simp [still])]
    exact congrArg Desk.book (desk b [])
  · intro b tasks id
    rw [desk]

end Inert

/-! ## Late answers -/

namespace State

variable (sc : Scene) (st : State)

theorem deliver_gone {t : Ticket} (gone : sc.isAlive t.arbiter = false) (answer : Delivery) :
    st.deliver sc t answer = ((st.note t.arbiter (answer.entry t.responder t.id)).note t.arbiter
      (.late t.id answer.claimed), []) := by
  rw [deliver_eq]
  simp [gone]

end State

theorem weigh_ticket (t : Ticket) (a : ArbiterId) (id : Nat) :
    weigh (Duty.answers id) (t.duties a) = if t.arbiter = a ∧ t.id = id then 1 else 0 := by
  unfold Ticket.duties
  by_cases own : t.arbiter = a <;> simp [own, Duty.answers]

/-- At an end nothing happens but what is noted of it. -/
theorem Ended.inert {a : ArbiterId} {s s₁ : Session} {h : Holder} (ended : Ended s h s₁)
    (how : Ending) {since : Journal} (belated : ∀ x ∈ since, x.arbiter = a ∧ x.entry.Belated)
    (given : ∀ b id, (answersTo (Journal.about (since ++ s.state.journal) b) id).length =
      (answersTo (s.state.journal.about b) id).length +
        weigh (Duty.answers id) (ownerDuties b (s.ticketAt h))) :
    Inert a [h.ended how] s
      { s₁ with state := { s₁.state with journal := since ++ s.state.journal } } := by
  have other : .takeRecords ∉ [h.ended how] ∧ .layoutChange ∉ [h.ended how] := by
    cases h <;> cases how <;> simp [Holder.ended]
  refine ⟨ended.scene, ?_, ?_, ?_, ?_, ?_⟩
  · simp only
    rw [ended.state]
  · rw [if_neg other.1]
    simp only
    rw [ended.state]
  · intro b
    rw [if_neg fun told => other.2 told.1]
    have book : s₁.state.book b = s.state.book b := by
      rw [ended.state]
      rfl
    exact book
  · exact ⟨since, rfl, fun x hx => .inl (belated x hx)⟩
  · intro b tasks id
    have duties := congrArg (weigh (Duty.answers id)) (ended.duties b)
    have open₁ (journal : Journal) :
        State.duties b { s₁.state with journal } = s₁.state.duties b := rfl
    have taken₁ (state : State) : Session.duties b { s₁ with state } = s₁.duties b := rfl
    simp only [weigh_add] at duties
    simp only [Session.desk_eq, Desk.dealt, State.desk, given, open₁, taken₁, weigh_add]
    omega

namespace Session

variable (s : Session) {a : ArbiterId}

theorem inert_ended (gone : s.scene.isAlive a = false) (h : Holder) (how : Ending)
    (own : ∀ t ∈ s.ticketAt h, t.arbiter = a) :
    Inert a [h.ended how] s (s.perform (h.ended how)).1 := by
  obtain ⟨s₁, launched, ended⟩ := s.launch_ended h how
  have journal : s₁.state.journal = s.state.journal := by rw [ended.state]
  rw [fst_perform, launched]
  cases here : s.ticketAt h with
  | none =>
    rw [Option.toList_none, List.map_nil, settleAll_nil]
    have nothing := ended.inert (a := a) how (List.forall_mem_nil _) fun b id => by
      rw [here]
      rfl
    rwa [List.nil_append, ← journal] at nothing
  | some t =>
    obtain rfl := own t here
    rw [Option.toList_some, List.map_singleton, settleAll, finish, ended.scene, run, State.step,
      State.deliver_gone _ _ gone, List.append_nil, run_nil]
    have belated : ∀ x ∈ [Happening.mk t.arbiter (.late t.id how.delivery.claimed),
        ⟨t.arbiter, how.delivery.entry t.responder t.id⟩],
        x.arbiter = t.arbiter ∧ x.entry.Belated := by
      intro x hx
      rcases List.mem_cons.1 hx with rfl | hx
      · exact ⟨rfl, .late ..⟩
      · obtain rfl := List.mem_singleton.1 hx
        exact ⟨rfl, Delivery.belated ..⟩
    have noted := ended.inert how belated fun b id => by
      obtain ⟨-, answers⟩ := deliversOnce s.scene s.state t how.delivery
      rw [State.deliver_gone _ _ gone] at answers
      have answers : answersTo (Journal.about (_ :: _ :: s.state.journal) b) id = _ := answers b id
      rw [here, ownerDuties, Option.elim_some, weigh_ticket, List.cons_append, List.cons_append,
        List.nil_append, answers]
      split <;> rfl
    rw [← journal, ended.scene] at noted
    exact noted

end Session

/-! ## Other layouts -/

def State.relayout (sc : Scene) (st : State) (a : ArbiterId) : State :=
  if sc.isAlive a then
    (st.setBook a (st.book a).forgetLayout).note a (.layoutChanged (st.book a).known.length)
  else st

structure Relaid (sc : Scene) (told : List ArbiterId) (st st' : State) : Prop where
  host : st' = { st with books := st'.books, journal := st'.journal }
  book (b : ArbiterId) : st'.book b =
    if b ∈ told ∧ sc.isAlive b = true then (st.book b).forgetLayout else st.book b
  journal : ∃ since, st'.journal = since ++ st.journal ∧
    ∀ x ∈ since, sc.isAlive x.arbiter = true ∧ ∃ flushed, x.entry = .layoutChanged flushed

theorem relaid_relayout (sc : Scene) (st : State) (a : ArbiterId) :
    Relaid sc [a] st (st.relayout sc a) := by
  unfold State.relayout
  by_cases alive : sc.isAlive a
  · rw [if_pos alive]
    refine ⟨rfl, ?_, [_], rfl, ?_⟩
    · intro b
      rw [State.book_note]
      by_cases own : b = a
      · subst own
        simp [alive]
      · simp [own, State.book_setBook_of_ne st own]
    · intro x hx
      obtain rfl := List.mem_singleton.1 hx
      exact ⟨alive, _, rfl⟩
  · rw [if_neg alive]
    refine ⟨rfl, ?_, [], rfl, List.forall_mem_nil _⟩
    intro b
    by_cases own : b = a <;> simp [own, alive]

theorem relaid_all (sc : Scene) (st : State) (told : List ArbiterId) :
    Relaid sc told st (told.foldl (State.relayout sc) st) := by
  induction told generalizing st with
  | nil => exact ⟨rfl, fun b => by simp, [], rfl, List.forall_mem_nil _⟩
  | cons a told ih =>
    obtain ⟨host, book, before, noted, known⟩ := relaid_relayout sc st a
    obtain ⟨host', book', after, noted', known'⟩ := ih (st.relayout sc a)
    rw [List.foldl_cons]
    refine ⟨?_, ?_, after ++ before, by rw [noted', noted, List.append_assoc], ?_⟩
    · rw [host', host]
    · intro b
      rw [book', book]
      by_cases alive : sc.isAlive b
      · rcases eq_or_ne b a with rfl | ne
        · by_cases later : b ∈ told <;> simp [alive, later, Book.forgetLayout]
        · simp [alive, ne]
      · simp [alive]
    · exact List.forall_mem_append.2 ⟨known', known⟩

theorem answersTo_append {since : Journal} (silent : ∀ x ∈ since, x.entry.answer? = none)
    (past : Journal) (a : ArbiterId) (id : Nat) :
    answersTo (Journal.about (since ++ past) a) id = answersTo (past.about a) id := by
  induction since with
  | nil => rfl
  | cons x since ih =>
    obtain ⟨none, silent⟩ := List.forall_mem_cons.1 silent
    rw [List.cons_append, Journal.about_cons, ← ih silent]
    split
    · exact answersTo_cons none ..
    · rfl

namespace Session

variable (s : Session) {a : ArbiterId}

theorem inert_layoutChange : Inert a [.layoutChange] s (s.perform .layoutChange).1 := by
  have relaid := relaid_all s.scene s.state (List.range s.scene.setups.length)
  have whole : (s.perform .layoutChange).1 = { s with
      state := (List.range s.scene.setups.length).foldl (State.relayout s.scene) s.state } := rfl
  rw [whole]
  generalize (List.range s.scene.setups.length).foldl (State.relayout s.scene) s.state = st at relaid
  obtain ⟨host, book, since, noted, known⟩ := relaid
  refine ⟨rfl, ?_, ?_, ?_, ⟨since, noted, fun x hx => .inr (known x hx)⟩, ?_⟩
  · simp only
    rw [host]
  · rw [if_neg (by simp)]
    simp only
    rw [host]
  · intro b
    simp only [List.mem_singleton, true_and]
    rw [book]
    by_cases alive : s.scene.isAlive b
    · simp [alive, lt_of_isAlive alive]
    · simp [alive]
  · intro b tasks id
    have silent : ∀ x ∈ since, x.entry.answer? = none := by
      intro x hx
      obtain ⟨-, flushed, eq⟩ := known x hx
      rw [eq]
      rfl
    simp only [desk_eq, Desk.dealt, State.desk, noted, answersTo_append silent]
    rw [host]
    rfl

/-! ## All that is left -/

theorem Leftover.inert {s : Session} (gone : s.scene.isAlive a = false) {c : Command}
    (leftover : s.Leftover a c) : Inert a [c] s (s.perform c).1 := by
  cases leftover with
  | ended h how own => exact s.inert_ended gone h how own
  | takeRecords =>
    exact .of_desk rfl rfl (if_pos rfl).symm nofun fun b tasks => desk_takeRecords s b tasks
  | takeCallback slot =>
    have spec (b : ArbiterId) (tasks : List Task) := takeCallback_spec s b tasks slot
    obtain ⟨state, scene, -⟩ := spec a []
    refine .of_desk scene ?_ ?_ nofun fun b tasks => (spec b tasks).2.2
    · rw [state]
    · rw [state]
      exact (if_neg nofun).symm
  | layoutChange => exact s.inert_layoutChange

theorem Leftovers.inert {s : Session} (gone : s.scene.isAlive a = false) {cs : List Command}
    (leftovers : s.Leftovers a cs) : Inert a cs s (s.performAll cs) := by
  induction cs generalizing s with
  | nil => exact .refl
  | cons c cs ih =>
    obtain ⟨leftover, leftovers⟩ := leftovers
    have first := leftover.inert gone
    have stillGone : (s.perform c).1.scene.isAlive a = false := by rwa [first.scene]
    exact first.cons (ih stillGone leftovers)

end Session

namespace Moment

theorem dealt_desk (m : Moment) (a : ArbiterId) (id : Nat) :
    (m.desk a).dealt id = (answersTo (m.past a) id).length + m.live a id := by
  rw [Desk.dealt, weigh_answers]
  rfl

/-- Whatever becomes of the completions of an arbiter that is gone, and whatever layouts the host
announces, the host is not called, no other arbiter notices, and no answer is given twice. -/
theorem disposed_inert (moves : List Move) {a : ArbiterId}
    (gone : (after moves).scene.isAlive a = false) (later : List Command)
    (leftovers : (after moves).session.Leftovers a later) :
    let m := after moves
    let m' : Moment := ⟨m.session.performAll later, m.tasks⟩
    EndsOnce ∧ m'.scene = m.scene ∧
    (m'.state.queue = m.state.queue ∧ m'.state.inlineReplays = m.state.inlineReplays ∧
      m'.state.refused = m.state.refused ∧ m'.state.filterCalls = m.state.filterCalls ∧
      m'.state.sent = m.state.sent ∧
      m'.state.records = if .takeRecords ∈ later then [] else m.state.records) ∧
    (∀ b, m'.book b =
      if .layoutChange ∈ later ∧ m.scene.isAlive b = true then (m.book b).forgetLayout
      else m.book b) ∧
    (∃ since, m'.state.journal = since ++ m.state.journal ∧
      ∀ x ∈ since, x.Leftover m.scene a) ∧
    ∀ b id, (answersTo (m'.past b) id).length + m'.live b id =
      (answersTo (m.past b) id).length + m.live b id := by
  intro m m'
  have inert : Inert a later m.session m'.session := leftovers.inert gone
  refine ⟨endsOnce, inert.scene, ?_, inert.book, inert.journal, ?_⟩
  · have host {α : Type} (f : State → α) := congrArg f inert.host
    exact ⟨host State.queue, host State.inlineReplays, host State.refused, host State.filterCalls,
      host State.sent, inert.records⟩
  · intro b id
    rw [← dealt_desk, ← dealt_desk]
    exact inert.dealt b m.tasks id

/-- A press that is open in three places when its arbiter is disposed of. -/
def disposedPress : List Move :=
  [.command (.build {} false [.hold]), .command (.setEmbedder .record),
    .command (.setChannel .record), .command (.event 0 aPress)] ++ List.replicate 6 .go ++
  [.command (.dispose 0)]

/-- All of it ends: held, in its record, and moved out of one. The second answer is tried again. -/
def lateAnswers : List Command :=
  [.takeRecords, .takeCallback 1, .endHeld 0 .drop, .respond 0 false, .endCallback 0 (.answer true),
    .layoutChange, .respond 0 true]

theorem disposed_inert_disposedPress :
    (after disposedPress).scene.isAlive 0 = false ∧ (after disposedPress).tasks = [] ∧
      (after disposedPress).session.Leftovers 0 lateAnswers ∧ (after disposedPress).live 0 1 = 3 ∧
      ((after disposedPress).session.performAll lateAnswers).state.queue = [] ∧
      (answersTo (((after disposedPress).session.performAll lateAnswers).state.journal.about 0)
        1).length ≤ 3 := by
  have gone : (after disposedPress).scene.isAlive 0 = false := by decide +kernel
  have leftovers : (after disposedPress).session.Leftovers 0 lateAnswers :=
    ⟨.takeRecords, .takeCallback 1, .ended (.held 0) .drop (by decide +kernel),
      .ended (.record 0) (.answer false) (by decide +kernel),
      .ended (.callback 0) (.answer true) (by decide +kernel), .layoutChange,
      .ended (.record 0) (.answer true) (by decide +kernel), trivial⟩
  have live : (after disposedPress).live 0 1 = 3 := by decide +kernel
  have none : (answersTo ((after disposedPress).past 0) 1).length = 0 := by decide +kernel
  obtain ⟨-, -, ⟨queue, -⟩, -, -, dealt⟩ := disposed_inert disposedPress gone lateAnswers leftovers
  have given := dealt 0 1
  rw [live, none] at given
  exact ⟨gone, by decide +kernel, leftovers, live, queue.trans (by decide +kernel),
    le_of_le_of_eq (Nat.le_add_right ..) given⟩

end Moment

end KeyArbiter
