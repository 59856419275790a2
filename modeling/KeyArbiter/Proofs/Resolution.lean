import KeyArbiter.Proofs.History
import KeyArbiter.Proofs.Lifecycle
import Mathlib

/-!
# Every event is resolved once

The filter and the host hear of an event only after all its responders were offered it and have
answered, and then each at most once, as the answers say.
-/

namespace KeyArbiter

/-! ## What the past tells of one event -/

def historyOf (past : List Entry) (id : Nat) : List Entry := past.filter (·.event? = some id)

/-- Who was offered an event, the latest first. -/
def offersOf (past : List Entry) (id : Nat) : List ResponderKind :=
  (historyOf past id).filterMap Entry.offer?

/-- The answers for an event. A response that was dropped claims nothing. -/
def answersTo (past : List Entry) (id : Nat) : List Bool :=
  (historyOf past id).filterMap Entry.answer?

def consultsOn (past : List Entry) (id : Nat) : List KeyEvent :=
  (historyOf past id).filterMap Entry.consult?

def handBacksOf (past : List Entry) (id : Nat) : List KeyEvent :=
  (historyOf past id).filterMap Entry.handBack?

def Moment.past (m : Moment) (a : ArbiterId) : List Entry := m.state.journal.about a

/-! ## What a settlement holds -/

section Settlement

variable (setup : Setup) (d : Dispatch) (claimed consumes refuses : Bool)

theorem silent_settlement : ∀ x ∈ settlement setup d claimed consumes refuses,
    x.dispatch? = none ∧ x.offer? = none ∧ x.answer? = none := by
  simp only [settlement]
  generalize setup.asks d claimed = asks
  generalize (if asks then consumes else claimed) = verdict
  cases verdict <;> cases refuses <;> cases asks <;>
    simp [Entry.dispatch?, Entry.offer?, Entry.answer?]

theorem consults_settlement : (settlement setup d claimed consumes refuses).filterMap Entry.consult? =
    if setup.asks d claimed then [d.event] else [] := by
  simp only [settlement]
  generalize setup.asks d claimed = asks
  generalize (if asks then consumes else claimed) = verdict
  cases verdict <;> cases refuses <;> cases asks <;> rfl

theorem handBacks_settlement :
    (settlement setup d claimed consumes refuses).filterMap Entry.handBack? =
      if (if setup.asks d claimed then consumes else claimed) then [] else [d.event] := by
  simp only [settlement]
  generalize setup.asks d claimed = asks
  generalize (if asks then consumes else claimed) = verdict
  cases verdict <;> cases refuses <;> cases asks <;> rfl

theorem mem_settlement_filtered :
    .filtered d.id d.event true ∈ settlement setup d claimed consumes refuses ↔
      setup.asks d claimed ∧ consumes := by
  simp only [settlement]
  generalize setup.asks d claimed = asks
  generalize (if asks then consumes else claimed) = verdict
  cases verdict <;> cases refuses <;> cases asks <;> simp [eq_comm]

end Settlement

/-! ## Early and late histories -/

inductive Late (setup : Setup) (d : Dispatch) (claimed consumes refuses : Bool) : List Entry → Prop
  | settled : Late setup d claimed consumes refuses (settlement setup d claimed consumes refuses)
  | replayed : Late setup d claimed consumes refuses
    (.replayed d.id d.event :: settlement setup d claimed consumes refuses)

namespace Late

variable {setup : Setup} {d : Dispatch} {claimed consumes refuses : Bool} {late : List Entry}

theorem silent (h : Late setup d claimed consumes refuses late) :
    ∀ x ∈ late, x.dispatch? = none ∧ x.offer? = none ∧ x.answer? = none := by
  have settled := silent_settlement setup d claimed consumes refuses
  cases h with
  | settled => exact settled
  | replayed => exact List.forall_mem_cons.2 ⟨⟨rfl, rfl, rfl⟩, settled⟩

theorem consults (h : Late setup d claimed consumes refuses late) :
    late.filterMap Entry.consult? = if setup.asks d claimed then [d.event] else [] := by
  cases h with
  | settled => exact consults_settlement ..
  | replayed =>
    rw [List.filterMap_cons_none rfl]
    exact consults_settlement ..

theorem handBacks (h : Late setup d claimed consumes refuses late) :
    late.filterMap Entry.handBack? =
      if (if setup.asks d claimed then consumes else claimed) then [] else [d.event] := by
  cases h with
  | settled => exact handBacks_settlement ..
  | replayed =>
    rw [List.filterMap_cons_none rfl]
    exact handBacks_settlement ..

theorem mem_filtered (h : Late setup d claimed consumes refuses late) :
    .filtered d.id d.event true ∈ late ↔ setup.asks d claimed ∧ consumes := by
  cases h with
  | settled => exact mem_settlement_filtered ..
  | replayed =>
    rw [List.mem_cons]
    simp [mem_settlement_filtered]

end Late

theorem Stage.history_cases {setup : Setup} {id : Nat} {D : Dossier} (stage : Stage setup id D) :
    D.history = [] ∨
      (∃ d rs left claimed, d.id = id ∧ Underway setup d rs left claimed D.history ∧
        (left = 0 → .settle d claimed ∈ D.duties)) ∨
      ∃ d claimed consumes refuses late early, d.id = id ∧ D.history = late ++ early ∧
        Late setup d claimed consumes refuses late ∧ Underway setup d [] 0 claimed early := by
  cases stage with
  | unborn => exact .inl rfl
  | @waiting d rs k claimed history underway left =>
    exact .inr (.inl ⟨d, rs, _, claimed, rfl, underway, fun none => absurd left (by omega)⟩)
  | settling underway =>
    exact .inr (.inl ⟨_, _, _, _, rfl, underway, fun _ => Multiset.mem_singleton_self _⟩)
  | closed underway | returned underway =>
    exact .inr (.inr ⟨_, _, _, _, _, _, rfl, rfl, .settled, underway⟩)
  | replayed underway =>
    exact .inr (.inr ⟨_, _, _, _, _, _, rfl, rfl, .replayed, underway⟩)

theorem Stage.of_dispatched {setup : Setup} {d : Dispatch} {n : Nat} {D : Dossier}
    (stage : Stage setup d.id D) (mem : .dispatched d n ∈ D.history) :
    n = setup.responders.length ∧
      ((∃ rs left claimed, Underway setup d rs left claimed D.history ∧
        (left = 0 → .settle d claimed ∈ D.duties)) ∨
      ∃ claimed consumes refuses late early, D.history = late ++ early ∧
        Late setup d claimed consumes refuses late ∧ Underway setup d [] 0 claimed early) := by
  have known {d' rs left claimed history} (underway : Underway setup d' rs left claimed history)
      (mem : .dispatched d n ∈ history) : d = d' ∧ n = setup.responders.length := by
    have found : (d, n) ∈ history.filterMap Entry.dispatch? := List.mem_filterMap.2 ⟨_, mem, rfl⟩
    rw [underway.dispatched, List.mem_singleton] at found
    cases found
    exact ⟨rfl, rfl⟩
  rcases stage.history_cases with none | ⟨d', rs, left, claimed, -, underway, owed⟩ |
    ⟨d', claimed, consumes, refuses, late, early, -, split, isLate, underway⟩
  · rw [none] at mem
    exact absurd mem List.not_mem_nil
  · obtain ⟨rfl, rfl⟩ := known underway mem
    exact ⟨rfl, .inl ⟨rs, left, claimed, underway, owed⟩⟩
  · rw [split] at mem
    rcases List.mem_append.1 mem with mem | mem
    · cases (isLate.silent _ mem).1
    · obtain ⟨rfl, rfl⟩ := known underway mem
      exact ⟨rfl, .inr ⟨claimed, consumes, refuses, late, early, split, isLate, underway⟩⟩

theorem Underway.unclaimed_iff {setup : Setup} {d : Dispatch} {rs : List Responder} {claimed : Bool}
    {history : List Entry} (h : Underway setup d rs 0 claimed history) :
    history.filterMap Entry.answer? = List.replicate setup.responders.length false ↔
      claimed = false := by
  have answered := h.answered
  rw [List.eq_replicate_iff, h.claimed]
  generalize history.filterMap Entry.answer? = answers at answered
  rw [add_zero] at answered
  simp [answered]

/-! ## Neither is asked too early -/

namespace Sound

variable {setup : Setup} {k : Desk} {d : Dispatch} {n : Nat}

theorem dispatched (sound : Sound setup k) (mem : .dispatched d n ∈ k.past) :
    n = setup.responders.length ∧
      ((∃ rs left claimed, Underway setup d rs left claimed (historyOf k.past d.id) ∧
        (left = 0 → .settle d claimed ∈ k.duties)) ∨
      ∃ claimed consumes refuses late early, historyOf k.past d.id = late ++ early ∧
        Late setup d claimed consumes refuses late ∧ Underway setup d [] 0 claimed early) := by
  have mem : .dispatched d n ∈ (k.dossier d.id).history :=
    List.mem_filter.2 ⟨mem, decide_eq_true rfl⟩
  obtain ⟨n, ⟨rs, left, claimed, underway, owed⟩ | late⟩ := (sound.stage d.id).of_dispatched mem
  · exact ⟨n, .inl ⟨rs, left, claimed, underway, fun none => (Multiset.mem_filter.1 (owed none)).1⟩⟩
  · exact ⟨n, .inr late⟩

/-- If nothing is being settled, an event still waits, or was settled as its answers say. -/
theorem outcome (sound : Sound setup k) (mem : .dispatched d n ∈ k.past)
    (idle : ∀ claimed, .settle d claimed ∉ k.duties) :
    (answersTo k.past d.id ≠ List.replicate n false ∧ consultsOn k.past d.id = [] ∧
      handBacksOf k.past d.id = []) ∨
    ∃ claimed consumes, (answersTo k.past d.id = List.replicate n false ↔ claimed = false) ∧
      consultsOn k.past d.id = (if setup.asks d claimed then [d.event] else []) ∧
      handBacksOf k.past d.id =
        (if (if setup.asks d claimed then consumes else claimed) then [] else [d.event]) ∧
      (.filtered d.id d.event true ∈ k.past ↔ setup.asks d claimed ∧ consumes) := by
  obtain ⟨rfl, ⟨rs, left, claimed, underway, owed⟩ |
    ⟨claimed, consumes, refuses, late, early, parts, isLate, underway⟩⟩ := sound.dispatched mem
  · refine .inl ⟨?_, ?_, ?_⟩
    · intro all
      have some : left ≠ 0 := fun h => idle claimed (owed h)
      have answered := underway.answered
      have count := congrArg List.length all
      rw [List.length_replicate] at count
      change (answersTo k.past d.id).length + left = _ at answered
      omega
    · exact List.filterMap_eq_nil_iff.2 fun x hx => (underway.early x hx).1
    · exact List.filterMap_eq_nil_iff.2 fun x hx => (underway.early x hx).2.1
  · refine .inr ⟨claimed, consumes, ?_, ?_, ?_, ?_⟩
    · rw [answersTo, parts, List.filterMap_append,
        List.filterMap_eq_nil_iff.2 fun x hx => (isLate.silent x hx).2.2]
      exact underway.unclaimed_iff
    · rw [consultsOn, parts, List.filterMap_append, isLate.consults,
        List.filterMap_eq_nil_iff.2 fun x hx => (underway.early x hx).1, List.append_nil]
    · rw [handBacksOf, parts, List.filterMap_append, isLate.handBacks,
        List.filterMap_eq_nil_iff.2 fun x hx => (underway.early x hx).2.1, List.append_nil]
    · rw [← isLate.mem_filtered]
      have here : .filtered d.id d.event true ∈ k.past ↔
          .filtered d.id d.event true ∈ historyOf k.past d.id := by
        rw [historyOf, List.mem_filter]
        exact ⟨fun h => ⟨h, decide_eq_true rfl⟩, And.left⟩
      rw [here, parts, List.mem_append]
      exact ⟨fun h => h.resolve_right fun early => (by cases (underway.early _ early).1), .inl⟩

theorem consulted (sound : Sound setup k) (mem : .dispatched d n ∈ k.past)
    (idle : ∀ claimed, .settle d claimed ∉ k.duties) :
    consultsOn k.past d.id =
      if answersTo k.past d.id = List.replicate n false ∧ d.event.synthesized = false ∧
        (d.event.isPress ∨ setup.settings.textInputFiltersReleases) then [d.event] else [] := by
  rcases sound.outcome mem idle with ⟨waits, none, -⟩ | ⟨claimed, consumes, all, asked, -, -⟩
  · rw [none, if_neg fun h => waits h.1]
  · rw [asked]
    simp only [all]
    cases claimed <;> simp [Setup.asks, Dispatch.filterable]

theorem handedBack (sound : Sound setup k) (mem : .dispatched d n ∈ k.past)
    (idle : ∀ claimed, .settle d claimed ∉ k.duties) :
    handBacksOf k.past d.id =
      if answersTo k.past d.id = List.replicate n false ∧ .filtered d.id d.event true ∉ k.past
      then [d.event] else [] := by
  rcases sound.outcome mem idle with ⟨waits, -, none⟩ | ⟨claimed, consumes, all, -, back, filtered⟩
  · rw [none, if_neg fun h => waits h.1]
  · rw [back]
    simp only [all, filtered]
    cases claimed with
    | true => simp [Setup.asks]
    | false => cases consumes <;> cases setup.asks d false <;> simp

end Sound

/-! ## At every moment -/

def OnlyAnswers (duties : Multiset Duty) : Prop := ∀ x ∈ duties, x = .ticket x.id

namespace OnlyAnswers

variable {duties more : Multiset Duty}

theorem zero : OnlyAnswers 0 := fun _ hx => absurd hx (Multiset.notMem_zero _)

theorem add (h : OnlyAnswers duties) (h' : OnlyAnswers more) : OnlyAnswers (duties + more) := by
  intro x hx
  rcases Multiset.mem_add.1 hx with hx | hx
  · exact h x hx
  · exact h' x hx

theorem sum {parts : List (Multiset Duty)} (h : ∀ part ∈ parts, OnlyAnswers part) :
    OnlyAnswers parts.sum :=
  List.sum_induction OnlyAnswers (fun _ _ => add) zero h

theorem ticket (a : ArbiterId) (t : Ticket) : OnlyAnswers (t.duties a) := by
  unfold Ticket.duties
  split
  · intro x hx
    obtain rfl := Multiset.mem_singleton.1 hx
    rfl
  · exact zero

theorem completion (a : ArbiterId) (c : Completion) : OnlyAnswers (c.duties a) := by
  unfold Completion.duties ownerDuties
  cases c.owner with
  | none => exact zero
  | some t => exact ticket a t

theorem record (a : ArbiterId) (r : CallRecord) : OnlyAnswers (r.duties a) := by
  unfold CallRecord.duties
  cases r.completion with
  | none => exact zero
  | some c => exact completion a c

theorem slots {α : Type} {f : α → Multiset Duty} (h : ∀ x, OnlyAnswers (f x))
    (slots : List (Option α)) : OnlyAnswers (slotDuties f slots) := by
  apply sum
  intro part hpart
  obtain ⟨o, -, rfl⟩ := List.mem_map.1 hpart
  cases o with
  | none => exact zero
  | some x => exact h x

theorem state (a : ArbiterId) (st : State) : OnlyAnswers (st.duties a) := by
  refine add (sum fun part hpart => ?_) (slots (ticket a) _)
  obtain ⟨r, -, rfl⟩ := List.mem_map.1 hpart
  exact record a r

theorem session (a : ArbiterId) (s : Session) : OnlyAnswers (s.duties a) :=
  add (slots (record a) _) (slots (completion a) _)

end OnlyAnswers

theorem Moment.sound (moves : List Move) {a : ArbiterId} (alive : (after moves).scene.isAlive a) :
    Sound ((after moves).scene.setup a) ((after moves).desk a) := by
  obtain ⟨start, blank, course⟩ := exists_course moves alive
  exact Sound.of_course alive blank course

theorem Moment.onlyAnswers {m : Moment} (idle : m.tasks = []) (a : ArbiterId) :
    OnlyAnswers (m.desk a).duties := by
  have tasks : OnlyAnswers (taskDuties a m.tasks) := by
    rw [idle]
    exact .zero
  exact (OnlyAnswers.state a m.state).add (tasks.add (.session a m.session))

/-- Whatever a call tells of an event is noted: it is fresh and dispatched, or a replay. -/
def ArrivalsNoted (a : ArbiterId) : Prop :=
  ∀ (sc : Scene) (st : State) (e : KeyEvent), ∃ x,
    (st.arrive sc a e).1.journal = ⟨a, x⟩ :: st.journal ∧
      if (st.arrive sc a e).2.2 then ∃ d, d.event = e ∧ x = .dispatched d (sc.responders a).length
      else ∃ id, x = .replayed id e

theorem arrivalsNoted (a : ArbiterId) : ArrivalsNoted a := by
  intro sc st e
  have event := ((st.book a).dispatch_spec (sc.layout a) e).2.2
  rw [State.arrive_eq]
  unfold Book.arrive
  cases (st.book a).docket.takeReplay e with
  | some p => exact ⟨_, rfl, p.2, rfl⟩
  | none => exact ⟨_, rfl, _, event, rfl⟩

/-- The host is asked to deliver an event again exactly when that is noted. Else nothing of it
changes. -/
def HandBacksNoted (a : ArbiterId) : Prop :=
  ∀ (sc : Scene) (st : State) (d : Dispatch) (claimed : Bool), ∃ st' : State,
    st'.queue = st.queue ∧ st'.refused = st.refused ∧ st'.budgets = st.budgets ∧
      ((st.conclude sc a d claimed = (st', []) ∧
        st'.journal = ⟨a, .resolved d.id claimed⟩ :: st.journal) ∨
      ∃ e, st.conclude sc a d claimed = st'.handBack sc a d.id e ∧
        st'.journal = ⟨a, .handedBack d.id e⟩ :: ⟨a, .resolved d.id claimed⟩ :: st.journal)

theorem handBacksNoted (a : ArbiterId) : HandBacksNoted a := by
  intro sc st d claimed
  rw [State.conclude_eq]
  cases ((st.book a).settle d claimed).2 with
  | none => exact ⟨st.resolve a d claimed, rfl, rfl, rfl, .inl ⟨rfl, rfl⟩⟩
  | some e =>
    exact ⟨(st.resolve a d claimed).note a (.handedBack d.id e), rfl, rfl, rfl, .inr ⟨e, rfl, rfl⟩⟩

namespace Moment

def aPress : KeyEvent := { time := 7, isPress := true, keycode := 0x26, keyval := 0x61 }

def unclaimedPress : List Move :=
  [.command (.build { embedderResponder := false, channelResponder := false } false
    [.answer false]), .command (.event 0 aPress), .go, .go, .go, .go]

end Moment

end KeyArbiter
