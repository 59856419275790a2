import KeyArbiter.Proofs.Resolution
import Mathlib

/-!
# Replays are accounted for

The cases that expect an event back, and the replays of it so far, are together as many as the host
agreed to deliver. An arrival is a replay exactly as long as one of them is left, and closes the
oldest case that expects it.
-/

namespace KeyArbiter

/-! ## What is counted -/

def Entry.taken (past : List Entry) (e : KeyEvent) : Entry → Bool
  | .handedBack id e' => e' == e && !past.contains (.refused id)
  | _ => false

/-- How often the host agreed to deliver an event again. -/
def takenOf (past : List Entry) (e : KeyEvent) : Nat := past.countP (Entry.taken past e)

/-- How often an event arrived that was taken for a replay. -/
def replaysOf (past : List Entry) (e : KeyEvent) : Nat := past.countP (·.replay? = some e)

theorem countP_eq_sum {α : Type} {p : α → Bool} {l : List α} (key : α → Option Nat) {n : Nat}
    (keyed : ∀ x ∈ l, p x → ∃ id < n, key x = some id) :
    l.countP p = ∑ id ∈ Finset.range n, (l.filter (key · = some id)).countP p := by
  induction l with
  | nil => simp
  | cons x l ih =>
    have ih := ih fun y hy => keyed y (List.mem_cons_of_mem _ hy)
    cases h : p x with
    | false =>
      have skip (id : Nat) : ((x :: l).filter (key · = some id)).countP p =
          (l.filter (key · = some id)).countP p := by
        rw [List.filter_cons]
        split
        · rw [List.countP_cons_of_neg (by simp [h])]
        · rfl
      rw [List.countP_cons_of_neg (by simp [h]), ih]
      exact Finset.sum_congr rfl fun id _ => (skip id).symm
    | true =>
      obtain ⟨id, lt, eq⟩ := keyed x (List.mem_cons_self ..) h
      have step (id' : Nat) : ((x :: l).filter (key · = some id')).countP p =
          (l.filter (key · = some id')).countP p + if id' = id then 1 else 0 := by
        rw [List.filter_cons, eq]
        by_cases same : id' = id
        · simp [same, h]
        · simp [same, Ne.symm same]
      rw [List.countP_cons_of_pos h, ih, Finset.sum_congr rfl fun id' _ => step id',
        Finset.sum_add_distrib, Finset.sum_ite_eq', if_pos (Finset.mem_range.2 lt)]

/-! ## One event -/

theorem countP_replay_settlement (setup : Setup) (d : Dispatch) (claimed consumes refuses : Bool)
    (e : KeyEvent) :
    (settlement setup d claimed consumes refuses).countP (·.replay? = some e) = 0 := by
  refine List.countP_eq_zero.2 ?_
  simp only [settlement]
  generalize setup.asks d claimed = asks
  generalize (if asks then consumes else claimed) = verdict
  cases verdict <;> cases refuses <;> cases asks <;> simp [Entry.replay?]

theorem countP_taken_settlement (setup : Setup) (d : Dispatch) (claimed consumes refuses : Bool)
    (past : List Entry) (e : KeyEvent) :
    (settlement setup d claimed consumes refuses).countP (Entry.taken past e) =
      if (if setup.asks d claimed then consumes else claimed) || past.contains (.refused d.id) then 0
      else if d.event = e then 1 else 0 := by
  simp only [settlement]
  generalize setup.asks d claimed = asks
  generalize (if asks then consumes else claimed) = verdict
  by_cases eq : d.event = e <;> by_cases mem : .refused d.id ∈ past <;>
    cases verdict <;> cases refuses <;> cases asks <;> simp [Entry.taken, eq, mem]

theorem refused_mem_settlement {setup : Setup} {d : Dispatch} {claimed consumes refuses : Bool}
    (verdict : (if setup.asks d claimed then consumes else claimed) = false) :
    .refused d.id ∈ settlement setup d claimed consumes refuses ↔ refuses := by
  simp only [settlement, verdict]
  cases refuses <;> cases setup.asks d claimed <;> simp

namespace Underway

variable {setup : Setup} {d : Dispatch} {rs : List Responder} {left : Nat} {claimed : Bool}
  {history : List Entry}

theorem countP_replay (h : Underway setup d rs left claimed history) (e : KeyEvent) :
    history.countP (·.replay? = some e) = 0 := by
  apply List.countP_eq_zero.2
  intro x hx
  simp [(h.early x hx).2.2.1]

theorem countP_taken (h : Underway setup d rs left claimed history) (past : List Entry)
    (e : KeyEvent) : history.countP (Entry.taken past e) = 0 := by
  apply List.countP_eq_zero.2
  intro x hx
  have none := (h.early x hx).2.1
  unfold Entry.taken
  split
  · cases none
  · simp

theorem not_refused (h : Underway setup d rs left claimed history) (id : Nat) :
    .refused id ∉ history := by
  intro refused
  cases (h.early _ refused).2.2.2

end Underway

theorem Stage.account {setup : Setup} {id : Nat} {D : Dossier} (stage : Stage setup id D)
    (e : KeyEvent) :
    D.cases.countP (Docket.Expects e) + D.history.countP (·.replay? = some e) =
      D.history.countP (Entry.taken D.history e) := by
  cases stage with
  | unborn => rfl
  | waiting underway | settling underway =>
    rw [underway.countP_replay, underway.countP_taken]
    simp [Docket.Expects]
  | @closed d claimed consumes refuses history underway ended =>
    rw [List.countP_append, List.countP_append, countP_replay_settlement, countP_taken_settlement,
      underway.countP_replay, underway.countP_taken, if_pos]
    · rfl
    · cases verdict : (if setup.asks d claimed then consumes else claimed) with
      | true => rfl
      | false =>
        rw [verdict, Bool.false_or] at ended
        simp [(refused_mem_settlement verdict).2 ended]
  | @returned d claimed consumes history underway verdict =>
    have taken : .refused d.id ∉ settlement setup d claimed consumes false ++ history := by
      rw [List.mem_append, refused_mem_settlement verdict]
      simp [underway.not_refused]
    rw [List.countP_append, List.countP_append, countP_replay_settlement, countP_taken_settlement,
      underway.countP_replay, underway.countP_taken, verdict]
    simp only [List.contains_eq_mem, taken]
    simp [Docket.Expects, List.countP_cons]
  | @replayed d claimed consumes history underway verdict =>
    have taken : .refused d.id ∉
        .replayed d.id d.event :: settlement setup d claimed consumes false ++ history := by
      rw [List.cons_append, List.mem_cons, List.mem_append, refused_mem_settlement verdict]
      simp [underway.not_refused]
    rw [List.cons_append] at taken ⊢
    rw [List.countP_cons, List.countP_cons, List.countP_append, List.countP_append,
      countP_replay_settlement, countP_taken_settlement, underway.countP_replay,
      underway.countP_taken, verdict]
    simp only [List.contains_eq_mem, taken]
    simp [Entry.replay?, Entry.taken]

/-! ## All events -/

theorem taken_historyOf (past : List Entry) (e : KeyEvent) (id : Nat) :
    (historyOf past id).countP (Entry.taken past e) =
      (historyOf past id).countP (Entry.taken (historyOf past id) e) := by
  apply List.countP_congr
  intro x hx
  obtain ⟨-, about⟩ := List.mem_filter.1 hx
  unfold Entry.taken
  split
  · next id' e' =>
    obtain rfl : id' = id := by simpa [Entry.event?] using about
    have here : .refused id' ∈ historyOf past id' ↔ .refused id' ∈ past := by
      rw [historyOf, List.mem_filter]
      exact ⟨And.left, fun h => ⟨h, decide_eq_true rfl⟩⟩
    simp [here]
  · rfl

namespace Sound

variable {setup : Setup} {k : Desk}

/-- As many cases expect an event back as the host agreed to deliver, and did not yet. -/
theorem account (sound : Sound setup k) (e : KeyEvent) :
    k.book.docket.cases.countP (Docket.Expects e) + replaysOf k.past e = takenOf k.past e := by
  have cases : k.book.docket.cases.countP (Docket.Expects e) =
      ∑ id ∈ Finset.range (k.book.docket.lastId + 1),
        (k.dossier id).cases.countP (Docket.Expects e) := by
    refine (countP_eq_sum (fun c => some c.dispatch.id) fun c hc _ => ?_).trans
      (Finset.sum_congr rfl fun id _ => ?_)
    · exact ⟨_, Nat.lt_succ_of_le (sound.le_lastId_of_case hc), rfl⟩
    · congr 1
      apply List.filter_congr
      intro c _
      rw [Bool.eq_iff_iff]
      simp
  have replays : replaysOf k.past e = ∑ id ∈ Finset.range (k.book.docket.lastId + 1),
      (k.dossier id).history.countP (·.replay? = some e) := by
    apply countP_eq_sum Entry.event?
    intro x hx replay
    cases x with
    | replayed id e' => exact ⟨id, Nat.lt_succ_of_le (sound.le_lastId_of_entry hx rfl), rfl⟩
    | _ => simp [Entry.replay?] at replay
  have taken : takenOf k.past e = ∑ id ∈ Finset.range (k.book.docket.lastId + 1),
      (k.dossier id).history.countP (Entry.taken (k.dossier id).history e) := by
    refine (countP_eq_sum Entry.event? fun x hx back => ?_).trans
      (Finset.sum_congr rfl fun id _ => taken_historyOf k.past e id)
    cases x with
    | handedBack id e' => exact ⟨id, Nat.lt_succ_of_le (sound.le_lastId_of_entry hx rfl), rfl⟩
    | _ => simp [Entry.taken] at back
  rw [cases, replays, taken, ← Finset.sum_add_distrib]
  exact Finset.sum_congr rfl fun id _ => (sound.stage id).account e

theorem no_case_of_refused (sound : Sound setup k) {id : Nat} (refused : .refused id ∈ k.past) :
    k.book.docket.casesOf id = [] := by
  have mem : .refused id ∈ (k.dossier id).history := List.mem_filter.2 ⟨refused, decide_eq_true rfl⟩
  have stage := sound.stage id
  change (k.dossier id).cases = []
  generalize k.dossier id = D at mem stage
  cases stage with
  | unborn | closed | replayed => rfl
  | waiting underway | settling underway => exact absurd mem (underway.not_refused _)
  | returned underway verdict =>
    rcases List.mem_append.1 mem with mem | mem
    · cases (refused_mem_settlement verdict).1 mem
    · exact absurd mem (underway.not_refused _)

end Sound

/-! ## Replays -/

theorem Docket.close_of_split {k : Docket} (ordered : k.Ordered) {before later : List Case} {c : Case}
    (split : k.cases = before ++ c :: later) :
    k.close c.dispatch.id = { k with cases := before ++ later } := by
  rw [Ordered, split] at ordered
  obtain ⟨-, rest, less⟩ := List.pairwise_append.1 ordered
  have before_keeps : before.filter (·.dispatch.id != c.dispatch.id) = before := by
    apply List.filter_eq_self.2
    intro x hx
    have := less x hx c (List.mem_cons_self ..)
    simp
    omega
  have later_keeps : later.filter (·.dispatch.id != c.dispatch.id) = later := by
    apply List.filter_eq_self.2
    intro x hx
    have := (List.pairwise_cons.1 rest).1 x hx
    simp
    omega
  rw [close, split, List.filter_append, List.filter_cons_of_neg (by simp), before_keeps, later_keeps]

theorem State.arrive_replay_iff (sc : Scene) (st : State) (a : ArbiterId) (e : KeyEvent) :
    (st.arrive sc a e).2.2 = false ↔ 0 < (st.book a).docket.cases.countP (Docket.Expects e) := by
  rw [arrive_eq, List.countP_pos_iff]
  unfold Book.arrive Docket.takeReplay
  cases found : (st.book a).docket.cases.find? (Docket.Expects e) with
  | none =>
    rw [List.find?_eq_none] at found
    simp
    intro c hc
    exact Bool.eq_false_iff.2 (found c hc)
  | some c =>
    have mem := List.mem_of_find?_eq_some found
    have expects := List.find?_some found
    simp
    exact ⟨c, mem, expects⟩

theorem State.arrive_of_replay {sc : Scene} {st : State} {a : ArbiterId} {e : KeyEvent}
    (ordered : (st.book a).docket.Ordered) (replay : (st.arrive sc a e).2.2 = false) :
    ∃ before c later, (st.book a).docket.cases = before ++ c :: later ∧ Docket.Expects e c ∧
      (∀ c' ∈ (st.book a).docket.cases, Docket.Expects e c' → c.dispatch.id ≤ c'.dispatch.id) ∧
      st.arrive sc a e =
        ({ st.setBook a { st.book a with docket :=
              { (st.book a).docket with cases := before ++ later } } with
            journal := ⟨a, .replayed c.dispatch.id e⟩ :: st.journal }, [], false) := by
  rw [arrive_eq] at replay ⊢
  unfold Book.arrive at replay ⊢
  cases taken : (st.book a).docket.takeReplay e with
  | none => simp [taken] at replay
  | some p =>
    obtain ⟨after, id⟩ := p
    obtain ⟨c, mem, expects, rfl, oldest⟩ := Docket.takeReplay_spec taken
    obtain ⟨here, rfl⟩ := (Docket.mem_casesOf _).1 mem
    obtain ⟨before, later, split⟩ := List.append_of_mem here
    refine ⟨before, c, later, split, expects, fun c' hc' h => oldest c' hc' h ordered, ?_⟩
    have unasked : queries sc a false = 0 := by
      unfold queries
      split <;> rfl
    rw [Docket.close_of_split ordered split]
    simp only [turn, unasked, note, Nat.add_zero]
    rfl

theorem State.arrive_of_handedBack (sc : Scene) (st : State) (a : ArbiterId) {d : Dispatch}
    {claimed : Bool} {e : KeyEvent} (back : ((st.book a).settle d claimed).2 = some e) :
    (((st.resolve a d claimed).note a (.handedBack d.id e)).arrive sc a e).2.2 = false := by
  have settled : (st.book a).settle d claimed = (((st.book a).settle d claimed).1, some e) := by
    rw [← back]
  have ⟨id, replay⟩ := Book.replay_of_settle settled (sc.layout a) (sc.responders a).length
  have book : ((st.resolve a d claimed).note a (.handedBack d.id e)).book a =
      ((st.book a).settle d claimed).1 := by
    simp [resolve]
  rw [arrive_eq, book]
  generalize ((st.book a).settle d claimed).1.arrive (sc.layout a) (sc.responders a).length e = r
    at replay
  obtain ⟨b, arrival, asked⟩ := r
  obtain rfl : arrival = .replay id := replay
  rfl

/-- The host refuses an event that is handed back exactly when that is noted. -/
def RefusalsNoted (a : ArbiterId) : Prop :=
  ∀ (sc : Scene) (st : State) (id : Nat) (e : KeyEvent),
    (st.handBack sc a id e).1.journal =
      if (st.redispatch sc e).2.2 then (st.redispatch sc e).1.journal
      else ⟨a, .refused id⟩ :: (st.redispatch sc e).1.journal

theorem refusalsNoted (a : ArbiterId) : RefusalsNoted a := by
  intro sc st id e
  unfold State.handBack
  generalize st.redispatch sc e = r
  obtain ⟨st', tasks, taken⟩ := r
  cases taken <;> rfl

namespace Moment

/-- The cases that expect an event back, and its replays, are as many as the host agreed to deliver.
An arrival is a replay as long as some of those are left, and one that comes while the host is still
asked is: it closes the oldest case that expects it, and does nothing else. A refused event leaves no
case behind. -/
theorem replays_accounted (moves : List Move) {a : ArbiterId}
    (alive : (after moves).scene.isAlive a) :
    let m := after moves
    let docket := (m.book a).docket
    let past := m.past a
    ArrivalsNoted a ∧ HandBacksNoted a ∧ RefusalsNoted a ∧
    (∀ e, docket.cases.countP (Docket.Expects e) + replaysOf past e = takenOf past e) ∧
    (∀ e, (m.state.arrive m.scene a e).2.2 = false ↔ replaysOf past e < takenOf past e) ∧
    (∀ d claimed e, ((m.book a).settle d claimed).2 = some e →
      (((m.state.resolve a d claimed).note a (.handedBack d.id e)).arrive m.scene a e).2.2 = false) ∧
    (∀ e, (m.state.arrive m.scene a e).2.2 = false → ∃ before c later,
      docket.cases = before ++ c :: later ∧ Docket.Expects e c ∧
      (∀ c' ∈ docket.cases, Docket.Expects e c' → c.dispatch.id ≤ c'.dispatch.id) ∧
      m.state.arrive m.scene a e =
        ({ m.state.setBook a { m.book a with docket := { docket with cases := before ++ later } }
            with journal := ⟨a, .replayed c.dispatch.id e⟩ :: m.state.journal }, [], false)) ∧
    ∀ id, .refused id ∈ past → ∀ c ∈ docket.cases, c.dispatch.id ≠ id := by
  obtain ⟨start, blank, course⟩ := exists_course moves alive
  have sound := Sound.of_course alive blank course
  refine ⟨arrivalsNoted a, handBacksNoted a, refusalsNoted a, sound.account, ?_, ?_, ?_, ?_⟩
  · intro e
    have account := sound.account e
    rw [State.arrive_replay_iff]
    change 0 < ((after moves).desk a).book.docket.cases.countP (Docket.Expects e) ↔
      replaysOf ((after moves).desk a).past e < takenOf ((after moves).desk a).past e
    omega
  · intro d claimed e back
    exact State.arrive_of_handedBack _ _ a back
  · intro e replay
    exact State.arrive_of_replay sound.ordered replay
  · rintro id refused c hc rfl
    have none := sound.no_case_of_refused refused
    have mem : c ∈ ((after moves).desk a).book.docket.casesOf c.dispatch.id :=
      (Docket.mem_casesOf _).2 ⟨hc, rfl⟩
    rw [none] at mem
    exact List.not_mem_nil mem

theorem replays_accounted_unclaimedPress :
    (after unclaimedPress).scene.isAlive 0 ∧ takenOf ((after unclaimedPress).past 0) aPress = 1 ∧
      ((after unclaimedPress).state.arrive (after unclaimedPress).scene 0 aPress).2.2 = false := by
  have alive : (after unclaimedPress).scene.isAlive 0 := by decide +kernel
  obtain ⟨-, -, -, -, iff, -⟩ := replays_accounted unclaimedPress alive
  exact ⟨alive, by decide +kernel, (iff aPress).2 (by decide +kernel)⟩

end Moment

end KeyArbiter
