import KeyArbiter.Proofs.Epochs
import KeyArbiter.Proofs.Forgetful
import Mathlib

/-!
# Remembered answers do not show

How often the layouts are asked, counted by epochs. If a layout only changes together with a notice,
nobody can tell an arbiter that remembers its answers from one that asks for every event.
-/

namespace KeyArbiter

open Session (Command)

/-! ## The counter of the host's layout -/

namespace Scene

/-- The arbiter uses the host's own layout, whose answers the host may change at any time. -/
def scripted (sc : Scene) (a : ArbiterId) : Bool :=
  match (sc.setup a).layout with
  | .fixed _ => false
  | .scripted => true

end Scene

def Scene.learned (sc : Scene) (a : ArbiterId) (b b' : Book) : Nat :=
  if sc.scripted a then b'.known.length - b.known.length else 0

/-- The host itself asks its layout. -/
def Move.asksHost : Move → Bool
  | .command (.layoutLookup _) => true
  | _ => false

theorem Move.asksHost_of_other {c : Command} (other : ¬ c.AboutLayout) :
    asksHost (.command c) = false := by
  cases c with
  | layoutLookup => exact absurd trivial other
  | _ => rfl

namespace Book

theorem length_resolve (b : Book) (layout : Layout) (e : KeyEvent) :
    (b.resolve layout e).1.known.length = b.known.length + (b.resolve layout e).2.2.toNat := by
  unfold resolve
  split <;> rfl

theorem length_dispatch (b : Book) (layout : Layout) (e : KeyEvent) :
    (b.dispatch layout e).1.known.length = b.known.length + (b.dispatch layout e).2.2.toNat := by
  have resolved := b.length_resolve layout e
  unfold dispatch
  simp only
  split
  · exact resolved
  · split
    · rfl
    · exact resolved

theorem length_arrive (b : Book) (layout : Layout) (n : Nat) (e : KeyEvent) :
    (b.arrive layout n e).1.known.length = b.known.length + (b.arrive layout n e).2.2.toNat := by
  unfold arrive
  split
  · rfl
  · exact b.length_dispatch layout e

end Book

theorem State.book_arrive (sc : Scene) (st : State) (a : ArbiterId) (e : KeyEvent) :
    (st.arrive sc a e).1.book a =
      ((st.book a).arrive (sc.layout a) (sc.responders a).length e).1 := by
  have book (after : Book) (asked : Bool) : (st.turn sc a after asked).book a = after :=
    book_setBook st a after
  rw [arrive_eq]
  rcases (st.book a).arrive (sc.layout a) (sc.responders a).length e with ⟨after, id | d, asked⟩ <;>
    simp only [book_note, book]

theorem State.lookups_arrive (sc : Scene) (st : State) (a : ArbiterId) (e : KeyEvent) :
    (st.arrive sc a e).1.lookups =
      st.lookups + sc.learned a (st.book a) ((st.arrive sc a e).1.book a) := by
  have asked : queries sc a ((st.book a).arrive (sc.layout a) (sc.responders a).length e).2.2 =
      sc.learned a (st.book a) ((st.arrive sc a e).1.book a) := by
    unfold queries Scene.learned Scene.scripted
    rw [book_arrive, Book.length_arrive, Nat.add_sub_cancel_left]
    cases (sc.setup a).layout <;> rfl
  rw [← asked, arrive_eq]
  rcases (st.book a).arrive (sc.layout a) (sc.responders a).length e with
    ⟨after, id | d, asked⟩ <;> rfl

theorem State.Admits.lookups {sc : Scene} {st st' : State} (admits : Admits sc st st') :
    ∃ a, st'.lookups = st.lookups + sc.learned a (st.book a) (st'.book a) ∧
      ∀ b ≠ a, (st'.book b).known = (st.book b).known := by
  cases admits with
  | nothing idle =>
    refine ⟨0, ?_, fun b _ => (idle.books b).known⟩
    rw [idle.lookups, Scene.learned, (idle.books 0).known]
    simp
  | @event before idle a e eq =>
    subst eq
    refine ⟨a, ?_, fun b ne => ?_⟩
    · rw [lookups_arrive, idle.lookups, Scene.learned, Scene.learned, (idle.books a).known]
    · have other := desk_arrive_of_ne sc before 0 (Ne.symm ne) e
      have book : (before.arrive sc a e).1.book b = before.book b := congrArg Desk.book other
      rw [book, (idle.books b).known]

/-- An arrival needs the layout unless it is a replay, or the release of a key that is held. -/
def Book.Arrival.asks : Book.Arrival → Bool
  | .replay _ => false
  | .fresh d => d.asks

namespace Moment

/-- What all epochs of all arbiters come to that use the host's own layout. -/
def needed (moves : List Move) : Nat :=
  ∑ a ∈ Finset.range (after moves).scene.setups.length,
    if (after moves).scene.scripted a then (epochsOf (chronicle a moves)).lookups else 0

theorem recorded (moves : List Move) (a : ArbiterId) :
    Recorded ((after moves).book a) (chronicle a moves) := by
  induction moves using List.reverseRecOn with
  | nil => exact .of_unknown rfl
  | append_singleton moves move ih =>
    rw [after_concat, chronicle_concat]
    exact ih.looks ((after moves).looks a move).2

theorem lookups_next (m : Moment) (move : Move) :
    ∃ a, (m.next move).state.lookups = m.state.lookups + (if move.asksHost then 1 else 0) +
        m.scene.learned a (m.book a) ((m.next move).book a) ∧
      ∀ b ≠ a, ((m.next move).book b).known.length - (m.book b).known.length = 0 := by
  have admitted {st : State} (admits : State.Admits m.scene m.state st) :
      ∃ a, st.lookups = m.state.lookups + 0 + m.scene.learned a (m.book a) (st.book a) ∧
        ∀ b ≠ a, (st.book b).known.length - (m.book b).known.length = 0 := by
    obtain ⟨a, lookups, others⟩ := admits.lookups
    refine ⟨a, lookups, fun b ne => ?_⟩
    rw [others b ne]
    exact Nat.sub_self _
  obtain ⟨s, tasks⟩ := m
  cases move with
  | go =>
    cases tasks with
    | nil => exact admitted (.nothing (.refl _))
    | cons t rest => exact admitted (s.state.admits_step s.scene t)
  | command c =>
    by_cases other : c.AboutLayout
    · cases c with
      | layoutChange =>
        -- Books only forget here, and that is not counted.
        have relaid := relaid_all s.scene s.state (List.range s.scene.setups.length)
        have known (a : ArbiterId) : ((next ⟨s, tasks⟩ (.command .layoutChange)).book a).known.length -
            (book ⟨s, tasks⟩ a).known.length = 0 := by
          have told : (next ⟨s, tasks⟩ (.command .layoutChange)).book a = _ := relaid.book a
          rw [told]
          split
          · exact Nat.zero_sub _
          · exact Nat.sub_self _
        refine ⟨0, ?_, fun b _ => known b⟩
        rw [Scene.learned, known, ite_self]
        have kept := congrArg State.lookups relaid.host
        exact kept
      | layoutLookup q =>
        refine ⟨0, ?_, fun b _ => Nat.sub_self _⟩
        have same : (next ⟨s, tasks⟩ (.command (.layoutLookup q))).book 0 = book ⟨s, tasks⟩ 0 := rfl
        rw [Scene.learned, same, Nat.sub_self, ite_self]
        rfl
      | _ => cases other
    · rw [Move.asksHost_of_other other]
      exact admitted (s.admits_launch other)

/-! ### The account -/

theorem lookups_unbuilt (moves : List Move) {a : ArbiterId}
    (unbuilt : (after moves).scene.setups.length ≤ a) :
    (epochsOf (chronicle a moves)).lookups = 0 ∧
      ∀ move, (epochsOf (chronicle a (moves ++ [move]))).lookups = 0 := by
  have later (moves : List Move) (unbuilt : (after moves).scene.setups.length ≤ a)
      (so_far : (epochsOf (chronicle a moves)).lookups = 0) (move : Move) :
      (epochsOf (chronicle a (moves ++ [move]))).lookups = 0 := by
    obtain ⟨-, -, course⟩ := next_spec (traced moves).aimed move
    have blank := (course a).blank (fun l consults => absurd consults.1 (not_lt.2 unbuilt))
      ((traced moves).unbuilt a unbuilt)
    have book : ((after moves).next move).book a = {} := blank.book
    rw [chronicle_concat, (recorded moves a).lookups ((after moves).looks a move).2, so_far, book]
    exact (Nat.zero_add _).trans (Nat.zero_sub _)
  have so_far : (epochsOf (chronicle a moves)).lookups = 0 := by
    induction moves using List.reverseRecOn with
    | nil => rfl
    | append_singleton moves move ih =>
      rw [after_concat] at unbuilt
      have before := (next_spec (traced moves).aimed move).1.length.trans unbuilt
      exact later moves before (ih before) move
  exact ⟨so_far, later moves unbuilt so_far⟩

theorem scripted_next (m : Moment) (move : Move) {a : ArbiterId} (built : a < m.scene.setups.length) :
    (m.next move).scene.scripted a = m.scene.scripted a := by
  obtain ⟨alive, same⟩ := m.setup_next move built
  unfold Scene.scripted
  rw [same]

theorem needed_concat (moves : List Move) (move : Move) :
    needed (moves ++ [move]) = needed moves +
      ∑ a ∈ Finset.range (after moves).scene.setups.length,
        (after moves).scene.learned a ((after moves).book a)
          (((after moves).next move).book a) := by
  have grows := (next_spec (traced moves).aimed move).1.length
  unfold needed
  rw [after_concat, ← Finset.sum_subset (Finset.range_mono grows), ← Finset.sum_add_distrib]
  · refine Finset.sum_congr rfl fun a ha => ?_
    rw [scripted_next _ _ (Finset.mem_range.1 ha), chronicle_concat,
      (recorded moves a).lookups ((after moves).looks a move).2, Scene.learned]
    split <;> rfl
  · intro a _ new
    rw [(lookups_unbuilt moves (not_lt.1 (mt Finset.mem_range.2 new))).2, ite_self]

/-- Whoever asks the host's layout has a reason: the host asks itself, or an arbiter asks for the
first time in an epoch. -/
theorem lookups_eq (moves : List Move) :
    (after moves).state.lookups = moves.countP Move.asksHost + needed moves := by
  induction moves using List.reverseRecOn with
  | nil => rfl
  | append_singleton moves move ih =>
    obtain ⟨a, lookups, others⟩ := (after moves).lookups_next move
    rw [after_concat, lookups, ih, needed_concat, List.countP_append, List.countP_singleton]
    have alone : ∑ b ∈ Finset.range (after moves).scene.setups.length,
        (after moves).scene.learned b ((after moves).book b)
          (((after moves).next move).book b) =
        (after moves).scene.learned a ((after moves).book a)
          (((after moves).next move).book a) := by
      refine Finset.sum_eq_single a (fun b _ ne => ?_) fun unbuilt => ?_
      · rw [Scene.learned, others b ne, ite_self]
      · have none : (after moves).scene.scripted a = false := by
          have le : (after moves).scene.setups.length ≤ a := not_lt.1 (mt Finset.mem_range.2 unbuilt)
          unfold Scene.scripted Scene.setup
          rw [List.getD_eq_default _ _ le]
        rw [Scene.learned, none]
        rfl
    rw [alone]
    omega

/-! ### Asking for every event -/

/-- Before the second press the answer for the key changes, before the third one that is announced. -/
def announcedLate : List Move :=
  [.build {} true [], .event 0 aPress, .event 0 { aPress with isPress := false },
    .override aPress.query ⟨0x62⟩, .event 0 aPress, .event 0 { aPress with isPress := false },
    .layoutChange, .event 0 aPress].map .command

example : ((after announcedLate).dispatches 0).map (·.logical) =
      [⟨0x61⟩, ⟨0x61⟩, ⟨0x61⟩, ⟨0x61⟩, ⟨0x62⟩] ∧ (after announcedLate).state.lookups = 2 := by
  decide +kernel

end Moment

end KeyArbiter
