import KeyArbiter.Proofs.Immediate
import KeyArbiter.Proofs.Plain
import KeyArbiter.Proofs.Replays
import Mathlib

/-!
# A replay is a plain fold

Between two events of a replay nothing is open, and every case waits for a copy that is queued. So
each copy is recognised when the queue is delivered, and a step leaves nothing but the held keys.
-/

namespace KeyArbiter

open Command (ReplayAnswers feed loopBack replay replayScene replayStep replaySteps)
open Session (run_nil run_feed_cons)

/-! ## Between two events -/

/-- The arbiter holds what the fold holds, and waits for the events that are queued. -/
structure Quiet (ask : LayoutQuery → LogicalKey) (b : Book) (held : Plain.Held)
    (waiting : List KeyEvent) : Prop where
  waits : b.docket.cases.map (·.dispatch.event) = waiting
  returned : ∀ c ∈ b.docket.cases, c.returned = true
  ordered : b.docket.Ordered
  numbered : ∀ c ∈ b.docket.cases, c.dispatch.id ≤ b.docket.lastId
  knows : b.Knows ask
  holds : ∀ key, b.held.logical? key = held.lookup key
  idle : b.held.Idle
  nodup : (held.map Prod.fst).Nodup

theorem Quiet.blank (ask : LayoutQuery → LogicalKey) : Quiet ask {} [] [] := by
  refine ⟨rfl, ?_, List.Pairwise.nil, ?_, ?_, fun _ => rfl, ?_, List.nodup_nil⟩ <;>
    exact fun _ h => absurd h List.not_mem_nil

theorem Book.idle_dispatch {b : Book} (idle : b.held.Idle) (layout : Layout) (e : KeyEvent) :
    let (after, d, _) := b.dispatch layout e
    (if d.transition = .up then after.held.finishRelease d.physical d.id else after.held).Idle := by
  have resolved : (b.resolve layout e).1.held = b.held := by
    unfold resolve
    split <;> rfl
  unfold dispatch
  simp only
  cases e.isPress with
  | true =>
    simp only [if_true, resolved]
    have pressed : (b.held.press (.ofKeycode e.keycode) (b.resolve layout e).2.1).1.Idle :=
      idle.press _
    have transition : (b.held.press (.ofKeycode e.keycode) (b.resolve layout e).2.1).2.1 ≠ .up := by
      unfold HeldKeys.press
      split <;> simp
    rw [if_neg transition]
    exact pressed
  | false =>
    simp only [Bool.false_eq_true, if_false]
    cases released : b.held.release (.ofKeycode e.keycode) (b.docket.lastId + 1) with
    | some p =>
      simp only [if_true]
      exact (idle.release released).finishRelease
    | none =>
      simp only [if_true, resolved]
      exact (idle.leaving _).finishRelease

theorem Quiet.pass {layout : Layout} {b : Book} {held : Plain.Held} {waiting : List KeyEvent}
    (quiet : Quiet layout.lookup b held waiting) (e : KeyEvent) (answer claimed : Bool) :
    let (after, d, _) := b.dispatch layout e
    Quiet layout.lookup { after with
        held := if d.transition = .up then after.held.finishRelease d.physical d.id else after.held
        docket := ⟨d.id, b.docket.cases ++ if claimed then [] else [⟨d, 0, answer, true⟩]⟩ }
      (Plain.after layout held e) (waiting ++ if claimed then [] else [e]) := by
  obtain ⟨-, knows, keys⟩ := b.dispatch_follows quiet.knows rfl quiet.holds e
  obtain ⟨-, id, event⟩ := b.dispatch_spec layout e
  have idle := Book.idle_dispatch quiet.idle layout e
  have lookup := Plain.lookup_after layout held (b.docket.lastId + 1) e
  generalize b.dispatch layout e = r at knows keys id event idle
  obtain ⟨after, d, asked⟩ := r
  simp only at knows keys id event idle ⊢
  have latest : ∀ c ∈ b.docket.cases, c.dispatch.id < d.id := by
    intro c hc
    have := quiet.numbered c hc
    omega
  have last : ∀ c ∈ (if claimed then [] else [Case.mk d 0 answer true]),
      c = ⟨d, 0, answer, true⟩ := by
    cases claimed <;> simp
  refine ⟨?_, ?_, ?_, ?_, knows, ?_, idle, Plain.nodup_after layout quiet.nodup e⟩
  · rw [List.map_append, quiet.waits]
    cases claimed <;> simp [event]
  · intro c hc
    rcases List.mem_append.1 hc with hc | hc
    · exact quiet.returned c hc
    · rw [last c hc]
  · refine List.pairwise_append.2 ⟨quiet.ordered, ?_, ?_⟩
    · cases claimed <;> simp
    · intro c hc c' hc'
      rw [last c' hc']
      exact latest c hc
  · intro c hc
    rcases List.mem_append.1 hc with hc | hc
    · exact le_of_lt (latest c hc)
    · rw [last c hc]
  · intro key
    rw [lookup, ← keys]
    simp only
    split
    · exact HeldKeys.logical?_finishRelease ..
    · rfl

theorem Quiet.back {ask : LayoutQuery → LogicalKey} {b : Book} {held : Plain.Held} {e : KeyEvent}
    {waiting : List KeyEvent} (quiet : Quiet ask b held (e :: waiting)) :
    ∃ docket id, b.docket.takeReplay e = some (docket, id) ∧
      Quiet ask { b with docket } held waiting := by
  obtain ⟨c, later, split, same, waits⟩ := List.map_eq_cons_iff.1 quiet.waits
  have returned := quiet.returned
  have numbered := quiet.numbered
  have ordered := quiet.ordered
  rw [Docket.Ordered, split] at ordered
  rw [split] at returned numbered
  refine ⟨{ b.docket with cases := later }, c.dispatch.id, ?_, waits, ?_, ?_, ?_, quiet.knows,
    quiet.holds, quiet.idle, quiet.nodup⟩
  · have expects : Docket.Expects e c = true := by
      simp [Docket.Expects, same, returned c (List.mem_cons_self ..)]
    have close : b.docket.close c.dispatch.id = { b.docket with cases := [] ++ later } :=
      Docket.close_of_split quiet.ordered split
    rw [Docket.takeReplay, split, List.find?_cons_of_pos expects]
    simp only
    rw [close, List.nil_append]
  · intro c' hc'
    exact returned c' (List.mem_cons_of_mem _ hc')
  · exact (List.pairwise_cons.1 ordered).2
  · intro c' hc'
    exact numbered c' (List.mem_cons_of_mem _ hc')

theorem Quiet.unexpected {ask : LayoutQuery → LogicalKey} {b : Book} {held : Plain.Held}
    {waiting : List KeyEvent} (quiet : Quiet ask b held waiting) {e : KeyEvent}
    (fresh : e ∉ waiting) : b.docket.takeReplay e = none := by
  unfold Docket.takeReplay
  rw [List.find?_eq_none.2]
  intro c hc expects
  obtain ⟨-, same⟩ := Bool.and_eq_true_iff.1 expects
  apply fresh
  rw [← quiet.waits]
  exact List.mem_map.2 ⟨c, hc, eq_of_beq same⟩

theorem Quiet.plan_eq {ask : LayoutQuery → LogicalKey} {b : Book} {held : Plain.Held}
    {waiting : List KeyEvent} (quiet : Quiet ask b held waiting) (modifiers : Modifiers)
    (time : UInt32) :
    modifiers.plan b.held.down time = modifiers.plan (held.map Prod.fst) time := by
  apply modifiers.plan_congr time
  intro key
  rw [HeldKeys.mem_down, Plain.mem_keys_iff, quiet.holds]

theorem Book.arrive_of_unexpected {b : Book} {e : KeyEvent}
    (unexpected : b.docket.takeReplay e = none) (layout : Layout) (responders : Nat) :
    b.arrive layout responders e =
      ({ (b.dispatch layout e).1 with docket :=
        (b.dispatch layout e).1.docket.enter (b.dispatch layout e).2.1 responders },
        .fresh (b.dispatch layout e).2.1, (b.dispatch layout e).2.2) := by
  unfold arrive
  rw [unexpected]

namespace Replaying

variable (settings : Settings) (layout : Layout) (answers : ReplayAnswers)

theorem claimed_eq {d : Dispatch} {held : Plain.Held}
    (orphan : d.orphan = (!d.event.isPress && Plain.absent held d.event)) :
    (((replayScene settings layout answers).responders 0).any (Responder.verdict answers d) ||
        d.filterable settings.textInputFiltersReleases && answers.filter) =
      Plain.claimed settings answers held d.event := by
  rw [responders_eq, List.any_append]
  unfold Plain.claimed Dispatch.filterable
  rw [← orphan]
  cases settings.embedderResponder <;> cases settings.channelResponder <;>
    simp [Responder.verdict, Responder.ofSettings, Bool.or_comm]

theorem feed_fresh {st : State} {held : Plain.Held} {waiting : List KeyEvent}
    (quiet : Quiet layout.lookup (st.book 0) held waiting) {e : KeyEvent} (fresh : e ∉ waiting) :
    let back := if Plain.claimed settings answers held e then [] else [e]
    ∃ st' : State, feed (replayScene settings layout answers) st e = (st', true) ∧
      st'.queue = st.queue ++ back ∧
      Quiet layout.lookup (st'.book 0) (Plain.after layout held e) (waiting ++ back) := by
  intro back
  have arrived (n : Nat) := Book.arrive_of_unexpected (quiet.unexpected fresh) layout n
  obtain ⟨next, -, -⟩ := Book.dispatch_follows quiet.knows rfl quiet.holds e
  have orphan := Plain.orphan_next layout held ((st.book 0).docket.lastId + 1) e
  rw [← next] at orphan
  obtain ⟨docket, id, event⟩ := (st.book 0).dispatch_spec layout e
  have pass := quiet.pass e
  generalize (st.book 0).dispatch layout e = r at arrived docket id event orphan pass
  obtain ⟨b, d, asked⟩ := r
  simp only at arrived docket id event orphan pass
  subst event
  let sc := replayScene settings layout answers
  let st₁ : State := (st.turn sc 0 { b with
    docket := b.docket.enter d (sc.responders 0).length } asked).note 0
      (.dispatched d (sc.responders 0).length)
  have here : sc.layout 0 = layout := rfl
  have arrival : st.arrive sc 0 d.event = (st₁, [if (sc.responders 0).isEmpty then
      .settle 0 d false else .offer 0 d (sc.responders 0)], true) := by
    rw [State.arrive_eq, here, arrived]
  have book₁ : st₁.book 0 = { b with docket := b.docket.enter d (sc.responders 0).length } :=
    State.book_setBook ..
  have newest : (st₁.book 0).docket.Newest (st.book 0).docket.cases
      ⟨d, (sc.responders 0).length, false, false⟩ := by
    rw [book₁, ← docket]
    refine ⟨rfl, ?_⟩
    intro c hc
    rw [docket] at hc
    have := quiet.numbered c hc
    simp only
    omega
  obtain ⟨book, queue⟩ := run_first settings layout answers st₁ newest
  rw [claimed_eq settings layout answers orphan] at book queue
  refine ⟨_, ?_, queue, ?_⟩
  · rw [feed, arrival]
  · rw [book, book₁]
    exact pass _ _

theorem feed_back {ask : LayoutQuery → LogicalKey} {st : State} {held : Plain.Held} {e : KeyEvent}
    {waiting : List KeyEvent} (quiet : Quiet ask (st.book 0) held (e :: waiting)) :
    ∃ st' : State, feed (replayScene settings layout answers) st e = (st', false) ∧
      st'.queue = st.queue ∧ Quiet ask (st'.book 0) held waiting := by
  obtain ⟨docket, id, taken, back⟩ := quiet.back
  let st' : State := (st.turn (replayScene settings layout answers) 0
    { st.book 0 with docket } false).note 0 (.replayed id e)
  have arrival : st.arrive (replayScene settings layout answers) 0 e = (st', [], false) := by
    rw [State.arrive_eq, Book.arrive, taken]
  have book : st'.book 0 = { st.book 0 with docket } := State.book_setBook ..
  refine ⟨st', ?_, rfl, ?_⟩
  · rw [feed, arrival]
    simp only
    rw [run_nil]
  · rw [book]
    exact back

/-- Events that are not waited for, and differ from each other, are delivered as in the fold. -/
theorem run_feed {st : State} {held : Plain.Held} {waiting es : List KeyEvent}
    (quiet : Quiet layout.lookup (st.book 0) held waiting) (nodup : (waiting ++ es).Nodup) :
    let (final, back) := Plain.deliver settings layout answers held es
    let st' := run (replayScene settings layout answers) st [.feed 0 es]
    st'.queue = st.queue ++ back ∧ Quiet layout.lookup (st'.book 0) final (waiting ++ back) := by
  induction es generalizing st held waiting with
  | nil =>
    have done : run (replayScene settings layout answers) st [.feed 0 []] = st := by
      rw [run, State.step, List.nil_append, run_nil]
    simp only [Plain.deliver, done, List.append_nil]
    exact ⟨trivial, quiet⟩
  | cons e es ih =>
    have fresh : e ∉ waiting := by
      intro mem
      exact (List.nodup_append.1 nodup).2.2 e mem e (List.mem_cons_self ..) rfl
    obtain ⟨st₁, fed, queue, quiet₁⟩ := feed_fresh settings layout answers quiet fresh
    have first : run (replayScene settings layout answers)
        (st.arrive (replayScene settings layout answers) 0 e).1
        (st.arrive (replayScene settings layout answers) 0 e).2.1 = st₁ := congrArg Prod.fst fed
    -- What waits now and what is still to come differ, as before.
    have rest : ((waiting ++ if Plain.claimed settings answers held e then [] else [e]) ++ es).Nodup := by
      rw [List.append_assoc]
      refine nodup.sublist (List.Sublist.append (List.Sublist.refl _) ?_)
      split
      · exact List.sublist_cons_self ..
      · exact List.Sublist.refl _
    have later := ih quiet₁ rest
    rw [Plain.deliver, run_feed_cons, first]
    generalize Plain.deliver settings layout answers (Plain.after layout held e) es = r at later
    obtain ⟨final, back⟩ := r
    simp only at later ⊢
    rw [queue, List.append_assoc, List.append_assoc] at later
    cases claimed : Plain.claimed settings answers held e <;> simpa [claimed] using later

theorem foldl_back {ask : LayoutQuery → LogicalKey} {st : State} {held : Plain.Held}
    {waiting : List KeyEvent} (quiet : Quiet ask (st.book 0) held waiting) :
    let st' := waiting.foldl (fun st e => (feed (replayScene settings layout answers) st e).1) st
    st'.queue = st.queue ∧ Quiet ask (st'.book 0) held [] := by
  induction waiting generalizing st with
  | nil => exact ⟨rfl, quiet⟩
  | cons e waiting ih =>
    obtain ⟨st₁, fed, queue, quiet₁⟩ := feed_back settings layout answers quiet
    rw [List.foldl_cons, fed, ← queue]
    exact ih quiet₁

theorem loopBack_eq {ask : LayoutQuery → LogicalKey} {st : State} {held : Plain.Held}
    (quiet : Quiet ask (st.book 0) held st.queue) :
    ∃ st' : State, loopBack (replayScene settings layout answers) st = (st', st.queue) ∧
      st'.queue = [] ∧ Quiet ask (st'.book 0) held [] := by
  have taken : Quiet ask (State.book { st with queue := [] } 0) held st.queue := quiet
  exact ⟨_, rfl, foldl_back settings layout answers taken⟩

theorem replayStep_eq {st : State} {held : Plain.Held}
    (quiet : Quiet layout.lookup (st.book 0) held []) (empty : st.queue = []) (step : TraceStep) :
    let (final, back) := Plain.deliver settings layout answers held (Plain.events held step)
    ∃ st' : State, replayStep (replayScene settings layout answers) st step = (st', true) ∧
      st'.queue = back ∧ Quiet layout.lookup (st'.book 0) final back := by
  cases step with
  | event e =>
    obtain ⟨st', fed, queue, after⟩ := feed_fresh settings layout answers quiet List.not_mem_nil
    rw [empty] at queue
    refine ⟨st', fed, ?_, ?_⟩
    · rw [queue]
      simp
    · simpa using after
  | sync modifiers time =>
    have nodup := modifiers.nodup_plan time (held.map Prod.fst)
    simp only [Plain.events, replayStep, State.sync, quiet.plan_eq]
    generalize modifiers.plan (held.map Prod.fst) time = plan at nodup
    -- The note about the plan changes neither the book nor the queue.
    have noted : ∀ st₀ : State, st₀ = (if plan.isEmpty then st else
        st.note 0 (.synchronizing modifiers plan.length)) →
        st₀.book 0 = st.book 0 ∧ st₀.queue = st.queue := by
      rintro st₀ rfl
      split <;> exact ⟨rfl, rfl⟩
    generalize (if plan.isEmpty then st else
        st.note 0 (.synchronizing modifiers plan.length)) = st₀ at noted
    obtain ⟨book, queue⟩ := noted st₀ rfl
    rw [← book] at quiet
    have run := run_feed settings layout answers quiet nodup
    rw [queue, empty] at run
    exact ⟨_, rfl, run⟩

theorem replaySteps_eq {st : State} {held : Plain.Held}
    (quiet : Quiet layout.lookup (st.book 0) held []) (empty : st.queue = []) (index : Nat)
    (trace : Trace) :
    let (final, outcomes) := Plain.steps settings layout answers held index trace
    ∃ st' : State, replaySteps (replayScene settings layout answers) st index trace =
        (st', outcomes) ∧ Quiet layout.lookup (st'.book 0) final [] := by
  induction trace generalizing st held index with
  | nil => exact ⟨st, rfl, quiet⟩
  | cons step rest ih =>
    have fed := replayStep_eq settings layout answers quiet empty step
    rw [Plain.steps]
    generalize Plain.deliver settings layout answers held (Plain.events held step) = r at fed
    obtain ⟨held', back⟩ := r
    obtain ⟨st₁, stepped, rfl, quiet₁⟩ := fed
    obtain ⟨st₂, looped, empty₂, quiet₂⟩ := loopBack_eq settings layout answers quiet₁
    have later := ih quiet₂ empty₂ (index + 1)
    simp only at later ⊢
    generalize Plain.steps settings layout answers held' (index + 1) rest = r at later
    obtain ⟨final, outcomes⟩ := r
    obtain ⟨st', steps, quiet'⟩ := later
    refine ⟨st', ?_, quiet'⟩
    rw [replaySteps, stepped]
    simp only
    rw [looped]
    simp only
    rw [steps]

theorem perm_toList {ask : LayoutQuery → LogicalKey} {b : Book} {held : Plain.Held}
    (quiet : Quiet ask b held []) : b.held.toList.Perm held := by
  have distinct : b.held.toList.Nodup := by
    refine (HeldKeys.ascending_toList b.held).imp ?_
    rintro p q less rfl
    exact UInt64.lt_irrefl _ less
  refine (List.perm_ext_iff_of_nodup distinct (quiet.nodup.of_map _)).2 ?_
  rintro ⟨key, logical⟩
  rw [quiet.idle.mem_toList, quiet.holds, Plain.lookup_eq_some_iff quiet.nodup]

end Replaying

/-- A replay is a plain fold over the keys that are held: its steps are the steps of the fold, at the
end it lists the held keys of the fold in the order of their words, and no case is left open. -/
theorem replay_eq_plain (settings : Settings) (layout : Layout) (answers : ReplayAnswers)
    (trace : Trace) :
    let r := replay settings layout answers trace
    let (held, steps) := Plain.steps settings layout answers [] 0 trace
    r.steps = steps ∧ (r.pressed.Pairwise fun p q => p.1.word < q.1.word) ∧
      r.pressed.Perm held ∧ r.isClear = true := by
  have here : Quiet layout.lookup (State.book {} 0) [] [] := Quiet.blank _
  have eq := Replaying.replaySteps_eq settings layout answers here rfl 0 trace
  unfold replay
  generalize Plain.steps settings layout answers [] 0 trace = r at eq
  obtain ⟨held, steps⟩ := r
  obtain ⟨st, replayed, quiet⟩ := eq
  simp only
  rw [replayed]
  refine ⟨rfl, HeldKeys.ascending_toList _, Replaying.perm_toList quiet, ?_⟩
  have none := List.map_eq_nil_iff.1 quiet.waits
  rw [Docket.isClear, none]
  rfl

end KeyArbiter
