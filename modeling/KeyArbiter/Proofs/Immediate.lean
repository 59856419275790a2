import KeyArbiter.Command.Replay
import KeyArbiter.Proofs.Course
import KeyArbiter.Proofs.Moment
import Mathlib

/-!
# Answers given at once

On the host of a replay every call is answered before it returns. So an event that is delivered is
settled before the next one: it is claimed, or handed back and queued.
-/

namespace KeyArbiter

open Command (ReplayAnswers replayScene feed)
open Session (run_nil)

/-! ## The newest case -/

namespace Docket

variable {k : Docket} {earlier : List Case} {c : Case}

structure Newest (k : Docket) (earlier : List Case) (c : Case) : Prop where
  cases : k.cases = earlier ++ [c]
  only : ∀ x ∈ earlier, x.dispatch.id ≠ c.dispatch.id

theorem Newest.find? (h : k.Newest earlier c) : k.find? c.dispatch.id = some c := by
  have none : earlier.find? (·.dispatch.id == c.dispatch.id) = none :=
    List.find?_eq_none.2 fun x hx => by simpa using h.only x hx
  rw [Docket.find?, h.cases, List.find?_append, none]
  simp

theorem Newest.modify (h : k.Newest earlier c) (f : Case → Case) :
    k.modify c.dispatch.id f = { k with cases := earlier ++ [f c] } := by
  have same : (earlier.map fun x => if x.dispatch.id = c.dispatch.id then f x else x) = earlier := by
    refine (List.map_congr_left (g := id) fun x hx => ?_).trans (List.map_id _)
    exact if_neg (h.only x hx)
  rw [Docket.modify, h.cases, List.map_append, same]
  simp

theorem Newest.close (h : k.Newest earlier c) :
    k.close c.dispatch.id = { k with cases := earlier } := by
  have same : earlier.filter (·.dispatch.id != c.dispatch.id) = earlier :=
    List.filter_eq_self.2 fun x hx => by simpa using h.only x hx
  rw [Docket.close, h.cases, List.filter_append, same]
  simp

end Docket

/-! ## Responders -/

theorem decode_replyData (channel : String) (claimed : Bool) :
    KeyReply.decode channel (State.replyData claimed) = .ok ⟨claimed⟩ := by
  have data : (State.replyData claimed).isEmpty = false := by
    cases claimed <;> decide +kernel
  have reply : KeyReply.codec.decode (State.replyData claimed) = .ok ⟨claimed⟩ := by
    cases claimed <;> decide +kernel
  rw [KeyReply.decode, data, reply]
  rfl

def Responder.verdict (answers : ReplayAnswers) (d : Dispatch) : Responder → Bool
  | .embedder => d.orphan || answers.embedder
  | .channel .. => answers.channel
  | .extra _ => false

namespace Replaying

variable (settings : Settings) (layout : Layout) (answers : ReplayAnswers) (st : State)

theorem responders_eq : (replayScene settings layout answers).responders 0 =
    (if settings.embedderResponder then [.embedder] else []) ++
      if settings.channelResponder then [.ofSettings settings] else [] :=
  List.append_nil _

theorem step_offer {r : Responder} (mem : r ∈ (replayScene settings layout answers).responders 0)
    (d : Dispatch) (rs : List Responder) :
    ∃ st' : State, st.step (replayScene settings layout answers) (.offer 0 d (r :: rs)) =
        (st', [.deliver ⟨0, r.kind, d.id⟩ (.answered (r.verdict answers d)), .offer 0 d rs]) ∧
      st'.books = st.books ∧ st'.queue = st.queue := by
  cases r with
  | embedder =>
    simp only [State.step, State.offer]
    cases orphan : d.orphan with
    | true =>
      refine ⟨(st.note 0 (.offered d.id .embedder)).note 0 (.orphanIgnored d.id d.physical), ?_,
        rfl, rfl⟩
      simp [Responder.verdict, Responder.kind, orphan]
    | false =>
      refine ⟨(st.note 0 (.offered d.id .embedder)).note 0 (.sentToRuntime d.id d.runtimeEvent), ?_,
        rfl, rfl⟩
      simp [Responder.verdict, Responder.kind, orphan, State.sendToRuntime, replayScene,
        State.giveVerdict]
  | channel name keymap toolkit =>
    refine ⟨{ (st.note 0 (.offered d.id .channel)).note 0 (.sentOnChannel d.id name) with
      sent := st.sent ++ [name] }, ?_, rfl, rfl⟩
    have sent (data : List UInt8) : ((Except.ok data).mapError .transport >>=
        KeyReply.decode name) = KeyReply.decode name data := rfl
    simp only [State.step, State.offer, State.sendOnChannel, State.giveReply, replayScene, sent,
      decode_replyData]
    rfl
  | extra rule =>
    rw [responders_eq] at mem
    rcases List.mem_append.1 mem with mem | mem
    · split at mem <;> simp at mem
    · split at mem <;> simp [Responder.ofSettings] at mem

theorem step_deliver {earlier : List Case} {d : Dispatch} {n : Nat} {c : Bool}
    (newest : (st.book 0).docket.Newest earlier ⟨d, n + 1, c, false⟩) (who : ResponderKind)
    (claimed : Bool) :
    ∃ st' : State, st.step (replayScene settings layout answers)
        (.deliver ⟨0, who, d.id⟩ (.answered claimed)) =
        (st', if n = 0 then [.settle 0 d (c || claimed)] else []) ∧
      st'.book 0 = { st.book 0 with docket :=
        { (st.book 0).docket with cases := earlier ++ [⟨d, n, c || claimed, false⟩] } } ∧
      st'.queue = st.queue := by
  have alive : (replayScene settings layout answers).isAlive 0 = true := rfl
  have answered : (st.book 0).docket.answer d.id claimed =
      ({ (st.book 0).docket with cases := earlier ++ [⟨d, n, c || claimed, false⟩] },
        if n = 0 then .complete (c || claimed) d else .waiting n) := by
    rw [Docket.answer, newest.find?]
    simp only
    rw [newest.modify]
    rfl
  simp only [State.step, State.deliver, alive, if_true, State.book_note, Delivery.claimed, answered]
  by_cases last : n = 0
  · simp only [last, if_true]
    exact ⟨_, rfl, by simp, rfl⟩
  · simp only [last, if_false]
    exact ⟨_, rfl, by simp, rfl⟩

theorem run_offers {earlier : List Case} {d : Dispatch} {c : Bool} {r : Responder}
    {rs : List Responder}
    (mem : ∀ x ∈ r :: rs, x ∈ (replayScene settings layout answers).responders 0)
    (newest : (st.book 0).docket.Newest earlier ⟨d, (r :: rs).length, c, false⟩) :
    ∃ st' : State, run (replayScene settings layout answers) st [.offer 0 d (r :: rs)] =
        run (replayScene settings layout answers) st'
          [.settle 0 d (c || (r :: rs).any (Responder.verdict answers d)), .offer 0 d []] ∧
      st'.book 0 = { st.book 0 with docket := { (st.book 0).docket with
        cases := earlier ++ [⟨d, 0, c || (r :: rs).any (Responder.verdict answers d), false⟩] } } ∧
      st'.queue = st.queue := by
  induction rs generalizing st c r with
  | nil =>
    obtain ⟨st₁, offered, books, queue⟩ :=
      step_offer settings layout answers st (mem r (List.mem_cons_self ..)) d []
    have book : st₁.book 0 = st.book 0 := by rw [State.book, books]; rfl
    rw [← book] at newest
    obtain ⟨st₂, delivered, book₂, queue₂⟩ :=
      step_deliver settings layout answers st₁ newest r.kind (r.verdict answers d)
    refine ⟨st₂, ?_, ?_, queue₂.trans queue⟩
    · rw [run, offered, List.append_nil, run, delivered]
      simp
    · rw [book₂, book]
      simp
  | cons r' rs ih =>
    obtain ⟨st₁, offered, books, queue⟩ :=
      step_offer settings layout answers st (mem r (List.mem_cons_self ..)) d (r' :: rs)
    have book : st₁.book 0 = st.book 0 := by rw [State.book, books]; rfl
    have only := newest.only
    rw [← book] at newest
    obtain ⟨st₂, delivered, book₂, queue₂⟩ :=
      step_deliver settings layout answers st₁ newest r.kind (r.verdict answers d)
    obtain ⟨st₃, ran, book₃, queue₃⟩ := ih st₂ (fun x hx => mem x (List.mem_cons_of_mem _ hx))
      (c := c || r.verdict answers d) ⟨by rw [book₂], only⟩
    refine ⟨st₃, ?_, ?_, queue₃.trans (queue₂.trans queue)⟩
    · rw [run, offered, List.append_nil, run, delivered, if_neg (by simp), List.nil_append, ran,
        Bool.or_assoc]
      rfl
    · rw [book₃, book₂, book, Bool.or_assoc]
      rfl

theorem consult_eq (d : Dispatch) (c : Bool) :
    ∃ st' : State, st.consult (replayScene settings layout answers) 0 d c =
        (st', c || d.filterable settings.textInputFiltersReleases && answers.filter) ∧
      st'.books = st.books ∧ st'.queue = st.queue := by
  have setup : (replayScene settings layout answers).setup 0 =
      { settings, layout := .fixed layout } := rfl
  have filter : (replayScene settings layout answers).filter = answers.filter := rfl
  unfold State.consult
  rw [setup, filter]
  simp only
  generalize d.filterable settings.textInputFiltersReleases = wanted
  cases c <;> cases wanted <;> exact ⟨_, rfl, rfl, rfl⟩

theorem giveBack_newest {k : Docket} {earlier : List Case} {d : Dispatch} {c : Bool}
    (newest : k.Newest earlier ⟨d, 0, c, false⟩) :
    k.giveBack d.id = some ({ k with cases := earlier ++ [⟨d, 0, c, true⟩] }, d.event) := by
  rw [Docket.giveBack, newest.find?]
  simp only [Bool.false_eq_true, if_false]
  rw [newest.modify]

theorem handBack_eq (id : Nat) (e : KeyEvent) :
    st.handBack (replayScene settings layout answers) 0 id e =
      ({ st with queue := st.queue ++ [e] }, []) := rfl

theorem conclude_eq {earlier : List Case} {d : Dispatch} {c : Bool}
    (newest : (st.book 0).docket.Newest earlier ⟨d, 0, c, false⟩) (claimed : Bool) :
    ∃ st' : State, st.conclude (replayScene settings layout answers) 0 d claimed = (st', []) ∧
      st'.book 0 = { st.book 0 with
        held := if d.transition = .up then (st.book 0).held.finishRelease d.physical d.id
          else (st.book 0).held
        docket := { (st.book 0).docket with
          cases := earlier ++ if claimed then [] else [⟨d, 0, c, true⟩] } } ∧
      st'.queue = st.queue ++ if claimed then [] else [d.event] := by
  have close := newest.close
  have back := giveBack_newest newest
  rw [State.conclude_eq]
  unfold State.resolve Book.settle
  cases claimed with
  | true =>
    simp only [if_true]
    refine ⟨_, rfl, ?_, (List.append_nil _).symm⟩
    rw [State.book_note, State.book_setBook, close, List.append_nil]
  | false =>
    simp only [Bool.false_eq_true, if_false, back]
    refine ⟨_, handBack_eq settings layout answers _ d.id d.event, ?_, rfl⟩
    exact State.book_setBook ..

theorem settle_eq {earlier : List Case} {d : Dispatch} {c : Bool}
    (newest : (st.book 0).docket.Newest earlier ⟨d, 0, c, false⟩) :
    let claimed := c || d.filterable settings.textInputFiltersReleases && answers.filter
    ∃ st' : State, st.settle (replayScene settings layout answers) 0 d c = (st', []) ∧
      st'.book 0 = { st.book 0 with
        held := if d.transition = .up then (st.book 0).held.finishRelease d.physical d.id
          else (st.book 0).held
        docket := { (st.book 0).docket with
          cases := earlier ++ if claimed then [] else [⟨d, 0, c, true⟩] } } ∧
      st'.queue = st.queue ++ if claimed then [] else [d.event] := by
  intro claimed
  obtain ⟨st₁, consulted, books, queue⟩ := consult_eq settings layout answers st d c
  have book : st₁.book 0 = st.book 0 := by rw [State.book, books]; rfl
  rw [← book] at newest
  obtain ⟨st₂, concluded, book₂, queue₂⟩ := conclude_eq settings layout answers st₁ newest claimed
  refine ⟨st₂, ?_, ?_, ?_⟩
  · rw [State.settle, consulted]
    exact concluded
  · rw [book₂, book]
  · rw [queue₂, queue]

/-- A fresh event is settled at once: it is claimed, or handed back and queued. -/
theorem run_first {earlier : List Case} {d : Dispatch}
    (newest : (st.book 0).docket.Newest earlier
      ⟨d, ((replayScene settings layout answers).responders 0).length, false, false⟩) :
    let sc := replayScene settings layout answers
    let claimed := (sc.responders 0).any (Responder.verdict answers d) ||
      d.filterable settings.textInputFiltersReleases && answers.filter
    let after := run sc st [if (sc.responders 0).isEmpty then .settle 0 d false
      else .offer 0 d (sc.responders 0)]
    after.book 0 = { st.book 0 with
        held := if d.transition = .up then (st.book 0).held.finishRelease d.physical d.id
          else (st.book 0).held
        docket := { (st.book 0).docket with cases := earlier ++ if claimed then [] else
          [⟨d, 0, (sc.responders 0).any (Responder.verdict answers d), true⟩] } } ∧
      after.queue = st.queue ++ if claimed then [] else [d.event] := by
  intro sc
  obtain ⟨rs, eq⟩ : ∃ rs, sc.responders 0 = rs := ⟨_, rfl⟩
  have all : ∀ x ∈ rs, x ∈ (replayScene settings layout answers).responders 0 := by
    rw [← eq]
    exact fun _ h => h
  change (st.book 0).docket.Newest earlier ⟨d, (sc.responders 0).length, false, false⟩ at newest
  rw [eq] at newest ⊢
  cases rs with
  | nil =>
    obtain ⟨st', settled, book, queue⟩ := settle_eq settings layout answers st newest
    have done : run sc st [.settle 0 d false] = st' := by
      rw [run, State.step, settled, List.nil_append, run_nil]
    simp only [List.isEmpty_nil, if_true, done]
    exact ⟨book, queue⟩
  | cons r rs =>
    obtain ⟨st₁, ran, book₁, queue₁⟩ := run_offers settings layout answers st all newest
    have newest₁ : (st₁.book 0).docket.Newest earlier
        ⟨d, 0, (r :: rs).any (Responder.verdict answers d), false⟩ := by
      rw [book₁, Bool.false_or]
      exact ⟨rfl, newest.only⟩
    obtain ⟨st₂, settled, book₂, queue₂⟩ := settle_eq settings layout answers st₁ newest₁
    have done : run sc st [.offer 0 d (r :: rs)] = st₂ := by
      rw [ran, Bool.false_or, run, State.step, settled, List.nil_append, run, State.step,
        List.nil_append, run_nil]
    simp only [List.isEmpty_cons, Bool.false_eq_true, if_false, done]
    rw [book₂, queue₂, book₁, queue₁]
    exact ⟨rfl, rfl⟩

end Replaying

end KeyArbiter
