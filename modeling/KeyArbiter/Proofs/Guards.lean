import KeyArbiter.Proofs.Keystroke
import KeyArbiter.Proofs.Tickets
import Mathlib

/-!
# Guards

A docket guards against answers to no open case, against giving an event back twice, and against two
cases of one number. No run of an arbiter comes to any of these: whoever is about to answer or to
settle finds the case as it has to be.
-/

namespace KeyArbiter

/-! ## What an open case allows -/

namespace Docket

variable {k : Docket} {id : Nat} {c : Case}

theorem find?_of_casesOf (only : k.casesOf id = [c]) : k.find? id = some c := by
  rw [find?_eq, only]
  rfl

theorem snd_answer (found : k.find? id = some c) (claimed : Bool) :
    (k.answer id claimed).2 = if c.outstanding - 1 = 0
      then .complete (c.claimed || claimed) c.dispatch else .waiting (c.outstanding - 1) := by
  unfold answer
  rw [found]

theorem length_close (only : k.casesOf id = [c]) :
    (k.close id).cases.length + 1 = k.cases.length := by
  have own : k.cases.countP (·.dispatch.id == id) = 1 := by
    rw [List.countP_eq_length_filter]
    exact congrArg List.length only
  have split := List.length_eq_countP_add_countP (·.dispatch.id == id) (l := k.cases)
  have rest : (k.close id).cases.length = k.cases.countP (fun c => !(c.dispatch.id == id)) :=
    (List.countP_eq_length_filter ..).symm
  simp only [Bool.not_eq_true, Bool.decide_eq_false] at split
  omega

end Docket

/-! ## Numbers -/

def Desk.Counts (k : Desk) : Prop := k.book.docket.lastId = (dispatchesOf k.past).length

namespace Desk.Counts

variable {setup : Setup} {layouts : Layout → Prop} {k k' : Desk}

theorem of_blank (blank : k.Blank) : k.Counts := by
  have none : k.past.filterMap Entry.dispatch? = [] := by
    refine List.filterMap_eq_nil_iff.2 fun x hx => ?_
    exact (Entry.quiet_of_idle (blank.past x hx)).1
  rw [Counts, blank.book, dispatchesOf, none]
  rfl

theorem change (change : Change setup layouts k k') (counts : k.Counts) : k'.Counts := by
  unfold Counts at counts ⊢
  cases change.turn with
  | fresh stroke past docket =>
    rw [past, dispatchesOf_dispatched, List.length_append, ← counts, docket]
    exact stroke.id_eq
  | settled owed held dispatches settled lastId => rw [lastId, dispatches, counts]
  | quiet held dispatches settled lastId => rw [lastId, dispatches, counts]

end Desk.Counts

theorem word_ne {i j : Nat} (lt : i < j) (fits : j < 2 ^ 64) : UInt64.ofNat i ≠ UInt64.ofNat j := by
  intro eq
  have := congrArg UInt64.toNat eq
  rw [UInt64.toNat_ofNat_of_lt' (lt.trans fits), UInt64.toNat_ofNat_of_lt' fits] at this
  omega

/-! ## At every moment -/

namespace Sound

variable {setup : Setup} {k : Desk}

theorem awaits (sound : Sound setup k) {id : Nat} (owed : .ticket id ∈ k.duties) :
    ∃ c, k.book.docket.find? id = some c ∧ 0 < c.outstanding ∧ id ≤ k.book.docket.lastId := by
  obtain ⟨others, owed⟩ := Multiset.exists_cons_of_mem owed
  obtain ⟨d, rs, n, claimed, rfl, cases, -, -⟩ := (sound.stage id).of_ticket (duties_dossier owed)
  exact ⟨_, Docket.find?_of_casesOf cases, Nat.succ_pos _, sound.le_lastId (born_of_owed owed)⟩

/-- An event that is about to be settled has one case, with all its answers and not given back. -/
theorem ripe (sound : Sound setup k) {d : Dispatch} {claimed : Bool}
    (owed : .settle d claimed ∈ k.duties) :
    k.book.docket.casesOf d.id = [⟨d, 0, claimed, false⟩] ∧ d.id ≤ k.book.docket.lastId := by
  obtain ⟨others, owed⟩ := Multiset.exists_cons_of_mem owed
  obtain ⟨-, cases, -, -⟩ := (sound.stage d.id).of_settle (duties_dossier owed)
  exact ⟨cases, sound.le_lastId (born_of_owed owed)⟩

end Sound

namespace Moment

theorem mem_duties {m : Moment} {a : ArbiterId} {t : Task} {x : Duty} (ht : t ∈ m.tasks)
    (hx : x ∈ t.duties a) : x ∈ (m.desk a).duties :=
  Multiset.mem_add.2 (.inr (Multiset.mem_add.2 (.inl (mem_taskDuties ht hx))))

theorem counts (moves : List Move) (a : ArbiterId) :
    ((after moves).book a).docket.lastId = ((after moves).dispatches a).length :=
  always Desk.Counts.of_blank Desk.Counts.change moves a

/-- None of the docket's precautions is ever needed. An answer finds its case, and a case that still
counts on one. An event that is settled has one case, not yet given back: if nobody claims it, it is
handed back, and if somebody does, its case is removed. A fresh event, unless it is the 2⁶⁴th, gets
a number that no case has, also if numbers are kept in 64 bits. -/
theorem guards_idle (moves : List Move) {a : ArbiterId} (alive : (after moves).scene.isAlive a) :
    let m := after moves
    let docket := (m.book a).docket
    (∀ t answer, .deliver t answer ∈ m.tasks → t.arbiter = a →
      ∃ c, docket.find? t.id = some c ∧ 0 < c.outstanding ∧ t.id ≤ docket.lastId ∧
        (docket.answer t.id answer.claimed).2 ≠ .untracked) ∧
    (∀ d claimed, .settle a d claimed ∈ m.tasks →
      docket.find? d.id = some ⟨d, 0, claimed, false⟩ ∧ d.id ≤ docket.lastId ∧
        (docket.giveBack d.id).isSome ∧ ((m.book a).settle d false).2 = some d.event ∧
        ((m.book a).settle d true).1.docket.cases.length + 1 = docket.cases.length) ∧
    docket.lastId = (m.dispatches a).length ∧
    (∀ layout e, (m.dispatches a).length + 1 < 2 ^ 64 →
      let id := ((m.book a).dispatch layout e).2.1.id
      docket.find? id = none ∧
        ∀ c ∈ docket.cases, UInt64.ofNat c.dispatch.id ≠ UInt64.ofNat id) := by
  have sound := Moment.sound moves alive
  intro m docket
  refine ⟨?_, ?_, counts moves a, ?_⟩
  · rintro t answer pending rfl
    have owed : .ticket t.id ∈ (m.desk t.arbiter).duties :=
      mem_duties pending (by simp [Task.duties, Ticket.duties])
    obtain ⟨c, found, counted, known⟩ := sound.awaits owed
    have found : docket.find? t.id = some c := found
    refine ⟨c, found, counted, known, ?_⟩
    rw [Docket.snd_answer found]
    split <;> exact Verdict.noConfusion
  · intro d claimed pending
    have owed : .settle d claimed ∈ (m.desk a).duties :=
      mem_duties pending (by simp [Task.duties])
    obtain ⟨only, known⟩ := sound.ripe owed
    obtain ⟨given, -, back⟩ := Docket.giveBack_of_casesOf only rfl
    have back : docket.giveBack d.id = some (given, d.event) := back
    refine ⟨Docket.find?_of_casesOf only, known, by rw [back]; rfl, ?_, ?_⟩
    · unfold Book.settle
      simp only [Bool.false_eq_true, if_false]
      rw [back]
    · exact Docket.length_close only
  · intro layout e few
    obtain ⟨-, next, -⟩ := (m.book a).dispatch_spec layout e
    have later {c : Case} (hc : c ∈ docket.cases) :
        c.dispatch.id < ((m.book a).dispatch layout e).2.1.id := by
      have := sound.le_lastId_of_case hc
      rw [next]
      exact Nat.lt_succ_of_le this
    refine ⟨List.find?_eq_none.2 fun c hc => ?_, fun c hc => word_ne (later hc) ?_⟩
    · simpa using (later hc).ne
    · rw [next, counts moves a]
      exact few

theorem guards_idle_unclaimedPress :
    let early := unclaimedPress.take 3
    let late := unclaimedPress.take 4
    let t : Ticket := ⟨0, .extra, 1⟩
    let d : Dispatch := ⟨aPress, 1, .down, ⟨0x70004⟩, ⟨0x61⟩, false⟩
    (after early).scene.isAlive 0 ∧ .deliver t (.answered false) ∈ (after early).tasks ∧
      (((after early).book 0).docket.answer 1 false).2 ≠ .untracked ∧
    (after late).scene.isAlive 0 ∧ .settle 0 d false ∈ (after late).tasks ∧
      (((after late).book 0).settle d false).2 = some aPress ∧
    ((after late).dispatches 0).length + 1 < 2 ^ 64 ∧
      ((after late).book 0).docket.find? 2 = none := by
  intro early late t d
  have alive : (after early).scene.isAlive 0 := by decide +kernel
  have alive' : (after late).scene.isAlive 0 := by decide +kernel
  have pending : .deliver t (.answered false) ∈ (after early).tasks := by decide +kernel
  have pending' : .settle 0 d false ∈ (after late).tasks := by decide +kernel
  have few : ((after late).dispatches 0).length + 1 < 2 ^ 64 := by decide +kernel
  obtain ⟨answers, -⟩ := guards_idle early alive
  obtain ⟨-, settles, -, fresh⟩ := guards_idle late alive'
  obtain ⟨-, -, -, -, tracked⟩ := answers t _ pending rfl
  obtain ⟨-, -, -, back, -⟩ := settles d false pending'
  exact ⟨alive, pending, tracked, alive', pending', back, few, (fresh .us aPress few).1⟩

end Moment

end KeyArbiter
