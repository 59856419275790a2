import KeyArbiter.Proofs.Held
import KeyArbiter.Proofs.Tickets
import Mathlib

/-!
# The order of answers

Answers given one after the other, with nothing coming back at once, leave the same book in any
order. Events are handed back in the order in which they were answered last.
-/

namespace KeyArbiter

/-! ## One case is put in place of another -/

namespace Docket

variable (k : Docket) {id id' : Nat} {c : Case}

/-- Puts a case in the place of the one with this number, or drops that. -/
def put (k : Docket) (id : Nat) (o : Option Case) : Docket :=
  { k with cases := k.cases.filterMap fun c => if c.dispatch.id = id then o else some c }

theorem modify_eq_put {f : Case → Case} (all : ∀ c' ∈ k.casesOf id, f c' = c) :
    k.modify id f = k.put id (some c) := by
  unfold modify put
  congr 1
  rw [← List.filterMap_eq_map]
  apply List.filterMap_congr
  intro c' hc'
  by_cases own : c'.dispatch.id = id
  · simp [own, all c' ((mem_casesOf k).2 ⟨hc', own⟩)]
  · simp [own]

theorem close_eq_put (id : Nat) : k.close id = k.put id none := by
  unfold close put
  congr 1
  rw [← List.filterMap_eq_filter]
  apply List.filterMap_congr
  intro c' _
  by_cases own : c'.dispatch.id = id <;> simp [own, Option.guard]

theorem put_put (own : c.dispatch.id = id) (o : Option Case) :
    (k.put id (some c)).put id o = k.put id o := by
  unfold put
  congr 1
  rw [List.filterMap_filterMap]
  apply List.filterMap_congr
  intro c' _
  by_cases same : c'.dispatch.id = id <;> simp [same, own]

theorem put_comm (ne : id ≠ id') {o o' : Option Case} (ho : ∀ c ∈ o, c.dispatch.id = id)
    (ho' : ∀ c ∈ o', c.dispatch.id = id') :
    (k.put id o).put id' o' = (k.put id' o').put id o := by
  unfold put
  congr 1
  rw [List.filterMap_filterMap, List.filterMap_filterMap]
  apply List.filterMap_congr
  intro c' _
  by_cases here : c'.dispatch.id = id
  · cases o with
    | none => simp [here, ne]
    | some c => simp [here, ne, ho c rfl]
  · by_cases there : c'.dispatch.id = id'
    · cases o' with
      | none => simp [there, Ne.symm ne]
      | some c => simp [there, Ne.symm ne, ho' c rfl]
    · simp [here, there]

theorem casesOf_put_of_ne (ne : id' ≠ id) {o : Option Case} (ho : ∀ c ∈ o, c.dispatch.id = id) :
    (k.put id o).casesOf id' = k.casesOf id' := by
  unfold casesOf put
  rw [List.filter_filterMap, ← List.filterMap_eq_filter]
  apply List.filterMap_congr
  intro c' _
  by_cases here : c'.dispatch.id = id
  · cases o with
    | none => simp [here, Ne.symm ne, Option.guard]
    | some c => simp [here, Ne.symm ne, Option.guard, ho c rfl]
  · by_cases there : c'.dispatch.id = id' <;> simp [here, there, ne, Option.guard]

theorem casesOf_put_self (only : k.casesOf id = [c]) {o : Option Case}
    (ho : ∀ c ∈ o, c.dispatch.id = id) : (k.put id o).casesOf id = o.toList := by
  have own (c' : Case) (hc' : c' ∈ k.cases) : ((if c'.dispatch.id = id then o else some c').filter
      (·.dispatch.id == id)) = (if c'.dispatch.id == id then o else none) := by
    by_cases here : c'.dispatch.id = id
    · cases o with
      | none => simp [here]
      | some c => simp [here, ho c rfl]
    · simp [here]
  have mine : (k.casesOf id).filterMap (fun _ => o) = o.toList := by
    rw [only]
    cases o <;> rfl
  rw [← mine]
  unfold casesOf put
  rw [List.filter_filterMap, List.filterMap_filter]
  apply List.filterMap_congr
  exact own

end Docket

/-! ## Releases settle in any order -/

namespace HeldKeys

theorem holds_finishRelease (k : HeldKeys) (key : PhysicalKey) (id : Nat) :
    (k.finishRelease key id).holds =
      k.holds.filter fun h => !(h.physical == key && h.releasing == some id) := by
  unfold finishRelease
  cases found : k.find? key with
  | none =>
    refine (List.filter_eq_self.2 fun g hg => ?_).symm
    have other : ¬ (g.physical == key) = true := List.find?_eq_none.1 found g hg
    simp [Bool.not_eq_true _ ▸ other]
  | some h =>
    have same (g : Hold) (hg : g ∈ k.holds) (own : g.physical = key) : g = h := by
      have mine := find?_of_mem hg
      rw [own, found] at mine
      exact (Option.some.inj mine).symm
    simp only
    split
    · next releasing =>
      refine List.filter_congr fun g hg => ?_
      by_cases own : g.physical = key
      · obtain rfl := same g hg own
        simp [own, releasing]
      · simp [own, bne]
    · next other =>
      refine (List.filter_eq_self.2 fun g hg => ?_).symm
      by_cases own : g.physical = key
      · obtain rfl := same g hg own
        simp [other]
      · simp [own]

theorem eq_of_holds {k k' : HeldKeys} (same : k.holds = k'.holds) : k = k' := by
  obtain ⟨holds, ascending⟩ := k
  obtain ⟨holds', ascending'⟩ := k'
  cases same
  rfl

theorem finishRelease_comm (k : HeldKeys) (key key' : PhysicalKey) (id id' : Nat) :
    (k.finishRelease key id).finishRelease key' id' =
      (k.finishRelease key' id').finishRelease key id := by
  apply eq_of_holds
  rw [holds_finishRelease, holds_finishRelease, holds_finishRelease, holds_finishRelease,
    List.filter_filter, List.filter_filter]
  refine List.filter_congr fun h _ => ?_
  rw [Bool.and_comm]

end HeldKeys

/-! ## What an answer brings about -/

/-- All that an answer may change, but for what the host is to deliver again. -/
structure Ledger where
  book : Book
  filterCalls : Nat
  refused : Nat

structure Effect where
  case : Option Case
  /-- The event is settled. -/
  settled : Bool := false
  /-- How often the filter is asked. -/
  asked : Nat := 0
  /-- How often the host refuses. -/
  refused : Nat := 0
  /-- The event that the host is to deliver again. -/
  back : Option KeyEvent := none

section Effect

variable (sc : Scene) (a : ArbiterId)

def Case.answered (c : Case) (claimed : Bool) : Case :=
  { c with claimed := c.claimed || claimed, outstanding := c.outstanding - 1 }

/-- What a verdict does to the case, and what the host is asked to do about it. -/
def Case.concluded (c : Case) (claimed : Bool) : Effect :=
  if claimed then { case := none, settled := true }
  else if sc.refuses c.dispatch.event then { case := none, settled := true, refused := 1 }
  else { case := some { c with returned := true }, settled := true, back := c.dispatch.event }

def Case.settlement (c : Case) : Effect :=
  let asks := (sc.setup a).asks c.dispatch c.claimed
  { c.concluded sc (if asks then sc.filter else c.claimed) with asked := if asks then 1 else 0 }

def Case.effect (c : Case) (claimed : Bool) : Effect :=
  let c := c.answered claimed
  if c.outstanding = 0 then c.settlement sc a else { case := some c }

namespace Ledger

def apply (l : Ledger) (d : Dispatch) (f : Effect) : Ledger where
  book := { l.book with
    docket := l.book.docket.put d.id f.case
    held := if f.settled && d.transition == .up then l.book.held.finishRelease d.physical d.id
      else l.book.held }
  filterCalls := l.filterCalls + f.asked
  refused := l.refused + f.refused

/-- An answer for an event with this number, and the event that the host is to deliver again. -/
def answer (l : Ledger) (x : Nat × Bool) : Ledger × Option KeyEvent :=
  match l.book.docket.find? x.1 with
  | some c => (l.apply c.dispatch (c.effect sc a x.2), (c.effect sc a x.2).back)
  | none => (l, none)

def answers (l : Ledger) (xs : List (Nat × Bool)) : Ledger :=
  xs.foldl (fun l x => (l.answer sc a x).1) l

/-- What the host is to deliver again, in the order in which it is told. -/
def backs : Ledger → List (Nat × Bool) → List KeyEvent
  | _, [] => []
  | l, x :: xs => (l.answer sc a x).2.toList ++ backs (l.answer sc a x).1 xs

end Ledger

theorem Case.id_effect (c : Case) (claimed : Bool) :
    ∀ c' ∈ (c.effect sc a claimed).case, c'.dispatch.id = c.dispatch.id := by
  unfold Case.effect Case.settlement Case.concluded Case.answered
  simp only
  generalize (if (sc.setup a).asks c.dispatch (c.claimed || claimed) then sc.filter
    else c.claimed || claimed) = verdict
  by_cases last : c.outstanding - 1 = 0
  · cases verdict <;> cases sc.refuses c.dispatch.event <;> simp [last]
  · simp [last]

theorem Case.back_effect (c : Case) (here : c.returned = false) (claimed : Bool) :
    (c.effect sc a claimed).back = (c.effect sc a claimed).case.bind fun c =>
      if c.returned then some c.dispatch.event else none := by
  unfold Case.effect Case.settlement Case.concluded Case.answered
  simp only
  generalize (if (sc.setup a).asks c.dispatch (c.claimed || claimed) then sc.filter
    else c.claimed || claimed) = verdict
  by_cases last : c.outstanding - 1 = 0
  · cases verdict <;> cases sc.refuses c.dispatch.event <;> simp [last]
  · simp [last, here]

/-! ## Any order -/

def Docket.returnedEvent? (k : Docket) (id : Nat) : Option KeyEvent :=
  (k.find? id).bind fun c => if c.returned then some c.dispatch.event else none

namespace Ledger

/-- Each answer is for an open case that waits for at least as many as there are for it. -/
def Fits (l : Ledger) (xs : List (Nat × Bool)) : Prop :=
  ∀ x ∈ xs, ∃ c, l.book.docket.casesOf x.1 = [c] ∧ c.returned = false ∧
    (xs.map Prod.fst).count x.1 ≤ c.outstanding

variable {l : Ledger} {id : Nat} {c : Case} {d : Dispatch} {f : Effect}

theorem answer_eq (only : l.book.docket.casesOf id = [c]) (claimed : Bool) :
    l.answer sc a (id, claimed) =
      (l.apply c.dispatch (c.effect sc a claimed), (c.effect sc a claimed).back) := by
  unfold answer
  simp only [Docket.find?_eq, only, List.head?_cons]

theorem casesOf_answer_self (only : l.book.docket.casesOf id = [c]) (claimed : Bool) :
    (l.answer sc a (id, claimed)).1.book.docket.casesOf id = (c.effect sc a claimed).case.toList := by
  have own := Docket.id_of_casesOf only
  rw [answer_eq sc a only]
  simp only [apply, own]
  refine Docket.casesOf_put_self _ only fun c' hc' => ?_
  rw [c.id_effect sc a claimed c' hc', own]

theorem casesOf_answer_of_ne {x : Nat × Bool} (only : l.book.docket.casesOf x.1 = [c])
    (ne : id ≠ x.1) : (l.answer sc a x).1.book.docket.casesOf id = l.book.docket.casesOf id := by
  have own := Docket.id_of_casesOf only
  obtain ⟨id', claimed⟩ := x
  rw [answer_eq sc a only]
  refine Docket.casesOf_put_of_ne _ (by rw [own]; exact ne) ?_
  exact c.id_effect sc a claimed

theorem apply_comm {d' : Dispatch} {f' : Effect} (ne : d.id ≠ d'.id)
    (own : ∀ c ∈ f.case, c.dispatch.id = d.id) (own' : ∀ c ∈ f'.case, c.dispatch.id = d'.id) :
    (l.apply d f).apply d' f' = (l.apply d' f').apply d f := by
  have docket := l.book.docket.put_comm ne own own'
  have held := l.book.held.finishRelease_comm d.physical d'.physical d.id d'.id
  simp only [apply, docket, Nat.add_right_comm, Ledger.mk.injEq, Book.mk.injEq, true_and, and_true]
  cases f.settled && d.transition == .up <;> cases f'.settled && d'.transition == .up
  · rfl
  · rfl
  · rfl
  · exact held

theorem effect_waits (more : 2 ≤ c.outstanding) (claimed : Bool) :
    c.effect sc a claimed = { case := some (c.answered claimed) } := by
  unfold Case.effect Case.answered
  simp only
  rw [if_neg (by omega)]

theorem answer_answer (only : l.book.docket.casesOf id = [c]) (more : 2 ≤ c.outstanding)
    (claimed claimed' : Bool) :
    ((l.answer sc a (id, claimed)).1.answer sc a (id, claimed')).1 =
      l.apply c.dispatch ((c.answered claimed).effect sc a claimed') := by
  have next := casesOf_answer_self sc a only claimed
  rw [effect_waits sc a more] at next
  have own : (c.answered claimed).dispatch.id = c.dispatch.id := rfl
  have replaced (o : Option Case) := l.book.docket.put_put own o
  have dispatch : (c.answered claimed).dispatch = c.dispatch := rfl
  rw [answer_eq sc a next, answer_eq sc a only, effect_waits sc a more, dispatch]
  simp only [apply, Nat.add_zero, Bool.false_and, Bool.false_eq_true, if_false, replaced]

theorem answer_comm {x y : Nat × Bool} {xs : List (Nat × Bool)} (fits : l.Fits (x :: y :: xs)) :
    ((l.answer sc a x).1.answer sc a y).1 = ((l.answer sc a y).1.answer sc a x).1 := by
  obtain ⟨c, only, here, enough⟩ := fits x (List.mem_cons_self ..)
  obtain ⟨c', only', here', enough'⟩ := fits y (List.mem_cons_of_mem _ (List.mem_cons_self ..))
  obtain ⟨id, claimed⟩ := x
  obtain ⟨id', claimed'⟩ := y
  by_cases same : id = id'
  · subst same
    have more : 2 ≤ c.outstanding := by
      simp only [List.map_cons, List.count_cons_self] at enough
      omega
    rw [answer_answer sc a only more, answer_answer sc a only more]
    unfold Case.effect Case.answered
    simp only [Bool.or_right_comm c.claimed claimed claimed']
  · have one := casesOf_answer_of_ne sc a (x := (id', claimed')) only' same
    have two := casesOf_answer_of_ne sc a (x := (id, claimed)) only (Ne.symm same)
    rw [only] at one
    rw [only'] at two
    rw [answer_eq sc a two, answer_eq sc a one, answer_eq sc a only, answer_eq sc a only']
    have ne : c.dispatch.id ≠ c'.dispatch.id := by
      rw [Docket.id_of_casesOf only, Docket.id_of_casesOf only']
      exact same
    exact apply_comm ne (c.id_effect sc a claimed) (c'.id_effect sc a claimed')

namespace Fits

variable {x : Nat × Bool} {xs ys : List (Nat × Bool)}

theorem perm (fits : l.Fits xs) (perm : xs.Perm ys) : l.Fits ys := by
  intro y hy
  obtain ⟨c, only, here, enough⟩ := fits y (perm.mem_iff.2 hy)
  refine ⟨c, only, here, ?_⟩
  rwa [← (perm.map Prod.fst).count_eq]

theorem tail (fits : l.Fits (x :: xs)) : (l.answer sc a x).1.Fits xs := by
  obtain ⟨c, only, here, enough⟩ := fits x (List.mem_cons_self ..)
  intro y hy
  obtain ⟨c', only', here', enough'⟩ := fits y (List.mem_cons_of_mem _ hy)
  have count := List.count_cons (a := y.1) (b := x.1) (l := xs.map Prod.fst)
  rw [List.map_cons] at enough enough'
  by_cases same : y.1 = x.1
  · have pos : 0 < (xs.map Prod.fst).count y.1 :=
      List.count_pos_iff.2 (List.mem_map.2 ⟨y, hy, rfl⟩)
    rw [same, only] at only'
    cases only'
    have next := casesOf_answer_self sc a only x.2
    rw [same] at enough' count pos ⊢
    rw [List.count_cons_self] at enough'
    rw [Ledger.effect_waits sc a (by omega)] at next
    refine ⟨c.answered x.2, next, here, ?_⟩
    simp only [Case.answered]
    omega
  · rw [List.count_cons_of_ne (Ne.symm same)] at enough'
    exact ⟨c', by rw [casesOf_answer_of_ne sc a only same, only'], here', enough'⟩

end Fits

theorem answers_perm {xs ys : List (Nat × Bool)} (perm : xs.Perm ys) (fits : l.Fits xs) :
    l.answers sc a xs = l.answers sc a ys := by
  induction perm generalizing l with
  | nil => rfl
  | cons x _ ih => exact ih (fits.tail sc a)
  | swap x y xs =>
    have swapped := answer_comm sc a fits
    simp only [answers, List.foldl_cons, swapped]
  | trans first _ ih ih' => exact (ih fits).trans (ih' (fits.perm first))

theorem casesOf_answers {xs : List (Nat × Bool)} (fits : l.Fits xs)
    (none : id ∉ xs.map Prod.fst) :
    (l.answers sc a xs).book.docket.casesOf id = l.book.docket.casesOf id := by
  induction xs generalizing l with
  | nil => rfl
  | cons x xs ih =>
    obtain ⟨c, only, -⟩ := fits x (List.mem_cons_self ..)
    rw [List.map_cons, List.mem_cons, not_or] at none
    exact (ih (fits.tail sc a) none.2).trans (casesOf_answer_of_ne sc a only none.1)

/-- Events are handed back in the order of their last answers. -/
theorem backs_eq {xs : List (Nat × Bool)} (fits : l.Fits xs) :
    l.backs sc a xs =
      (xs.map Prod.fst).dedup.filterMap (l.answers sc a xs).book.docket.returnedEvent? := by
  induction xs generalizing l with
  | nil => rfl
  | cons x xs ih =>
    obtain ⟨c, only, here, enough⟩ := fits x (List.mem_cons_self ..)
    have rest := ih (fits.tail sc a)
    have back : (l.answer sc a x).2 = (c.effect sc a x.2).back := by
      rw [show x = (x.1, x.2) from rfl, answer_eq sc a only]
    rw [backs, rest, List.map_cons, back]
    change _ = List.filterMap ((l.answer sc a x).1.answers sc a xs).book.docket.returnedEvent? _
    by_cases again : x.1 ∈ xs.map Prod.fst
    · have more : 2 ≤ c.outstanding := by
        have := List.count_pos_iff.2 again
        rw [List.map_cons, List.count_cons_self] at enough
        omega
      rw [List.dedup_cons_of_mem again, effect_waits sc a more]
      rfl
    · have last : ((l.answer sc a x).1.answers sc a xs).book.docket.returnedEvent? x.1 =
          (c.effect sc a x.2).back := by
        rw [Docket.returnedEvent?, Docket.find?_eq, casesOf_answers sc a (fits.tail sc a) again,
          casesOf_answer_self sc a only x.2, c.back_effect sc a here]
        cases (c.effect sc a x.2).case <;> rfl
      rw [List.dedup_cons_of_notMem again, List.filterMap_cons, last]
      cases (c.effect sc a x.2).back <;> rfl

end Ledger

end Effect

/-! ## Answers are delivered -/

section Deliver

variable {sc : Scene} {a : ArbiterId} {st : State} {c : Case} {t : Ticket}

def State.ledger (st : State) (a : ArbiterId) : Ledger := ⟨st.book a, st.filterCalls, st.refused⟩

/-- Nothing comes back in the midst of a call. -/
def Scene.Defers (sc : Scene) : Prop := ∀ h, sc.redispatch ≠ .inline h

theorem State.redispatch_deferred (defers : sc.Defers) {e : KeyEvent} (taken : sc.refuses e = false) :
    st.redispatch sc e = ({ st with queue := st.queue ++ [e] }, [], true) := by
  unfold Scene.refuses at taken
  unfold redispatch
  split at taken
  · cases taken
  · simp_all
  · simp_all
  · next h inline => exact absurd inline (defers h)

theorem Book.settle_put {b : Book} {k : Docket} {c c₀ : Case}
    (docket : b.docket = k.put c.dispatch.id (some c)) (only : k.casesOf c.dispatch.id = [c₀])
    (here : c.returned = false) (claimed : Bool) :
    b.settle c.dispatch claimed =
      ({ b with
          docket := k.put c.dispatch.id (if claimed then none else some { c with returned := true })
          held := if c.dispatch.transition == .up then
            b.held.finishRelease c.dispatch.physical c.dispatch.id else b.held },
        if claimed then none else some c.dispatch.event) := by
  have mine : b.docket.casesOf c.dispatch.id = [c] := by
    rw [docket, Docket.casesOf_put_self k only (by simp)]
    rfl
  unfold settle
  simp only [beq_iff_eq]
  cases claimed with
  | true =>
    simp only [if_true, Docket.close_eq_put, docket, k.put_put rfl]
  | false =>
    have back : b.docket.giveBack c.dispatch.id =
        some (k.put c.dispatch.id (some { c with returned := true }), c.dispatch.event) := by
      have modified : b.docket.modify c.dispatch.id (fun c => { c with returned := true }) =
          k.put c.dispatch.id (some { c with returned := true }) := by
        rw [Docket.modify_eq_put (c := { c with returned := true }), docket, k.put_put rfl]
        intro c' hc'
        rw [mine] at hc'
        rw [List.mem_singleton.1 hc']
      unfold Docket.giveBack
      rw [Docket.find?_eq, mine]
      simp only [List.head?_cons, here, Bool.false_eq_true, if_false, modified]
    simp only [Bool.false_eq_true, if_false, back]

structure Brought (a : ArbiterId) (l : Ledger) (d : Dispatch) (f : Effect) (st st' : State) :
    Prop where
  ledger : st'.ledger a = l.apply d f
  queue : st'.queue = st.queue ++ f.back.toList
  held : st'.held = st.held

section Settle

variable {l : Ledger} {c₀ : Case}

theorem State.conclude_answered (defers : sc.Defers)
    (book : st.book a = { l.book with docket := l.book.docket.put c.dispatch.id (some c) })
    (filterCalls : st.filterCalls = l.filterCalls) (refused : st.refused = l.refused)
    (only : l.book.docket.casesOf c.dispatch.id = [c₀]) (here : c.returned = false) (claimed : Bool) :
    ∃ st', st.conclude sc a c.dispatch claimed = (st', []) ∧
      Brought a l c.dispatch (c.concluded sc claimed) st st' := by
  have settled := Book.settle_put (b := st.book a) (by rw [book]) only here claimed
  have resolved : (st.resolve a c.dispatch claimed).book a =
      ((st.book a).settle c.dispatch claimed).1 := book_setBook ..
  rw [settled, book] at resolved
  rw [conclude_eq, settled]
  unfold Case.concluded
  cases claimed with
  | true =>
    refine ⟨_, rfl, ?_, by simp [resolve, note, setBook], rfl⟩
    rw [ledger, resolved]
    simp [Ledger.apply, resolve, note, setBook, filterCalls, refused]
  | false =>
    simp only [Bool.false_eq_true, if_false]
    rw [handBack_eq]
    cases refuses : sc.refuses c.dispatch.event with
    | true =>
      refine ⟨_, rfl, ?_, by simp [resolve, note, setBook], rfl⟩
      rw [ledger, book_note, book_setBook, book_note, resolved]
      simp [Ledger.apply, resolve, note, setBook, filterCalls, refused, Docket.close_eq_put,
        Docket.put_put]
    | false =>
      rw [redispatch_deferred defers refuses]
      refine ⟨_, rfl, ?_, by simp [resolve, note, setBook], rfl⟩
      have turned : ∀ queue, ({ (st.resolve a c.dispatch false).note a
          (.handedBack c.dispatch.id c.dispatch.event) with queue } : State).book a =
          (st.resolve a c.dispatch false).book a := fun _ => rfl
      rw [ledger, turned, resolved]
      simp [Ledger.apply, resolve, note, setBook, filterCalls, refused]

theorem State.settle_answered (defers : sc.Defers)
    (book : st.book a = { l.book with docket := l.book.docket.put c.dispatch.id (some c) })
    (filterCalls : st.filterCalls = l.filterCalls) (refused : st.refused = l.refused)
    (only : l.book.docket.casesOf c.dispatch.id = [c₀]) (here : c.returned = false) :
    ∃ st', st.settle sc a c.dispatch c.claimed = (st', []) ∧
      Brought a l c.dispatch (c.settlement sc a) st st' := by
  have unasked (claimed : Bool) : (c.concluded sc claimed).asked = 0 := by
    unfold Case.concluded
    cases claimed <;> cases sc.refuses c.dispatch.event <;> rfl
  have consulted : st.consult sc a c.dispatch c.claimed =
      if (sc.setup a).asks c.dispatch c.claimed then
        ({ st with filterCalls := st.filterCalls + 1 }.note a
          (.filtered c.dispatch.id c.dispatch.event sc.filter), sc.filter)
      else (st, c.claimed) := rfl
  unfold settle Case.settlement
  rw [consulted]
  cases (sc.setup a).asks c.dispatch c.claimed with
  | true =>
    have asked : ({ st with filterCalls := st.filterCalls + 1 }.note a
        (.filtered c.dispatch.id c.dispatch.event sc.filter)).book a =
        { l.book with docket := l.book.docket.put c.dispatch.id (some c) } := book
    obtain ⟨st', eq, ledger, queue, held⟩ :=
      conclude_answered (l := { l with filterCalls := l.filterCalls + 1 }) defers asked
        (congrArg (· + 1) filterCalls) refused only here sc.filter
    refine ⟨st', eq, ?_, queue, held⟩
    rw [ledger]
    simp [Ledger.apply, unasked]
  | false =>
    obtain ⟨st', eq, ledger, queue, held⟩ :=
      conclude_answered defers book filterCalls refused only here c.claimed
    refine ⟨st', eq, ?_, queue, held⟩
    simp only [Bool.false_eq_true, if_false]
    rw [ledger]
    simp [Ledger.apply, unasked]

end Settle

theorem Docket.answer_eq_put {k : Docket} {id : Nat} (only : k.casesOf id = [c]) (claimed : Bool) :
    k.answer id claimed = (k.put id (some (c.answered claimed)),
      if (c.answered claimed).outstanding = 0 then
        .complete (c.answered claimed).claimed c.dispatch
      else .waiting (c.answered claimed).outstanding) := by
  have modified : k.modify id (fun _ => c.answered claimed) =
      k.put id (some (c.answered claimed)) := modify_eq_put k fun _ _ => rfl
  rw [← modified, answer, find?_eq, only]
  rfl

theorem State.run_deliver (defers : sc.Defers) (alive : sc.isAlive a) (mine : t.arbiter = a)
    (only : (st.book a).docket.casesOf t.id = [c]) (here : c.returned = false) (answer : Delivery) :
    Brought a (st.ledger a) c.dispatch (c.effect sc a answer.claimed) st
      (run sc st [.deliver t answer]) := by
  subst mine
  have own := Docket.id_of_casesOf only
  have answered := Docket.answer_eq_put only answer.claimed
  rw [show (st.book t.arbiter).docket.put t.id = (st.book t.arbiter).docket.put c.dispatch.id by
    rw [own]] at answered
  have delivered := st.deliver_eq sc t answer
  simp only [alive, if_true, book_note, answered] at delivered
  rw [← own] at only
  -- The state once the answer is entered, and before the event is settled.
  obtain ⟨st₁, entered⟩ : ∃ st₁, st₁ = (st.note t.arbiter (answer.entry t.responder t.id)).setBook
      t.arbiter ⟨(st.book t.arbiter).docket.put c.dispatch.id (some (c.answered answer.claimed)),
        (st.book t.arbiter).held, (st.book t.arbiter).known⟩ := ⟨_, rfl⟩
  have book : st₁.book t.arbiter =
      { st.book t.arbiter with
        docket := (st.book t.arbiter).docket.put c.dispatch.id (some (c.answered answer.claimed)) } := by
    rw [entered, book_setBook]
  have filterCalls : st₁.filterCalls = st.filterCalls := by rw [entered]; rfl
  have refused : st₁.refused = st.refused := by rw [entered]; rfl
  have queue : st₁.queue = st.queue := by rw [entered]; rfl
  have held : st₁.held = st.held := by rw [entered]; rfl
  rw [run, step]
  unfold Case.effect
  by_cases last : (c.answered answer.claimed).outstanding = 0
  · simp only [last, if_true, ← entered] at delivered
    obtain ⟨st', eq, brought⟩ : ∃ st', st₁.settle sc t.arbiter c.dispatch
        (c.answered answer.claimed).claimed = (st', []) ∧
        Brought t.arbiter (st.ledger t.arbiter) c.dispatch
          ((c.answered answer.claimed).settlement sc t.arbiter) st₁ st' :=
      settle_answered (c := c.answered answer.claimed) (l := st.ledger t.arbiter) defers book
        filterCalls refused only here
    simp only [delivered, last, if_true, List.append_nil]
    rw [run, step, eq, List.append_nil, Session.run_nil]
    exact ⟨brought.ledger, by rw [brought.queue, queue], by rw [brought.held, held]⟩
  · simp only [last, if_false, ← entered] at delivered
    simp only [delivered, last, if_false, List.append_nil]
    rw [Session.run_nil]
    refine ⟨?_, by simp [note, queue], held⟩
    rw [ledger, book_note, book]
    simp [Ledger.apply, note, ledger, filterCalls, refused]

end Deliver

/-! ## Answers are given -/

namespace Session

variable {s : Session} {a : ArbiterId}

/-- Answers are given one after the other, each to its end. -/
def endAll (s : Session) (answers : List (Holder × Ending)) : Session :=
  answers.foldl (fun s x => (s.perform (x.1.ended x.2)).1) s

/-- What answers say, and of which events. -/
def meant (s : Session) (answers : List (Holder × Ending)) : List (Nat × Bool) :=
  answers.filterMap fun x => (s.ticketAt x.1).map fun t => (t.id, x.2.delivery.claimed)

/-- Each answer is from a place of its own that has a ticket of the arbiter. -/
structure MayEnd (s : Session) (a : ArbiterId) (answers : List (Holder × Ending)) : Prop where
  distinct : (answers.map Prod.fst).Nodup
  tickets : ∀ x ∈ answers, ∃ t, s.ticketAt x.1 = some t ∧ t.arbiter = a

theorem perform_ended (defers : s.scene.Defers) (alive : s.scene.isAlive a) {h : Holder} {t : Ticket}
    (here : s.ticketAt h = some t) (mine : t.arbiter = a) {c : Case}
    (only : (s.state.book a).docket.casesOf t.id = [c]) (waits : c.returned = false) (how : Ending) :
    let s' := (s.perform (h.ended how)).1
    let answered := (s.state.ledger a).answer s.scene a (t.id, how.delivery.claimed)
    s'.scene = s.scene ∧ (∀ h' ≠ h, s'.ticketAt h' = s.ticketAt h') ∧
      s'.state.ledger a = answered.1 ∧ s'.state.queue = s.state.queue ++ answered.2.toList := by
  obtain ⟨s₁, launched, ended⟩ := s.launch_ended h how
  rw [here] at launched
  have performed : (s.perform (h.ended how)).1 =
      { s₁ with state := run s.scene s₁.state [.deliver t how.delivery] } := by
    rw [fst_perform, launched, settleAll, finish, ended.scene]
    rfl
  have book : s₁.state.book a = s.state.book a := by rw [ended.state]; rfl
  have ledger : s₁.state.ledger a = s.state.ledger a := by rw [ended.state]; rfl
  have queue : s₁.state.queue = s.state.queue := by rw [ended.state]
  have only₁ : (s₁.state.book a).docket.casesOf t.id = [c] := by rw [book]; exact only
  have brought := State.run_deliver defers alive mine only₁ waits how.delivery
  intro s' answered
  have eq : answered = _ := Ledger.answer_eq s.scene a only how.delivery.claimed
  rw [eq]
  simp only [s', performed]
  refine ⟨ended.scene, fun h' ne => ?_, by rw [brought.ledger, ledger], by rw [brought.queue, queue]⟩
  have kept := ended.kept h'
  rw [if_neg ne] at kept
  rw [← kept]
  cases h' with
  | held slot => exact congrArg (·.getD slot none) brought.held
  | record | callback => rfl

theorem meant_cons {h : Holder} {t : Ticket} (here : s.ticketAt h = some t) (how : Ending)
    (answers : List (Holder × Ending)) :
    s.meant ((h, how) :: answers) = (t.id, how.delivery.claimed) :: s.meant answers := by
  rw [meant, List.filterMap_cons_some (by rw [here]; rfl)]
  rfl

theorem endAll_eq {answers : List (Holder × Ending)} (defers : s.scene.Defers)
    (alive : s.scene.isAlive a) (may : s.MayEnd a answers)
    (fits : (s.state.ledger a).Fits (s.meant answers)) :
    (s.endAll answers).state.ledger a =
        (s.state.ledger a).answers s.scene a (s.meant answers) ∧
      (s.endAll answers).state.queue =
        s.state.queue ++ (s.state.ledger a).backs s.scene a (s.meant answers) := by
  induction answers generalizing s with
  | nil => exact ⟨rfl, (List.append_nil _).symm⟩
  | cons x answers ih =>
    obtain ⟨h, how⟩ := x
    obtain ⟨t, here, mine⟩ := may.tickets _ (List.mem_cons_self ..)
    have distinct := may.distinct
    rw [List.map_cons, List.nodup_cons] at distinct
    rw [meant_cons here] at fits
    obtain ⟨c, only, waits, -⟩ := fits _ (List.mem_cons_self ..)
    obtain ⟨scene, kept, ledger, queue⟩ := perform_ended defers alive here mine only waits how
    have others (y : Holder × Ending) (hy : y ∈ answers) :
        (s.perform (h.ended how)).1.ticketAt y.1 = s.ticketAt y.1 := by
      apply kept
      rintro rfl
      exact distinct.1 (List.mem_map.2 ⟨y, hy, rfl⟩)
    have meant : (s.perform (h.ended how)).1.meant answers = s.meant answers :=
      List.filterMap_congr fun y hy => by rw [others y hy]
    have rest := ih (s := (s.perform (h.ended how)).1) (by rw [scene]; exact defers)
      (by rw [scene]; exact alive)
      ⟨distinct.2, fun y hy => by
        rw [others y hy]
        exact may.tickets y (List.mem_cons_of_mem _ hy)⟩
      (by rw [ledger, meant]; exact fits.tail s.scene a)
    rw [ledger, queue, scene, meant] at rest
    rw [meant_cons here]
    exact ⟨rest.1, rest.2.trans (List.append_assoc ..)⟩

/-! ### What is open fits -/

theorem duties_of_holders (a : ArbiterId) {holders : List Holder} (distinct : holders.Nodup) :
    (holders.map fun h => ownerDuties a (s.ticketAt h)).sum ≤ s.state.duties a + s.duties a := by
  induction holders generalizing s with
  | nil => exact Multiset.zero_le _
  | cons h holders ih =>
    rw [List.nodup_cons] at distinct
    obtain ⟨s', -, ended⟩ := s.launch_ended h .drop
    have others : holders.map (fun h => ownerDuties a (s'.ticketAt h)) =
        holders.map fun h => ownerDuties a (s.ticketAt h) := by
      apply List.map_congr_left
      intro h' mem
      rw [ended.kept, if_neg]
      rintro rfl
      exact distinct.1 mem
    rw [List.map_cons, List.sum_cons, ← ended.duties a, ← others]
    exact add_le_add_right (ih distinct.2) _

end Session

theorem weigh_le (w : Duty → Nat) {D D' : Multiset Duty} (le : D ≤ D') : weigh w D ≤ weigh w D' := by
  obtain ⟨rest, rfl⟩ := Multiset.le_iff_exists_add.1 le
  rw [weigh_add]
  omega

theorem Stage.case_of_live {setup : Setup} {id : Nat} {D : Dossier} (stage : Stage setup id D)
    (live : 0 < weigh (Duty.answers id) D.duties) :
    ∃ c, D.cases = [c] ∧ c.returned = false ∧ weigh (Duty.answers id) D.duties ≤ c.outstanding := by
  have balanced := stage.balanced
  obtain ⟨c, hc, here, -⟩ := balanced.live live
  have outstanding := balanced.outstanding c hc here
  have only : D.cases = [c] := by
    cases stage with
    | unborn | closed | replayed => exact absurd hc List.not_mem_nil
    | waiting | settling | returned => rw [List.mem_singleton.1 hc]
  exact ⟨c, only, here, by omega⟩

namespace Session

variable {s : Session} {a : ArbiterId}

theorem count_meant {answers : List (Holder × Ending)} (may : s.MayEnd a answers) (id : Nat) :
    ((s.meant answers).map Prod.fst).count id ≤
      weigh (Duty.answers id) (s.state.duties a + s.duties a) := by
  have tickets : (s.meant answers).map Prod.fst =
      ((answers.map Prod.fst).filterMap s.ticketAt).map (·.id) := by
    rw [meant, List.map_filterMap, List.filterMap_map, List.map_filterMap]
    apply List.filterMap_congr
    intro x _
    cases h : s.ticketAt x.1 <;> simp [h]
  have all : ∀ t ∈ (answers.map Prod.fst).filterMap s.ticketAt, t.arbiter = a := by
    intro t ht
    obtain ⟨h, hh, here⟩ := List.mem_filterMap.1 ht
    obtain ⟨x, hx, rfl⟩ := List.mem_map.1 hh
    obtain ⟨t', here', mine⟩ := may.tickets x hx
    rw [here'] at here
    cases here
    exact mine
  have weight := weigh_tickets a id (fun h => ownerDuties a (s.ticketAt h)) s.ticketAt
    (fun _ => rfl) (answers.map Prod.fst)
  have owed := weigh_le (Duty.answers id) (duties_of_holders a (s := s) may.distinct)
  rw [weight] at owed
  refine le_trans (le_of_eq ?_) owed
  rw [tickets, List.count_eq_countP, List.countP_map]
  apply List.countP_congr
  intro t ht
  simp [all t ht]

theorem fits_meant {answers : List (Holder × Ending)} (may : s.MayEnd a answers)
    (sound : Sound (s.scene.setup a) (Moment.desk ⟨s, []⟩ a)) :
    (s.state.ledger a).Fits (s.meant answers) := by
  intro x hx
  have count := count_meant may x.1
  have pos : 0 < ((s.meant answers).map Prod.fst).count x.1 :=
    List.count_pos_iff.2 (List.mem_map.2 ⟨x, hx, rfl⟩)
  have own : weigh (Duty.answers x.1) ((Moment.desk ⟨s, []⟩ a).dossier x.1).duties =
      weigh (Duty.answers x.1) (s.state.duties a + s.duties a) := by
    rw [Desk.dossier, weigh_filter _ Duty.answers_of_ne, Moment.desk, taskDuties_nil, zero_add]
    rfl
  obtain ⟨c, only, waits, enough⟩ := (sound.stage x.1).case_of_live (by rw [own]; omega)
  rw [own] at enough
  exact ⟨c, only, waits, count.trans enough⟩

end Session

namespace Moment

/-- Open answers may be given in any order: the same is left of them, and the host is told to deliver
the same events again, in the order in which they were answered last. -/
theorem answers_commute (moves : List Move) {a : ArbiterId}
    (alive : (after moves).scene.isAlive a) (idle : (after moves).tasks = [])
    (defers : (after moves).scene.Defers) {answers answers' : List (Holder × Session.Ending)}
    (may : (after moves).session.MayEnd a answers) (perm : answers.Perm answers') :
    let s := (after moves).session
    let one := (s.endAll answers).state
    let other := (s.endAll answers').state
    other.book a = one.book a ∧ other.filterCalls = one.filterCalls ∧
      other.refused = one.refused ∧ other.queue.Perm one.queue ∧
      one.queue = s.state.queue ++
        ((s.meant answers).map Prod.fst).dedup.filterMap (one.book a).docket.returnedEvent? := by
  have sound := Moment.sound moves alive
  have whole : after moves = ⟨(after moves).session, []⟩ := by rw [← idle]
  rw [whole] at sound
  intro s one other
  have fits := Session.fits_meant may sound
  have meant : (s.meant answers).Perm (s.meant answers') := perm.filterMap _
  obtain ⟨ledger, queue⟩ := Session.endAll_eq defers alive may fits
  have may' : s.MayEnd a answers' :=
    ⟨(perm.map Prod.fst).nodup_iff.1 may.distinct, fun x hx => may.tickets x (perm.mem_iff.2 hx)⟩
  obtain ⟨ledger', queue'⟩ := Session.endAll_eq defers alive may' (fits.perm meant)
  have same : other.ledger a = one.ledger a := by
    rw [ledger, ledger', Ledger.answers_perm s.scene a meant fits]
  have book : (s.state.ledger a).answers s.scene a (s.meant answers) = one.ledger a := ledger.symm
  have book' : (s.state.ledger a).answers s.scene a (s.meant answers') = one.ledger a :=
    ledger'.symm.trans same
  rw [Ledger.backs_eq s.scene a fits, book] at queue
  rw [Ledger.backs_eq s.scene a (fits.perm meant), book'] at queue'
  refine ⟨congrArg Ledger.book same, congrArg Ledger.filterCalls same, congrArg Ledger.refused same,
    ?_, queue⟩
  rw [queue, queue']
  exact ((((meant.map Prod.fst).symm).dedup).filterMap _).append_left _

/-- A press that two responders hold their answers to. -/
def heldPress : List Move :=
  [.command (.build { embedderResponder := false, channelResponder := false } false [.hold, .hold]),
    .command (.event 0 aPress)] ++ List.replicate 4 .go

theorem answers_commute_heldPress :
    (after heldPress).scene.isAlive 0 ∧ (after heldPress).tasks = [] ∧
      (after heldPress).scene.Defers ∧
      (((after heldPress).session.endAll [(.held 1, .drop), (.held 0, .answer false)]).state.book 0 =
        ((after heldPress).session.endAll [(.held 0, .answer false), (.held 1, .drop)]).state.book 0) := by
  have alive : (after heldPress).scene.isAlive 0 := by decide +kernel
  have idle : (after heldPress).tasks = [] := by decide +kernel
  have defers : (after heldPress).scene.Defers := by
    have queued : (after heldPress).scene.redispatch = .queue := by decide +kernel
    intro h
    rw [queued]
    nofun
  have first : (after heldPress).session.ticketAt (.held 0) = some ⟨0, .extra, 1⟩ := by
    decide +kernel
  have second : (after heldPress).session.ticketAt (.held 1) = some ⟨0, .extra, 1⟩ := by
    decide +kernel
  have may : (after heldPress).session.MayEnd 0 [(.held 0, .answer false), (.held 1, .drop)] := by
    refine ⟨by decide, ?_⟩
    intro x hx
    rcases List.mem_cons.1 hx with rfl | hx
    · exact ⟨_, first, rfl⟩
    · obtain rfl := List.mem_singleton.1 hx
      exact ⟨_, second, rfl⟩
  exact ⟨alive, idle, defers,
    (answers_commute heldPress alive idle defers may (List.Perm.swap _ _ _)).1⟩

end Moment

end KeyArbiter
