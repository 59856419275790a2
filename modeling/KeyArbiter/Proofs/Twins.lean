import KeyArbiter.Proofs.Agreement
import KeyArbiter.Proofs.Calm
import KeyArbiter.Proofs.Order
import KeyArbiter.Proofs.Replays
import KeyArbiter.Proofs.Rounds
import Mathlib

/-!
# Events that come back at once, and events that wait

The host delivers an event that is handed back in the midst of the call, or queues it and delivers it
between two calls. With responders that make no calls of their own, both come to the same: at each
time the one state is the other without the cases whose replays are waiting.
-/

namespace KeyArbiter

/-! ## Dockets without what was given back -/

def Case.back (c : Case) : Option KeyEvent := if c.returned then some c.dispatch.event else none

namespace Docket

def opened (k : Docket) : Docket := { k with cases := k.cases.filter (!·.returned) }

def backs (k : Docket) : List KeyEvent := k.cases.filterMap Case.back

variable {k k' : Docket} {id : Nat} {c : Case} {e : KeyEvent}

theorem mem_backs : e ∈ k.backs ↔ ∃ c ∈ k.cases, c.returned = true ∧ c.dispatch.event = e := by
  simp [backs, Case.back]

theorem returned_eq_length_backs (k : Docket) : k.returned = k.backs.length := by
  unfold returned backs
  induction k.cases with
  | nil => rfl
  | cons c cs ih => cases back : c.returned <;> simp [Case.back, back, ih]

theorem backs_opened (k : Docket) : k.opened.backs = [] := by
  refine List.eq_nil_iff_forall_not_mem.2 fun e mem => ?_
  obtain ⟨c, hc, back, -⟩ := mem_backs.1 mem
  simp [opened, back] at hc

theorem opened_of_backs (none : k.backs = []) : k.opened = k := by
  have all : k.cases.filter (!·.returned) = k.cases := by
    refine List.filter_eq_self.2 fun c hc => ?_
    by_contra back
    have mem : c.dispatch.event ∈ k.backs := mem_backs.2 ⟨c, hc, by simpa using back, rfl⟩
    rw [none] at mem
    exact List.not_mem_nil mem
  rw [opened, all]

theorem casesOf_opened (k : Docket) (id : Nat) :
    k.opened.casesOf id = (k.casesOf id).filter (!·.returned) := by
  simp only [casesOf, opened, List.filter_filter, Bool.and_comm]

theorem only_opened (only : k.casesOf id = [c]) (here : c.returned = false) :
    k.opened.casesOf id = [c] := by
  rw [casesOf_opened, only]
  simp [here]

theorem Ordered.opened (h : k.Ordered) : k.opened.Ordered := List.Pairwise.filter _ h

theorem opened_enter (k : Docket) (d : Dispatch) (n : Nat) :
    (k.enter d n).opened = k.opened.enter d n := by
  simp [Docket.opened, enter]

theorem backs_enter (k : Docket) (d : Dispatch) (n : Nat) : (k.enter d n).backs = k.backs := by
  simp [backs, enter, Case.back]

theorem put_self (only : k.casesOf id = [c]) : k.put id (some c) = k := by
  have same : k.cases.filterMap (fun c' => if c'.dispatch.id = id then some c else some c') =
      k.cases.filterMap some := by
    refine List.filterMap_congr fun c' hc' => ?_
    split
    · next own =>
      have mem := (mem_casesOf k).2 ⟨hc', own⟩
      rw [only, List.mem_singleton] at mem
      rw [mem]
    · rfl
  rw [put, same, List.filterMap_some]

theorem opened_put (only : k.casesOf id = [c]) (here : c.returned = false) (o : Option Case) :
    (k.put id o).opened = k.opened.put id (o.filter (!·.returned)) := by
  unfold Docket.opened put
  congr 1
  rw [List.filter_filterMap, List.filterMap_filter]
  refine List.filterMap_congr fun c' hc' => ?_
  split
  · next own =>
    have mem := (mem_casesOf k).2 ⟨hc', own⟩
    rw [only, List.mem_singleton] at mem
    simp [mem, here]
  · cases back : c'.returned <;> simp [back]

theorem backs_put (only : k.casesOf id = [c]) (o : Option Case) :
    ([c].filterMap Case.back ++ (k.put id o).backs).Perm (o.toList.filterMap Case.back ++ k.backs) := by
  obtain ⟨before, later, split, none, own, none'⟩ := List.filter_eq_cons_iff.1 only
  have others {cs : List Case} (ne : ∀ c' ∈ cs, c'.dispatch.id ≠ id) :
      cs.filterMap (fun c' => if c'.dispatch.id = id then o else some c') = cs := by
    rw [List.filterMap_congr (g := some) fun c' hc' => if_neg (ne c' hc'), List.filterMap_some]
  have cases : (k.put id o).cases = before ++ (o.toList ++ later) := by
    rw [put, split, List.filterMap_append, List.filterMap_cons, others (by simpa using none),
      others (by simpa using none')]
    cases o <;> simp [by simpa using own]
  rw [backs, backs, cases, split, List.perm_iff_count]
  intro e
  simp only [List.filterMap_append, List.filterMap_cons, List.count_append, List.filterMap_nil]
  cases c.back with
  | none => simp only [List.count_nil]; omega
  | some e' => simp only [List.count_cons, List.count_nil]; omega

theorem Ordered.put (h : k.Ordered) (own : c.dispatch.id = id) : (k.put id (some c)).Ordered := by
  have modified : k.modify id (fun _ => c) = k.put id (some c) := modify_eq_put k fun _ _ => rfl
  rw [← modified]
  exact (k.replaces_modify (f := fun _ => c) fun _ _ => own).ordered h

theorem returned_put_opened (own : c.dispatch.id = id) :
    ∀ c' ∈ (k.opened.put id (some c)).cases, c'.returned = true → c'.dispatch.id = id := by
  intro c' mem back
  obtain ⟨c₀, hc₀, eq⟩ := List.mem_filterMap.1 mem
  split at eq
  · cases eq
    exact own
  · cases eq
    simp [opened, back] at hc₀

theorem answer_opened (only : k.casesOf id = [c]) (here : c.returned = false) (claimed : Bool) :
    k.opened.answer id claimed = ((k.answer id claimed).1.opened, (k.answer id claimed).2) ∧
      (k.answer id claimed).1.backs.Perm k.backs := by
  have still : (c.answered claimed).returned = false := here
  rw [answer_eq_put (only_opened only here), answer_eq_put only]
  refine ⟨?_, ?_⟩
  · rw [opened_put only here]
    simp [Option.filter, still]
  · simpa [Case.back, here, still] using backs_put only (some (c.answered claimed))

theorem takeReplay_eq_none_iff : k.takeReplay e = none ↔ e ∉ k.backs := by
  rw [mem_backs]
  unfold takeReplay
  split
  · next c found =>
    have expects := List.find?_some found
    simp only [Expects, Bool.and_eq_true, beq_iff_eq] at expects
    exact iff_of_false (Option.some_ne_none _)
      (not_not.2 ⟨c, List.mem_of_find?_eq_some found, expects⟩)
  · next none =>
    simp only [List.find?_eq_none, Expects, Bool.and_eq_true, beq_iff_eq] at none
    refine iff_of_true rfl ?_
    rintro ⟨c, hc, expects⟩
    exact none c hc expects

theorem mem_backs_of_stems (stems : k.Stems k' (· = id)) (mem : e ∈ k'.backs) :
    e ∈ k.backs ∨ ∃ c ∈ k.cases, c.dispatch.id = id ∧ c.dispatch.event = e := by
  obtain ⟨c', hc', back, rfl⟩ := mem_backs.1 mem
  obtain ⟨c, hc, same, before⟩ := stems c' hc'
  rw [← same]
  rcases before back with before | own
  · exact .inl (mem_backs.2 ⟨c, hc, before, rfl⟩)
  · exact .inr ⟨c, hc, by rw [same, own], rfl⟩

end Docket

namespace Book

def opened (b : Book) : Book := { b with docket := b.docket.opened }

theorem dispatch_opened (b : Book) (layout : Layout) (e : KeyEvent) :
    b.opened.dispatch layout e = ((b.dispatch layout e).1.opened, (b.dispatch layout e).2) := by
  have resolved : b.opened.resolve layout e =
      ((b.resolve layout e).1.opened, (b.resolve layout e).2) := by
    simp only [resolve, opened]
    split <;> rfl
  unfold dispatch
  rw [resolved]
  simp only [opened, Docket.opened]
  split
  · rfl
  · split <;> rfl

end Book

/-! ## Twin states -/

/-- The journal without the replays. -/
def Journal.told (j : Journal) : Journal := j.filter (·.entry.replay?.isNone)

/-- The scene in which the host delivers an event that is handed back at once, and does no more. -/
def Scene.inlined (sc : Scene) : Scene :=
  { sc with redispatch := .inline 0, hooks := [⟨0, [.replay]⟩] }

/-- One arbiter, whose responders make no calls of their own, and a host that queues. -/
structure Scene.Lone (sc : Scene) : Prop where
  one : sc.setups.length = 1
  alive : sc.isAlive 0
  calm : ∀ r ∈ sc.responders 0, r.Calm
  queues : sc.redispatch = .queue

theorem Scene.Lone.defers {sc : Scene} (lone : sc.Lone) : sc.Defers := by
  intro h
  rw [lone.queues]
  nofun

theorem Scene.Lone.eq_zero {sc : Scene} (lone : sc.Lone) {a : ArbiterId} (alive : sc.isAlive a) :
    a = 0 := by
  have lt := lt_of_isAlive alive
  rw [lone.one] at lt
  exact Nat.lt_one_iff.1 lt

namespace State

/-- The state without all that has to do with events on their way back. -/
def gist (st : State) : State :=
  { st with books := [], budgets := [], queue := [], inlineReplays := [], journal := st.journal.told }

variable {x y : State}

theorem gist_add (same : x.gist = y.gist) (g : Gift) : (x.add g).gist = (y.add g).gist := by
  have told (st : State) : (st.add g).gist = st.gist.add { g with journal := g.journal.told } := by
    simp only [gist, add, Journal.told, ← List.filter_append]
  rw [told, told, same]

theorem gist_note (same : x.gist = y.gist) (a : ArbiterId) (entry : Entry) :
    (x.note a entry).gist = (y.note a entry).gist := by
  rw [note_eq_add, note_eq_add]
  exact gist_add same _

end State

/-- Events come back to the one state at once, and wait in the queue of the other. These came back
before. -/
structure Twin (came : List (KeyEvent × Bool)) (x y : State) : Prop where
  gist : x.gist = y.gist
  book : x.book 0 = (y.book 0).opened
  queue : x.queue = []
  replays : x.inlineReplays = came ++ y.queue.map (·, false)
  backs : (y.book 0).docket.backs.Perm y.queue

namespace Twin

variable {came : List (KeyEvent × Bool)} {x y : State}

theorem add (twin : Twin came x y) (g : Gift) : Twin came (x.add g) (y.add g) :=
  ⟨State.gist_add twin.gist g, twin.book, twin.queue, twin.replays, twin.backs⟩

theorem note (twin : Twin came x y) (a : ArbiterId) (entry : Entry) :
    Twin came (x.note a entry) (y.note a entry) :=
  ⟨State.gist_note twin.gist a entry, twin.book, twin.queue, twin.replays, twin.backs⟩

theorem change (twin : Twin came x y) (f : State → State) (gist : ∀ st, (f st).gist = f st.gist)
    (still : ∀ st, (f st).books = st.books ∧ (f st).queue = st.queue ∧
      (f st).inlineReplays = st.inlineReplays) : Twin came (f x) (f y) := by
  have book (st : State) : (f st).book 0 = st.book 0 := by rw [State.book, (still st).1]; rfl
  refine ⟨by rw [gist, gist, twin.gist], by rw [book, book, twin.book], ?_, ?_, ?_⟩
  · rw [(still x).2.1, twin.queue]
  · rw [(still x).2.2, (still y).2.1, twin.replays]
  · rw [book, (still y).2.1]
    exact twin.backs

theorem heldKeys (twin : Twin came x y) : (x.book 0).held = (y.book 0).held := by
  rw [twin.book]
  rfl

theorem setBook (twin : Twin came x y) {b : Book} (backs : b.docket.backs.Perm (y.book 0).docket.backs) :
    Twin came (x.setBook 0 b.opened) (y.setBook 0 b) := by
  refine ⟨twin.gist, ?_, twin.queue, twin.replays, ?_⟩
  · rw [State.book_setBook, State.book_setBook]
  · rw [State.book_setBook]
    exact backs.trans twin.backs

theorem gives (twin : Twin came x y) {owner : Option Ticket} {call : State → Progress}
    (gives : State.Gives owner call) :
    Twin came (call x).1 (call y).1 ∧ (call x).2 = (call y).2 ∧
      ∀ t ∈ (call y).2, ∃ ticket ∈ owner, ∃ answer, t = .deliver ticket answer := by
  obtain ⟨g, tasks, answers, adds⟩ := gives
  rw [adds, adds]
  exact ⟨twin.add g, rfl, answers⟩

end Twin

/-! ## Settling -/

section Settle

variable {sc : Scene} {came : List (KeyEvent × Bool)} {x y : State} {c : Case}

theorem Book.settle_of_casesOf {b : Book} (only : b.docket.casesOf c.dispatch.id = [c])
    (here : c.returned = false) (claimed : Bool) :
    b.settle c.dispatch claimed =
      (⟨b.docket.put c.dispatch.id (if claimed then none else some { c with returned := true }),
        if c.dispatch.transition == .up then
          b.held.finishRelease c.dispatch.physical c.dispatch.id else b.held, b.known⟩,
        if claimed then none else some c.dispatch.event) :=
  settle_put (Docket.put_self only).symm only here claimed

theorem Twin.consult (twin : Twin came x y) (sc : Scene) (d : Dispatch) (claimed : Bool) :
    Twin came (x.consult sc.inlined 0 d claimed).1 (y.consult sc 0 d claimed).1 ∧
      (x.consult sc.inlined 0 d claimed).2 = (y.consult sc 0 d claimed).2 := by
  have asked := twin.change (fun st => { st with filterCalls := st.filterCalls + 1 })
    (fun _ => rfl) fun _ => ⟨rfl, rfl, rfl⟩
  have same : x.consult sc.inlined 0 d claimed = x.consult sc 0 d claimed := rfl
  rw [same]
  unfold State.consult
  split
  · exact ⟨asked.note 0 _, rfl⟩
  · exact ⟨twin, rfl⟩

theorem State.arrive_returned (st : State) {a : ArbiterId} (ordered : (st.book a).docket.Ordered)
    (mem : c ∈ (st.book a).docket.cases) (back : c.returned = true)
    (only : ∀ c' ∈ (st.book a).docket.cases, c'.returned = true → c'.dispatch.id = c.dispatch.id) :
    st.arrive sc a c.dispatch.event =
      ({ st.setBook a { st.book a with docket := (st.book a).docket.close c.dispatch.id } with
          journal := ⟨a, .replayed c.dispatch.id c.dispatch.event⟩ :: st.journal }, [], false) := by
  have replay : (st.arrive sc a c.dispatch.event).2.2 = false := by
    rw [arrive_replay_iff, List.countP_pos_iff]
    exact ⟨c, mem, by simp [Docket.Expects, back]⟩
  obtain ⟨before, c', later, split, expects, -, arrived⟩ := arrive_of_replay ordered replay
  have mem' : c' ∈ (st.book a).docket.cases := by simp [split]
  have own := only c' mem' (by simpa [Docket.Expects] using And.left (Bool.and_eq_true_iff.1 expects))
  rw [arrived, ← Docket.close_of_split ordered split, own]

theorem State.run_inline (st after : State) (alive : sc.isAlive 0) {e : KeyEvent}
    (arrived : ∀ budgets, { st with budgets }.arrive sc.inlined 0 e = ({ after with budgets }, [], false))
    (same : after.inlineReplays = st.inlineReplays) :
    ∃ budgets, ∀ rest, run sc.inlined (st.redispatch sc.inlined e).1
        ((st.redispatch sc.inlined e).2.1 ++ rest) =
      run sc.inlined { after with budgets, inlineReplays := st.inlineReplays ++ [(e, false)] } rest := by
  have hook : sc.inlined.hook 0 = ⟨0, [.replay]⟩ := rfl
  have called : st.redispatch sc.inlined e =
      ((st.callHook sc.inlined 0 e .inline).1, (st.callHook sc.inlined 0 e .inline).2, true) := rfl
  have alive' : sc.inlined.isAlive 0 = true := alive
  have done (budgets : List Nat) (rest : List Task) :
      run sc.inlined { after with budgets } (.act 0 e [] false .inline :: rest) =
        run sc.inlined { after with budgets, inlineReplays := st.inlineReplays ++ [(e, false)] }
          rest := by
    rw [run]
    simp only [step, same, List.nil_append]
  rw [called]
  unfold callHook
  simp only [hook, alive', if_true]
  cases st.budget 0 with
  | succ n =>
    refine ⟨st.budgets.set 0 n, fun rest => ?_⟩
    rw [← done, List.singleton_append, run]
    simp only [step, act, hook, arrived, andThen, List.nil_append, List.singleton_append]
  | zero =>
    refine ⟨st.budgets, fun rest => ?_⟩
    have arrived := arrived st.budgets
    rw [← done]
    simp only [arrived, List.nil_append, List.singleton_append]

/-- An event that is handed back comes back to the one, and is queued by the other. -/
theorem Twin.handBack (lone : sc.Lone) (twin : Twin came x y) (ordered : (y.book 0).docket.Ordered)
    (only : (y.book 0).docket.casesOf c.dispatch.id = [c]) (here : c.returned = false) :
    let e := c.dispatch.event
    let x₁ := (x.resolve 0 c.dispatch false).note 0 (.handedBack c.dispatch.id e)
    let y₁ := (y.resolve 0 c.dispatch false).note 0 (.handedBack c.dispatch.id e)
    ∃ x', Twin came x' { y₁ with queue := y.queue ++ [e] } ∧
      ∀ rest, run sc.inlined (x₁.redispatch sc.inlined e).1
          ((x₁.redispatch sc.inlined e).2.1 ++ rest) =
        run sc.inlined x' rest := by
  intro e x₁ y₁
  have only' := Docket.only_opened only here
  have book : y₁.book 0 = ((y.book 0).settle c.dispatch false).1 := State.book_setBook ..
  have book' : x₁.book 0 = ((x.book 0).settle c.dispatch false).1 := State.book_setBook ..
  rw [Book.settle_of_casesOf only here] at book
  rw [twin.book, Book.settle_of_casesOf (b := (y.book 0).opened) only' here] at book'
  simp only [Bool.false_eq_true, if_false, Book.opened] at book book'
  -- What comes back finds its case, and no other that was given back.
  let ret : Case := { c with returned := true }
  have own : ret.dispatch.id = c.dispatch.id := rfl
  have replaced := (y.book 0).docket.opened.put_put own none
  let after : State :=
    { x₁.setBook 0 { x₁.book 0 with docket := (x₁.book 0).docket.close c.dispatch.id } with
      journal := ⟨0, .replayed c.dispatch.id e⟩ :: x₁.journal }
  have arrived (budgets : List Nat) :
      { x₁ with budgets }.arrive sc.inlined 0 e = ({ after with budgets }, [], false) := by
    refine State.arrive_returned (c := ret) { x₁ with budgets } ?_ ?_ rfl ?_
    · change (x₁.book 0).docket.Ordered
      rw [book']
      exact ordered.opened.put own
    · change ret ∈ (x₁.book 0).docket.cases
      rw [book']
      have mine := Docket.casesOf_put_self _ only' (o := some ret) (by simpa using own)
      have mem : ret ∈ ((y.book 0).docket.opened.put c.dispatch.id (some ret)).casesOf
          c.dispatch.id := by
        rw [mine]
        exact List.mem_singleton_self _
      exact ((Docket.mem_casesOf _).1 mem).1
    · change ∀ c' ∈ (x₁.book 0).docket.cases, _
      rw [book']
      exact Docket.returned_put_opened own
  obtain ⟨budgets, ran⟩ := x₁.run_inline after lone.alive arrived rfl
  refine ⟨_, ⟨?_, ?_, ?_, ?_, ?_⟩, ran⟩
  · have noted : x₁.gist = y₁.gist := State.gist_note (State.gist_note twin.gist _ _) _ _
    exact noted
  · have closed : after.book 0 =
        { x₁.book 0 with docket := (x₁.book 0).docket.close c.dispatch.id } := State.book_setBook ..
    change after.book 0 = (y₁.book 0).opened
    rw [closed, book, book', Docket.close_eq_put, replaced]
    simp only [Book.opened, Docket.opened_put only here]
    rfl
  · exact twin.queue
  · change x.inlineReplays ++ [(e, false)] = came ++ (y.queue ++ [e]).map (·, false)
    rw [twin.replays, List.map_append, List.append_assoc]
    rfl
  · change (y₁.book 0).docket.backs.Perm (y.queue ++ [e])
    have backs : ((y.book 0).docket.put c.dispatch.id (some ret)).backs.Perm
        (e :: (y.book 0).docket.backs) := by
      simpa [Case.back, here, ret] using Docket.backs_put only (some ret)
    rw [book]
    exact (backs.trans (twin.backs.cons e)).trans (List.perm_append_singleton e y.queue).symm

theorem Twin.conclude (lone : sc.Lone) (twin : Twin came x y) (ordered : (y.book 0).docket.Ordered)
    (only : (y.book 0).docket.casesOf c.dispatch.id = [c]) (here : c.returned = false)
    (claimed : Bool) :
    ∃ x' y', y.conclude sc 0 c.dispatch claimed = (y', []) ∧ Twin came x' y' ∧
      y'.book 0 = ((y.book 0).settle c.dispatch claimed).1 ∧
      ∀ rest, run sc.inlined (x.conclude sc.inlined 0 c.dispatch claimed).1
          ((x.conclude sc.inlined 0 c.dispatch claimed).2 ++ rest) = run sc.inlined x' rest := by
  have settled := Book.settle_of_casesOf only here claimed
  have settled' := Book.settle_of_casesOf (b := (y.book 0).opened) (Docket.only_opened only here)
    here claimed
  rw [← twin.book] at settled'
  have back : ((y.book 0).settle c.dispatch claimed).2 =
      if claimed then none else some c.dispatch.event := by rw [settled]
  have back' : ((x.book 0).settle c.dispatch claimed).2 =
      if claimed then none else some c.dispatch.event := by rw [settled']
  rw [State.conclude_eq, State.conclude_eq, back, back']
  cases claimed with
  | true =>
    refine ⟨_, _, rfl, ?_, State.book_setBook .., fun rest => rfl⟩
    have backs : ((y.book 0).docket.put c.dispatch.id none).backs.Perm (y.book 0).docket.backs := by
      simpa [Case.back, here] using Docket.backs_put only none
    have closed : ((x.book 0).settle c.dispatch true).1 =
        ((y.book 0).settle c.dispatch true).1.opened := by
      rw [settled, settled', twin.book]
      simp only [if_true, Book.opened, Docket.opened_put only here]
      rfl
    unfold State.resolve
    rw [closed]
    refine (twin.setBook ?_).note 0 _
    rw [settled]
    exact backs
  | false =>
    obtain ⟨x', twin', ran⟩ := twin.handBack lone ordered only here
    have taken : sc.refuses c.dispatch.event = false := by
      rw [Scene.refuses, lone.queues]
    have taken' : sc.inlined.refuses c.dispatch.event = false := rfl
    simp only [Bool.false_eq_true, if_false, State.handBack_eq, taken, taken',
      State.redispatch_deferred lone.defers taken]
    exact ⟨x', _, rfl, twin', State.book_setBook .., ran⟩

end Settle

/-! ## One step -/

def Task.For (id : Nat) : Task → Prop
  | .offer _ d responders => d.id = id ∧ ∀ r ∈ responders, r.Calm
  | .deliver t _ => t.id = id
  | .settle a d _ => a = 0 ∧ d.id = id
  | .act .. | .feed .. => False

section Step

variable {sc : Scene} {came : List (KeyEvent × Bool)} {x y : State} {id : Nat} {D : Multiset Duty}

/-- What a task for an event does on both sides: the first may take more steps than the second. -/
structure Twin.Steps (sc : Scene) (came : List (KeyEvent × Bool)) (id : Nat) (x y : State)
    (t : Task) : Prop where
  twin : ∃ x', Twin came x' (y.step sc t).1 ∧
    ∀ rest, run sc.inlined x (t :: rest) = run sc.inlined x' ((y.step sc t).2 ++ rest)
  tasks : ∀ t' ∈ (y.step sc t).2, t'.For id
  stems : (y.book 0).docket.Stems ((y.step sc t).1.book 0).docket (· = id)

theorem State.offer_inlined (st : State) (a : ArbiterId) (d : Dispatch) {r : Responder}
    (calm : r.Calm) : st.offer sc.inlined a d r = st.offer sc a d r := by
  rcases r with _ | _ | _ | _ | _ | _ | h
  case reenter => exact calm.elim
  all_goals rfl

theorem Twin.step_deliver (lone : sc.Lone) (twin : Twin came x y) {t : Ticket} (own : t.id = id)
    (waits : t.arbiter = 0 →
      ∃ c, (y.book 0).docket.casesOf t.id = [c] ∧ c.returned = false) (answer : Delivery) :
    Twin.Steps sc came id x y (.deliver t answer) := by
  have noted := twin.note t.arbiter (answer.entry t.responder t.id)
  have same : x.step sc.inlined (.deliver t answer) = x.step sc (.deliver t answer) := rfl
  suffices h : Twin came (x.deliver sc t answer).1 (y.deliver sc t answer).1 ∧
      (x.deliver sc t answer).2 = (y.deliver sc t answer).2 ∧
      (∀ t' ∈ (y.deliver sc t answer).2, t'.For id) ∧
      (y.book 0).docket.Stems ((y.deliver sc t answer).1.book 0).docket (· = id) by
    refine ⟨⟨_, h.1, fun rest => ?_⟩, h.2.2.1, h.2.2.2⟩
    rw [run, same]
    simp only [State.step, h.2.1]
  obtain ⟨a, who, n⟩ := t
  obtain rfl : n = id := own
  rw [State.deliver_eq, State.deliver_eq]
  by_cases alive : sc.isAlive a
  · obtain rfl := lone.eq_zero alive
    obtain ⟨c, only, here⟩ := waits rfl
    obtain ⟨answered, backs⟩ := Docket.answer_opened only here answer.claimed
    have stems : (y.book 0).docket.Stems ((y.book 0).docket.answer n answer.claimed).1 (· = n) :=
      (y.book 0).docket.stems_answer n answer.claimed
    simp only [alive, if_true]
    rw [State.book_note, State.book_note, twin.book]
    simp only [Book.opened, answered]
    rcases eq : (y.book 0).docket.answer n answer.claimed with ⟨docket, verdict⟩
    rw [eq] at backs stems
    have turned := noted.setBook (b := ⟨docket, (y.book 0).held, (y.book 0).known⟩) backs
    cases verdict with
    | untracked => exact ⟨turned, rfl, by simp, by simpa using stems⟩
    | waiting n => exact ⟨turned.note 0 _, rfl, by simp, by simpa using stems⟩
    | complete claimed d =>
      exact ⟨turned, rfl, by simp [Task.For, Docket.id_of_complete eq], by simpa using stems⟩
  · simp only [alive, Bool.false_eq_true, if_false]
    exact ⟨noted.note _ _, trivial, by simp, Docket.stems_refl _⟩

theorem Twin.step_settle (lone : sc.Lone) (twin : Twin came x y)
    (ordered : (y.book 0).docket.Ordered) {d : Dispatch} (own : d.id = id) {claimed : Bool}
    (waits : (y.book 0).docket.casesOf d.id = [⟨d, 0, claimed, false⟩]) :
    Twin.Steps sc came id x y (.settle 0 d claimed) := by
  obtain ⟨asked, verdict⟩ := twin.consult sc d claimed
  have book : (y.consult sc 0 d claimed).1.book 0 = y.book 0 := by
    unfold State.consult
    split <;> rfl
  rw [← book] at ordered waits
  obtain ⟨x', y', concluded, twin', left, ran⟩ := asked.conclude (c := ⟨d, 0, claimed, false⟩) lone
    ordered waits rfl (y.consult sc 0 d claimed).2
  have stepped : y.step sc (.settle 0 d claimed) = (y', []) := concluded
  refine ⟨⟨x', by rw [stepped]; exact twin', fun rest => ?_⟩, by simp [stepped], ?_⟩
  · rw [run, stepped, List.nil_append, ← ran rest, ← verdict]
    rfl
  · rw [stepped, left, book, ← own]
    exact (y.book 0).stems_settle d _

theorem Twin.step_offer (twin : Twin came x y) (a : ArbiterId) {d : Dispatch} (own : d.id = id)
    {r : Responder} {rs : List Responder} (calm : ∀ r' ∈ r :: rs, r'.Calm) :
    Twin.Steps sc came id x y (.offer a d (r :: rs)) := by
  have here := calm r (List.mem_cons_self ..)
  have gives := (State.gives_offer sc a d here).note a (.offered d.id r.kind)
  obtain ⟨after, tasks, answers⟩ := twin.gives gives
  have same : x.step sc.inlined (.offer a d (r :: rs)) = x.step sc (.offer a d (r :: rs)) := by
    simp only [State.step, State.offer_inlined _ _ _ here]
  refine ⟨⟨_, after, fun rest => ?_⟩, ?_, ?_⟩
  · rw [run, same]
    simp only [State.step, tasks]
  · intro t ht
    simp only [State.step] at ht
    rcases List.mem_append.1 ht with ht | ht
    · obtain ⟨ticket, mine, answer, rfl⟩ := answers t ht
      cases mine
      exact own
    · obtain rfl := List.mem_singleton.1 ht
      exact ⟨own, fun r' hr' => calm r' (List.mem_cons_of_mem _ hr')⟩
  · obtain ⟨g, tasks, -, adds⟩ := gives
    simp only [State.step, adds]
    exact Docket.stems_refl _

theorem State.owed_of_ticket {t : Ticket} (mine : t.arbiter = 0) :
    (y.desk 0 (t.duties 0 + D)).duties = .ticket t.id ::ₘ (y.duties 0 + D) := by
  simp [desk, Ticket.duties, mine]

/-- Every task for an event is followed, if what is owed for it is. -/
theorem Twin.step (lone : sc.Lone) (twin : Twin came x y) {t : Task} (own : t.For id)
    (sound : Sound (sc.setup 0) (y.desk 0 (t.duties 0 + D))) : Twin.Steps sc came id x y t := by
  match t with
  | .offer _ _ [] =>
    refine ⟨⟨x, twin, fun rest => ?_⟩, by simp [State.step], Docket.stems_refl _⟩
    rw [run]
    rfl
  | .offer a d (r :: rs) => exact twin.step_offer a own.1 own.2
  | .deliver t answer =>
    refine twin.step_deliver lone own (fun mine => ?_) answer
    have owed : (y.desk 0 (t.duties 0 + D)).duties = .ticket t.id ::ₘ (y.duties 0 + D) :=
      State.owed_of_ticket mine
    obtain ⟨d, rs, k, claimed, -, cases, -⟩ :=
      (sound.stage t.id).of_ticket (Sound.duties_dossier owed)
    exact ⟨_, cases, rfl⟩
  | .settle a d claimed =>
    obtain ⟨rfl, same⟩ := own
    have owed : (y.desk 0 ((Task.settle 0 d claimed).duties 0 + D)).duties =
        .settle d claimed ::ₘ (y.duties 0 + D) := by
      simp [State.desk, Task.duties]
    obtain ⟨-, cases, -⟩ := (sound.stage d.id).of_settle (Sound.duties_dossier owed)
    exact twin.step_settle lone sound.ordered same cases

end Step

/-! ## Runs -/

section Run

variable {sc : Scene} {came : List (KeyEvent × Bool)} {x y : State} {id : Nat} {D : Multiset Duty}

theorem Sound.runs (alive : sc.isAlive 0) {tasks : List Task} (aimed : ∀ t ∈ tasks, t.Aimed sc)
    (sound : Sound (sc.setup 0) (y.desk 0 (taskDuties 0 tasks + D))) :
    Sound (sc.setup 0) ((run sc y tasks).desk 0 D) :=
  (course_run y aimed D).preserves (fun step sound => sound.change alive step) sound

theorem Task.For.aimed {t : Task} (own : t.For id) : t.Aimed sc := by
  cases t with
  | act | feed => exact own.elim
  | _ => trivial

theorem Twin.runs (lone : sc.Lone) (twin : Twin came x y) {tasks : List Task}
    (own : ∀ t ∈ tasks, t.For id)
    (sound : Sound (sc.setup 0) (y.desk 0 (taskDuties 0 tasks + D))) :
    Twin came (run sc.inlined x tasks) (run sc y tasks) ∧
      (y.book 0).docket.Stems ((run sc y tasks).book 0).docket (· = id) := by
  fun_induction run sc y tasks generalizing x with
  | case1 y =>
    rw [run]
    exact ⟨twin, Docket.stems_refl _⟩
  | case2 y t rest ih =>
    rw [taskDuties_cons, add_assoc] at sound
    have here := own t (List.mem_cons_self ..)
    obtain ⟨⟨x', twin', ran⟩, tasks, stems⟩ := twin.step lone here sound
    have lands := State.lands_step (a := 0) sc y (taskDuties 0 rest + D) here.aimed
    have next := lands.course.preserves (fun step sound => sound.change lone.alive step) sound
    have own' : ∀ t' ∈ (y.step sc t).2 ++ rest, t'.For id := by
      intro t' ht'
      rcases List.mem_append.1 ht' with ht' | ht'
      · exact tasks t' ht'
      · exact own t' (List.mem_cons_of_mem _ ht')
    obtain ⟨last, more⟩ := ih twin' own' (by rw [taskDuties_append, add_assoc]; exact next)
    rw [ran rest]
    exact ⟨last, stems.trans more⟩

/-! ### Events that are fresh on both sides -/

theorem Twin.turn (twin : Twin came x y) (sc : Scene) {b : Book}
    (backs : b.docket.backs.Perm (y.book 0).docket.backs) (asked : Bool) :
    Twin came (x.turn sc.inlined 0 b.opened asked) (y.turn sc 0 b asked) :=
  (twin.setBook backs).change
    (fun st => { st with lookups := st.lookups + State.queries sc 0 asked })
    (fun _ => rfl) fun _ => ⟨rfl, rfl, rfl⟩

theorem Twin.arrive (lone : sc.Lone) (twin : Twin came x y) {e : KeyEvent}
    (fresh : e ∉ (y.book 0).docket.backs) :
    ∃ d x' y' tasks, d.event = e ∧ x.arrive sc.inlined 0 e = (x', tasks, true) ∧
      y.arrive sc 0 e = (y', tasks, true) ∧ Twin came x' y' ∧ (∀ t ∈ tasks, t.For d.id) ∧
      d.id = (y.book 0).docket.lastId + 1 ∧
      (y'.book 0).docket = (y.book 0).docket.enter d (sc.responders 0).length := by
  obtain ⟨docket, next, event⟩ := (y.book 0).dispatch_spec (sc.layout 0) e
  have arrived := Book.arrive_of_unexpected (Docket.takeReplay_eq_none_iff.2 fresh) (sc.layout 0)
    (sc.responders 0).length
  have none : (y.book 0).opened.docket.takeReplay e = none := by
    rw [Docket.takeReplay_eq_none_iff]
    simp [Book.opened, Docket.backs_opened]
  have arrived' := Book.arrive_of_unexpected none (sc.layout 0) (sc.responders 0).length
  rw [Book.dispatch_opened] at arrived'
  have same : (x.book 0).arrive (sc.inlined.layout 0) (sc.inlined.responders 0).length e =
      (x.book 0).arrive (sc.layout 0) (sc.responders 0).length e := rfl
  generalize (y.book 0).dispatch (sc.layout 0) e = r at docket next event arrived arrived'
  obtain ⟨b, d, asked⟩ := r
  simp only at docket next event arrived arrived'
  rw [State.arrive_eq, State.arrive_eq, same, twin.book, arrived, arrived']
  have turned := twin.turn sc
    (b := ⟨b.docket.enter d (sc.responders 0).length, b.held, b.known⟩)
    (by rw [Docket.backs_enter, docket]) asked
  have opened : Book.opened ⟨b.docket.enter d (sc.responders 0).length, b.held, b.known⟩ =
      ⟨b.opened.docket.enter d (sc.responders 0).length, b.held, b.known⟩ := by
    simp only [Book.opened, Docket.opened_enter]
  rw [opened] at turned
  refine ⟨d, _, _, _, event, rfl, rfl, turned.note 0 _, ?_, next, ?_⟩
  · intro t ht
    obtain rfl := List.mem_singleton.1 ht
    split
    · exact ⟨rfl, rfl⟩
    · exact ⟨rfl, lone.calm⟩
  · rw [← docket]
    exact congrArg Book.docket (State.book_setBook ..)

end Run

end KeyArbiter
