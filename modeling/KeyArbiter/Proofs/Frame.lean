import KeyArbiter.Proofs.Calm
import KeyArbiter.Proofs.History
import Mathlib

/-!
# What a run leaves alone

A run is a course of changes on every desk. Nothing in it looks at what the host or a responder
keeps from before, so nobody answers in it for an event that is older than the run.
-/

namespace KeyArbiter

/-! ## A run is a course -/

theorem course_run {sc : Scene} (st : State) {tasks : List Task} {a : ArbiterId}
    (aimed : ∀ t ∈ tasks, t.Aimed sc) (D : Multiset Duty) :
    Course (sc.setup a) (sc.Consults a) (st.desk a (taskDuties a tasks + D))
      ((run sc st tasks).desk a D) := by
  fun_induction run sc st tasks with
  | case1 st =>
    rw [taskDuties_nil, zero_add]
  | case2 st t rest ih =>
    have lands := State.lands_step (a := a) sc st (taskDuties a rest + D)
      (aimed t (List.mem_cons_self ..))
    have course := lands.course
    rw [taskDuties_cons, add_assoc]
    rw [taskDuties_append, add_assoc] at ih
    refine course.trans (ih fun t' ht => ?_)
    rcases List.mem_append.1 ht with ht | ht
    · exact lands.aimed t' ht
    · exact aimed t' (List.mem_cons_of_mem _ ht)

/-! ## What is kept from before is not looked at -/

namespace State

/-- The state without the open calls of the host and the open responses. -/
def bare (st : State) : State := { st with records := [], held := [] }

structure Same (p q : Progress) : Prop where
  state : p.1.bare = q.1.bare
  tasks : p.2 = q.2

namespace Same

variable {p q r : Progress}

theorem symm (h : Same p q) : Same q p := ⟨h.state.symm, h.tasks.symm⟩

theorem trans (h : Same p q) (h' : Same q r) : Same p r :=
  ⟨h.state.trans h'.state, h.tasks.trans h'.tasks⟩

theorem append (h : Same p q) (tasks : List Task) : Same (p.1, p.2 ++ tasks) (q.1, q.2 ++ tasks) :=
  ⟨h.state, by rw [h.tasks]⟩

end Same

/-- A call that does not look at what is kept open. -/
def Blind (call : State → Progress) : Prop := ∀ st, Same (call st.bare) (call st)

namespace Blind

variable {call : State → Progress}

theorem congr (blind : Blind call) {st st' : State} (same : st.bare = st'.bare) :
    Same (call st) (call st') := by
  refine (blind st).symm.trans ?_
  rw [same]
  exact blind st'

theorem comp (blind : Blind call) {first : State → State}
    (same : ∀ st, (first st.bare).bare = (first st).bare) : Blind fun st => call (first st) :=
  fun st => blind.congr (same st)

theorem append (blind : Blind call) (tasks : List Task) :
    Blind fun st => ((call st).1, (call st).2 ++ tasks) :=
  fun st => (blind st).append tasks

end Blind

variable (sc : Scene)

theorem Gives.blind {owner : Option Ticket} {call : State → Progress} (gives : Gives owner call) :
    Blind call := by
  obtain ⟨g, tasks, -, adds⟩ := gives
  intro st
  rw [adds, adds]
  exact ⟨rfl, rfl⟩

theorem arrive_bare (st : State) (a : ArbiterId) (e : KeyEvent) :
    (st.bare.arrive sc a e).1.bare = (st.arrive sc a e).1.bare ∧
      (st.bare.arrive sc a e).2 = (st.arrive sc a e).2 := by
  have book : st.bare.book a = st.book a := rfl
  rw [arrive_eq, arrive_eq, book]
  generalize (st.book a).arrive (sc.layout a) (sc.responders a).length e = r
  obtain ⟨after, id | d, asked⟩ := r <;> exact ⟨rfl, rfl⟩

theorem blind_andThen (a : ArbiterId) (e : KeyEvent) (rest : Bool → List Task) :
    Blind fun st => andThen (st.arrive sc a e) rest := by
  intro st
  obtain ⟨state, tasks⟩ := arrive_bare sc st a e
  exact ⟨state, by simp only [andThen, tasks]⟩

theorem blind_sync (a : ArbiterId) (modifiers : Modifiers) (time : UInt32) :
    Blind (·.sync a modifiers time) := by
  intro st
  have book : st.bare.book a = st.book a := rfl
  simp only [sync, book]
  split <;> exact ⟨rfl, rfl⟩

theorem blind_callHook (h : HookId) (e : KeyEvent) (outlet : Outlet) :
    Blind (·.callHook sc h e outlet) := by
  intro st
  have budget : st.bare.budget h = st.budget h := rfl
  simp only [callHook, budget]
  split
  · split
    · exact ⟨rfl, rfl⟩
    · split
      · exact ⟨rfl, rfl⟩
      · exact blind_andThen sc _ e (fun value => [.act h e [] value .inline]) st
  · exact ⟨rfl, rfl⟩

theorem redispatch_bare (st : State) (e : KeyEvent) :
    (st.bare.redispatch sc e).1.bare = (st.redispatch sc e).1.bare ∧
      (st.bare.redispatch sc e).2 = (st.redispatch sc e).2 := by
  simp only [redispatch]
  split
  · exact ⟨rfl, rfl⟩
  · exact ⟨rfl, rfl⟩
  · split <;> exact ⟨rfl, rfl⟩
  · obtain ⟨state, tasks⟩ := blind_callHook sc ‹HookId› e .inline st
    exact ⟨state, by rw [tasks]⟩

theorem blind_handBack (a : ArbiterId) (id : Nat) (e : KeyEvent) : Blind (·.handBack sc a id e) := by
  intro st
  have book : st.bare.book a = st.book a := rfl
  obtain ⟨state, tasks⟩ := redispatch_bare sc st e
  simp only [handBack_eq, book]
  split
  · exact ⟨rfl, rfl⟩
  · exact ⟨state, by rw [tasks]⟩

theorem blind_offer (a : ArbiterId) (d : Dispatch) (r : Responder) : Blind (·.offer sc a d r) := by
  by_cases calm : r.Calm
  · exact (gives_offer sc a d calm).blind
  · obtain ⟨h, rfl⟩ := r.eq_reenter calm
    exact (blind_callHook sc h _ _).comp fun st => rfl

theorem blind_deliver (t : Ticket) (answer : Delivery) : Blind (·.deliver sc t answer) := by
  intro st
  have book (x : Entry) : (st.bare.note t.arbiter x).book t.arbiter =
      (st.note t.arbiter x).book t.arbiter := rfl
  simp only [deliver_eq, book]
  split
  · split <;> exact ⟨rfl, rfl⟩
  · exact ⟨rfl, rfl⟩

theorem blind_conclude (a : ArbiterId) (d : Dispatch) (claimed : Bool) :
    Blind (·.conclude sc a d claimed) := by
  intro st
  have book : st.bare.book a = st.book a := rfl
  simp only [conclude_eq, book]
  split
  · exact ⟨rfl, rfl⟩
  · exact (blind_handBack sc a d.id _).congr rfl

theorem blind_settle (a : ArbiterId) (d : Dispatch) (claimed : Bool) :
    Blind (·.settle sc a d claimed) := by
  intro st
  unfold settle consult
  split <;> exact (blind_conclude sc a d _).congr rfl

theorem blind_act (h : HookId) (e : KeyEvent) (value : Bool) (rest : Bool → List Task)
    (action : Action) : Blind (·.act sc h e value rest action) := by
  cases action with
  | replay => exact blind_andThen sc _ _ rest
  | restamp => exact blind_andThen sc _ _ rest
  | event => exact blind_andThen sc _ _ rest
  | answer => exact fun st => ⟨rfl, rfl⟩
  | sync modifiers time => exact (blind_sync _ modifiers time).append (rest value)

theorem blind_step (t : Task) : Blind (·.step sc t) := by
  match t with
  | .offer _ _ [] => exact fun st => ⟨rfl, rfl⟩
  | .offer a d (r :: rs) =>
    exact ((blind_offer sc a d r).comp fun st => rfl).append [.offer a d rs]
  | .deliver t answer => exact blind_deliver sc t answer
  | .settle a d claimed => exact blind_settle sc a d claimed
  | .act h e (action :: actions) value outlet => exact blind_act sc h e value _ action
  | .act _ _ [] value (.answer t) => exact fun st => ⟨rfl, rfl⟩
  | .act _ e [] value .inline => exact fun st => ⟨rfl, rfl⟩
  | .feed _ [] => exact fun st => ⟨rfl, rfl⟩
  | .feed a (e :: es) => exact blind_andThen sc a e fun _ => [.feed a es]

end State

theorem bare_run {sc : Scene} {st st' : State} (tasks : List Task) (same : st.bare = st'.bare) :
    (run sc st tasks).bare = (run sc st' tasks).bare := by
  fun_induction run sc st tasks generalizing st' with
  | case1 st =>
    rw [run]
    exact same
  | case2 st t rest ih =>
    obtain ⟨state, left⟩ := (State.blind_step sc t).congr same
    rw [run.eq_2 sc st', ← left]
    exact ih state

/-- The book and the journal that a run leaves come about by changes from a desk where nothing is
owed but what the run began with. -/
theorem course_run_bare {sc : Scene} (st : State) {tasks : List Task} {a : ArbiterId}
    (aimed : ∀ t ∈ tasks, t.Aimed sc) :
    ∃ duties, Course (sc.setup a) (sc.Consults a)
      ⟨st.book a, st.journal.about a, taskDuties a tasks⟩
      ⟨(run sc st tasks).book a, (run sc st tasks).journal.about a, duties⟩ := by
  have course := course_run (a := a) st.bare aimed 0
  have same : (run sc st.bare tasks).bare = (run sc st tasks).bare := bare_run tasks rfl
  have book : (run sc st.bare tasks).book a = (run sc st tasks).book a :=
    congrArg (·.book a) same
  have journal : (run sc st.bare tasks).journal = (run sc st tasks).journal :=
    congrArg (·.journal) same
  have start : st.bare.desk a (taskDuties a tasks + 0) =
      ⟨st.book a, st.journal.about a, taskDuties a tasks⟩ := by
    simp [State.desk, State.duties, State.bare, slotDuties]
    rfl
  have final : (run sc st.bare tasks).desk a 0 = ⟨(run sc st tasks).book a,
      (run sc st tasks).journal.about a, (run sc st.bare tasks).duties a + 0⟩ := by
    rw [State.desk, book, journal]
  rw [start, final] at course
  exact ⟨_, course⟩

end KeyArbiter
