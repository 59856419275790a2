import KeyArbiter.Agenda.Step

/-!
# Running to the end

Tasks are done until none is left. Calls can nest without a limit of their own, so the end has to be
shown: each step uses up some hook's budget, or leaves tasks that weigh less than the one it did.
Only an event that comes back at once could go round for ever, and the case it left behind turns it
into a replay.
-/

namespace KeyArbiter

/-- What all these numbers come to. -/
def total : List Nat → Nat
  | [] => 0
  | n :: ns => n + total ns

theorem total_append (l m : List Nat) : total (l ++ m) = total l + total m := by
  induction l with
  | nil => simp [total]
  | cons n l ih => simp only [List.cons_append, total, ih, Nat.add_assoc]

namespace Scene

variable (sc : Scene)

/-! ## Weights -/

/-- The arbiter that events come back to at once. -/
def inlineTarget : Option ArbiterId :=
  match sc.redispatch with
  | .inline h => some (sc.hook h).target
  | _ => none

/-- The weight of offering an event to `n` responders, if settling it weighs `s`. -/
def offerWeight (s n : Nat) : Nat := 1 + n * (s + 3)

/-- The weight of a fresh event, if there are `n` responders and settling it weighs `s`. -/
def freshWeight (s n : Nat) : Nat := s + offerWeight s n

/-- Settling may deliver the event to another arbiter, but no further. -/
def settleWeight (a : ArbiterId) : Nat :=
  match sc.inlineTarget with
  | some b => if a = b then 2 else 2 + freshWeight 2 (sc.responders b).length
  | none => 2

theorem settleWeight_pos (a : ArbiterId) : 0 < sc.settleWeight a := by
  unfold settleWeight
  split
  · split <;> omega
  · omega

def arriveWeight (a : ArbiterId) : Nat := freshWeight (sc.settleWeight a) (sc.responders a).length

def outletWeight : Outlet → Nat
  | .answer t => sc.settleWeight t.arbiter + 1
  | .inline => 0

def feedWeight (a : ArbiterId) (n : Nat) : Nat := 1 + n * (1 + sc.arriveWeight a)

/-- No action weighs more than one that synchronizes all modifier keys. -/
def actionWeight (h : HookId) : Nat := 1 + sc.feedWeight (sc.hook h).target 8

def weight : Task → Nat
  | .offer a _ responders => offerWeight (sc.settleWeight a) responders.length
  | .deliver t _ => sc.settleWeight t.arbiter + 1
  | .settle a _ _ => sc.settleWeight a
  | .act h _ actions _ outlet => 1 + sc.outletWeight outlet + actions.length * sc.actionWeight h
  | .feed a events => sc.feedWeight a events.length

def weights (tasks : List Task) : Nat := total (tasks.map sc.weight)

theorem weights_append (l m : List Task) : sc.weights (l ++ m) = sc.weights l + sc.weights m := by
  rw [weights, List.map_append, total_append]
  rfl

@[simp] theorem weights_nil : sc.weights [] = 0 := rfl

@[simp] theorem weights_singleton (t : Task) : sc.weights [t] = sc.weight t := by
  simp [weights, total]

end Scene

/-! ## Budgets -/

theorem total_set_lt {budgets : List Nat} {h n : Nat} (hb : budgets.getD h 0 = n + 1) :
    total (budgets.set h n) < total budgets := by
  induction budgets generalizing h with
  | nil => simp at hb
  | cons b bs ih =>
    cases h with
    | zero => simp at hb; simp [total, hb]
    | succ h =>
      have := ih (h := h) (by simpa using hb)
      simp only [List.set_cons_succ, total]
      omega

/-! ## Each step brings the end nearer -/

/-- Some budget was used up, or the tasks left weigh less than `n`. -/
def Nearer (sc : Scene) (st : State) (n : Nat) (p : Progress) : Prop :=
  total p.1.budgets < total st.budgets ∨ (p.1.budgets = st.budgets ∧ sc.weights p.2 < n)

namespace Nearer

variable {sc : Scene} {st : State} {n m : Nat} {p : Progress}

theorem mono (h : Nearer sc st n p) (le : n ≤ m) : Nearer sc st m p :=
  h.imp_right fun ⟨eq, lt⟩ => ⟨eq, Nat.lt_of_lt_of_le lt le⟩

theorem of_eq {st' : State} (h : Nearer sc st' n p) (eq : st'.budgets = st.budgets) :
    Nearer sc st n p := by
  unfold Nearer at h ⊢
  rwa [← eq]

theorem append (h : Nearer sc st n p) (tasks : List Task) :
    Nearer sc st (n + sc.weights tasks) (p.1, p.2 ++ tasks) :=
  h.imp_right fun ⟨eq, lt⟩ => ⟨eq, by rw [sc.weights_append]; omega⟩

end Nearer

namespace State

variable (sc : Scene) (st : State)

theorem nearer_deliverTask {t : Ticket} {answer : Delivery} {n : Nat} {st' : State}
    (hb : st'.budgets = st.budgets) (hn : sc.settleWeight t.arbiter + 1 < n) :
    Nearer sc st n (st', [.deliver t answer]) :=
  .inr ⟨hb, by simpa [Scene.weight] using hn⟩

theorem nearer_nothing {n : Nat} {st' : State} (hb : st'.budgets = st.budgets) (pos : 0 < n) :
    Nearer sc st n (st', []) :=
  .inr ⟨hb, by simpa using pos⟩

theorem nearer_giveVerdict (claimed : Bool) (owner : Option Ticket) {n : Nat}
    (hn : ∀ t, owner = some t → sc.settleWeight t.arbiter + 1 < n) (pos : 0 < n) :
    Nearer sc st n (st.giveVerdict claimed owner) := by
  cases owner with
  | none => exact nearer_nothing sc st rfl pos
  | some t => exact nearer_deliverTask sc st rfl (hn t rfl)

theorem nearer_giveReply (channel : String) (reply : Except TransportError (List UInt8))
    (owner : Option Ticket) {n : Nat}
    (hn : ∀ t, owner = some t → sc.settleWeight t.arbiter + 1 < n) (pos : 0 < n) :
    Nearer sc st n (st.giveReply channel reply owner) := by
  cases owner with
  | none => exact nearer_nothing sc st rfl pos
  | some t =>
    simp only [giveReply]
    split <;> exact nearer_deliverTask sc st rfl (hn t rfl)

theorem nearer_sendToRuntime (e : RuntimeEvent) (owner : Option Ticket) {n : Nat}
    (hn : ∀ t, owner = some t → sc.settleWeight t.arbiter + 1 < n) (pos : 0 < n) :
    Nearer sc st n (st.sendToRuntime sc e owner) := by
  unfold sendToRuntime
  split
  · exact nearer_giveVerdict sc st _ _ hn pos
  · exact .inr ⟨rfl, pos⟩
  · exact (nearer_giveVerdict sc (st.keep _ _) _ _ hn pos).of_eq rfl

theorem nearer_sendOnChannel (channel : String) (data : List UInt8) (owner : Option Ticket) {n : Nat}
    (hn : ∀ t, owner = some t → sc.settleWeight t.arbiter + 1 < n) (pos : 0 < n) :
    Nearer sc st n (st.sendOnChannel sc channel data owner) := by
  simp only [sendOnChannel]
  split
  · exact (nearer_giveReply sc { st with sent := _ } _ _ _ hn pos).of_eq rfl
  · exact .inr ⟨rfl, pos⟩
  · exact (nearer_giveReply sc { st with sent := _ } _ _ _ hn pos).of_eq rfl
  · exact (nearer_giveReply sc { st with sent := _ } _ _ _ hn pos).of_eq rfl

theorem arrive_weight (a : ArbiterId) (e : KeyEvent) :
    (st.arrive sc a e).1.budgets = st.budgets ∧
      sc.weights (st.arrive sc a e).2.1 ≤ sc.arriveWeight a := by
  simp only [arrive]
  split
  · exact ⟨rfl, by simp⟩
  · refine ⟨rfl, ?_⟩
    simp only [Scene.weights_singleton]
    split <;> simp only [Scene.weight, Scene.arriveWeight, Scene.freshWeight] <;> omega

theorem arrive_replay {a : ArbiterId} {e : KeyEvent} {id : Nat}
    (h : ((st.book a).arrive (sc.layout a) (sc.responders a).length e).2.1 = .replay id) :
    (st.arrive sc a e).2.1 = [] := by
  simp only [arrive, h]

theorem nearer_andThen (a : ArbiterId) (e : KeyEvent) (rest : Bool → List Task) {n m : Nat}
    (hm : ∀ b, sc.weights (rest b) ≤ m) (hn : sc.arriveWeight a + m < n) :
    Nearer sc st n (andThen (st.arrive sc a e) rest) := by
  have ⟨eq, le⟩ := arrive_weight sc st a e
  refine .inr ⟨eq, ?_⟩
  simp only [andThen, Scene.weights_append]
  have := hm (st.arrive sc a e).2.2
  omega

theorem nearer_callHook (h : HookId) (e : KeyEvent) (outlet : Outlet) {n : Nat}
    (hn : 1 + sc.outletWeight outlet < n)
    (hi : outlet = .inline →
      sc.weights (st.arrive sc (sc.hook h).target e).2.1 + 1 < n) :
    Nearer sc st n (st.callHook sc h e outlet) := by
  simp only [callHook]
  split
  · split
    · next hb => exact .inl (total_set_lt hb)
    · split
      · exact .inr ⟨rfl, by simpa [Scene.weight] using hn⟩
      · refine .inr ⟨(arrive_weight sc st _ e).1, ?_⟩
        simpa [Scene.weights_append, Scene.weight, Scene.outletWeight] using hi rfl
  · exact .inr ⟨rfl, by simpa [Scene.weight] using hn⟩

theorem nearer_offer (a : ArbiterId) (d : Dispatch) (r : Responder) :
    Nearer sc st (sc.settleWeight a + 3) (st.offer sc a d r) := by
  have hn : ∀ t : Ticket, some (Ticket.mk a r.kind d.id) = some t →
      sc.settleWeight t.arbiter + 1 < sc.settleWeight a + 3 := by
    intro t ht
    cases ht
    simp
  simp only [offer]
  split
  · split
    · exact .inr ⟨rfl, by simp [Scene.weight]⟩
    · exact (nearer_sendToRuntime sc (st.note _ _) _ _ hn (by omega)).of_eq rfl
  · exact (nearer_sendOnChannel sc (st.note _ _) _ _ _ hn (by omega)).of_eq rfl
  · split
    · exact .inr ⟨rfl, by simp [Scene.weight]⟩
    · exact .inr ⟨rfl, by simp [Scene.weight]⟩
    · exact .inr ⟨rfl, by simp⟩
    · exact .inr ⟨rfl, by simp [Scene.weight]⟩
    · refine nearer_callHook sc _ _ _ _ ?_ nofun
      simp [Scene.outletWeight]; omega

theorem nearer_deliver (t : Ticket) (answer : Delivery) :
    Nearer sc st (sc.settleWeight t.arbiter + 1) (st.deliver sc t answer) := by
  simp only [deliver]
  split
  · split
    · exact .inr ⟨rfl, by simp⟩
    · exact .inr ⟨rfl, by simp⟩
    · exact .inr ⟨rfl, by simp [Scene.weight]⟩
  · exact .inr ⟨rfl, by simp⟩

theorem nearer_redispatch (e : KeyEvent) {n : Nat} (pos : 0 < n)
    (hi : ∀ h, sc.redispatch = .inline h → Nearer sc st n (st.callHook sc h e .inline)) :
    Nearer sc st n ((st.redispatch sc e).1, (st.redispatch sc e).2.1) := by
  unfold redispatch
  split
  · exact nearer_nothing sc st rfl pos
  · exact nearer_nothing sc st rfl pos
  · split <;> exact nearer_nothing sc st rfl pos
  · next h hr => exact hi h hr

/-- Handing an event back brings the end nearer right after its case was settled: its copy is then
expected. -/
theorem nearer_handBack {b b' : Book} {a : ArbiterId} {d : Dispatch} {e : KeyEvent} {id : Nat}
    {claimed : Bool} (hs : b.settle d claimed = (b', some e)) (hb : st.book a = b') :
    Nearer sc st (sc.settleWeight a) (st.handBack sc a id e) := by
  have key := nearer_redispatch sc st e (sc.settleWeight_pos a) fun h hr => by
    have target : sc.inlineTarget = some (sc.hook h).target := by simp [Scene.inlineTarget, hr]
    have settles : sc.settleWeight (sc.hook h).target = 2 := by simp [Scene.settleWeight, target]
    refine nearer_callHook sc st h e .inline ?_ fun _ => ?_
    · simp only [Scene.outletWeight, Scene.settleWeight, target]
      split <;> omega
    · by_cases eq : a = (sc.hook h).target
      · have ⟨id, replay⟩ := Book.replay_of_settle hs (sc.layout a) (sc.responders a).length
        rw [← hb] at replay
        rw [← eq, arrive_replay sc st replay, eq, settles]
        simp
      · have ⟨_, le⟩ := arrive_weight sc st (sc.hook h).target e
        have : sc.settleWeight a = 2 + sc.arriveWeight (sc.hook h).target := by
          simp [Scene.settleWeight, Scene.arriveWeight, target, eq]
        omega
  simp only [handBack]
  generalize st.redispatch sc e = p at key ⊢
  obtain ⟨st', tasks, taken⟩ := p
  cases taken <;> exact key

theorem budgets_consult (a : ArbiterId) (d : Dispatch) (claimed : Bool) :
    (st.consult sc a d claimed).1.budgets = st.budgets := by
  unfold consult
  split <;> rfl

theorem nearer_conclude (a : ArbiterId) (d : Dispatch) (claimed : Bool) :
    Nearer sc st (sc.settleWeight a) (st.conclude sc a d claimed) := by
  simp only [conclude]
  split
  · exact nearer_nothing sc st rfl (sc.settleWeight_pos a)
  · next e back =>
    exact nearer_handBack sc (((st.setBook a _).note a _).note a _)
      (Prod.ext rfl back) (by simp)

theorem nearer_settle (a : ArbiterId) (d : Dispatch) (claimed : Bool) :
    Nearer sc st (sc.settleWeight a) (st.settle sc a d claimed) := by
  have := nearer_conclude sc (st.consult sc a d claimed).1 a d (st.consult sc a d claimed).2
  unfold Nearer at this ⊢
  rwa [budgets_consult] at this

theorem nearer_act (h : HookId) (e : KeyEvent) (value : Bool) (rest : Bool → List Task)
    (action : Action) {m : Nat} (hm : ∀ b, sc.weights (rest b) ≤ m) :
    Nearer sc st (m + sc.actionWeight h) (st.act sc h e value rest action) := by
  have enough : sc.arriveWeight (sc.hook h).target + m < m + sc.actionWeight h := by
    simp only [Scene.actionWeight, Scene.feedWeight]
    omega
  cases action with
  | replay => exact nearer_andThen sc st _ _ _ hm enough
  | restamp => exact nearer_andThen sc st _ _ _ hm enough
  | event => exact nearer_andThen sc st _ _ _ hm enough
  | answer value =>
    refine .inr ⟨rfl, ?_⟩
    have := hm value
    simp only [act, Scene.actionWeight]
    omega
  | sync modifiers time =>
    simp only [act, sync]
    refine .inr ⟨by split <;> rfl, ?_⟩
    have len := modifiers.length_plan_le (st.book (sc.hook h).target).held.down time
    have := hm value
    simp only [Scene.weights_append, Scene.weights_singleton, Scene.weight, Scene.actionWeight,
      Scene.feedWeight]
    have := Nat.mul_le_mul_right (1 + sc.arriveWeight (sc.hook h).target) len
    omega

theorem nearer_step (t : Task) : Nearer sc st (sc.weight t) (st.step sc t) := by
  match t with
  | .offer _ _ [] => exact nearer_nothing sc st rfl (by simp [Scene.weight, Scene.offerWeight])
  | .offer a d (r :: rs) =>
    refine ((nearer_offer sc (st.note a (.offered d.id r.kind)) a d r).append
      [.offer a d rs]).mono ?_
    simp [Scene.weight, Scene.offerWeight, Nat.succ_mul]
    omega
  | .deliver t answer => exact nearer_deliver sc st t answer
  | .settle a d claimed => exact nearer_settle sc st a d claimed
  | .act h e (action :: actions) value outlet =>
    refine (nearer_act sc st h e value _ action
      (m := 1 + sc.outletWeight outlet + actions.length * sc.actionWeight h) ?_).mono ?_
    · intro b; simp [Scene.weight]
    · simp [Scene.weight, Nat.succ_mul]; omega
  | .act _ _ [] value (.answer t) =>
    exact nearer_deliverTask sc st rfl (by simp [Scene.weight, Scene.outletWeight])
  | .act _ e [] value .inline =>
    exact nearer_nothing sc st rfl (by simp only [Scene.weight]; omega)
  | .feed _ [] => exact nearer_nothing sc st rfl (by simp [Scene.weight, Scene.feedWeight])
  | .feed a (e :: es) =>
    refine nearer_andThen sc st a e _ (m := sc.feedWeight a es.length) ?_ ?_
    · intro b; simp [Scene.weight]
    · simp [Scene.weight, Scene.feedWeight, Nat.succ_mul]; omega

end State

/-! ## The run -/

/-- Does all tasks, and those that they leave. -/
def run (sc : Scene) (st : State) : List Task → State
  | [] => st
  | t :: rest => run sc (st.step sc t).1 ((st.step sc t).2 ++ rest)
termination_by tasks => (total st.budgets, sc.weights tasks)
decreasing_by
  rcases State.nearer_step sc st t with lt | ⟨eq, lt⟩
  · exact .left _ _ lt
  · rw [eq]
    refine .right _ ?_
    simp only [Scene.weights_append]
    simp only [Scene.weights, List.map_cons, total] at *
    omega

end KeyArbiter
