import KeyArbiter.Proofs.Frame
import KeyArbiter.Proofs.Plan
import KeyArbiter.Proofs.Tickets
import Mathlib

/-!
# Agreement with the modifier word

Whether the held keys agree with a modifier word after they were synchronized. They do unless a
planned event was taken for the replay of an equal one that was handed back before.
-/

namespace KeyArbiter

def Entry.arrival? : Entry → Option KeyEvent
  | .dispatched d _ => some d.event
  | .replayed _ e => some e
  | _ => none

def Entry.motion? (key : PhysicalKey) : Entry → Option Bool
  | .dispatched d _ =>
    if PhysicalKey.ofKeycode d.event.keycode = key then some d.event.isPress else none
  | _ => none

theorem Entry.motion?_eq_none {x : Entry} (silent : x.arrival? = none) (key : PhysicalKey) :
    x.motion? key = none := by
  cases x with
  | dispatched => cases silent
  | _ => rfl

theorem mem_freshOf {past : List Entry} {e : KeyEvent} :
    e ∈ freshOf past ↔ ∃ d n, d.event = e ∧ .dispatched d n ∈ past := by
  simp only [freshOf, List.mem_map, mem_dispatchesOf]
  constructor
  · rintro ⟨d, ⟨n, here⟩, event⟩
    exact ⟨d, n, event, here⟩
  · rintro ⟨d, n, event, here⟩
    exact ⟨d, ⟨n, here⟩, event⟩

/-! ## What becomes of a case -/

/-- A case comes from an earlier one, given back before or with one of these numbers. -/
def Docket.Stems (k k' : Docket) (settled : Nat → Prop) : Prop :=
  ∀ c ∈ k'.cases, ∃ c₀ ∈ k.cases, c₀.dispatch = c.dispatch ∧
    (c.returned = true → c₀.returned = true ∨ settled c.dispatch.id)

namespace Docket

variable {k k' k'' : Docket} {settled : Nat → Prop} {id : Nat}

theorem stems_refl (k : Docket) : k.Stems k settled :=
  fun c hc => ⟨c, hc, rfl, .inl⟩

theorem stems_close (k : Docket) (id : Nat) : k.Stems (k.close id) settled :=
  fun c hc => ⟨c, (List.mem_filter.1 hc).1, rfl, .inl⟩

theorem Stems.trans (h : k.Stems k' settled) (h' : k'.Stems k'' settled) : k.Stems k'' settled := by
  intro c hc
  obtain ⟨c₁, hc₁, same₁, back₁⟩ := h' c hc
  obtain ⟨c₀, hc₀, same₀, back₀⟩ := h c₁ hc₁
  refine ⟨c₀, hc₀, same₀.trans same₁, fun back => ?_⟩
  rcases back₁ back with back | now
  · rw [← same₁]
    exact back₀ back
  · exact .inr now

theorem stems_answer (k : Docket) (id : Nat) (claimed : Bool) :
    k.Stems (k.answer id claimed).1 settled := by
  unfold answer
  split
  · exact stems_refl k
  · next c found =>
    intro c' hc'
    obtain ⟨c₁, hc₁, rfl⟩ := List.mem_map.1 hc'
    split
    · exact ⟨c, List.mem_of_find?_eq_some found, rfl, .inl⟩
    · exact ⟨c₁, hc₁, rfl, .inl⟩

theorem id_of_complete {claimed verdict : Bool} {d : Dispatch}
    (complete : k.answer id claimed = (k', .complete verdict d)) : d.id = id := by
  unfold answer at complete
  split at complete
  · cases complete
  · next c found =>
    have same : c.dispatch.id = id := by simpa using List.find?_some found
    simp only [Prod.mk.injEq] at complete
    obtain ⟨-, last⟩ := complete
    split at last
    · cases last
      exact same
    · cases last

theorem stems_giveBack {e : KeyEvent} (back : k.giveBack id = some (k', e)) :
    k.Stems k' (· = id) := by
  unfold giveBack at back
  split at back
  · split at back
    · cases back
    · cases back
      intro c hc
      obtain ⟨c₀, hc₀, rfl⟩ := List.mem_map.1 hc
      split
      · next own => exact ⟨c₀, hc₀, rfl, fun _ => .inr own⟩
      · exact ⟨c₀, hc₀, rfl, .inl⟩
  · cases back

end Docket

namespace Book

theorem stems_settle (b : Book) (d : Dispatch) (claimed : Bool) :
    b.docket.Stems (b.settle d claimed).1.docket (· = d.id) := by
  unfold settle
  simp only
  split
  · exact b.docket.stems_close d.id
  · split
    · next back => exact Docket.stems_giveBack back
    · exact b.docket.stems_refl

theorem logical?_dispatch (b : Book) (layout : Layout) (e : KeyEvent) (key : PhysicalKey) :
    if PhysicalKey.ofKeycode e.keycode = key then
      ((b.dispatch layout e).1.held.logical? key).isSome = e.isPress
    else (b.dispatch layout e).1.held.logical? key = b.held.logical? key := by
  have resolved : (b.resolve layout e).1.held = b.held := by
    unfold resolve
    split <;> rfl
  unfold dispatch
  cases press : e.isPress with
  | true =>
    simp only [if_true, HeldKeys.press, resolved]
    cases down : b.held.logical? (PhysicalKey.ofKeycode e.keycode) with
    | some first =>
      split
      · next eq => rw [← eq, down]; rfl
      · rfl
    | none =>
      simp only
      rw [HeldKeys.logical?_insert]
      split
      · rfl
      · rfl
  | false =>
    simp only [Bool.false_eq_true, if_false, HeldKeys.release]
    cases down : b.held.logical? (PhysicalKey.ofKeycode e.keycode) with
    | some first =>
      simp only [Option.map_some]
      rw [HeldKeys.logical?_insert]
      split <;> rfl
    | none =>
      simp only [Option.map_none, resolved]
      split
      · next eq => rw [← eq, down]; rfl
      · trivial

end Book

/-! ## In the course of a call -/

/-- What holds in the course of a call, since which these entries were made. Nothing was owed when it
began. -/
structure During (start : Desk) (since : List Entry) (k : Desk) : Prop where
  past : k.past = since ++ start.past
  lastId : start.book.docket.lastId ≤ k.book.docket.lastId
  own : ∀ x ∈ k.duties, start.book.docket.lastId < x.id
  cases : ∀ c ∈ k.book.docket.cases, c.dispatch.event ∈ freshOf since ∨
    ∃ c₀ ∈ start.book.docket.cases, c₀.dispatch = c.dispatch ∧
      (c.returned = true → c₀.returned = true)
  replays : ∀ id e, .replayed id e ∈ since → e ∈ freshOf since ∨
    ∃ c ∈ start.book.docket.cases, c.returned = true ∧ c.dispatch.event = e
  held : ∀ key, match since.findSome? (Entry.motion? key) with
    | none => k.book.held.logical? key = start.book.held.logical? key
    | some press => (k.book.held.logical? key).isSome = press

namespace During

variable {setup : Setup} {layouts : Layout → Prop} {start k k' : Desk} {since : List Entry}

theorem refl {start : Desk} (nothing : start.duties = 0) : During start [] start where
  past := rfl
  lastId := le_rfl
  own x hx := by
    rw [nothing] at hx
    exact absurd hx (Multiset.notMem_zero _)
  cases c hc := .inr ⟨c, hc, rfl, id⟩
  replays _ _ mem := absurd mem List.not_mem_nil
  held _ := rfl

theorem fresh_append (entries : List Entry) {e : KeyEvent} (mem : e ∈ freshOf since) :
    e ∈ freshOf (entries ++ since) := by
  obtain ⟨d, n, rfl, here⟩ := mem_freshOf.1 mem
  exact mem_freshOf.2 ⟨d, n, rfl, List.mem_append_right _ here⟩

theorem quiet (known : ∀ c ∈ start.book.docket.cases, c.dispatch.id ≤ start.book.docket.lastId)
    (h : During start since k) (entries : List Entry) (past : k'.past = entries ++ k.past)
    (silent : ∀ x ∈ entries, x.arrival? = none)
    (lastId : k'.book.docket.lastId = k.book.docket.lastId)
    (held : ∀ key, k'.book.held.logical? key = k.book.held.logical? key)
    (stems : k.book.docket.Stems k'.book.docket (start.book.docket.lastId < ·))
    (own : ∀ x ∈ k'.duties, start.book.docket.lastId < x.id) :
    During start (entries ++ since) k' := by
  refine ⟨by rw [past, h.past, List.append_assoc], by rw [lastId]; exact h.lastId, own, ?_, ?_, ?_⟩
  · intro c hc
    obtain ⟨c₁, hc₁, same₁, back₁⟩ := stems c hc
    rcases h.cases c₁ hc₁ with fresh | ⟨c₀, hc₀, same₀, back₀⟩
    · rw [same₁] at fresh
      exact .inl (fresh_append _ fresh)
    · refine .inr ⟨c₀, hc₀, same₀.trans same₁, fun back => ?_⟩
      rcases back₁ back with back | new
      · exact back₀ back
      · have := known c₀ hc₀
        rw [same₀, same₁] at this
        omega
  · intro id e mem
    rcases List.mem_append.1 mem with mem | mem
    · cases silent _ mem
    · exact (h.replays id e mem).imp_left (fresh_append _)
  · intro key
    have none : entries.findSome? (Entry.motion? key) = none :=
      List.findSome?_eq_none_iff.2 fun x hx => Entry.motion?_eq_none (silent x hx) key
    rw [List.findSome?_append, none, Option.none_or, held]
    exact h.held key

theorem arrive (h : During start since k) (layout : Layout) (e : KeyEvent) :
    ∃ since', During start since' (k.arrive setup layout e) := by
  unfold Desk.arrive Book.arrive
  cases taken : k.book.docket.takeReplay e with
  | some p =>
    obtain ⟨docket, id⟩ := p
    obtain ⟨c, hc, expects, rfl, -⟩ := Docket.takeReplay_spec taken
    obtain ⟨back, rfl⟩ : c.returned = true ∧ c.dispatch.event = e := by
      simpa [Docket.Expects] using expects
    refine ⟨.replayed id c.dispatch.event :: since, by rw [h.past]; rfl, h.lastId, h.own, ?_, ?_,
      h.held⟩
    · intro c' hc'
      exact (h.cases c' (List.mem_filter.1 hc').1).imp_left (fresh_append [_])
    · intro id' e' mem
      rcases List.mem_cons.1 mem with eq | mem
      · cases eq
        refine (h.cases c ((Docket.mem_casesOf _).1 hc).1).imp (fresh_append [_]) ?_
        rintro ⟨c₀, hc₀, same, back₀⟩
        exact ⟨c₀, hc₀, back₀ back, by rw [same]⟩
      · exact (h.replays id' e' mem).imp_left (fresh_append [_])
  | none =>
    obtain ⟨docket, next, event⟩ := k.book.dispatch_spec layout e
    have logical (key : PhysicalKey) := k.book.logical?_dispatch layout e key
    simp only
    generalize k.book.dispatch layout e = r at docket next event logical
    obtain ⟨b, d, asked⟩ := r
    simp only at docket next event logical
    have lastId := h.lastId
    have dispatched : e ∈ freshOf (.dispatched d setup.responders.length :: since) :=
      mem_freshOf.2 ⟨d, _, event, List.mem_cons_self ..⟩
    refine ⟨.dispatched d setup.responders.length :: since, by rw [h.past]; rfl, ?_, ?_, ?_, ?_, ?_⟩
    · simp only [Docket.enter]
      omega
    · intro x hx
      rcases Multiset.mem_cons.1 hx with rfl | hx
      · have first : (Duty.first d setup.responders).id = d.id := by
          cases setup.responders <;> rfl
        simp only [first]
        omega
      · exact h.own x hx
    · intro c hc
      simp only [Docket.enter, docket] at hc
      rcases List.mem_append.1 hc with hc | hc
      · exact (h.cases c hc).imp_left (fresh_append [_])
      · obtain rfl := List.mem_singleton.1 hc
        rw [event]
        exact .inl dispatched
    · intro id e' mem
      rcases List.mem_cons.1 mem with eq | mem
      · cases eq
      · exact (h.replays id e' mem).imp_left (fresh_append [_])
    · intro key
      have here := logical key
      rw [List.findSome?_cons]
      by_cases eq : PhysicalKey.ofKeycode e.keycode = key
      · rw [if_pos eq] at here
        simp only [Entry.motion?, event, if_pos eq]
        exact here
      · rw [if_neg eq] at here
        simp only [Entry.motion?, event, if_neg eq, here]
        exact h.held key

theorem conclude (known : ∀ c ∈ start.book.docket.cases, c.dispatch.id ≤ start.book.docket.lastId)
    (h : During start since k) {d : Dispatch} (new : start.book.docket.lastId < d.id)
    (claimed refuses : Bool) {others : Multiset Duty}
    (own : ∀ x ∈ others, start.book.docket.lastId < x.id) :
    ∃ since', During start since' (k.conclude d claimed refuses others) := by
  have alike := k.book.alike_settle d claimed
  have stems : k.book.docket.Stems (k.book.settle d claimed).1.docket
      (start.book.docket.lastId < ·) := by
    intro c hc
    obtain ⟨c₀, hc₀, same, back⟩ := k.book.stems_settle d claimed c hc
    refine ⟨c₀, hc₀, same, fun returned => (back returned).imp_right fun eq => ?_⟩
    rw [eq]
    exact new
  unfold Desk.conclude
  simp only
  generalize k.book.settle d claimed = r at alike stems
  obtain ⟨book, back⟩ := r
  cases back with
  | none =>
    exact ⟨_, h.quiet known [_] rfl (by simp [Entry.arrival?]) alike.lastId alike.held
      stems own⟩
  | some e =>
    cases refuses with
    | true =>
      exact ⟨_, h.quiet known [_, _, _] rfl (by simp [Entry.arrival?]) alike.lastId
        alike.held (stems.trans (book.docket.stems_close d.id)) own⟩
    | false =>
      exact ⟨_, h.quiet known [_, _] rfl (by simp [Entry.arrival?]) alike.lastId
        alike.held stems own⟩

theorem deliver (known : ∀ c ∈ start.book.docket.cases, c.dispatch.id ≤ start.book.docket.lastId)
    (h : During start since k) {id : Nat} (new : start.book.docket.lastId < id)
    (who : ResponderKind) (answer : Delivery) {others : Multiset Duty}
    (own : ∀ x ∈ others, start.book.docket.lastId < x.id) :
    ∃ since', During start since' (k.deliver setup id who answer others) := by
  have noted : (answer.entry who id).arrival? = none := by
    cases answer <;> rfl
  have two (x : Entry) (silent : x.arrival? = none) :
      ∀ y ∈ [x, answer.entry who id], y.arrival? = none := by
    simp [silent, noted]
  have alike := k.book.alike_answer id answer.claimed
  have stems : k.book.docket.Stems (k.book.docket.answer id answer.claimed).1
      (start.book.docket.lastId < ·) := k.book.docket.stems_answer id _
  unfold Desk.deliver
  simp only
  split
  · rcases eq : k.book.docket.answer id answer.claimed with ⟨docket, verdict⟩
    rw [eq] at alike stems
    cases verdict with
    | untracked =>
      exact ⟨_, h.quiet known [answer.entry who id] rfl (by simp [noted]) alike.lastId
        alike.held stems own⟩
    | waiting n =>
      exact ⟨_, h.quiet known [_, _] rfl (two (.waiting id n) rfl) alike.lastId
        alike.held stems own⟩
    | complete claimed d =>
      have same : d.id = id := Docket.id_of_complete eq
      refine ⟨_, h.quiet known [answer.entry who id] rfl (by simp [noted]) alike.lastId
        alike.held stems ?_⟩
      intro x hx
      rcases Multiset.mem_cons.1 hx with rfl | hx
      · rw [← same] at new
        exact new
      · exact own x hx
  · exact ⟨_, h.quiet known [_, _] rfl (two (.late id _) rfl) rfl (fun _ => rfl)
      k.book.docket.stems_refl own⟩

theorem arrival?_told {d : Dispatch} {r : Responder} : ∀ x ∈ r.told d, x.arrival? = none := by
  unfold Responder.told
  split
  · split <;> simp [Entry.arrival?]
  · simp [Entry.arrival?]
  · simp

theorem change (known : ∀ c ∈ start.book.docket.cases, c.dispatch.id ≤ start.book.docket.lastId)
    (change : Change setup layouts k k') (h : During start since k) :
    ∃ since', During start since' k' := by
  have owned {x : Duty} {others : Multiset Duty} (owed : k.duties = x ::ₘ others) :
      start.book.docket.lastId < x.id ∧ ∀ y ∈ others, start.book.docket.lastId < y.id := by
    have own := h.own
    rw [owed] at own
    exact ⟨own x (Multiset.mem_cons_self ..), fun y hy => own y (Multiset.mem_cons_of_mem hy)⟩
  cases change with
  | @remark x idle =>
    have silent : x.arrival? = none := by
      cases x with
      | dispatched | replayed => cases idle
      | _ => rfl
    exact ⟨_, h.quiet known [x] rfl (by simp [silent]) rfl (fun _ => rfl)
      k.book.docket.stems_refl h.own⟩
  | forgetLayout =>
    exact ⟨_, h.quiet known [] rfl (by simp) rfl (fun _ => rfl)
      k.book.docket.stems_refl h.own⟩
  | arrive asked e => exact h.arrive _ e
  | @offer d r rs others owed =>
    obtain ⟨new, own⟩ := owned owed
    refine ⟨_, h.quiet known (r.told d ++ [.offered d.id r.kind]) ?_ ?_ rfl (fun _ => rfl)
      k.book.docket.stems_refl ?_⟩
    · simp [Desk.offer]
    · intro x hx
      rcases List.mem_append.1 hx with hx | hx
      · exact arrival?_told x hx
      · obtain rfl := List.mem_singleton.1 hx
        rfl
    · intro x hx
      rcases Multiset.mem_cons.1 hx with rfl | hx
      · exact new
      rcases Multiset.mem_add.1 hx with hx | hx
      · rw [Duty.id_of_mem_offers hx]
        exact new
      · exact own x hx
  | deliver owed who answer =>
    obtain ⟨new, own⟩ := owned owed
    exact h.deliver known new who answer own
  | @settle d claimed others owed consumes refuses =>
    obtain ⟨new, own⟩ := owned owed
    rw [Desk.settle, Desk.consult_eq]
    split
    · have asked : During start ([.filtered d.id d.event consumes] ++ since)
          (k.remark (.filtered d.id d.event consumes)) :=
        h.quiet known [_] rfl (by simp [Entry.arrival?]) rfl (fun _ => rfl)
          k.book.docket.stems_refl h.own
      exact asked.conclude known new _ _ own
    · exact h.conclude known new _ _ own

end During

/-! ## Arrivals -/

theorem Change.past {setup : Setup} {layouts : Layout → Prop} {k k' : Desk}
    (change : Change setup layouts k k') : ∃ entries, k'.past = entries ++ k.past := by
  cases change with
  | remark => exact ⟨[_], rfl⟩
  | forgetLayout => exact ⟨[], rfl⟩
  | arrive asked e =>
    unfold Desk.arrive
    simp only
    split <;> exact ⟨[_], rfl⟩
  | @offer d r => exact ⟨r.told d ++ [.offered d.id r.kind], by simp [Desk.offer]⟩
  | deliver owed who answer =>
    unfold Desk.deliver
    simp only
    split
    · split
      · exact ⟨[_], rfl⟩
      · exact ⟨[_, _], rfl⟩
      · exact ⟨[_], rfl⟩
    · exact ⟨[_, _], rfl⟩
  | @settle d claimed others owed consumes refuses =>
    have concluded (k : Desk) (claimed : Bool) :
        ∃ entries, (k.conclude d claimed refuses others).past = entries ++ k.past := by
      unfold Desk.conclude
      simp only
      split
      · exact ⟨[_], rfl⟩
      · split
        · exact ⟨[_, _, _], rfl⟩
        · exact ⟨[_, _], rfl⟩
    rw [Desk.settle, Desk.consult_eq]
    split
    · obtain ⟨entries, eq⟩ := concluded (k.remark (.filtered d.id d.event consumes)) consumes
      exact ⟨entries ++ [_], by rw [eq, List.append_assoc]; rfl⟩
    · exact concluded k claimed

theorem past_run {sc : Scene} (st : State) {tasks : List Task} (a : ArbiterId)
    (aimed : ∀ t ∈ tasks, t.Aimed sc) :
    ∃ entries, (run sc st tasks).journal.about a = entries ++ st.journal.about a := by
  have grows {setup : Setup} {layouts : Layout → Prop} {k k' : Desk}
      (change : Change setup layouts k k') (h : ∃ entries, k.past = entries ++ st.journal.about a) :
      ∃ entries, k'.past = entries ++ st.journal.about a := by
    obtain ⟨entries, eq⟩ := h
    obtain ⟨more, eq'⟩ := change.past
    exact ⟨more ++ entries, by rw [eq', eq, List.append_assoc]⟩
  exact (course_run (a := a) st aimed 0).preserves grows ⟨[], rfl⟩

theorem arrivals_run_feed {sc : Scene} {a : ArbiterId} (built : a < sc.setups.length) (st : State)
    (es : List KeyEvent) :
    ∃ since, (run sc st [.feed a es]).journal.about a = since ++ st.journal.about a ∧
      ∀ e ∈ es, ∃ x ∈ since, x.arrival? = some e := by
  induction es generalizing st with
  | nil =>
    refine ⟨[], ?_, nofun⟩
    rw [run, State.step, List.nil_append, Session.run_nil]
    rfl
  | cons e es ih =>
    obtain ⟨x, noted, arrived⟩ := arrivalsNoted a sc st e
    have told : x.arrival? = some e := by
      split at arrived
      · obtain ⟨d, rfl, rfl⟩ := arrived
        rfl
      · obtain ⟨id, rfl⟩ := arrived
        rfl
    have aimed := (State.lands_arrive (a := a) sc st 0 built e).aimed
    obtain ⟨middle, ran⟩ := past_run (st.arrive sc a e).1 a aimed
    obtain ⟨since, fed, all⟩ := ih (run sc (st.arrive sc a e).1 (st.arrive sc a e).2.1)
    refine ⟨since ++ middle ++ [x], ?_, ?_⟩
    · rw [Session.run_feed_cons, fed, ran, noted, Journal.about_cons, if_pos rfl]
      simp
    · intro e' mem
      rcases List.mem_cons.1 mem with rfl | mem
      · exact ⟨x, by simp, told⟩
      · obtain ⟨y, hy, eq⟩ := all e' mem
        exact ⟨y, by simp [hy], eq⟩

/-! ## Synchronizing -/

namespace Session

theorem perform_sync (s : Session) {a : ArbiterId} (alive : s.scene.isAlive a)
    (modifiers : Modifiers) (time : UInt32) :
    (s.perform (.sync a modifiers time)).1 = s.finish ((s.state.sync a modifiers time).1,
      [.feed a (modifiers.plan (s.state.book a).held.down time)]) := by
  simp only [perform, alive, if_true]
  rfl

theorem perform_sync_of_agrees (s : Session) {a : ArbiterId} (alive : s.scene.isAlive a)
    {modifiers : Modifiers} (agrees : modifiers.Agrees (s.state.book a).held.down) (time : UInt32) :
    (s.perform (.sync a modifiers time)).1 = s := by
  have none : modifiers.plan (s.state.book a).held.down time = [] :=
    Modifiers.plan_eq_nil_iff.2 agrees
  rw [perform_sync s alive, none, finish, run, State.step, List.nil_append, run_nil]
  simp only [State.sync, none]
  rfl

/-- What holds after a call to synchronize, if nothing was owed but older answers. -/
theorem during_sync (s : Session) {a : ArbiterId} (alive : s.scene.isAlive a)
    (known : ∀ c ∈ (s.state.book a).docket.cases, c.dispatch.id ≤ (s.state.book a).docket.lastId)
    (modifiers : Modifiers) (time : UInt32) :
    let after := (s.perform (.sync a modifiers time)).1.state
    ∃ since duties,
      During ⟨s.state.book a, s.state.journal.about a, 0⟩ since
        ⟨after.book a, after.journal.about a, duties⟩ ∧
      ∀ e ∈ modifiers.plan (s.state.book a).held.down time, ∃ x ∈ since, x.arrival? = some e := by
  have built := lt_of_isAlive alive
  intro after
  have eq : after = run s.scene (s.state.sync a modifiers time).1
      [.feed a (modifiers.plan (s.state.book a).held.down time)] := by
    simp only [after, perform_sync s alive, finish]
  generalize modifiers.plan (s.state.book a).held.down time = plan at eq
  have book : (s.state.sync a modifiers time).1.book a = s.state.book a := by
    unfold State.sync
    simp only
    split <;> rfl
  obtain ⟨first, past, silent⟩ : ∃ first, (s.state.sync a modifiers time).1.journal.about a =
      first ++ s.state.journal.about a ∧ ∀ x ∈ first, x.arrival? = none := by
    unfold State.sync
    simp only
    split
    · exact ⟨[], rfl, by simp⟩
    · rw [State.note, Journal.about_cons, if_pos rfl]
      exact ⟨[_], rfl, by simp [Entry.arrival?]⟩
  have begun : During ⟨s.state.book a, s.state.journal.about a, 0⟩ (first ++ [])
      ⟨s.state.book a, first ++ s.state.journal.about a, 0⟩ :=
    (During.refl rfl).quiet known first rfl silent rfl (fun _ => rfl) (Docket.stems_refl _) (by simp)
  have aimed : ∀ t ∈ [Task.feed a plan], t.Aimed s.scene := by
    simpa [Task.Aimed] using built
  obtain ⟨duties, course⟩ := course_run_bare (a := a) (s.state.sync a modifiers time).1 aimed
  rw [← eq, book, past] at course
  have keeps {k k' : Desk} (change : Change (s.scene.setup a) (s.scene.Consults a) k k')
      (h : ∃ since, During ⟨s.state.book a, s.state.journal.about a, 0⟩ since k) :
      ∃ since, During ⟨s.state.book a, s.state.journal.about a, 0⟩ since k' := by
    obtain ⟨since, h⟩ := h
    exact h.change known change
  obtain ⟨since, during⟩ := course.preserves keeps ⟨_, begun⟩
  obtain ⟨later, fed, arrived⟩ := arrivals_run_feed built (s.state.sync a modifiers time).1 plan
  refine ⟨since, duties, during, fun e mem => ?_⟩
  have same : since = later ++ first := by
    have joined : since ++ s.state.journal.about a = later ++ first ++ s.state.journal.about a := by
      rw [← during.past, List.append_assoc, ← past, ← fed, eq]
    exact List.append_cancel_right joined
  obtain ⟨x, hx, told⟩ := arrived e mem
  exact ⟨x, by rw [same]; exact List.mem_append_left _ hx, told⟩

end Session

namespace Moment

/-- Unless a planned event equals one that was handed back and not replayed yet, the held keys agree
with the modifier word after a call to synchronize in which nothing but planned events arrived. They
agree exactly if each planned event was dispatched. -/
theorem sync_agrees_iff (moves : List Move) {a : ArbiterId}
    (alive : (after moves).scene.isAlive a) (modifiers : Modifiers) (time : UInt32) :
    let m := after moves
    let before := (m.book a).held
    let plan := modifiers.plan before.down time
    let s := (m.session.perform (.sync a modifiers time)).1
    let now := (s.state.book a).held
    ∃ since, s.state.journal.about a = since ++ m.past a ∧
      ((∀ x ∈ since, ∀ e, x.arrival? = some e → e ∈ plan) →
        (modifiers.Agrees now.down ↔ ∀ e ∈ plan, e ∈ freshOf since) ∧
        ((∀ c ∈ (m.book a).docket.cases, c.returned = true → c.dispatch.event ∉ plan) →
          modifiers.Agrees now.down) ∧
        (∀ key, (∀ p ∈ modifierPairs, ∀ k ∈ p.sides, k.physical ≠ key) →
          now.logical? key = before.logical? key) ∧
        (modifiers.Agrees now.down → ∀ time', (s.perform (.sync a modifiers time')).1 = s)) := by
  have sound := Moment.sound moves alive
  intro m before plan s now
  obtain ⟨since, duties, during, arrived⟩ :=
    m.session.during_sync alive (fun c hc => sound.le_lastId_of_case hc) modifiers time
  refine ⟨since, during.past, fun only => ?_⟩
  -- A key moved only by a planned event for it, and as that says.
  have motion {key : PhysicalKey} {press : Bool}
      (found : since.findSome? (Entry.motion? key) = some press) :
      ∃ e ∈ plan, e ∈ freshOf since ∧ PhysicalKey.ofKeycode e.keycode = key ∧ e.isPress = press := by
    obtain ⟨x, hx, moved⟩ := List.exists_of_findSome?_eq_some found
    cases x with
    | dispatched d n =>
      simp only [Entry.motion?, Option.ite_none_right_eq_some, Option.some.injEq] at moved
      exact ⟨d.event, only _ hx _ rfl, mem_freshOf.2 ⟨d, n, rfl, hx⟩, moved⟩
    | _ => cases moved
  have kept (key : PhysicalKey)
      (none : ∀ e ∈ plan, e ∈ freshOf since → PhysicalKey.ofKeycode e.keycode ≠ key) :
      now.logical? key = before.logical? key := by
    have held := during.held key
    cases found : since.findSome? (Entry.motion? key) with
    | none =>
      rw [found] at held
      exact held
    | some press =>
      obtain ⟨e, mem, fresh, own, -⟩ := motion found
      exact absurd own (none e mem fresh)
  have moved (e : KeyEvent) (mem : e ∈ plan) (fresh : e ∈ freshOf since) :
      PhysicalKey.ofKeycode e.keycode ∈ now.down ↔ e.isPress = true := by
    have held := during.held (PhysicalKey.ofKeycode e.keycode)
    cases found : since.findSome? (Entry.motion? (PhysicalKey.ofKeycode e.keycode)) with
    | none =>
      obtain ⟨d, n, rfl, hx⟩ := mem_freshOf.1 fresh
      have still := List.findSome?_eq_none_iff.1 found _ hx
      simp [Entry.motion?] at still
    | some press =>
      obtain ⟨e', mem', -, own, pressed⟩ := motion found
      obtain rfl := Modifiers.eq_of_mem_plan mem' mem own
      rw [found] at held
      rw [HeldKeys.mem_down, held, pressed]
  have agrees : modifiers.Agrees now.down ↔ ∀ e ∈ plan, e ∈ freshOf since := by
    refine Modifiers.agrees_iff moved fun key none => ?_
    rw [HeldKeys.mem_down, HeldKeys.mem_down, kept key none]
  refine ⟨agrees, fun unexpected => agrees.2 fun e mem => ?_, fun key outside => ?_, fun here time' => ?_⟩
  · obtain ⟨x, hx, told⟩ := arrived e mem
    cases x with
    | dispatched d n =>
      cases told
      exact mem_freshOf.2 ⟨d, n, rfl, hx⟩
    | replayed id e' =>
      cases told
      refine (during.replays id e hx).resolve_right ?_
      rintro ⟨c, hc, back, rfl⟩
      exact unexpected c hc back mem
    | _ => cases told
  · refine kept key fun e mem _ eq => ?_
    obtain ⟨p, hp, k, hk, planned⟩ := Modifiers.mem_plan.1 mem
    rw [planned.ofKeycode hp hk] at eq
    exact outside p hp k hk eq
  · have scene : s.scene = m.scene := by
      simp only [s]
      rw [Session.perform_sync _ alive]
      rfl
    exact s.perform_sync_of_agrees (by rw [scene]; exact alive) here time'

def built : List Move := [.command (.build {} false [])]

theorem sync_agrees_iff_built :
    (after built).scene.isAlive 0 ∧ Modifiers.control.Agrees
      (((after built).session.perform (.sync 0 .control 5)).1.state.book 0).held.down := by
  have alive : (after built).scene.isAlive 0 := by decide +kernel
  obtain ⟨since, past, settled⟩ := sync_agrees_iff built alive .control 5
  refine ⟨alive, (settled fun x hx e told => ?_).2.1 (by decide +kernel)⟩
  rw [perform_of_idle (by decide +kernel) _ 10 (by decide +kernel)] at past
  have all : ∀ x ∈ (after (built ++ .command (.sync 0 .control 5) ::
      List.replicate 10 .go)).session.state.journal.about 0,
      ∀ e ∈ x.arrival?, e ∈ Modifiers.control.plan ((after built).book 0).held.down 5 := by
    decide +kernel
  exact all x (by rw [past]; exact List.mem_append_left _ hx) e told

def controlPress : KeyEvent :=
  { time := 5, isPress := true, keycode := 0x25, keyval := 0xffe3, modifiers := .control,
    synthesized := true }

/-- The control key is pressed for a modifier word and released for the next, and nobody claims
either event: both are handed back and queued. -/
def controlReturned : List Move :=
  built ++ .command (.sync 0 .control 5) :: List.replicate 10 .go ++
    .command (.sync 0 .none 5) :: List.replicate 10 .go

/-- The same press, planned once more, is taken for the replay of the first: the key stays up. -/
theorem sync_swallowed :
    let m := after controlReturned
    let s := (m.session.perform (.sync 0 .control 5)).1
    m.tasks = [] ∧ m.scene.isAlive 0 ∧
      Modifiers.control.plan (m.book 0).held.down 5 = [controlPress] ∧
      s.state.journal.about 0 =
        .replayed 1 controlPress :: .synchronizing .control 1 :: m.past 0 ∧
      ¬ Modifiers.control.Agrees (s.state.book 0).held.down := by
  have idle : (after controlReturned).tasks = [] := by decide +kernel
  have ran := perform_of_idle idle (.sync 0 .control 5) 2 (by decide +kernel)
  simp only [ran]
  exact ⟨idle, by decide +kernel, by decide +kernel, by decide +kernel, by decide +kernel⟩

end Moment

end KeyArbiter
