import KeyArbiter.Proofs.Agreement
import Mathlib

/-!
# Keystrokes

Of all that happens on a desk, only fresh events and settled releases change the held keys. `Turn`
tells them from the rest, and says what each does to the keys, the dispatches and the open cases.
-/

namespace KeyArbiter

/-! ## Fresh events -/

/-- What a fresh event does to the held keys, and how it is dispatched under this number. -/
inductive Keystroke (held : HeldKeys) (id : Nat) (e : KeyEvent) : Dispatch → HeldKeys → Prop
  | down (press : e.isPress = true)
    (up : held.logical? (PhysicalKey.ofKeycode e.keycode) = none) (logical : LogicalKey) :
    Keystroke held id e ⟨e, id, .down, .ofKeycode e.keycode, logical, false⟩
      (held.insert ⟨.ofKeycode e.keycode, logical, none⟩)
  | repeated {first : LogicalKey} (press : e.isPress = true)
    (isDown : held.logical? (PhysicalKey.ofKeycode e.keycode) = some first) :
    Keystroke held id e ⟨e, id, .repeated, .ofKeycode e.keycode, first, false⟩ held
  | up {first : LogicalKey} (release : e.isPress = false)
    (isDown : held.logical? (PhysicalKey.ofKeycode e.keycode) = some first) :
    Keystroke held id e ⟨e, id, .up, .ofKeycode e.keycode, first, false⟩
      (held.insert ⟨.ofKeycode e.keycode, first, some id⟩)
  | orphan (release : e.isPress = false)
    (isUp : held.logical? (PhysicalKey.ofKeycode e.keycode) = none) (logical : LogicalKey) :
    Keystroke held id e ⟨e, id, .up, .ofKeycode e.keycode, logical, true⟩ held

namespace Keystroke

variable {held held' : HeldKeys} {id : Nat} {e : KeyEvent} {d : Dispatch}

theorem id_eq (stroke : Keystroke held id e d held') : d.id = id := by
  cases stroke <;> rfl

theorem physical_eq (stroke : Keystroke held id e d held') :
    d.physical = .ofKeycode d.event.keycode := by
  cases stroke <;> rfl

theorem isPress_iff (stroke : Keystroke held id e d held') :
    d.event.isPress = true ↔ d.transition ≠ .up := by
  cases stroke <;> simp_all

theorem isDown_of_release (stroke : Keystroke held id e d held') (up : d.transition = .up)
    (known : d.orphan = false) : held.logical? d.physical = some d.logical := by
  cases stroke with
  | down | repeated => cases up
  | up release isDown => exact isDown
  | orphan => cases known

theorem isUp_of_orphan (stroke : Keystroke held id e d held') (orphan : d.orphan = true) :
    held.logical? d.physical = none := by
  cases stroke with
  | down | repeated | up => cases orphan
  | orphan release isUp => exact isUp

theorem up_of_orphan (stroke : Keystroke held id e d held') (orphan : d.orphan = true) :
    d.transition = .up := by
  cases stroke <;> first | rfl | cases orphan

end Keystroke

theorem Book.keystroke (b : Book) (layout : Layout) (e : KeyEvent) :
    Keystroke b.held (b.docket.lastId + 1) e (b.dispatch layout e).2.1
      (b.dispatch layout e).1.held := by
  have kept : (b.resolve layout e).1.held = b.held := by
    unfold resolve
    split <;> rfl
  unfold dispatch
  cases press : e.isPress with
  | true =>
    simp only [if_true, HeldKeys.press, kept]
    cases down : b.held.logical? (.ofKeycode e.keycode) with
    | some first => exact .repeated press down
    | none => exact .down press down _
  | false =>
    simp only [Bool.false_eq_true, if_false, HeldKeys.release]
    cases down : b.held.logical? (.ofKeycode e.keycode) with
    | some first => exact .up press down
    | none =>
      simp only [Option.map_none, kept]
      exact .orphan press down _

/-! ## Settled events -/

def Entry.settled? : Entry → Option Nat
  | .resolved id _ => some id
  | _ => none

def settledOf (past : List Entry) : List Nat := past.filterMap Entry.settled?

theorem mem_settledOf {past : List Entry} {id : Nat} :
    id ∈ settledOf past ↔ ∃ claimed, .resolved id claimed ∈ past := by
  have settled? (x : Entry) : x.settled? = some id ↔ ∃ claimed, x = .resolved id claimed := by
    cases x <;> simp [Entry.settled?]
  simp only [settledOf, List.mem_filterMap, settled?]
  constructor
  · rintro ⟨x, hx, claimed, rfl⟩
    exact ⟨claimed, hx⟩
  · rintro ⟨claimed, hx⟩
    exact ⟨_, hx, claimed, rfl⟩

namespace Entry

/-- Neither a dispatch nor a settlement. -/
def Quiet (x : Entry) : Prop := x.dispatch? = none ∧ x.settled? = none

theorem quiet_of_idle {x : Entry} (idle : x.event? = none) : x.Quiet := by
  cases x with
  | dispatched | resolved => cases idle
  | _ => exact ⟨rfl, rfl⟩

theorem quiet_told {d : Dispatch} {r : Responder} : ∀ x ∈ r.told d, x.Quiet := by
  unfold Responder.told
  split
  · split <;> simp [Quiet, dispatch?, settled?]
  · simp [Quiet, dispatch?, settled?]
  · simp

theorem quiet_delivery (who : ResponderKind) (id : Nat) (answer : Delivery) :
    (answer.entry who id).Quiet := by
  cases answer <;> exact ⟨rfl, rfl⟩

end Entry

theorem settledOf_append {entries past : List Entry} (quiet : ∀ x ∈ entries, x.Quiet) :
    settledOf (entries ++ past) = settledOf past := by
  rw [settledOf, List.filterMap_append,
    List.filterMap_eq_nil_iff.2 fun x hx => (quiet x hx).2]
  rfl

/-! ## Open cases -/

namespace Docket

variable {k k' : Docket} {id : Nat}

def Waits (k : Docket) (id : Nat) : Prop := ∃ c ∈ k.cases, c.dispatch.id = id ∧ c.returned = false

theorem waits_enter {d : Dispatch} {n : Nat} (waits : (k.enter d n).Waits id) :
    k.Waits id ∨ id = d.id := by
  obtain ⟨c, hc, rfl, here⟩ := waits
  rcases List.mem_append.1 hc with hc | hc
  · exact .inl ⟨c, hc, rfl, here⟩
  · obtain rfl := List.mem_singleton.1 hc
    exact .inr rfl

theorem waits_close {other : Nat} (waits : (k.close other).Waits id) : k.Waits id ∧ id ≠ other := by
  obtain ⟨c, hc, rfl, here⟩ := waits
  obtain ⟨hc, ne⟩ := List.mem_filter.1 hc
  exact ⟨⟨c, hc, rfl, here⟩, by simpa using ne⟩

theorem waits_answer {other : Nat} {claimed : Bool} (waits : (k.answer other claimed).1.Waits id) :
    k.Waits id := by
  unfold answer at waits
  split at waits
  · exact waits
  · next c found =>
    obtain ⟨c', hc', rfl, here⟩ := waits
    obtain ⟨c₀, hc₀, rfl⟩ := List.mem_map.1 hc'
    split at here
    · next own =>
      rw [if_pos own]
      exact ⟨c, List.mem_of_find?_eq_some found, rfl, here⟩
    · next other =>
      rw [if_neg other]
      exact ⟨c₀, hc₀, rfl, here⟩

theorem waits_giveBack {other : Nat} {e : KeyEvent} (back : k.giveBack other = some (k', e))
    (waits : k'.Waits id) : k.Waits id ∧ id ≠ other := by
  unfold giveBack at back
  split at back
  · split at back
    · cases back
    · cases back
      obtain ⟨c, hc, rfl, here⟩ := waits
      obtain ⟨c₀, hc₀, rfl⟩ := List.mem_map.1 hc
      split at here
      · cases here
      · next ne =>
        rw [if_neg ne]
        exact ⟨⟨c₀, hc₀, rfl, here⟩, ne⟩
  · cases back

theorem not_waits_of_giveBack (ordered : k.Ordered) (kept : k.giveBack id = none) :
    ¬ k.Waits id := by
  rintro ⟨c, hc, own, here⟩
  unfold giveBack at kept
  split at kept
  · next c₀ found =>
    have hc₀ := List.mem_of_find?_eq_some found
    have own₀ : c₀.dispatch.id = id := by simpa using List.find?_some found
    have nodup : (k.cases.map (·.dispatch.id)).Nodup :=
      (List.pairwise_map.2 ordered).imp Nat.ne_of_lt
    obtain rfl := List.inj_on_of_nodup_map nodup hc₀ hc (own₀.trans own.symm)
    simp [here] at kept
  · next none =>
    have := List.find?_eq_none.1 none c hc
    simp [own] at this

end Docket

/-! ## What a change does to the keys -/

def HeldKeys.settle (held : HeldKeys) (d : Dispatch) : HeldKeys :=
  if d.transition = .up then held.finishRelease d.physical d.id else held

/-- What one change does to the held keys, and to what is told of them. -/
inductive Turn (k k' : Desk) : Prop
  | fresh {e : KeyEvent} {d : Dispatch} {n : Nat}
    (stroke : Keystroke k.book.held (k.book.docket.lastId + 1) e d k'.book.held)
    (past : k'.past = .dispatched d n :: k.past)
    (docket : k'.book.docket = k.book.docket.enter d n)
  | settled {d : Dispatch} {claimed : Bool} {others : Multiset Duty}
    (owed : k.duties = .settle d claimed ::ₘ others) (held : k'.book.held = k.book.held.settle d)
    (dispatches : dispatchesOf k'.past = dispatchesOf k.past)
    (settled : settledOf k'.past = d.id :: settledOf k.past)
    (lastId : k'.book.docket.lastId = k.book.docket.lastId)
    (waits : ∀ id, k'.book.docket.Waits id → k.book.docket.Waits id)
    (gone : k.book.docket.Ordered → ¬ k'.book.docket.Waits d.id)
  | quiet (held : k'.book.held = k.book.held)
    (dispatches : dispatchesOf k'.past = dispatchesOf k.past)
    (settled : settledOf k'.past = settledOf k.past)
    (lastId : k'.book.docket.lastId = k.book.docket.lastId)
    (waits : ∀ id, k'.book.docket.Waits id → k.book.docket.Waits id)

namespace Turn

variable {setup : Setup} {k k' : Desk}

theorem of_quiet (entries : List Entry) (past : k'.past = entries ++ k.past)
    (quiet : ∀ x ∈ entries, x.Quiet) (held : k'.book.held = k.book.held)
    (lastId : k'.book.docket.lastId = k.book.docket.lastId)
    (waits : ∀ id, k'.book.docket.Waits id → k.book.docket.Waits id) : Turn k k' :=
  .quiet held (by rw [past, dispatchesOf_append fun x hx => (quiet x hx).1])
    (by rw [past, settledOf_append quiet]) lastId waits

theorem arrive (k : Desk) (layout : Layout) (e : KeyEvent) : Turn k (k.arrive setup layout e) := by
  unfold Desk.arrive Book.arrive
  cases taken : k.book.docket.takeReplay e with
  | some p =>
    obtain ⟨docket, id⟩ := p
    obtain ⟨-, -, -, rfl, -⟩ := Docket.takeReplay_spec taken
    exact of_quiet [.replayed id e] rfl (by simp [Entry.Quiet, Entry.dispatch?, Entry.settled?]) rfl
      rfl fun _ waits => (Docket.waits_close waits).1
  | none =>
    have stroke := k.book.keystroke layout e
    obtain ⟨docket, -, -⟩ := k.book.dispatch_spec layout e
    exact .fresh stroke rfl (by simp only [docket])

theorem deliver (k : Desk) (id : Nat) (who : ResponderKind) (answer : Delivery)
    (others : Multiset Duty) : Turn k (k.deliver setup id who answer others) := by
  have noted := Entry.quiet_delivery who id answer
  have lastId := (k.book.alike_answer id answer.claimed).lastId
  have waits (id' : Nat) : (k.book.docket.answer id answer.claimed).1.Waits id' →
      k.book.docket.Waits id' := Docket.waits_answer
  unfold Desk.deliver
  simp only
  split
  · generalize k.book.docket.answer id answer.claimed = r at lastId waits
    obtain ⟨docket, verdict⟩ := r
    cases verdict with
    | untracked | complete => exact of_quiet [_] rfl (by simpa using noted) rfl lastId waits
    | waiting n =>
      refine of_quiet [.waiting id n, _] rfl ?_ rfl lastId waits
      exact List.forall_mem_cons.2 ⟨⟨rfl, rfl⟩, by simpa using noted⟩
  · refine of_quiet [.late id answer.claimed, _] rfl ?_ rfl rfl fun _ h => h
    exact List.forall_mem_cons.2 ⟨⟨rfl, rfl⟩, by simpa using noted⟩

end Turn

/-! ### Settling -/

theorem Book.held_settle (b : Book) (d : Dispatch) (claimed : Bool) :
    (b.settle d claimed).1.held = b.held.settle d := by
  unfold settle HeldKeys.settle
  simp only
  split
  · rfl
  · split <;> rfl

theorem Book.waits_settle (b : Book) (d : Dispatch) (claimed : Bool) :
    (∀ id, (b.settle d claimed).1.docket.Waits id → b.docket.Waits id) ∧
      (b.docket.Ordered → ¬ (b.settle d claimed).1.docket.Waits d.id) := by
  unfold settle
  simp only
  split
  · exact ⟨fun _ waits => (Docket.waits_close waits).1,
      fun _ waits => (Docket.waits_close waits).2 rfl⟩
  · split
    · next back =>
      exact ⟨fun _ waits => (Docket.waits_giveBack back waits).1,
        fun _ waits => (Docket.waits_giveBack back waits).2 rfl⟩
    · next kept =>
      exact ⟨fun _ h => h, fun ordered => Docket.not_waits_of_giveBack ordered kept⟩

namespace Turn

variable {setup : Setup} {k k' : Desk}

theorem of_settle {d : Dispatch} {claimed verdict : Bool} {others : Multiset Duty}
    (owed : k.duties = .settle d claimed ::ₘ others) (later earlier : List Entry)
    (past : k'.past = later ++ .resolved d.id verdict :: (earlier ++ k.past))
    (quiet : ∀ x ∈ later ++ earlier, x.Quiet)
    (held : k'.book.held = (k.book.settle d verdict).1.held)
    (lastId : k'.book.docket.lastId = (k.book.settle d verdict).1.docket.lastId)
    (waits : ∀ id, k'.book.docket.Waits id → (k.book.settle d verdict).1.docket.Waits id) :
    Turn k k' := by
  have later' : ∀ x ∈ later, x.Quiet := fun x hx => quiet x (List.mem_append_left _ hx)
  have earlier' : ∀ x ∈ earlier, x.Quiet := fun x hx => quiet x (List.mem_append_right _ hx)
  obtain ⟨from', gone⟩ := k.book.waits_settle d verdict
  refine .settled owed (held.trans (k.book.held_settle d verdict)) ?_ ?_
    (lastId.trans (k.book.alike_settle d verdict).lastId) (fun id h => from' id (waits id h))
    fun ordered h => gone ordered (waits d.id h)
  · rw [past, dispatchesOf_append fun x hx => (later' x hx).1]
    have resolved : ∀ x ∈ .resolved d.id verdict :: earlier, x.dispatch? = none :=
      List.forall_mem_cons.2 ⟨rfl, fun x hx => (earlier' x hx).1⟩
    rw [← List.cons_append, dispatchesOf_append resolved]
  · rw [past, settledOf_append later']
    change d.id :: settledOf _ = _
    rw [settledOf_append earlier']

theorem settle {d : Dispatch} {claimed : Bool} {others : Multiset Duty}
    (owed : k.duties = .settle d claimed ::ₘ others) (consumes refuses : Bool) :
    Turn k (k.settle setup d claimed consumes refuses others) := by
  have concluded (earlier : List Entry) (quiet : ∀ x ∈ earlier, x.Quiet) (verdict : Bool) :
      Turn k (Desk.conclude { k with past := earlier ++ k.past } d verdict refuses others) := by
    have handed (e : KeyEvent) : ∀ x ∈ .handedBack d.id e :: earlier, x.Quiet :=
      List.forall_mem_cons.2 ⟨⟨rfl, rfl⟩, quiet⟩
    have settled {k' : Desk} := @of_settle k k' d claimed verdict others owed
    unfold Desk.conclude
    simp only
    generalize k.book.settle d verdict = r at settled
    obtain ⟨book, none | e⟩ := r
    · exact settled [] earlier rfl quiet rfl rfl fun _ h => h
    · cases refuses with
      | true =>
        exact settled [.refused d.id, .handedBack d.id e] earlier rfl
          (List.forall_mem_cons.2 ⟨⟨rfl, rfl⟩, handed e⟩) rfl rfl
          fun _ waits => (Docket.waits_close waits).1
      | false =>
        exact settled [.handedBack d.id e] earlier rfl (handed e) rfl rfl
          fun _ h => h
  rw [Desk.settle, Desk.consult_eq]
  split
  · exact concluded [.filtered d.id d.event consumes]
      (by simp [Entry.Quiet, Entry.dispatch?, Entry.settled?]) consumes
  · exact concluded [] (List.forall_mem_nil _) claimed

end Turn

theorem Change.turn {setup : Setup} {layouts : Layout → Prop} {k k' : Desk}
    (change : Change setup layouts k k') : Turn k k' := by
  cases change with
  | @remark x idle =>
    exact .of_quiet [x] rfl (by simpa using Entry.quiet_of_idle idle) rfl rfl fun _ h => h
  | forgetLayout => exact .of_quiet [] rfl nofun rfl rfl fun _ h => h
  | arrive asked e => exact .arrive k _ e
  | @offer d r rs others owed =>
    refine .of_quiet (r.told d ++ [.offered d.id r.kind]) (by simp [Desk.offer]) ?_ rfl rfl
      fun _ h => h
    intro x hx
    rcases List.mem_append.1 hx with hx | hx
    · exact Entry.quiet_told x hx
    · obtain rfl := List.mem_singleton.1 hx
      exact ⟨rfl, rfl⟩
  | deliver owed who answer => exact .deliver k _ who answer _
  | settle owed consumes refuses => exact .settle owed consumes refuses

/-! ## The dispatches of a desk -/

theorem dispatchesOf_of_blank {k : Desk} (blank : k.Blank) : dispatchesOf k.past = [] := by
  rw [← List.append_nil k.past,
    dispatchesOf_append fun x hx => (Entry.quiet_of_idle (blank.past x hx)).1]
  rfl

structure Enrolled (k : Desk) : Prop where
  ascending : (dispatchesOf k.past).Pairwise (·.id < ·.id)
  known : ∀ d ∈ dispatchesOf k.past, d.id ≤ k.book.docket.lastId
  physical : ∀ d ∈ dispatchesOf k.past, d.physical = .ofKeycode d.event.keycode
  press : ∀ d ∈ dispatchesOf k.past, d.event.isPress = true ↔ d.transition ≠ .up
  orphan : ∀ d ∈ dispatchesOf k.past, d.orphan = true → d.transition = .up

namespace Enrolled

variable {k k' : Desk}

theorem keep (h : Enrolled k) (dispatches : dispatchesOf k'.past = dispatchesOf k.past)
    (lastId : k'.book.docket.lastId = k.book.docket.lastId) : Enrolled k' := by
  obtain ⟨ascending, known, physical, press, orphan⟩ := h
  exact ⟨by rwa [dispatches], by rwa [dispatches, lastId], by rwa [dispatches], by rwa [dispatches],
    by rwa [dispatches]⟩

theorem turn (turn : Turn k k') (h : Enrolled k) : Enrolled k' := by
  cases turn with
  | @fresh e d n stroke past docket =>
    have id := stroke.id_eq
    have last : k'.book.docket.lastId = d.id := by rw [docket]; rfl
    have dispatches : dispatchesOf k'.past = dispatchesOf k.past ++ [d] := by
      rw [past, dispatchesOf_dispatched]
    have all {p : Dispatch → Prop} (old : ∀ x ∈ dispatchesOf k.past, p x) (new : p d) :
        ∀ x ∈ dispatchesOf k'.past, p x := by
      rw [dispatches]
      intro x hx
      rcases List.mem_append.1 hx with hx | hx
      · exact old x hx
      · rwa [List.mem_singleton.1 hx]
    refine ⟨?_, all ?_ last.ge, all h.physical stroke.physical_eq,
      all h.press stroke.isPress_iff, all h.orphan stroke.up_of_orphan⟩
    · rw [dispatches]
      refine List.pairwise_append.2 ⟨h.ascending, List.pairwise_singleton _ _, ?_⟩
      intro x hx y hy
      obtain rfl := List.mem_singleton.1 hy
      have := h.known x hx
      omega
    · intro x hx
      have := h.known x hx
      omega
  | settled owed held dispatches settled lastId => exact h.keep dispatches lastId
  | quiet held dispatches settled lastId => exact h.keep dispatches lastId

theorem eq_of_id (h : Enrolled k) {d d' : Dispatch} (hd : d ∈ dispatchesOf k.past)
    (hd' : d' ∈ dispatchesOf k.past) (same : d.id = d'.id) : d = d' := by
  have nodup : ((dispatchesOf k.past).map Dispatch.id).Nodup :=
    (List.pairwise_map.2 h.ascending).imp Nat.ne_of_lt
  exact List.inj_on_of_nodup_map nodup hd hd' same

theorem of_blank (blank : k.Blank) : Enrolled k := by
  have none := dispatchesOf_of_blank blank
  refine ⟨by rw [none]; exact .nil, ?_, ?_, ?_, ?_⟩ <;> simp [none]

end Enrolled

end KeyArbiter
