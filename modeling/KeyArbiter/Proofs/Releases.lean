import KeyArbiter.Proofs.Keystroke
import Mathlib

/-!
# Keys on their way up

A key that is released stays held until its release is settled. So the held keys and the open cases
tell of the same releases, and both can be read off the history: nothing keeps a key for good, and
nothing drops it too early.
-/

namespace KeyArbiter

/-! ## The latest of a list -/

section Latest

variable {α β : Type} {p : α → Bool}

def latest? (p : α → Bool) (l : List α) : Option α := l.reverse.find? p

theorem latest?_concat (l : List α) (x : α) :
    latest? p (l ++ [x]) = if p x then some x else latest? p l := by
  cases h : p x <;> simp [latest?, h]

theorem latest?_map (f : β → α) (l : List β) :
    latest? p (l.map f) = (latest? (p ∘ f) l).map f := by
  rw [latest?, latest?, ← List.map_reverse, List.find?_map]

theorem latest?_mem {l : List α} {x : α} (h : latest? p l = some x) : x ∈ l ∧ p x = true :=
  ⟨List.mem_reverse.1 (List.mem_of_find?_eq_some h), List.find?_some h⟩

theorem latest?_eq_none {l : List α} : latest? p l = none ↔ ∀ x ∈ l, p x = false := by
  simp [latest?]

theorem latest?_max {f : α → Nat} {l : List α} (ascending : l.Pairwise fun x y => f x < f y) {x : α}
    (h : latest? p l = some x) : ∀ y ∈ l, p y = true → f y ≤ f x := by
  obtain ⟨-, before, later, split, none⟩ := List.find?_eq_some_iff_append.1 h
  have split' : l = later.reverse ++ x :: before.reverse := by
    rw [← List.reverse_reverse l, split]
    simp
  intro y hy py
  rw [split'] at hy ascending
  rcases List.mem_append.1 hy with hy | hy
  · exact le_of_lt ((List.pairwise_append.1 ascending).2.2 y hy x (List.mem_cons_self ..))
  · rcases List.mem_cons.1 hy with rfl | hy
    · exact le_rfl
    · have := none y (List.mem_reverse.1 hy)
      simp [py] at this

end Latest

/-! ## What the history tells of a key -/

/-- The release of a key that was held. -/
def Dispatch.releases (key : PhysicalKey) (d : Dispatch) : Bool :=
  d.physical == key && d.transition == .up && !d.orphan

theorem Dispatch.releases_iff {key : PhysicalKey} {d : Dispatch} :
    d.releases key = true ↔ d.physical = key ∧ d.transition = .up ∧ d.orphan = false := by
  simp [releases, and_assoc]

/-- The hold of a key: its latest event pressed it, or its latest release is not settled. -/
def holdOf (past : List Entry) (key : PhysicalKey) : Option Hold :=
  match latest? (·.physical == key) (dispatchesOf past) with
  | none => none
  | some d =>
    if d.transition = .up then
      match latest? (·.releases key) (dispatchesOf past) with
      | none => none
      | some r => if r.id ∈ settledOf past then none else some ⟨key, r.logical, some r.id⟩
    else some ⟨key, d.logical, none⟩

theorem latestRelease_eq_none {key : PhysicalKey} {ds : List Dispatch}
    (none : latest? (·.physical == key) ds = none) : latest? (·.releases key) ds = Option.none := by
  rw [latest?_eq_none] at none ⊢
  intro x hx
  have other := none x hx
  simp only [beq_eq_false_iff_ne] at other
  simp [Dispatch.releases, other]

section HoldOf

variable {past past' : List Entry} {key : PhysicalKey} {id : Nat}

theorem holdOf_releasing (under : (holdOf past key).bind (·.releasing) = some id) :
    ∃ r, latest? (·.releases key) (dispatchesOf past) = some r ∧ r.id = id ∧
      id ∉ settledOf past ∧ holdOf past key = some ⟨key, r.logical, some id⟩ := by
  unfold holdOf at under ⊢
  cases last : latest? (·.physical == key) (dispatchesOf past) with
  | none => simp [last] at under
  | some d =>
    by_cases up : d.transition = .up
    swap
    · simp [last, up] at under
    cases release : latest? (·.releases key) (dispatchesOf past) with
    | none => simp [last, up, release] at under
    | some r =>
      by_cases settled : r.id ∈ settledOf past
      · simp [last, up, release, settled] at under
      · obtain rfl : r.id = id := by simpa [last, up, release, settled] using under
        exact ⟨r, rfl, rfl, settled, by simp only [up, settled, if_true, if_false]⟩

theorem holdOf_settled (dispatches : dispatchesOf past' = dispatchesOf past)
    (settled : settledOf past' = id :: settledOf past) :
    holdOf past' key =
      if (holdOf past key).bind (·.releasing) = some id then none else holdOf past key := by
  unfold holdOf
  rw [dispatches, settled]
  cases latest? (·.physical == key) (dispatchesOf past) with
  | none => simp
  | some d =>
    by_cases up : d.transition = .up
    swap
    · simp [up]
    cases latest? (·.releases key) (dispatchesOf past) with
    | none => simp [up]
    | some r =>
      by_cases before : r.id ∈ settledOf past
      · simp [up, before]
      · by_cases now : r.id = id
        · subst now
          simp [up, before]
        · simp [up, now, before]

theorem isSome_holdOf : (holdOf past key).isSome ↔
    (∃ d, latest? (·.physical == key) (dispatchesOf past) = some d ∧ d.transition ≠ .up) ∨
      ∃ r, latest? (·.releases key) (dispatchesOf past) = some r ∧ r.id ∉ settledOf past := by
  unfold holdOf
  cases last : latest? (·.physical == key) (dispatchesOf past) with
  | none =>
    have none : latest? (·.releases key) (dispatchesOf past) = none := latestRelease_eq_none last
    simp [none]
  | some d =>
    by_cases up : d.transition = .up
    · cases latest? (·.releases key) (dispatchesOf past) with
      | none => simp [up]
      | some r => by_cases settled : r.id ∈ settledOf past <;> simp [up, settled]
    · simp [up]

end HoldOf

/-! ## The table of held keys -/

namespace HeldKeys

variable (k : HeldKeys) (key : PhysicalKey)

theorem find?_insert (h : Hold) :
    (k.insert h).find? key = if h.physical = key then some h else k.find? key :=
  Hold.find?_insert h k.holds key

variable {k key}

theorem physical_of_find? {h : Hold} (found : k.find? key = some h) : h.physical = key :=
  by simpa using List.find?_some found

theorem logical?_eq_some {logical : LogicalKey} :
    k.logical? key = some logical ↔ k.find? key = some ⟨key, logical, none⟩ := by
  unfold logical?
  constructor
  · intro down
    split at down
    · next physical logical' found =>
      cases down
      obtain rfl := physical_of_find? found
      exact found
    · cases down
  · intro found
    rw [found]

theorem find?_finishRelease (released : PhysicalKey) (id : Nat) :
    (k.finishRelease released id).find? key =
      if key = released ∧ (k.find? key).bind (·.releasing) = some id then none
      else k.find? key := by
  have erased : (k.erase released).find? key = if key = released then none else k.find? key := by
    unfold erase find?
    rw [List.find?_filter]
    split
    · next eq =>
      rw [List.find?_eq_none]
      intro h _
      simp [eq]
    · next ne =>
      congr 1
      funext h
      by_cases same : h.physical = key <;> simp [same, ne]
  unfold finishRelease
  by_cases eq : key = released
  · subst eq
    cases found : k.find? key with
    | none => simp [found]
    | some h =>
      by_cases under : h.releasing = some id
      · simp [under, erased]
      · simp [under, found]
  · rw [if_neg fun h => eq h.1]
    split
    · split
      · rw [erased, if_neg eq]
      · rfl
    · rfl

theorem find?_settle (d : Dispatch) :
    (k.settle d).find? key =
      if d.transition = .up ∧ key = d.physical ∧ (k.find? key).bind (·.releasing) = some d.id
      then none else k.find? key := by
  unfold settle
  by_cases up : d.transition = .up
  · rw [if_pos up, find?_finishRelease]
    simp only [up, true_and]
  · rw [if_neg up, if_neg fun h => up h.1]

theorem mem_toList_iff {k : HeldKeys} : key ∈ k.toList.map Prod.fst ↔ (k.find? key).isSome := by
  rw [find?, List.find?_isSome, toList, List.map_map]
  simp

end HeldKeys

/-! ## Cases and dispatches -/

theorem Underway.mem_dispatched {setup : Setup} {d d' : Dispatch} {rs : List Responder}
    {left n : Nat} {claimed : Bool} {history : List Entry}
    (h : Underway setup d rs left claimed history) :
    .dispatched d' n ∈ history ↔ d' = d ∧ n = setup.responders.length := by
  have known : .dispatched d' n ∈ history ↔ (d', n) ∈ history.filterMap Entry.dispatch? := by
    simp [Entry.dispatch?_eq_some]
  rw [known, h.dispatched, List.mem_singleton, Prod.mk.injEq]

theorem resolved_mem_settlement (setup : Setup) (d : Dispatch) (claimed consumes refuses : Bool) :
    ∃ verdict, .resolved d.id verdict ∈ settlement setup d claimed consumes refuses :=
  ⟨_, List.mem_append_right _ (List.mem_cons_self ..)⟩

namespace Stage

variable {setup : Setup} {id : Nat} {D : Dossier}

theorem case_of_unsettled (stage : Stage setup id D) {d : Dispatch} {n : Nat}
    (mem : .dispatched d n ∈ D.history) (unsettled : ∀ verdict, .resolved id verdict ∉ D.history)
    (idle : ∀ claimed, .settle d claimed ∉ D.duties) :
    ∃ c ∈ D.cases, c.dispatch = d ∧ c.returned = false ∧ 0 < c.outstanding := by
  have settled {d : Dispatch} {claimed consumes refuses : Bool} (late : List Entry)
      {early : List Entry} (unsettled : ∀ verdict, .resolved d.id verdict ∉
        late ++ settlement setup d claimed consumes refuses ++ early) : False := by
    obtain ⟨verdict, mem⟩ := resolved_mem_settlement setup d claimed consumes refuses
    exact unsettled verdict (List.mem_append_left _ (List.mem_append_right _ mem))
  cases stage with
  | unborn => exact absurd mem List.not_mem_nil
  | waiting underway left =>
    obtain ⟨rfl, -⟩ := underway.mem_dispatched.1 mem
    exact ⟨_, List.mem_singleton_self _, rfl, rfl, left⟩
  | settling underway =>
    obtain ⟨rfl, -⟩ := underway.mem_dispatched.1 mem
    exact absurd (Multiset.mem_singleton_self _) (idle _)
  | closed underway | returned underway => exact (settled [] unsettled).elim
  | replayed underway => exact (settled [_] unsettled).elim

theorem dispatched_of_case (stage : Stage setup id D) {c : Case} (mem : c ∈ D.cases) :
    ∃ n, .dispatched c.dispatch n ∈ D.history := by
  cases stage with
  | unborn | closed | replayed => exact absurd mem List.not_mem_nil
  | waiting underway | settling underway =>
    obtain rfl := List.mem_singleton.1 mem
    exact ⟨_, underway.mem_dispatched.2 ⟨rfl, rfl⟩⟩
  | returned underway =>
    obtain rfl := List.mem_singleton.1 mem
    exact ⟨_, List.mem_append_right _ (underway.mem_dispatched.2 ⟨rfl, rfl⟩)⟩

end Stage

namespace Sound

variable {setup : Setup} {k : Desk}

theorem dispatched_of_owed (sound : Sound setup k) {d : Dispatch} {claimed : Bool}
    {others : Multiset Duty} (owed : k.duties = .settle d claimed ::ₘ others) :
    d ∈ dispatchesOf k.past := by
  obtain ⟨-, -, underway, -⟩ := (sound.stage d.id).of_settle (duties_dossier owed)
  exact mem_dispatchesOf.2 ⟨_, (List.mem_filter.1 (underway.mem_dispatched.2 ⟨rfl, rfl⟩)).1⟩

theorem dispatched_of_case (sound : Sound setup k) {c : Case} (mem : c ∈ k.book.docket.cases) :
    c.dispatch ∈ dispatchesOf k.past := by
  obtain ⟨n, here⟩ := (sound.stage c.dispatch.id).dispatched_of_case
    ((Docket.mem_casesOf _).2 ⟨mem, rfl⟩)
  exact mem_dispatchesOf.2 ⟨n, (List.mem_filter.1 here).1⟩

theorem case_of_unsettled (sound : Sound setup k) (only : OnlyAnswers k.duties) {d : Dispatch}
    (mem : d ∈ dispatchesOf k.past) (unsettled : d.id ∉ settledOf k.past) :
    ∃ c ∈ k.book.docket.cases, c.dispatch = d ∧ c.returned = false ∧ 0 < c.outstanding := by
  obtain ⟨n, mem⟩ := mem_dispatchesOf.1 mem
  have here : .dispatched d n ∈ (k.dossier d.id).history :=
    List.mem_filter.2 ⟨mem, decide_eq_true rfl⟩
  obtain ⟨c, hc, rest⟩ := (sound.stage d.id).case_of_unsettled here
    (fun verdict resolved => unsettled (mem_settledOf.2 ⟨verdict, (List.mem_filter.1 resolved).1⟩))
    (fun claimed owed => by cases only _ (Multiset.mem_filter.1 owed).1)
  exact ⟨c, ((Docket.mem_casesOf _).1 hc).1, rest⟩

end Sound

/-! ## The table agrees with the history -/

structure Tallies (k : Desk) : Prop where
  held : ∀ key, k.book.held.find? key = holdOf k.past key
  unsettled : ∀ id, k.book.docket.Waits id → id ∉ settledOf k.past
  /-- A release is the latest one of its key, unless the key was pressed since. -/
  releases : ∀ r ∈ dispatchesOf k.past, r.releases r.physical = true →
    latest? (·.releases r.physical) (dispatchesOf k.past) = some r ∨
      ∃ p ∈ dispatchesOf k.past, p.physical = r.physical ∧ p.transition ≠ .up ∧ r.id < p.id
  /-- A key that was pressed is down, unless it was released since. -/
  presses : ∀ p ∈ dispatchesOf k.past, p.transition ≠ .up →
    (∃ d, latest? (·.physical == p.physical) (dispatchesOf k.past) = some d ∧ d.transition ≠ .up) ∨
      ∃ r, latest? (·.releases p.physical) (dispatchesOf k.past) = some r ∧ p.id < r.id

namespace Tallies

variable {setup : Setup} {k k' : Desk}

theorem logical?_eq_some (h : Tallies k) {key : PhysicalKey} {logical : LogicalKey} :
    k.book.held.logical? key = some logical ↔
      ∃ d, latest? (·.physical == key) (dispatchesOf k.past) = some d ∧ d.transition ≠ .up ∧
        d.logical = logical := by
  rw [HeldKeys.logical?_eq_some, h.held, holdOf]
  cases latest? (·.physical == key) (dispatchesOf k.past) with
  | none => simp
  | some d =>
    by_cases up : d.transition = .up
    · simp only [up, if_true]
      cases latest? (·.releases key) (dispatchesOf k.past) with
      | none => simp [up]
      | some r => by_cases settled : r.id ∈ settledOf k.past <;> simp [up, settled]
    · simp [up]

/-! ### Fresh events -/

theorem latest?_fresh {past : List Entry} {d : Dispatch} {n : Nat} (key : PhysicalKey) :
    latest? (·.physical == key) (dispatchesOf (.dispatched d n :: past)) =
      if d.physical = key then some d else latest? (·.physical == key) (dispatchesOf past) := by
  rw [dispatchesOf_dispatched, latest?_concat]
  simp

theorem latestRelease_fresh {past : List Entry} {d : Dispatch} {n : Nat} (key : PhysicalKey) :
    latest? (·.releases key) (dispatchesOf (.dispatched d n :: past)) =
      if d.releases key = true then some d else latest? (·.releases key) (dispatchesOf past) := by
  rw [dispatchesOf_dispatched, latest?_concat]

theorem settledOf_dispatched (d : Dispatch) (n : Nat) (past : List Entry) :
    settledOf (.dispatched d n :: past) = settledOf past := rfl

theorem fresh_held (h : Tallies k) {e : KeyEvent} {d : Dispatch} {n : Nat} {held : HeldKeys}
    (stroke : Keystroke k.book.held (k.book.docket.lastId + 1) e d held)
    (new : k.book.docket.lastId + 1 ∉ settledOf k.past) (key : PhysicalKey) :
    held.find? key = holdOf (.dispatched d n :: k.past) key := by
  have old := h.held key
  rw [holdOf, latest?_fresh, latestRelease_fresh, settledOf_dispatched]
  -- Other keys are as they were.
  by_cases own : d.physical = key
  swap
  · have silent : d.releases key = false := by simp [Dispatch.releases, own]
    rw [if_neg own, silent, if_neg Bool.false_ne_true]
    refine Eq.trans ?_ old
    cases stroke with
    | down | up => rw [HeldKeys.find?_insert, if_neg own]
    | repeated | orphan => rfl
  subst own
  rw [if_pos rfl]
  cases stroke with
  | down press up logical =>
    rw [HeldKeys.find?_insert, if_pos rfl]
    rfl
  | repeated press isDown =>
    rw [HeldKeys.logical?_eq_some] at isDown
    exact isDown
  | up release isDown =>
    rw [HeldKeys.find?_insert, if_pos rfl]
    simp [Dispatch.releases, new]
  | orphan release isUp logical =>
    -- Its press was released before, if there was one: the latest release of the key stays.
    have released (d : Dispatch) (last : latest? (·.physical == PhysicalKey.ofKeycode e.keycode)
        (dispatchesOf k.past) = some d) : d.transition = .up := by
      by_contra press
      rw [h.logical?_eq_some.2 ⟨d, last, press, rfl⟩] at isUp
      cases isUp
    have silent : Dispatch.releases (.ofKeycode e.keycode)
        ⟨e, k.book.docket.lastId + 1, .up, .ofKeycode e.keycode, logical, true⟩ = false := by
      simp [Dispatch.releases]
    rw [old, holdOf]
    simp only [silent, Bool.false_eq_true, if_false, if_true]
    cases last : latest? (·.physical == PhysicalKey.ofKeycode e.keycode) (dispatchesOf k.past) with
    | some d => simp only [released d last, if_true]
    | none =>
      rw [latestRelease_eq_none last]

section Fresh

variable {e : KeyEvent} {d : Dispatch} {n : Nat} {held : HeldKeys}

theorem mem_fresh {past : List Entry} {x : Dispatch} :
    x ∈ dispatchesOf (.dispatched d n :: past) ↔ x ∈ dispatchesOf past ∨ x = d := by
  rw [dispatchesOf_dispatched, List.mem_append, List.mem_singleton]

theorem fresh_releases (h : Tallies k) (enrolled : Enrolled k)
    (stroke : Keystroke k.book.held (k.book.docket.lastId + 1) e d held) :
    ∀ r ∈ dispatchesOf (.dispatched d n :: k.past), r.releases r.physical = true →
      latest? (·.releases r.physical) (dispatchesOf (.dispatched d n :: k.past)) = some r ∨
        ∃ p ∈ dispatchesOf (.dispatched d n :: k.past), p.physical = r.physical ∧
          p.transition ≠ .up ∧ r.id < p.id := by
  intro r hr releases
  rw [latestRelease_fresh]
  rcases mem_fresh.1 hr with old | rfl
  · by_cases again : d.releases r.physical = true
    · -- The key was down before the new release: it was pressed after the old one.
      obtain ⟨own, up, known⟩ := Dispatch.releases_iff.1 again
      have isDown := stroke.isDown_of_release up known
      rw [own] at isDown
      obtain ⟨p, last, press, -⟩ := h.logical?_eq_some.1 isDown
      obtain ⟨hp, here⟩ := latest?_mem last
      have after : r.id ≤ p.id := latest?_max enrolled.ascending last r old (by simp)
      have ne : r.id ≠ p.id := by
        intro same
        obtain rfl := enrolled.eq_of_id old hp same
        exact press (Dispatch.releases_iff.1 releases).2.1
      exact .inr ⟨p, mem_fresh.2 (.inl hp), by simpa using here, press, by omega⟩
    · rw [if_neg again]
      exact (h.releases r old releases).imp_right fun ⟨p, hp, rest⟩ =>
        ⟨p, mem_fresh.2 (.inl hp), rest⟩
  · rw [if_pos releases]
    exact .inl rfl

theorem fresh_presses (h : Tallies k) (enrolled : Enrolled k)
    (stroke : Keystroke k.book.held (k.book.docket.lastId + 1) e d held) :
    ∀ p ∈ dispatchesOf (.dispatched d n :: k.past), p.transition ≠ .up →
      (∃ q, latest? (·.physical == p.physical) (dispatchesOf (.dispatched d n :: k.past)) = some q ∧
        q.transition ≠ .up) ∨
      ∃ r, latest? (·.releases p.physical) (dispatchesOf (.dispatched d n :: k.past)) = some r ∧
        p.id < r.id := by
  intro p hp press
  rw [latest?_fresh, latestRelease_fresh]
  rcases mem_fresh.1 hp with old | rfl
  · by_cases own : d.physical = p.physical
    swap
    · have silent : d.releases p.physical = false := by simp [Dispatch.releases, own]
      rw [if_neg own, silent, if_neg Bool.false_ne_true]
      exact h.presses p old press
    rw [if_pos own]
    by_cases up : d.transition = .up
    · cases orphan : d.orphan with
      | false =>
        rw [if_pos (Dispatch.releases_iff.2 ⟨own, up, orphan⟩)]
        have := enrolled.known p old
        have := stroke.id_eq
        exact .inr ⟨d, rfl, by omega⟩
      | true =>
        -- The key was up already.
        have silent : ¬ d.releases p.physical = true := by
          rw [Dispatch.releases_iff, orphan]
          simp
        rw [if_neg silent]
        refine .inr ((h.presses p old press).resolve_left ?_)
        rintro ⟨q, last, down⟩
        have isUp := stroke.isUp_of_orphan orphan
        rw [own, h.logical?_eq_some.2 ⟨q, last, down, rfl⟩] at isUp
        cases isUp
    · exact .inl ⟨d, rfl, up⟩
  · rw [if_pos rfl]
    exact .inl ⟨p, rfl, press⟩

theorem fresh (h : Tallies k) (sound : Sound setup k) (enrolled : Enrolled k)
    (stroke : Keystroke k.book.held (k.book.docket.lastId + 1) e d k'.book.held)
    (past : k'.past = .dispatched d n :: k.past)
    (docket : k'.book.docket = k.book.docket.enter d n) : Tallies k' := by
  have new : k.book.docket.lastId + 1 ∉ settledOf k.past := by
    intro settled
    obtain ⟨claimed, mem⟩ := mem_settledOf.1 settled
    have := sound.le_lastId_of_entry mem rfl
    omega
  refine ⟨?_, ?_, ?_, ?_⟩ <;> rw [past]
  · exact h.fresh_held stroke new
  · intro id waits
    rw [settledOf_dispatched]
    rw [docket] at waits
    rcases Docket.waits_enter waits with waits | rfl
    · exact h.unsettled id waits
    · rwa [stroke.id_eq]
  · exact h.fresh_releases enrolled stroke
  · exact h.fresh_presses enrolled stroke

end Fresh

/-! ### Settled events -/

theorem settled (h : Tallies k) (sound : Sound setup k) (enrolled : Enrolled k) {d : Dispatch}
    {claimed : Bool} {others : Multiset Duty} (owed : k.duties = .settle d claimed ::ₘ others)
    (held : k'.book.held = k.book.held.settle d)
    (dispatches : dispatchesOf k'.past = dispatchesOf k.past)
    (settled : settledOf k'.past = d.id :: settledOf k.past)
    (waits : ∀ id, k'.book.docket.Waits id → k.book.docket.Waits id)
    (gone : k.book.docket.Ordered → ¬ k'.book.docket.Waits d.id) : Tallies k' := by
  refine ⟨fun key => ?_, ?_, by rw [dispatches]; exact h.releases,
    by rw [dispatches]; exact h.presses⟩
  · rw [held, HeldKeys.find?_settle, h.held, holdOf_settled dispatches settled]
    by_cases under : (holdOf k.past key).bind (·.releasing) = some d.id
    · obtain ⟨r, last, same, -, -⟩ := holdOf_releasing under
      obtain ⟨hr, releases⟩ := latest?_mem last
      obtain rfl := enrolled.eq_of_id hr (sound.dispatched_of_owed owed) same
      obtain ⟨own, up, -⟩ := Dispatch.releases_iff.1 releases
      rw [if_pos ⟨up, own.symm, under⟩, if_pos under]
    · rw [if_neg fun h => under h.2.2, if_neg under]
  · intro id here
    rw [settled, List.mem_cons, not_or]
    refine ⟨?_, h.unsettled id (waits id here)⟩
    rintro rfl
    exact gone sound.ordered here

/-- Every change keeps the table in agreement with the history. -/
theorem turn (turn : Turn k k') (sound : Sound setup k) (enrolled : Enrolled k) (h : Tallies k) :
    Tallies k' := by
  cases turn with
  | fresh stroke past docket => exact h.fresh sound enrolled stroke past docket
  | settled owed held dispatches settled lastId waits gone =>
    exact h.settled sound enrolled owed held dispatches settled waits gone
  | quiet held dispatches settled lastId waits =>
    have same (key : PhysicalKey) : holdOf k'.past key = holdOf k.past key := by
      unfold holdOf
      rw [dispatches, settled]
    refine ⟨fun key => ?_, fun id here => ?_, by rw [dispatches]; exact h.releases,
      by rw [dispatches]; exact h.presses⟩
    · rw [held, same]
      exact h.held key
    · rw [settled]
      exact h.unsettled id (waits id here)

/-! ### What is told of open releases -/

theorem case_of_releasing (h : Tallies k) (sound : Sound setup k) (only : OnlyAnswers k.duties)
    {hold : Hold} (mem : hold ∈ k.book.held.holds) {id : Nat} (under : hold.releasing = some id) :
    ∃ c ∈ k.book.docket.cases, c.dispatch.id = id ∧ c.returned = false ∧ 0 < c.outstanding ∧
      c.dispatch.transition = .up ∧ c.dispatch.orphan = false ∧
      c.dispatch.physical = hold.physical ∧ c.dispatch.logical = hold.logical := by
  have found := h.held hold.physical
  rw [HeldKeys.find?_of_mem mem] at found
  have release : (holdOf k.past hold.physical).bind (·.releasing) = some id := by
    rw [← found]
    exact under
  obtain ⟨r, last, rfl, unsettled, eq⟩ := holdOf_releasing release
  obtain ⟨hr, releases⟩ := latest?_mem last
  obtain ⟨own, up, known⟩ := Dispatch.releases_iff.1 releases
  obtain ⟨c, hc, rfl, here, left⟩ := sound.case_of_unsettled only hr unsettled
  have logical : hold.logical = c.dispatch.logical :=
    congrArg Hold.logical (Option.some.inj (found.trans eq))
  exact ⟨c, hc, rfl, here, left, up, known, own, logical.symm⟩

/-- The release of an open case is under way, unless its key was pressed since. -/
theorem releasing_iff (h : Tallies k) (enrolled : Enrolled k) {r : Dispatch}
    (mem : r ∈ dispatchesOf k.past) (up : r.transition = .up) (known : r.orphan = false)
    (unsettled : r.id ∉ settledOf k.past) :
    (∃ hold ∈ k.book.held.holds, hold.physical = r.physical ∧ hold.releasing = some r.id) ↔
      ∀ p ∈ dispatchesOf k.past, p.physical = r.physical → p.transition ≠ .up → p.id < r.id := by
  constructor
  · rintro ⟨hold, hh, own, under⟩ p hp same press
    have found := h.held r.physical
    rw [← own, HeldKeys.find?_of_mem hh, own] at found
    have release : (holdOf k.past r.physical).bind (·.releasing) = some r.id := by
      rw [← found]
      exact under
    obtain ⟨r', last', id, -, -⟩ := holdOf_releasing release
    obtain rfl := enrolled.eq_of_id (latest?_mem last').1 mem id
    rcases h.presses p hp press with ⟨d, last, down⟩ | ⟨r'', last, later⟩
    · have isDown := h.logical?_eq_some.2 ⟨d, last, down, rfl⟩
      rw [same, HeldKeys.logical?_eq_some, h.held, ← found] at isDown
      cases isDown
      cases under
    · rw [same, last'] at last
      cases last
      exact later
  · intro unpressed
    have releases := Dispatch.releases_iff.2 ⟨rfl, up, known⟩
    have last := (h.releases r mem releases).resolve_right
      fun ⟨p, hp, own, press, later⟩ => by have := unpressed p hp own press; omega
    have found : k.book.held.find? r.physical = some ⟨r.physical, r.logical, some r.id⟩ := by
      rw [h.held, holdOf]
      cases latest : latest? (·.physical == r.physical) (dispatchesOf k.past) with
      | none =>
        have := latest?_eq_none.1 latest r mem
        simp at this
      | some d =>
        obtain ⟨hd, own⟩ := latest?_mem latest
        have after : r.id ≤ d.id := latest?_max enrolled.ascending latest r mem (by simp)
        have released : d.transition = .up := by
          by_contra press
          have := unpressed d hd (by simpa using own) press
          omega
        simp only [released, last, unsettled, if_true, if_false]
    exact ⟨_, List.mem_of_find?_eq_some found, rfl, rfl⟩

theorem mem_toList_iff (h : Tallies k) (enrolled : Enrolled k) {key : PhysicalKey} :
    key ∈ k.book.held.toList.map Prod.fst ↔
      (∃ e, latest? (PhysicalKey.ofKeycode ·.keycode == key) (freshOf k.past) = some e ∧
        e.isPress = true) ∨
      ∃ r, latest? (·.releases key) (dispatchesOf k.past) = some r ∧ r.id ∉ settledOf k.past := by
  have same : latest? (·.physical == key) (dispatchesOf k.past) =
      latest? ((PhysicalKey.ofKeycode ·.keycode == key) ∘ Dispatch.event)
        (dispatchesOf k.past) := by
    refine List.find?_congr fun d hd => ?_
    rw [enrolled.physical d (List.mem_reverse.1 hd)]
    rfl
  rw [HeldKeys.mem_toList_iff, h.held, isSome_holdOf, freshOf, latest?_map, same]
  refine or_congr ?_ Iff.rfl
  constructor
  · rintro ⟨d, last, down⟩
    exact ⟨d.event, by rw [last]; rfl, (enrolled.press d (latest?_mem last).1).2 down⟩
  · rintro ⟨e, last, press⟩
    obtain ⟨d, found, rfl⟩ := Option.map_eq_some_iff.1 last
    exact ⟨d, found, (enrolled.press d (latest?_mem found).1).1 press⟩

theorem of_blank (blank : k.Blank) : Tallies k := by
  have none : dispatchesOf k.past = [] := dispatchesOf_of_blank blank
  refine ⟨fun key => ?_, ?_, by simp [none], by simp [none]⟩
  · rw [blank.book, holdOf, none]
    rfl
  · rw [blank.book]
    rintro id ⟨c, hc, -⟩
    exact absurd hc List.not_mem_nil

end Tallies

/-! ## At every moment -/

namespace Moment

theorem tallies (moves : List Move) {a : ArbiterId} (alive : (after moves).scene.isAlive a) :
    Enrolled ((after moves).desk a) ∧ Tallies ((after moves).desk a) := by
  obtain ⟨start, blank, course⟩ := exists_course moves alive
  have keeps {k k' : Desk} (change : Change ((after moves).scene.setup a) (layouts moves a) k k')
      (h : Sound ((after moves).scene.setup a) k ∧ Enrolled k ∧ Tallies k) :
      Sound ((after moves).scene.setup a) k' ∧ Enrolled k' ∧ Tallies k' := by
    obtain ⟨sound, enrolled, tallies⟩ := h
    exact ⟨sound.change alive change, enrolled.turn change.turn,
      tallies.turn change.turn sound enrolled⟩
  exact (course.preserves keeps ⟨.of_blank blank, .of_blank blank, .of_blank blank⟩).2

/-- Every release under way is that of an open case for a release of the same key, and every such
case is the release under way of its key, unless the key was pressed since. So the keys that are
told as held are those whose latest event is a press, and those whose latest release is not settled;
once no case is open, only the first. -/
theorem held_until_settled (moves : List Move) {a : ArbiterId}
    (alive : (after moves).scene.isAlive a) (idle : (after moves).tasks = []) :
    let m := after moves
    let held := (m.book a).held
    let docket := (m.book a).docket
    let pressed (key : PhysicalKey) : Prop :=
      ∃ e, latest? (PhysicalKey.ofKeycode ·.keycode == key) (m.freshEvents a) = some e ∧
        e.isPress = true
    (∀ h ∈ held.holds, ∀ id, h.releasing = some id → ∃ c ∈ docket.cases, c.dispatch.id = id ∧
      c.returned = false ∧ 0 < c.outstanding ∧ c.dispatch.transition = .up ∧
      c.dispatch.orphan = false ∧ c.dispatch.physical = h.physical ∧
      c.dispatch.logical = h.logical) ∧
    (∀ c ∈ docket.cases, c.returned = false → c.dispatch.transition = .up →
      c.dispatch.orphan = false →
      ((∃ h ∈ held.holds, h.physical = c.dispatch.physical ∧ h.releasing = some c.dispatch.id) ↔
        ∀ p ∈ m.dispatches a, p.physical = c.dispatch.physical → p.event.isPress = true →
          p.id < c.dispatch.id)) ∧
    (∀ key, key ∈ held.toList.map Prod.fst ↔ pressed key ∨
      ∃ r, latest? (·.releases key) (m.dispatches a) = some r ∧
        ∀ claimed, .resolved r.id claimed ∉ m.past a) ∧
    (docket.awaiting = 0 → ∀ key, key ∈ held.toList.map Prod.fst ↔ pressed key) := by
  have sound := Moment.sound moves alive
  have only := onlyAnswers idle a
  obtain ⟨enrolled, tallies⟩ := tallies moves alive
  intro m held docket pressed
  refine ⟨?_, ?_, ?_, ?_⟩
  · intro h hh id under
    exact tallies.case_of_releasing sound only hh under
  · intro c hc here up known
    have mem := sound.dispatched_of_case hc
    have unsettled := tallies.unsettled _ ⟨c, hc, rfl, here⟩
    refine (tallies.releasing_iff enrolled mem up known unsettled).trans ?_
    refine forall₂_congr fun p hp => ?_
    rw [enrolled.press p hp]
  · intro key
    refine (tallies.mem_toList_iff enrolled).trans ?_
    simp only [mem_settledOf, not_exists]
    exact Iff.rfl
  · intro none key
    refine (tallies.mem_toList_iff enrolled).trans (or_iff_left ?_)
    rintro ⟨r, last, unsettled⟩
    obtain ⟨c, hc, -, here, -⟩ := sound.case_of_unsettled only (latest?_mem last).1 unsettled
    have := List.countP_eq_zero.1 none c hc
    simp [here] at this

/-- A key is pressed, released, pressed again and released again, with all answers held back. -/
def twoReleases : List Move :=
  .command (.build { embedderResponder := false, channelResponder := false } false [.hold]) ::
    ([aPress, { aPress with isPress := false }, aPress, { aPress with isPress := false }].flatMap
      fun e => .command (.event 0 e) :: List.replicate 2 .go)

theorem held_until_settled_twoReleases :
    (after twoReleases).scene.isAlive 0 ∧ (after twoReleases).tasks = [] ∧
      ((after twoReleases).book 0).held.holds = [⟨⟨0x70004⟩, ⟨0x61⟩, some 4⟩] ∧
      (∃ c ∈ ((after twoReleases).book 0).docket.cases, c.dispatch.id = 4 ∧ 0 < c.outstanding) ∧
      ⟨0x70004⟩ ∈ ((after twoReleases).book 0).held.toList.map Prod.fst := by
  have alive : (after twoReleases).scene.isAlive 0 := by decide +kernel
  have idle : (after twoReleases).tasks = [] := by decide +kernel
  have holds : ((after twoReleases).book 0).held.holds = [⟨⟨0x70004⟩, ⟨0x61⟩, some 4⟩] := by
    decide +kernel
  obtain ⟨under, -, listed, -⟩ := held_until_settled twoReleases alive idle
  refine ⟨alive, idle, holds, ?_, ?_⟩
  · obtain ⟨c, hc, id, -, left, -⟩ := under _ (by rw [holds]; exact List.mem_singleton_self _) 4 rfl
    exact ⟨c, hc, id, left⟩
  · let release : Dispatch := ⟨{ aPress with isPress := false }, 4, .up, ⟨0x70004⟩, ⟨0x61⟩, false⟩
    exact (listed _).2 (.inr ⟨release, by decide +kernel, by decide +kernel⟩)

end Moment

end KeyArbiter
