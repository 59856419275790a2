import KeyArbiter.Proofs.Held
import KeyArbiter.Proofs.History
import KeyArbiter.Proofs.Resolution
import Mathlib

/-!
# Dispatches follow the keys

An automaton with one state for each key, up or down, gives every dispatch from the fresh events
alone: whatever was answered, and when, and whatever came back.
-/

namespace KeyArbiter

/-! ## The automaton -/

/-- The keys that are down, with the logical keys of their presses. -/
abbrev Keys := PhysicalKey → Option LogicalKey

namespace Keys

variable (ask : LayoutQuery → LogicalKey)

def next (keys : Keys) (id : Nat) (e : KeyEvent) : Keys × Dispatch :=
  let key := PhysicalKey.ofKeycode e.keycode
  match e.isPress, keys key with
  | true, none => (Function.update keys key (some (ask e.query)), ⟨e, id, .down, key, ask e.query, false⟩)
  | true, some first => (keys, ⟨e, id, .repeated, key, first, false⟩)
  | false, some first => (Function.update keys key none, ⟨e, id, .up, key, first, false⟩)
  | false, none => (keys, ⟨e, id, .up, key, ask e.query, true⟩)

/-- All events from the first, when all keys are up. Events are numbered from 1. -/
def run (events : List KeyEvent) : Keys × List Dispatch :=
  events.foldl (fun (keys, ds) e => ((keys.next ask (ds.length + 1) e).1,
    ds ++ [(keys.next ask (ds.length + 1) e).2])) (fun _ => none, [])

theorem run_concat (events : List KeyEvent) (e : KeyEvent) :
    run ask (events ++ [e]) =
      (((run ask events).1.next ask ((run ask events).2.length + 1) e).1,
        (run ask events).2 ++ [((run ask events).1.next ask ((run ask events).2.length + 1) e).2]) := by
  unfold run
  rw [List.foldl_append]
  rfl

end Keys

/-! ## Books -/

namespace Book

variable {ask : LayoutQuery → LogicalKey}

def Knows (ask : LayoutQuery → LogicalKey) (b : Book) : Prop := ∀ p ∈ b.known, p.2 = ask p.1

theorem resolve_spec {b : Book} (knows : b.Knows ask) {layout : Layout} (same : layout.lookup = ask)
    (e : KeyEvent) :
    (b.resolve layout e).2.1 = ask e.query ∧ (b.resolve layout e).1.Knows ask ∧
      (b.resolve layout e).1.held = b.held := by
  unfold resolve
  split
  · next query key found =>
    have mem := List.mem_of_find?_eq_some found
    have about := List.find?_some found
    have asked := eq_of_beq about
    simp only at asked
    refine ⟨?_, knows, rfl⟩
    rw [← asked]
    exact knows _ mem
  · rw [same]
    refine ⟨rfl, ?_, rfl⟩
    intro p hp
    rcases List.mem_cons.1 hp with rfl | hp
    · rfl
    · exact knows p hp

theorem dispatch_follows {b : Book} (knows : b.Knows ask) {layout : Layout}
    (same : layout.lookup = ask) {keys : Keys} (held : ∀ key, b.held.logical? key = keys key)
    (e : KeyEvent) :
    (b.dispatch layout e).2.1 = (keys.next ask (b.docket.lastId + 1) e).2 ∧
      (b.dispatch layout e).1.Knows ask ∧
      ∀ key, (b.dispatch layout e).1.held.logical? key =
        (keys.next ask (b.docket.lastId + 1) e).1 key := by
  obtain ⟨logical, known, kept⟩ := b.resolve_spec knows same e
  unfold dispatch Keys.next
  cases press : e.isPress with
  | true =>
    simp only [if_true, HeldKeys.press, kept, held, logical]
    cases down : keys (PhysicalKey.ofKeycode e.keycode) with
    | some first => exact ⟨rfl, known, held⟩
    | none =>
      refine ⟨rfl, known, fun key => ?_⟩
      rw [HeldKeys.logical?_insert]
      by_cases eq : key = PhysicalKey.ofKeycode e.keycode
      · simp [eq]
      · simp [eq, Ne.symm eq, held]
  | false =>
    simp only [Bool.false_eq_true, if_false, HeldKeys.release, held]
    cases down : keys (PhysicalKey.ofKeycode e.keycode) with
    | some first =>
      refine ⟨rfl, knows, fun key => ?_⟩
      simp only [Option.map_some]
      rw [HeldKeys.logical?_insert]
      by_cases eq : key = PhysicalKey.ofKeycode e.keycode
      · simp [eq]
      · simp [eq, Ne.symm eq, held]
    | none =>
      simp only [Option.map_none, logical]
      refine ⟨trivial, known, fun key => ?_⟩
      rw [kept, held]

/-- Two books that no later dispatch tells apart. -/
structure Alike (b b' : Book) : Prop where
  known : b'.known = b.known
  lastId : b'.docket.lastId = b.docket.lastId
  held : ∀ key, b'.held.logical? key = b.held.logical? key

theorem alike_settle (b : Book) (d : Dispatch) (claimed : Bool) : b.Alike (b.settle d claimed).1 := by
  have held (key : PhysicalKey) : (if d.transition = .up then b.held.finishRelease d.physical d.id
      else b.held).logical? key = b.held.logical? key := by
    split
    · exact HeldKeys.logical?_finishRelease ..
    · rfl
  unfold settle
  simp only
  generalize (if d.transition = .up then b.held.finishRelease d.physical d.id else b.held) = after
    at held
  split
  · exact ⟨rfl, rfl, held⟩
  · split
    · next docket e back =>
      refine ⟨rfl, ?_, held⟩
      unfold Docket.giveBack at back
      split at back
      · split at back <;> cases back
        rfl
      · cases back
    · exact ⟨rfl, rfl, held⟩

theorem alike_answer (b : Book) (id : Nat) (claimed : Bool) :
    b.Alike { b with docket := (b.docket.answer id claimed).1 } := by
  refine ⟨rfl, ?_, fun _ => rfl⟩
  unfold Docket.answer
  split <;> rfl

end Book

/-! ## Desks -/

/-- The dispatches of an arbiter, the first one first. -/
def dispatchesOf (past : List Entry) : List Dispatch :=
  ((past.filterMap Entry.dispatch?).map Prod.fst).reverse

/-- The fresh events of an arbiter, the first one first. -/
def freshOf (past : List Entry) : List KeyEvent := (dispatchesOf past).map (·.event)

theorem Entry.dispatch?_eq_some {x : Entry} {d : Dispatch} {n : Nat} :
    x.dispatch? = some (d, n) ↔ x = .dispatched d n := by
  cases x <;> simp [dispatch?]

theorem mem_dispatchesOf {past : List Entry} {d : Dispatch} :
    d ∈ dispatchesOf past ↔ ∃ n, .dispatched d n ∈ past := by
  simp [dispatchesOf, Entry.dispatch?_eq_some]

theorem dispatchesOf_append {entries past : List Entry}
    (silent : ∀ x ∈ entries, x.dispatch? = none) :
    dispatchesOf (entries ++ past) = dispatchesOf past := by
  rw [dispatchesOf, List.filterMap_append, List.filterMap_eq_nil_iff.2 silent]
  rfl

theorem dispatchesOf_dispatched (d : Dispatch) (n : Nat) (past : List Entry) :
    dispatchesOf (.dispatched d n :: past) = dispatchesOf past ++ [d] := by
  simp [dispatchesOf, Entry.dispatch?]

/-- So far an arbiter did what the automaton does. -/
structure Follows (ask : LayoutQuery → LogicalKey) (k : Desk) : Prop where
  knows : k.book.Knows ask
  dispatches : dispatchesOf k.past = (Keys.run ask (freshOf k.past)).2
  held : ∀ key, k.book.held.logical? key = (Keys.run ask (freshOf k.past)).1 key
  lastId : k.book.docket.lastId = (dispatchesOf k.past).length

namespace Follows

variable {ask : LayoutQuery → LogicalKey} {setup : Setup} {k k' : Desk}

theorem keep (h : Follows ask k) (entries : List Entry) (past : k'.past = entries ++ k.past)
    (silent : ∀ x ∈ entries, x.dispatch? = none) (knows : k'.book.Knows ask)
    (lastId : k'.book.docket.lastId = k.book.docket.lastId)
    (held : ∀ key, k'.book.held.logical? key = k.book.held.logical? key) : Follows ask k' := by
  have same : dispatchesOf k'.past = dispatchesOf k.past := by
    rw [past, dispatchesOf_append silent]
  have fresh : freshOf k'.past = freshOf k.past := by
    rw [freshOf, same]
    rfl
  refine ⟨knows, ?_, ?_, ?_⟩
  · rw [same, fresh]
    exact h.dispatches
  · intro key
    rw [held, fresh]
    exact h.held key
  · rw [lastId, same]
    exact h.lastId

theorem alike (h : Follows ask k) (entries : List Entry) (past : k'.past = entries ++ k.past)
    (silent : ∀ x ∈ entries, x.dispatch? = none) (alike : k.book.Alike k'.book) : Follows ask k' := by
  refine h.keep entries past silent ?_ alike.lastId alike.held
  rw [Book.Knows, alike.known]
  exact h.knows

theorem arrive (h : Follows ask k) {layout : Layout} (same : layout.lookup = ask) (e : KeyEvent) :
    Follows ask (k.arrive setup layout e) := by
  unfold Desk.arrive Book.arrive
  cases taken : k.book.docket.takeReplay e with
  | some p =>
    obtain ⟨docket, id⟩ := p
    obtain ⟨c, -, -, rfl, -⟩ := Docket.takeReplay_spec taken
    exact h.alike [.replayed id e] rfl (by simp [Entry.dispatch?]) ⟨rfl, rfl, fun _ => rfl⟩
  | none =>
    obtain ⟨next, knows, held⟩ := Book.dispatch_follows h.knows same h.held e
    obtain ⟨-, id, event⟩ := k.book.dispatch_spec layout e
    have length : (Keys.run ask (freshOf k.past)).2.length = k.book.docket.lastId := by
      rw [← h.dispatches, h.lastId]
    simp only
    generalize k.book.dispatch layout e = r at next knows held id event
    obtain ⟨b, d, asked⟩ := r
    simp only at next knows held id event
    have dispatches : dispatchesOf (.dispatched d setup.responders.length :: k.past) =
        dispatchesOf k.past ++ [d] := dispatchesOf_dispatched ..
    have fresh : freshOf (.dispatched d setup.responders.length :: k.past) =
        freshOf k.past ++ [e] := by
      rw [freshOf, dispatches, List.map_append, ← event]
      rfl
    refine ⟨knows, ?_, ?_, ?_⟩
    · rw [dispatches, fresh, Keys.run_concat, length, h.dispatches, next]
    · intro key
      rw [fresh, Keys.run_concat, length]
      exact held key
    · rw [dispatches, List.length_append, ← h.lastId]
      exact id

theorem offer (h : Follows ask k) (d : Dispatch) (r : Responder) (rs : List Responder)
    (others : Multiset Duty) : Follows ask (k.offer d r rs others) := by
  refine h.alike (r.told d ++ [.offered d.id r.kind]) ?_ ?_ ⟨rfl, rfl, fun _ => rfl⟩
  · simp [Desk.offer]
  · intro x hx
    rcases List.mem_append.1 hx with hx | hx
    · exact (Responder.silent_told hx).1
    · obtain rfl := List.mem_singleton.1 hx
      rfl

theorem deliver (h : Follows ask k) (id : Nat) (who : ResponderKind) (answer : Delivery)
    (others : Multiset Duty) : Follows ask (k.deliver setup id who answer others) := by
  have noted : (answer.entry who id).dispatch? = none := by
    cases answer <;> rfl
  have two (x : Entry) (silent : x.dispatch? = none) :
      ∀ y ∈ [x, answer.entry who id], y.dispatch? = none := by
    simp [silent, noted]
  have alike := k.book.alike_answer id answer.claimed
  unfold Desk.deliver
  simp only
  split
  · generalize k.book.docket.answer id answer.claimed = r at alike
    obtain ⟨docket, verdict⟩ := r
    cases verdict with
    | untracked | complete => exact h.alike [answer.entry who id] rfl (by simp [noted]) alike
    | waiting n => exact h.alike [_, answer.entry who id] rfl (two (.waiting id n) rfl) alike
  · exact h.alike [_, answer.entry who id] rfl (two (.late id _) rfl) ⟨rfl, rfl, fun _ => rfl⟩

theorem conclude (h : Follows ask k) (d : Dispatch) (claimed refuses : Bool)
    (others : Multiset Duty) : Follows ask (k.conclude d claimed refuses others) := by
  have alike := k.book.alike_settle d claimed
  unfold Desk.conclude
  simp only
  generalize k.book.settle d claimed = r at alike
  obtain ⟨book, back⟩ := r
  cases back with
  | none => exact h.alike [.resolved d.id claimed] rfl (by simp [Entry.dispatch?]) alike
  | some e =>
    cases refuses with
    | true =>
      exact h.alike [.refused d.id, .handedBack d.id e, .resolved d.id claimed] rfl
        (by simp [Entry.dispatch?]) ⟨alike.known, alike.lastId, alike.held⟩
    | false =>
      exact h.alike [.handedBack d.id e, .resolved d.id claimed] rfl (by simp [Entry.dispatch?]) alike

theorem settle (h : Follows ask k) (d : Dispatch) (claimed consumes refuses : Bool)
    (others : Multiset Duty) : Follows ask (k.settle setup d claimed consumes refuses others) := by
  rw [Desk.settle, Desk.consult_eq]
  split
  · have asked : Follows ask (k.remark (.filtered d.id d.event consumes)) :=
      h.alike [_] rfl (by simp [Entry.dispatch?]) ⟨rfl, rfl, fun _ => rfl⟩
    exact asked.conclude ..
  · exact h.conclude ..

/-- Every change keeps to the automaton, as long as layouts answer alike. -/
theorem change {layouts : Layout → Prop} (steady : ∀ l, layouts l → l.lookup = ask)
    (change : Change setup layouts k k') (h : Follows ask k) : Follows ask k' := by
  cases change with
  | @remark x idle =>
    have silent : x.dispatch? = none := by
      unfold Entry.dispatch?
      split
      · cases idle
      · rfl
    exact h.alike [x] rfl (by simp [silent]) ⟨rfl, rfl, fun _ => rfl⟩
  | forgetLayout =>
    exact h.keep [] rfl (by simp) (fun _ hp => absurd hp List.not_mem_nil) rfl fun _ => rfl
  | arrive asked e => exact h.arrive (steady _ asked) e
  | offer owed => exact h.offer ..
  | deliver owed who answer => exact h.deliver ..
  | settle owed consumes refuses => exact h.settle ..

theorem of_blank (blank : k.Blank) : Follows ask k := by
  have none : dispatchesOf k.past = [] := by
    have silent : ∀ x ∈ k.past, x.dispatch? = none := by
      intro x hx
      have idle := blank.past x hx
      unfold Entry.dispatch?
      split
      · cases idle
      · rfl
    rw [← List.append_nil k.past, dispatchesOf_append silent]
    rfl
  have fresh : freshOf k.past = [] := by
    rw [freshOf, none]
    rfl
  refine ⟨?_, ?_, ?_, ?_⟩
  · rw [blank.book]
    exact fun _ hp => absurd hp List.not_mem_nil
  · rw [none, fresh]
    rfl
  · intro key
    rw [blank.book, fresh]
    rfl
  · rw [blank.book, none]
    rfl

end Follows

/-! ## At every moment -/

namespace Moment

def dispatches (m : Moment) (a : ArbiterId) : List Dispatch := dispatchesOf (m.past a)

def freshEvents (m : Moment) (a : ArbiterId) : List KeyEvent := freshOf (m.past a)

theorem follows {moves : List Move} {a : ArbiterId} (alive : (after moves).scene.isAlive a)
    {ask : LayoutQuery → LogicalKey} (steady : ∀ l, layouts moves a l → l.lookup = ask) :
    Follows ask ((after moves).desk a) := by
  obtain ⟨start, blank, course⟩ := exists_course moves alive
  exact course.preserves (Follows.change steady) (.of_blank blank)

/-- Over a layout that does not change, the fresh events alone tell the dispatches, as the automaton
gives them, and the keys that are down: so two arbiters with the same fresh events dispatch the
same. -/
theorem dispatches_eq_run (moves : List Move) {a : ArbiterId}
    (alive : (after moves).scene.isAlive a) {ask : LayoutQuery → LogicalKey}
    (steady : ∀ l, layouts moves a l → l.lookup = ask) :
    ArrivalsNoted a ∧
    (after moves).dispatches a = (Keys.run ask ((after moves).freshEvents a)).2 ∧
    (∀ key, key ∈ ((after moves).book a).held.down ↔
      ((Keys.run ask ((after moves).freshEvents a)).1 key).isSome) ∧
    ∀ (moves' : List Move) (a' : ArbiterId), (after moves').scene.isAlive a' →
      (∀ l, layouts moves' a' l → l.lookup = ask) →
      (after moves').freshEvents a' = (after moves).freshEvents a →
      (after moves').dispatches a' = (after moves).dispatches a := by
  have here := follows alive steady
  refine ⟨arrivalsNoted a, here.dispatches, ?_, ?_⟩
  · intro key
    have held : ((after moves).book a).held.logical? key =
        (Keys.run ask ((after moves).freshEvents a)).1 key := here.held key
    rw [HeldKeys.mem_down, held]
  · intro moves' a' alive' steady' fresh
    have there := follows alive' steady'
    calc (after moves').dispatches a'
        = (Keys.run ask ((after moves').freshEvents a')).2 := there.dispatches
      _ = (Keys.run ask ((after moves).freshEvents a)).2 := by rw [fresh]
      _ = (after moves).dispatches a := here.dispatches.symm

theorem dispatches_eq_run_unclaimedPress :
    (after unclaimedPress).scene.isAlive 0 ∧
      (∀ l, layouts unclaimedPress 0 l → l.lookup = Layout.us.lookup) ∧
      (after unclaimedPress).dispatches 0 =
        (Keys.run Layout.us.lookup ((after unclaimedPress).freshEvents 0)).2 := by
  have alive : (after unclaimedPress).scene.isAlive 0 := by decide +kernel
  have steady : ∀ l, layouts unclaimedPress 0 l → l.lookup = Layout.us.lookup := by
    rintro l ⟨k, built, rfl⟩
    rcases le_or_gt unclaimedPress.length k with le | lt
    · rw [List.take_of_length_le le]
      rfl
    · change k < 6 at lt
      interval_cases k
      · exact absurd built (by decide)
      all_goals rfl
  exact ⟨alive, steady, (dispatches_eq_run unclaimedPress alive steady).2.1⟩

end Moment

end KeyArbiter
