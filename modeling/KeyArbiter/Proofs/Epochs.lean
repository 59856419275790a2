import KeyArbiter.Proofs.Arrivals
import KeyArbiter.Proofs.Guards
import KeyArbiter.Proofs.Scenery
import Mathlib

/-!
# What a layout is asked

An arbiter remembers what its layout answers until it is told of another layout. Between two such
notices, an epoch, it asks each question once, and what it was answered then holds for the whole
epoch, whatever the layout would answer later.
-/

namespace KeyArbiter

open Session (Command)

/-! ## Epochs -/

/-- The layout is needed for this dispatch: of a press, or of the release of a key that was not
held. -/
def Dispatch.asks (d : Dispatch) : Bool := d.event.isPress || d.orphan

/-- The dispatches between two notices of another layout, the first one first, each with the layout
as it was then. -/
abbrev Epoch := List (Layout × Dispatch)

namespace Epoch

def first? (E : Epoch) (q : LayoutQuery) : Option LogicalKey :=
  (E.find? fun p => p.2.asks && p.2.event.query == q).map fun p => p.1.lookup q

/-- What the layout is needed for. -/
def queries (E : Epoch) : Finset LayoutQuery :=
  ((E.filter (·.2.asks)).map (·.2.event.query)).toFinset

variable {E : Epoch} {layout : Layout} {d : Dispatch} {q : LayoutQuery}

theorem first?_concat (E : Epoch) (layout : Layout) (d : Dispatch) (q : LayoutQuery) :
    first? (E ++ [(layout, d)]) q =
      (E.first? q).or (if d.asks ∧ d.event.query = q then some (layout.lookup q) else none) := by
  unfold first?
  rw [List.find?_append]
  cases E.find? fun p => p.2.asks && p.2.event.query == q with
  | some p => rfl
  | none =>
    by_cases asked : d.asks ∧ d.event.query = q
    · simp [asked.1, asked.2]
    · simp [asked]

theorem queries_concat (E : Epoch) (layout : Layout) (d : Dispatch) :
    queries (E ++ [(layout, d)]) = if d.asks then insert d.event.query E.queries else E.queries := by
  unfold queries
  cases asks : d.asks <;> simp [asks, List.filter_append, Finset.union_comm]

theorem mem_queries : q ∈ E.queries ↔ ∃ p ∈ E, p.2.asks = true ∧ p.2.event.query = q := by
  simp [queries, and_assoc]

theorem isSome_first? : (E.first? q).isSome ↔ q ∈ E.queries := by
  simp [first?, mem_queries]

/-- In this epoch, whoever needed the layout was told what it answered first. -/
def Told (E : Epoch) : Prop :=
  ∀ p ∈ E, p.2.transition = .down ∨ p.2.orphan = true → E.first? p.2.event.query = some p.2.logical

theorem Told.concat (told : E.Told) (own : d.transition = .down ∨ d.orphan = true →
    first? (E ++ [(layout, d)]) d.event.query = some d.logical) : Told (E ++ [(layout, d)]) := by
  intro p hp asks
  rcases List.mem_append.1 hp with hp | hp
  · rw [first?_concat, told p hp asks]
    rfl
  · obtain rfl := List.mem_singleton.1 hp
    exact own asks

theorem exists_of_first? {key : LogicalKey} (first : E.first? q = some key) :
    ∃ p ∈ E, p.1.lookup q = key := by
  obtain ⟨p, found, rfl⟩ := Option.map_eq_some_iff.1 first
  exact ⟨p, List.mem_of_find?_eq_some found, rfl⟩

end Epoch

/-! ## What a book remembers -/

namespace Book

variable {b : Book} {E : Epoch}

/-- The book remembers what the layout was first answered in this epoch, and no more. -/
structure Recalls (b : Book) (E : Epoch) : Prop where
  answers (q : LayoutQuery) : (b.known.find? (·.1 == q)).map (·.2) = E.first? q
  once : (b.known.map (·.1)).Nodup

namespace Recalls

theorem of_alike {b' : Book} (recalls : b.Recalls E) (alike : b.Alike b') : b'.Recalls E := by
  refine ⟨?_, ?_⟩
  · rw [alike.known]
    exact recalls.answers
  · rw [alike.known]
    exact recalls.once

theorem nothing (none : b.known = []) : b.Recalls [] := by
  refine ⟨?_, ?_⟩
  · rw [none]
    exact fun _ => rfl
  · rw [none]
    exact List.nodup_nil

theorem mem_queries (recalls : b.Recalls E) (q : LayoutQuery) :
    q ∈ b.known.map (·.1) ↔ q ∈ E.queries := by
  rw [← Epoch.isSome_first?, ← recalls.answers]
  simp

theorem length_known (recalls : b.Recalls E) : b.known.length = E.queries.card := by
  have same : (b.known.map (·.1)).toFinset = E.queries := by
    ext q
    rw [List.mem_toFinset, recalls.mem_queries]
  rw [← same, List.toFinset_card_of_nodup recalls.once, List.length_map]

theorem knows (recalls : b.Recalls E) {ask : LayoutQuery → LogicalKey}
    (steady : ∀ p ∈ E, p.1.lookup = ask) : b.Knows ask := by
  rintro ⟨q, key⟩ mem
  have found : b.known.find? (·.1 == q) = some (q, key) := by
    cases here : b.known.find? (·.1 == q) with
    | none => exact absurd (List.find?_eq_none.1 here _ mem) (by simp)
    | some p =>
      have own : p.1 = q := by simpa using List.find?_some here
      rw [List.inj_on_of_nodup_map recalls.once (List.mem_of_find?_eq_some here) mem own]
  have first := recalls.answers q
  rw [found] at first
  obtain ⟨p, hp, rfl⟩ := Epoch.exists_of_first? first.symm
  rw [steady p hp]

theorem resolve (recalls : b.Recalls E) (layout : Layout) {e : KeyEvent} {d : Dispatch}
    (event : d.event = e) (asks : d.asks = true) :
    (b.resolve layout e).1.Recalls (E ++ [(layout, d)]) ∧
      Epoch.first? (E ++ [(layout, d)]) e.query = some (b.resolve layout e).2.1 := by
  subst event
  have answers := recalls.answers d.event.query
  unfold Book.resolve
  cases known : b.known.find? (·.1 == d.event.query) with
  | some p =>
    obtain ⟨q, key⟩ := p
    rw [known] at answers
    have first (q : LayoutQuery) : Epoch.first? (E ++ [(layout, d)]) q = E.first? q := by
      rw [Epoch.first?_concat]
      split
      · next asked =>
        rw [← asked.2, ← answers]
        rfl
      · exact Option.or_none
    refine ⟨⟨fun q => ?_, recalls.once⟩, ?_⟩
    · rw [first]
      exact recalls.answers q
    · rw [first, ← answers]
      rfl
  | none =>
    rw [known] at answers
    have unknown : E.first? d.event.query = none := answers.symm
    refine ⟨⟨fun q => ?_, ?_⟩, ?_⟩
    · rw [Epoch.first?_concat, ← recalls.answers q, List.find?_cons]
      by_cases own : d.event.query = q
      · subst own
        simp [known, asks]
      · rw [beq_false_of_ne own]
        simp [own]
    · simp only [List.map_cons, List.nodup_cons]
      refine ⟨?_, recalls.once⟩
      rw [recalls.mem_queries, ← Epoch.isSome_first?, unknown]
      simp
    · rw [Epoch.first?_concat, unknown]
      simp [asks]

end Recalls

/-! ### Dispatches -/

theorem dispatch_of_held {layout : Layout} {e : KeyEvent} (held : (b.dispatch layout e).2.1.asks = false)
    (layout' : Layout) : b.dispatch layout' e = b.dispatch layout e ∧
      (b.dispatch layout e).1.known = b.known := by
  have event := (b.dispatch_spec layout e).2.2
  have release : e.isPress = false := by
    rw [Dispatch.asks, event, Bool.or_eq_false_iff] at held
    exact held.1
  unfold dispatch at held ⊢
  simp only [release, Bool.false_eq_true, if_false] at held ⊢
  cases down : b.held.release (PhysicalKey.ofKeycode e.keycode) (b.docket.lastId + 1) with
  | some p => simp
  | none =>
    rw [down] at held
    simp [Dispatch.asks, release] at held

theorem dispatch_of_asks {layout : Layout} {e : KeyEvent} (asks : (b.dispatch layout e).2.1.asks = true) :
    (b.dispatch layout e).1.known = (b.resolve layout e).1.known ∧
      ((b.dispatch layout e).2.1.transition = .down ∨ (b.dispatch layout e).2.1.orphan = true →
        (b.dispatch layout e).2.1.logical = (b.resolve layout e).2.1) := by
  unfold dispatch at asks ⊢
  cases press : e.isPress with
  | true =>
    simp only [if_true, HeldKeys.press]
    cases (b.resolve layout e).1.held.logical? (PhysicalKey.ofKeycode e.keycode) <;> simp
  | false =>
    simp only [press, Bool.false_eq_true, if_false] at asks ⊢
    cases down : b.held.release (PhysicalKey.ofKeycode e.keycode) (b.docket.lastId + 1) with
    | some p =>
      rw [down] at asks
      simp [Dispatch.asks, press] at asks
    | none => simp

theorem Recalls.dispatch (recalls : b.Recalls E) (layout : Layout) (e : KeyEvent) :
    (b.dispatch layout e).1.Recalls (E ++ [(layout, (b.dispatch layout e).2.1)]) := by
  cases asks : (b.dispatch layout e).2.1.asks with
  | true =>
    obtain ⟨known, -⟩ := dispatch_of_asks asks
    obtain ⟨resolved, -⟩ := recalls.resolve layout (b.dispatch_spec layout e).2.2 asks
    exact ⟨fun q => by rw [known]; exact resolved.answers q, by rw [known]; exact resolved.once⟩
  | false =>
    obtain ⟨-, known⟩ := dispatch_of_held asks layout
    refine ⟨fun q => ?_, by rw [known]; exact recalls.once⟩
    rw [known, Epoch.first?_concat, recalls.answers q]
    simp [asks]

theorem Recalls.told (recalls : b.Recalls E) (told : E.Told) (layout : Layout) (e : KeyEvent) :
    Epoch.Told (E ++ [(layout, (b.dispatch layout e).2.1)]) := by
  refine told.concat fun needed => ?_
  have asks : (b.dispatch layout e).2.1.asks = true := by
    rcases needed with down | orphan
    · have press := (b.keystroke layout e).isPress_iff.2 (by simp [down])
      simp [Dispatch.asks, press]
    · simp [Dispatch.asks, orphan]
  have event := (b.dispatch_spec layout e).2.2
  rw [(dispatch_of_asks asks).2 needed, event]
  exact (recalls.resolve layout event asks).2

end Book

/-! ## The chronicle of an arbiter -/

inductive Sight
  /-- Another layout is announced. So many answers are forgotten. -/
  | notice (flushed : Nat)
  | dispatch (layout : Layout) (d : Dispatch)

namespace Sight

def notice? : Sight → Option Nat
  | .notice flushed => some flushed
  | .dispatch .. => none

/-- The same sight under this layout. -/
def under (layout : Layout) : Sight → Sight
  | .notice flushed => .notice flushed
  | .dispatch _ d => .dispatch layout d

end Sight

/-- What is seen in the journal while the layout is this one. -/
def Entry.sight? (layout : Layout) : Entry → Option Sight
  | .dispatched d _ => some (.dispatch layout d)
  | .layoutChanged flushed => some (.notice flushed)
  | _ => none

theorem Entry.sight?_of_unseen {x : Entry} (unseen : x.Unseen) (layout : Layout) :
    x.sight? layout = none := by
  cases x with
  | dispatched => cases unseen.1
  | layoutChanged => cases unseen.2
  | _ => rfl

namespace Moment

def news (m : Moment) (a : ArbiterId) (move : Move) : List Entry :=
  (((m.next move).past a).take (((m.next move).past a).length - (m.past a).length)).reverse

/-- All that concerns an arbiter and its layout in the course of these moves, in order. -/
def chronicle (a : ArbiterId) (moves : List Move) : List Sight :=
  (moves.foldl (fun (m, seen) move => (m.next move,
    seen ++ (m.news a move).filterMap (Entry.sight? (m.scene.layout a)))) (({} : Moment), [])).2

theorem chronicle_concat (a : ArbiterId) (moves : List Move) (move : Move) :
    chronicle a (moves ++ [move]) = chronicle a moves ++
      ((after moves).news a move).filterMap (Entry.sight? ((after moves).scene.layout a)) := by
  have here : (moves.foldl (fun (m, seen) move => (m.next move,
      seen ++ (m.news a move).filterMap (Entry.sight? (m.scene.layout a))))
        (({} : Moment), [])).1 = after moves := by
    induction moves using List.reverseRecOn with
    | nil => rfl
    | append_singleton moves move ih =>
      rw [List.foldl_append, after_concat, ← ih]
      rfl
  unfold chronicle
  rw [List.foldl_append, ← here]
  rfl

theorem news_eq {m : Moment} {a : ArbiterId} {move : Move} {entries : List Entry}
    (past : (m.next move).past a = entries ++ m.past a) : m.news a move = entries.reverse := by
  unfold news
  rw [past, List.length_append, Nat.add_sub_cancel, List.take_left]

end Moment

/-! ### What a move shows -/

/-- What a move does to a book, and what is seen of it: nothing, or a dispatch, or a notice. -/
inductive Looks (layout : Layout) (b b' : Book) : List Sight → Prop
  | nothing (alike : b.Alike b') : Looks layout b b' []
  | dispatch {before : Book} (alike : b.Alike before) (e : KeyEvent) {d : Dispatch} {b₁ : Book}
    {asked : Bool} (eq : before.dispatch layout e = (b₁, d, asked)) (known : b'.known = b₁.known)
    (held : b'.held = b₁.held) (lastId : b'.docket.lastId = d.id) : Looks layout b b' [.dispatch layout d]
  | notice (eq : b' = b.forgetLayout) : Looks layout b b' [.notice b.known.length]

namespace State

variable {sc : Scene} {st st' : State}

theorem Idle.about (idle : Idle st st') (a : ArbiterId) (layout : Layout) :
    ∃ entries, st'.journal.about a = entries ++ st.journal.about a ∧
      entries.filterMap (Entry.sight? layout) = [] := by
  obtain ⟨news, journal, unseen⟩ := idle.journal
  refine ⟨Journal.about news a, ?_, List.filterMap_eq_nil_iff.2 fun x hx => ?_⟩
  · rw [journal, Journal.about_append]
  · obtain ⟨y, hy, rfl⟩ := List.mem_map.1 hx
    exact Entry.sight?_of_unseen (unseen y (List.mem_of_mem_filter hy)) layout

theorem looks_arrive (sc : Scene) (st : State) (a : ArbiterId) (e : KeyEvent) {b : Book}
    (alike : b.Alike (st.book a)) :
    ∃ x, (st.arrive sc a e).1.journal.about a = x :: st.journal.about a ∧
      Looks (sc.layout a) b ((st.arrive sc a e).1.book a)
        ([x].filterMap (Entry.sight? (sc.layout a))) := by
  have book (after : Book) (asked : Bool) : (st.turn sc a after asked).book a = after :=
    book_setBook st a after
  have about (after : Book) (asked : Bool) (x : Entry) :
      ((st.turn sc a after asked).note a x).journal.about a = x :: st.journal.about a := by
    rw [note, Journal.about_cons, if_pos rfl]
    rfl
  rw [arrive_eq]
  unfold Book.arrive
  cases taken : (st.book a).docket.takeReplay e with
  | some p =>
    obtain ⟨docket, id⟩ := p
    obtain ⟨-, -, -, rfl, -⟩ := Docket.takeReplay_spec taken
    refine ⟨_, about _ _ _, ?_⟩
    simp only [book_note, book]
    exact .nothing (alike.trans ⟨rfl, rfl, fun _ => rfl⟩)
  | none =>
    cases dispatched : (st.book a).dispatch (sc.layout a) e with
    | mk after p =>
      obtain ⟨d, asked⟩ := p
      refine ⟨_, about _ _ _, ?_⟩
      simp only [book_note, book]
      exact .dispatch alike e dispatched rfl rfl rfl

theorem Admits.looks (admits : Admits sc st st') (a : ArbiterId) :
    ∃ entries, st'.journal.about a = entries ++ st.journal.about a ∧
      Looks (sc.layout a) (st.book a) (st'.book a)
        (entries.reverse.filterMap (Entry.sight? (sc.layout a))) := by
  cases admits with
  | nothing idle =>
    obtain ⟨entries, past, none⟩ := idle.about a (sc.layout a)
    refine ⟨entries, past, ?_⟩
    rw [List.filterMap_reverse, none]
    exact .nothing (idle.books a)
  | @event before idle b e eq =>
    obtain ⟨entries, past, none⟩ := idle.about a (sc.layout a)
    subst eq
    by_cases own : b = a
    · subst own
      obtain ⟨x, past', looks⟩ := looks_arrive sc before b e (idle.books b)
      refine ⟨x :: entries, by rw [past', past, List.cons_append], ?_⟩
      rw [List.reverse_cons, List.filterMap_append, List.filterMap_reverse, none, List.reverse_nil,
        List.nil_append]
      exact looks
    · have other := desk_arrive_of_ne sc before 0 own e
      have book : (before.arrive sc b e).1.book a = before.book a := congrArg Desk.book other
      have journal : (before.arrive sc b e).1.journal.about a = before.journal.about a :=
        congrArg Desk.past other
      refine ⟨entries, by rw [journal, past], ?_⟩
      rw [List.filterMap_reverse, none, book]
      exact .nothing (idle.books a)

theorem about_relayout (sc : Scene) (st : State) (a b : ArbiterId) :
    (st.relayout sc b).journal.about a =
      (if a = b ∧ sc.isAlive a then [.layoutChanged (st.book a).known.length] else []) ++
        st.journal.about a := by
  unfold relayout
  by_cases own : a = b
  · subst own
    cases alive : sc.isAlive a <;> simp [note, setBook, Journal.about_cons]
  · cases alive : sc.isAlive b <;> simp [note, setBook, Journal.about_cons, own, Ne.symm own]

theorem about_relayouts (sc : Scene) (st : State) {told : List ArbiterId} (once : told.Nodup)
    (a : ArbiterId) : (told.foldl (relayout sc) st).journal.about a =
      (if a ∈ told ∧ sc.isAlive a then [.layoutChanged (st.book a).known.length] else []) ++
        st.journal.about a := by
  induction told generalizing st with
  | nil => simp
  | cons b told ih =>
    obtain ⟨new, once⟩ := List.nodup_cons.1 once
    have book : a ≠ b → (st.relayout sc b).book a = st.book a := by
      intro ne
      rw [(relaid_relayout sc st b).book]
      simp [ne]
    rw [List.foldl_cons, ih _ once, about_relayout]
    by_cases own : a = b
    · subst own
      simp [new]
    · simp [own, book own]

end State

namespace Moment

theorem looks_layoutChange (m : Moment) (a : ArbiterId) :
    ∃ entries, (m.next (.command .layoutChange)).past a = entries ++ m.past a ∧
      Looks (m.scene.layout a) (m.book a) ((m.next (.command .layoutChange)).book a)
        (entries.reverse.filterMap (Entry.sight? (m.scene.layout a))) := by
  have told : (m.next (.command .layoutChange)).state =
      (List.range m.scene.setups.length).foldl (State.relayout m.scene) m.state := rfl
  have relaid := (relaid_all m.scene m.state (List.range m.scene.setups.length)).book a
  have about := m.state.about_relayouts m.scene (List.nodup_range (n := m.scene.setups.length)) a
  rw [← told] at relaid about
  have book : (m.next (.command .layoutChange)).book a =
      if a ∈ List.range m.scene.setups.length ∧ m.scene.isAlive a then (m.book a).forgetLayout
      else m.book a := relaid
  refine ⟨_, about, ?_⟩
  rw [book]
  by_cases alive : m.scene.isAlive a
  · have mem : a ∈ List.range m.scene.setups.length := List.mem_range.2 (lt_of_isAlive alive)
    simp only [mem, alive, and_self, if_true]
    exact .notice rfl
  · simp only [alive, Bool.false_eq_true, and_false, if_false]
    exact .nothing (.refl _)

/-- All that one move does to what an arbiter knows of its layout, and what is seen of it. -/
theorem looks (m : Moment) (a : ArbiterId) (move : Move) :
    (m.next move).past a = (m.news a move).reverse ++ m.past a ∧
      Looks (m.scene.layout a) (m.book a) ((m.next move).book a)
        ((m.news a move).filterMap (Entry.sight? (m.scene.layout a))) := by
  have seen : ∃ entries, (m.next move).past a = entries ++ m.past a ∧
      Looks (m.scene.layout a) (m.book a) ((m.next move).book a)
        (entries.reverse.filterMap (Entry.sight? (m.scene.layout a))) := by
    obtain ⟨s, tasks⟩ := m
    cases move with
    | go =>
      cases tasks with
      | nil => exact ⟨[], rfl, .nothing (.refl _)⟩
      | cons t rest => exact (s.state.admits_step s.scene t).looks a
    | command c =>
      by_cases other : c.AboutLayout
      · cases c with
        | layoutChange => exact looks_layoutChange ⟨s, tasks⟩ a
        | layoutLookup q => exact ⟨[], rfl, .nothing (.refl _)⟩
        | _ => cases other
      · exact (s.admits_launch other).looks a
  obtain ⟨entries, past, looks⟩ := seen
  rw [news_eq past, List.reverse_reverse]
  exact ⟨past, looks⟩

end Moment

/-! ## The epochs of a chronicle -/

/-- The epochs that ended with a notice, the first one first, and the one that goes on. -/
structure Epochs where
  past : List Epoch := []
  current : Epoch := []

namespace Epochs

def all (E : Epochs) : List Epoch := E.past ++ [E.current]

def see (E : Epochs) : Sight → Epochs
  | .notice _ => ⟨E.past ++ [E.current], []⟩
  | .dispatch layout d => ⟨E.past, E.current ++ [(layout, d)]⟩

/-- How often a layout is asked that is asked each question once an epoch. -/
def lookups (E : Epochs) : Nat := (E.all.map (·.queries.card)).sum

/-- Within an epoch the layout does not change. -/
def Steady (E : Epochs) : Prop := ∀ epoch ∈ E.all, ∀ p ∈ epoch, ∀ p' ∈ epoch, p.1.lookup = p'.1.lookup

theorem mem_current (E : Epochs) : E.current ∈ E.all :=
  List.mem_append_right _ (List.mem_singleton_self _)

theorem lookups_eq (E : Epochs) :
    E.lookups = (E.past.map (·.queries.card)).sum + E.current.queries.card := by
  simp [lookups, all]

theorem Steady.before {E : Epochs} {x : Sight} (steady : (E.see x).Steady) : E.Steady := by
  intro epoch hepoch p hp p' hp'
  cases x with
  | notice => exact steady epoch (List.mem_append_left _ hepoch) p hp p' hp'
  | dispatch layout d =>
    rcases List.mem_append.1 hepoch with old | now
    · exact steady epoch (List.mem_append_left _ old) p hp p' hp'
    · obtain rfl := List.mem_singleton.1 now
      exact steady _ (mem_current _) p (List.mem_append_left _ hp) p' (List.mem_append_left _ hp')

end Epochs

def epochsOf (seen : List Sight) : Epochs := seen.foldl Epochs.see {}

theorem epochsOf_concat (seen : List Sight) (x : Sight) :
    epochsOf (seen ++ [x]) = (epochsOf seen).see x :=
  List.foldl_append

theorem Looks.steady {layout : Layout} {b b' : Book} {seen more : List Sight}
    (looks : Looks layout b b' more) (steady : (epochsOf (seen ++ more)).Steady) :
    (epochsOf seen).Steady := by
  cases looks with
  | nothing => rwa [List.append_nil] at steady
  | notice | dispatch =>
    rw [epochsOf_concat] at steady
    exact steady.before

structure Recorded (b : Book) (seen : List Sight) : Prop where
  recalls : b.Recalls (epochsOf seen).current
  told : ∀ E ∈ (epochsOf seen).all, E.Told
  flushed : seen.filterMap Sight.notice? = (epochsOf seen).past.map (·.queries.card)

namespace Recorded

variable {layout : Layout} {b b' : Book} {seen : List Sight}

theorem looks {more : List Sight} (h : Recorded b seen) (looks : Looks layout b b' more) :
    Recorded b' (seen ++ more) := by
  cases looks with
  | nothing alike =>
    rw [List.append_nil]
    exact ⟨h.recalls.of_alike alike, h.told, h.flushed⟩
  | notice eq =>
    subst eq
    have epochs := epochsOf_concat seen (.notice b.known.length)
    refine ⟨?_, ?_, ?_⟩
    · rw [epochs]
      exact .nothing rfl
    · intro E hE
      rw [epochs] at hE
      rcases List.mem_append.1 hE with hE | hE
      · exact h.told E hE
      · obtain rfl := List.mem_singleton.1 hE
        exact fun p hp => absurd hp List.not_mem_nil
    · rw [epochs, List.filterMap_append, h.flushed, h.recalls.length_known]
      simp [Epochs.see, Sight.notice?]
  | @dispatch before alike e d b₁ asked eq known held lastId =>
    have epochs := epochsOf_concat seen (.dispatch layout d)
    have recalls := (h.recalls.of_alike alike).dispatch layout e
    have told := (h.recalls.of_alike alike).told (h.told _ (epochsOf seen).mem_current) layout e
    rw [eq] at recalls told
    refine ⟨?_, ?_, ?_⟩
    · rw [epochs]
      exact ⟨fun q => by rw [known]; exact recalls.answers q, by rw [known]; exact recalls.once⟩
    · intro E hE
      rw [epochs] at hE
      rcases List.mem_append.1 hE with hE | hE
      · exact h.told E (List.mem_append_left _ hE)
      · obtain rfl := List.mem_singleton.1 hE
        exact told
    · rw [epochs, List.filterMap_append, h.flushed]
      exact List.append_nil _

theorem of_unknown {b : Book} (unknown : b.known = []) : Recorded b [] := by
  refine ⟨.nothing unknown, ?_, rfl⟩
  intro E hE
  obtain rfl := List.mem_singleton.1 hE
  exact fun p hp => absurd hp List.not_mem_nil

theorem lookups {layout : Layout} {b b' : Book} {seen more : List Sight} (h : Recorded b seen)
    (looks : Looks layout b b' more) : (epochsOf (seen ++ more)).lookups =
      (epochsOf seen).lookups + (b'.known.length - b.known.length) := by
  have later := (h.looks looks).recalls.length_known
  have before := h.recalls.length_known
  cases looks with
  | nothing alike => rw [List.append_nil, alike.known, Nat.sub_self, Nat.add_zero]
  | notice eq =>
    subst eq
    simp [epochsOf_concat, Epochs.see, Epochs.lookups, Epochs.all, Epoch.queries, Book.forgetLayout]
  | @dispatch _ alike e d _ _ eq known held lastId =>
    have grown : (epochsOf seen).current.queries.card ≤
        (epochsOf (seen ++ [.dispatch layout d])).current.queries.card := by
      rw [epochsOf_concat]
      simp only [Epochs.see, Epoch.queries_concat]
      split
      · exact Finset.card_le_card (Finset.subset_insert _ _)
      · exact le_rfl
    have past : (epochsOf (seen ++ [.dispatch layout d])).past = (epochsOf seen).past := by
      rw [epochsOf_concat]
      rfl
    rw [Epochs.lookups_eq, Epochs.lookups_eq, past, ← later, ← before]
    rw [← later, ← before] at grown
    omega

end Recorded

end KeyArbiter
