import KeyArbiter.Command.Run
import KeyArbiter.Proofs.Epochs
import KeyArbiter.Proofs.RoundTrip
import KeyArbiter.Proofs.Sends
import Mathlib

/-!
# Looking a key up foretells its press

What the lookup command reports of a key is what responders are told when it is pressed, although an
arbiter goes by what it remembers of its layout and by the keys that are down. As long as the key is
down, that is what it means.
-/

namespace KeyArbiter

/-! ## The automaton, event by event -/

namespace Keys

variable {ask : LayoutQuery → LogicalKey} {keys : Keys} {id : Nat} {e : KeyEvent}

theorem next_of_up (ask : LayoutQuery → LogicalKey) (id : Nat) (press : e.isPress = true)
    (up : keys (.ofKeycode e.keycode) = none) :
    keys.next ask id e = (Function.update keys (.ofKeycode e.keycode) (some (ask e.query)),
      ⟨e, id, .down, .ofKeycode e.keycode, ask e.query, false⟩) := by
  simp only [next, press, up]

theorem next_of_down {first : LogicalKey} (down : keys (.ofKeycode e.keycode) = some first) :
    (keys.next ask id e).2 = ⟨e, id, if e.isPress then .repeated else .up, .ofKeycode e.keycode,
      first, false⟩ := by
  cases press : e.isPress <;> simp [next, press, down]

theorem next_kept {key : PhysicalKey} {first : LogicalKey} (down : keys key = some first)
    (pressed : PhysicalKey.ofKeycode e.keycode = key → e.isPress = true) :
    (keys.next ask id e).1 key = some first := by
  by_cases same : PhysicalKey.ofKeycode e.keycode = key
  · simp only [next, pressed same, same, down]
  · cases press : e.isPress <;> cases at? : keys (.ofKeycode e.keycode) <;>
      simp [next, press, at?, Function.update_of_ne (Ne.symm same), down]

theorem length_run (events : List KeyEvent) : (run ask events).2.length = events.length := by
  induction events using List.reverseRecOn with
  | nil => rfl
  | append_singleton events e ih => simp [run_concat, ih]

theorem run_prefix (ask : LayoutQuery → LogicalKey) (events more : List KeyEvent) :
    (run ask events).2 <+: (run ask (events ++ more)).2 := by
  induction more using List.reverseRecOn with
  | nil => simp
  | append_singleton more e ih =>
    rw [← List.append_assoc, run_concat]
    exact ih.trans (List.prefix_append ..)

theorem run_kept {key : PhysicalKey} {first : LogicalKey} {events : List KeyEvent}
    (down : (run ask events).1 key = some first) (more : List KeyEvent)
    (pressed : ∀ e ∈ more, PhysicalKey.ofKeycode e.keycode = key → e.isPress = true) :
    (run ask (events ++ more)).1 key = some first := by
  induction more using List.reverseRecOn with
  | nil => rwa [List.append_nil]
  | append_singleton more e ih =>
    rw [← List.append_assoc, run_concat]
    refine next_kept (ih fun e he => pressed e (List.mem_append_left _ he)) ?_
    exact pressed e (List.mem_append_right _ (List.mem_singleton_self e))

theorem run_at {before later : List Dispatch} {d : Dispatch}
    (runs : (run ask ((before ++ d :: later).map (·.event))).2 = before ++ d :: later) :
    d = ((run ask (before.map (·.event))).1.next ask (before.length + 1) d.event).2 := by
  have first := run_prefix ask ((before ++ [d]).map (·.event)) (later.map (·.event))
  rw [← List.map_append, List.append_assoc, List.singleton_append, runs, List.map_append,
    List.map_singleton, run_concat, length_run, List.length_map] at first
  obtain ⟨rest, eq⟩ := first
  rw [List.append_assoc, List.singleton_append] at eq
  have parts := List.append_inj eq (by rw [length_run, List.length_map])
  exact (List.cons.inj parts.2).1.symm

end Keys

/-! ## Offers and sends are of dispatches -/

/-- Only dispatches are offered, and what the runtime was sent is the event of a dispatch. -/
structure Announces (k : Desk) : Prop where
  offers : ∀ d rs, .offer d rs ∈ k.duties → d ∈ dispatchesOf k.past
  sends : ∀ id e, .sentToRuntime id e ∈ k.past →
    ∃ d ∈ dispatchesOf k.past, d.id = id ∧ e = d.runtimeEvent

namespace Announces

variable {setup : Setup} {layouts : Layout → Prop} {k k' : Desk}

theorem mem_dispatchesOf_append {entries past : List Entry} {d : Dispatch}
    (mem : d ∈ dispatchesOf past) : d ∈ dispatchesOf (entries ++ past) := by
  obtain ⟨n, here⟩ := mem_dispatchesOf.1 mem
  exact mem_dispatchesOf.2 ⟨n, List.mem_append_right _ here⟩

theorem keep (h : Announces k) (entries : List Entry) (past : k'.past = entries ++ k.past)
    (mute : ∀ x ∈ entries, x.sent? = none)
    (offers : ∀ d rs, .offer d rs ∈ k'.duties → ∃ rs', .offer d rs' ∈ k.duties) : Announces k' := by
  refine ⟨fun d rs owed => ?_, fun id e sent => ?_⟩
  · obtain ⟨rs', owed⟩ := offers d rs owed
    rw [past]
    exact mem_dispatchesOf_append (h.offers d rs' owed)
  · rw [past] at sent ⊢
    rcases List.mem_append.1 sent with sent | sent
    · cases mute _ sent
    · obtain ⟨d, hd, rest⟩ := h.sends id e sent
      exact ⟨d, mem_dispatchesOf_append hd, rest⟩

theorem arrive (h : Announces k) (layout : Layout) (e : KeyEvent) :
    Announces (k.arrive setup layout e) := by
  unfold Desk.arrive
  simp only
  generalize k.book.arrive layout setup.responders.length e = r
  obtain ⟨book, id | d, asked⟩ := r
  · exact h.keep [.replayed id e] rfl (by simp [Entry.sent?]) fun _ rs owed => ⟨rs, owed⟩
  · have dispatches : dispatchesOf (.dispatched d setup.responders.length :: k.past) =
        dispatchesOf k.past ++ [d] := dispatchesOf_dispatched ..
    refine ⟨fun d' rs owed => ?_, fun id e' sent => ?_⟩
    · simp only [dispatches, List.mem_append, List.mem_singleton]
      rcases Multiset.mem_cons.1 owed with first | owed
      · cases responders : setup.responders with
        | nil => simp [responders, Duty.first] at first
        | cons r rs =>
          simp only [responders, Duty.first, Duty.offer.injEq] at first
          exact .inr first.1
      · exact .inl (h.offers d' rs owed)
    · obtain ⟨d', hd', rest⟩ := h.sends id e' ((List.mem_cons.1 sent).resolve_left (by simp))
      exact ⟨d', dispatches ▸ List.mem_append_left _ hd', rest⟩

theorem offer (h : Announces k) {d : Dispatch} {r : Responder} {rs : List Responder}
    {others : Multiset Duty} (owed : k.duties = .offer d (r :: rs) ::ₘ others) :
    Announces (k.offer d r rs others) := by
  have here : d ∈ dispatchesOf k.past := h.offers d (r :: rs) (owed ▸ Multiset.mem_cons_self ..)
  have past : (k.offer d r rs others).past = (r.told d ++ [.offered d.id r.kind]) ++ k.past := by
    simp [Desk.offer]
  refine ⟨fun d' rs' owed' => ?_, fun id e sent => ?_⟩
  · rw [past]
    refine mem_dispatchesOf_append ?_
    have left : .offer d' rs' ∈ Duty.offers d rs + others :=
      (Multiset.mem_cons.1 owed').resolve_left (by simp)
    rcases Multiset.mem_add.1 left with left | left
    · cases rs with
      | nil => exact absurd left (Multiset.notMem_zero _)
      | cons r' rs =>
        cases Multiset.mem_singleton.1 left
        exact here
    · exact h.offers d' rs' (owed ▸ Multiset.mem_cons_of_mem left)
  · rw [past] at sent ⊢
    rcases List.mem_append.1 sent with sent | sent
    · have told : .sentToRuntime id e ∈ r.told d :=
        (List.mem_append.1 sent).resolve_right (by simp)
      have same : d.id = id ∧ e = d.runtimeEvent := by
        unfold Responder.told at told
        split at told
        · split at told <;> simp_all
        · simp at told
        · simp at told
      exact ⟨d, mem_dispatchesOf_append here, same⟩
    · obtain ⟨d', hd', rest⟩ := h.sends id e sent
      exact ⟨d', mem_dispatchesOf_append hd', rest⟩

theorem deliver (h : Announces k) {id : Nat} {others : Multiset Duty}
    (owed : k.duties = .ticket id ::ₘ others) (who : ResponderKind) (answer : Delivery) :
    Announces (k.deliver setup id who answer others) := by
  have noted : ∀ x ∈ [answer.entry who id], x.sent? = none := by
    intro x hx
    obtain rfl := List.mem_singleton.1 hx
    cases answer <;> rfl
  have left {d rs} (left : .offer d rs ∈ others) : ∃ rs', .offer d rs' ∈ k.duties :=
    ⟨rs, owed ▸ Multiset.mem_cons_of_mem left⟩
  unfold Desk.deliver
  simp only
  split
  · generalize k.book.docket.answer id answer.claimed = r
    obtain ⟨docket, verdict⟩ := r
    cases verdict with
    | untracked => exact h.keep [_] rfl noted fun _ _ => left
    | waiting n =>
      exact h.keep [.waiting id n, _] rfl (List.forall_mem_cons.2 ⟨rfl, noted⟩)
        fun _ _ => left
    | complete claimed d =>
      refine h.keep [_] rfl noted fun d' rs owed' => @left d' rs ?_
      exact (Multiset.mem_cons.1 owed').resolve_left (by simp)
  · exact h.keep [.late id _, _] rfl (List.forall_mem_cons.2 ⟨rfl, noted⟩)
      fun _ _ => left

theorem settle (h : Announces k) {d : Dispatch} {claimed : Bool} {others : Multiset Duty}
    (owed : k.duties = .settle d claimed ::ₘ others) (consumes refuses : Bool) :
    Announces (k.settle setup d claimed consumes refuses others) := by
  have left {d' rs} (left : .offer d' rs ∈ others) : ∃ rs', .offer d' rs' ∈ k.duties :=
    ⟨rs, owed ▸ Multiset.mem_cons_of_mem left⟩
  have conclude {k' : Desk} (entries : List Entry) (past : k'.past = entries ++ k.past)
      (mute : ∀ x ∈ entries, x.sent? = none) (verdict : Bool) :
      Announces (k'.conclude d verdict refuses others) := by
    unfold Desk.conclude
    simp only
    generalize k'.book.settle d verdict = r
    obtain ⟨book, none | e⟩ := r
    · exact h.keep (.resolved d.id verdict :: entries) (by simp [past])
        (List.forall_mem_cons.2 ⟨rfl, mute⟩) fun _ _ => left
    · cases refuses with
      | true =>
        refine h.keep (.refused d.id :: .handedBack d.id e :: .resolved d.id verdict :: entries) ?_ ?_
          fun _ _ => left
        · simp [past]
        · simpa [Entry.sent?] using mute
      | false =>
        refine h.keep (.handedBack d.id e :: .resolved d.id verdict :: entries) ?_ ?_ fun _ _ => left
        · simp [past]
        · simpa [Entry.sent?] using mute
  rw [Desk.settle, Desk.consult_eq]
  split
  · exact conclude [.filtered d.id d.event consumes] rfl (by simp [Entry.sent?]) _
  · exact conclude [] rfl (List.forall_mem_nil _) _

theorem change (change : Change setup layouts k k') (h : Announces k) : Announces k' := by
  cases change with
  | @remark x idle =>
    exact h.keep [x] rfl (by simpa using Entry.sent?_of_idle idle) fun _ rs owed => ⟨rs, owed⟩
  | forgetLayout =>
    exact h.keep [] rfl (List.forall_mem_nil _) fun _ rs owed => ⟨rs, owed⟩
  | arrive asked e => exact h.arrive _ e
  | offer owed => exact h.offer owed
  | deliver owed who answer => exact h.deliver owed who answer
  | settle owed consumes refuses => exact h.settle owed consumes refuses

theorem of_blank (blank : k.Blank) : Announces k := by
  refine ⟨fun d rs owed => ?_, fun id e sent => ?_⟩
  · rw [blank.duties] at owed
    exact absurd owed (Multiset.notMem_zero _)
  · cases blank.past _ sent

end Announces

/-! ## One event at a time -/

theorem dispatchesOf_append_past (entries past : List Entry) :
    dispatchesOf (entries ++ past) = dispatchesOf past ++ dispatchesOf entries := by
  simp only [dispatchesOf, List.filterMap_append, List.map_append, List.reverse_append]

def Sight.dispatch? : Sight → Option Dispatch
  | .dispatch _ d => some d
  | .notice _ => none

theorem dispatchesOf_reverse (news : List Entry) (layout : Layout) :
    dispatchesOf news.reverse =
      (news.filterMap (Entry.sight? layout)).filterMap Sight.dispatch? := by
  have same (x : Entry) : x.dispatch?.map Prod.fst = (x.sight? layout).bind Sight.dispatch? := by
    cases x <;> rfl
  rw [dispatchesOf, List.map_filterMap, List.filterMap_reverse, List.reverse_reverse,
    List.filterMap_filterMap]
  simp only [same]

namespace Moment

theorem dispatches_next (m : Moment) (move : Move) (a : ArbiterId) :
    ∃ new, (m.next move).dispatches a = m.dispatches a ++ new ∧ new.length ≤ 1 := by
  obtain ⟨past, looks⟩ := m.looks a move
  refine ⟨dispatchesOf (m.news a move).reverse,
    (congrArg dispatchesOf past).trans (dispatchesOf_append_past _ _), ?_⟩
  rw [dispatchesOf_reverse _ (m.scene.layout a)]
  generalize (m.news a move).filterMap (Entry.sight? (m.scene.layout a)) = seen at looks
  cases looks with
  | nothing => exact Nat.zero_le _
  | dispatch | notice => exact List.length_filterMap_le ..

theorem dispatches_append (moves more : List Move) (a : ArbiterId) :
    (after moves).dispatches a <+: (after (moves ++ more)).dispatches a := by
  induction more using List.reverseRecOn with
  | nil => simp
  | append_singleton more move ih =>
    obtain ⟨new, grown, -⟩ := (after (moves ++ more)).dispatches_next move a
    rw [← List.append_assoc, after_concat, grown]
    exact ih.trans (List.prefix_append ..)

theorem dispatches_fresh {moves : List Move} {move : Move} {a : ArbiterId} {d : Dispatch}
    (fresh : d ∈ (after (moves ++ [move])).dispatches a) (new : d ∉ (after moves).dispatches a) :
    (after (moves ++ [move])).dispatches a = (after moves).dispatches a ++ [d] := by
  obtain ⟨more, grown, one⟩ := (after moves).dispatches_next move a
  rw [after_concat, grown] at fresh ⊢
  have mem := (List.mem_append.1 fresh).resolve_left new
  cases more with
  | nil => cases mem
  | cons d' more =>
    obtain rfl := List.length_eq_zero_iff.1 (Nat.le_zero.1 (Nat.le_of_succ_le_succ one))
    rw [List.mem_singleton.1 mem]

theorem layouts_append {moves more : List Move} {a : ArbiterId} {layout : Layout}
    (here : layouts moves a layout) : layouts (moves ++ more) a layout := by
  induction more using List.reverseRecOn with
  | nil => rwa [List.append_nil]
  | append_singleton more move ih =>
    rw [← List.append_assoc]
    exact layouts_concat ih

theorem announces (moves : List Move) (a : ArbiterId) : Announces ((after moves).desk a) :=
  always .of_blank (fun change h => h.change change) moves a

theorem follows_steady {moves : List Move} {a : ArbiterId} {ask : LayoutQuery → LogicalKey}
    (steady : ∀ l, layouts moves a l → l.lookup = ask) : Follows ask ((after moves).desk a) := by
  induction moves using List.reverseRecOn with
  | nil => exact .of_blank ((traced []).unbuilt a (Nat.zero_le _))
  | append_singleton moves move ih =>
    obtain ⟨-, -, course⟩ := next_spec (traced moves).aimed move
    have before := ih fun l here => steady l (layouts_concat here)
    rw [after_concat]
    refine (course a).preserves (Follows.change fun l here => steady l ?_) before
    exact ⟨moves.length, by rwa [List.take_left]⟩

end Moment

theorem Follows.dispatch_eq {ask : LayoutQuery → LogicalKey} {k : Desk} (h : Follows ask k)
    {before later : List Dispatch} {d : Dispatch}
    (split : dispatchesOf k.past = before ++ d :: later) :
    d = ((Keys.run ask (before.map (·.event))).1.next ask (before.length + 1) d.event).2 := by
  have runs := h.dispatches
  rw [freshOf, split] at runs
  exact Keys.run_at runs.symm

/-- Until the next release of a key that was pressed, and in it, its dispatches bear what the first
press looked up to. -/
theorem Follows.keeps {ask : LayoutQuery → LogicalKey} {k : Desk} (h : Follows ask k)
    (enrolled : Enrolled k) {before between later : List Dispatch} {d d' : Dispatch}
    (split : dispatchesOf k.past = before ++ d :: between ++ d' :: later)
    (press : d.event.isPress = true)
    (up : (Keys.run ask (before.map (·.event))).1 (.ofKeycode d.event.keycode) = none)
    (still : ∀ x ∈ between, x.physical = d.physical → x.event.isPress = true)
    (same : d'.physical = d.physical) :
    d'.logical = ask d.event.query ∧ d'.orphan = false ∧
      d'.transition = if d'.event.isPress then .repeated else .up := by
  have mem {x : Dispatch} (hx : x = d ∨ x ∈ between ∨ x = d') : x ∈ dispatchesOf k.past := by
    rw [split]
    rcases hx with rfl | hx | rfl <;> simp [*]
  have physical {x : Dispatch} (hx : x = d ∨ x ∈ between ∨ x = d') := enrolled.physical x (mem hx)
  rw [physical (.inl rfl)] at still same
  rw [physical (.inr (.inr rfl))] at same
  have down : (Keys.run ask ((before ++ [d]).map (·.event))).1 (.ofKeycode d.event.keycode) =
      some (ask d.event.query) := by
    rw [List.map_append, List.map_singleton, Keys.run_concat, Keys.next_of_up _ _ press up]
    exact Function.update_self ..
  have kept := Keys.run_kept down (between.map (·.event)) fun e he about => by
    obtain ⟨x, hx, rfl⟩ := List.mem_map.1 he
    exact still x hx ((physical (.inr (.inl hx))).trans about)
  rw [← List.map_append, List.append_assoc, List.singleton_append, ← same] at kept
  have eq := h.dispatch_eq split
  rw [Keys.next_of_down kept] at eq
  exact ⟨congrArg Dispatch.logical eq, congrArg Dispatch.orphan eq, congrArg Dispatch.transition eq⟩

/-! ## What responders are told -/

/-- The event of the runtime carries what was looked up. -/
def Command.Lookup.Carried (report : Command.Lookup) (e : RuntimeEvent) : Prop :=
  e.physical = report.physical ∧ e.logical = report.logical ∧
    e.character = report.character.map String.singleton

/-- A dispatch bears what was looked up, and so does all that responders are told when they are
offered it. -/
structure Foretells (a : ArbiterId) (report : Command.Lookup) (d : Dispatch) : Prop where
  physical : d.physical = report.physical
  logical : d.logical = report.logical
  character : d.character = report.character
  runtime (sc : Scene) (st : State) : ∃ e, report.Carried e ∧ st.offer sc a d .embedder =
    (st.note a (.sentToRuntime d.id e)).sendToRuntime sc e (some ⟨a, .embedder, d.id⟩)
  channel (sc : Scene) (st : State) (name keymap toolkit : String) : ∃ data message,
    KeyMessage.codec.decode data = .ok message ∧
    message.unicodeScalarValues = (report.character.map (·.val)).getD 0 ∧
    st.offer sc a d (.channel name keymap toolkit) =
      (st.note a (.sentOnChannel d.id name)).sendOnChannel sc name data (some ⟨a, .channel, d.id⟩)
  others (sc : Scene) (st : State) (rule : Rule) :
    (st.offer sc a d (.extra rule)).1.seen = st.seen ++ [(a, d)]

theorem State.seen_callHook (sc : Scene) (st : State) (h : HookId) (e : KeyEvent) (outlet : Outlet) :
    (st.callHook sc h e outlet).1.seen = st.seen := by
  have arrive (a : ArbiterId) : (st.arrive sc a e).1.seen = st.seen := by
    rw [arrive_eq]
    generalize (st.book a).arrive (sc.layout a) (sc.responders a).length e = r
    obtain ⟨after, id | d, asked⟩ := r <;> rfl
  unfold callHook
  simp only
  split
  · split
    · rfl
    · split
      · rfl
      · exact arrive _
  · rfl

theorem foretells (a : ArbiterId) (layout : Layout) {d : Dispatch}
    (first : d = ⟨d.event, d.id, .down, .ofKeycode d.event.keycode, layout.lookup d.event.query,
      false⟩)
    (real : d.event.synthesized = false) :
    Foretells a (.ofQuery layout d.event.query) d := by
  have character : d.character = charOfKeyval d.event.keyval := by
    rw [first]
    simp [Dispatch.character, real]
  have known : d.orphan = false := by rw [first]
  have physical : d.physical = .ofKeycode d.event.keycode := by rw [first]
  have logical : d.logical = layout.lookup d.event.query := by rw [first]
  refine ⟨physical, logical, character, fun sc st => ?_, fun sc st name keymap toolkit => ?_,
    fun sc st rule => ?_⟩
  · have carried := congrArg (Option.map String.singleton) character
    refine ⟨d.runtimeEvent, ⟨physical, logical, carried⟩, ?_⟩
    simp only [State.offer, known, Bool.false_eq_true, if_false]
    rfl
  · exact ⟨_, _, KeyMessage.faithful.roundTrips.1 (.ofEvent d.event keymap toolkit), rfl, rfl⟩
  · cases rule with
    | reenter h => exact State.seen_callHook ..
    | answer | drop | hold | claim => rfl

/-! ## At every moment -/

namespace Moment

open Command (LookupRequest resolveLayout)

/-- Over a layout that does not change, the first press of a key is dispatched as a lookup of it
reports, unless it is synthesized. That is what all responders are offered under its number and
what the runtime is sent, then and later. Until the key is released, and in its release, it keeps the
logical key, whatever the later events would look up to. -/
theorem lookup_foretells (earlier more : List Move) (move : Move) {a : ArbiterId} {layout : Layout}
    (steady : ∀ l, layouts (earlier ++ move :: more) a l → l.lookup = layout.lookup) {d : Dispatch}
    (fresh : d ∈ (after (earlier ++ [move])).dispatches a) (new : d ∉ (after earlier).dispatches a)
    (press : d.event.isPress = true) (real : d.event.synthesized = false)
    (up : PhysicalKey.ofKeycode d.event.keycode ∉ ((after earlier).book a).held.down) :
    let m := after (earlier ++ move :: more)
    let report := Command.Lookup.ofQuery layout d.event.query
    (∀ name, resolveLayout name = .ok layout →
      LookupRequest.run ⟨d.event.keycode, d.event.keyval, d.event.group, name⟩ = .ok report) ∧
    ArrivalsNoted a ∧ d.transition = .down ∧ Foretells a report d ∧
    (∀ d' r rs, .offer a d' (r :: rs) ∈ m.tasks → d'.id = d.id → d' = d) ∧
    (∀ e, .sentToRuntime d.id e ∈ m.past a → report.Carried e) ∧
    ∀ before between d' later, m.dispatches a = before ++ d :: between ++ d' :: later →
      (∀ x ∈ between, x.physical = d.physical → x.event.isPress = true) →
      d'.physical = d.physical →
      d'.logical = report.logical ∧ d'.orphan = false ∧
        d'.transition = if d'.event.isPress then .repeated else .up := by
  intro m report
  have whole : Follows layout.lookup (m.desk a) := follows_steady steady
  have start : Follows layout.lookup ((after earlier).desk a) :=
    follows_steady fun l here => steady l (layouts_append here)
  have grown := dispatches_fresh fresh new
  obtain ⟨rest, all⟩ : ∃ rest, m.dispatches a = (after earlier).dispatches a ++ d :: rest := by
    obtain ⟨rest, eq⟩ := dispatches_append (earlier ++ [move]) more a
    rw [grown, List.append_assoc, List.append_assoc, List.singleton_append,
      List.singleton_append] at eq
    exact ⟨rest, eq.symm⟩
  -- The press, by the keys as they were before it.
  have keys : (Keys.run layout.lookup (((after earlier).dispatches a).map (·.event))).1
      (.ofKeycode d.event.keycode) = none := by
    have none := mt (HeldKeys.mem_down _ _).2 up
    rw [Option.not_isSome_iff_eq_none] at none
    exact (start.held _).symm.trans none
  have pressed := Keys.next_of_up layout.lookup (((after earlier).dispatches a).length + 1) press keys
  have eq := whole.dispatch_eq all
  rw [pressed] at eq
  have id : d.id = ((after earlier).dispatches a).length + 1 := congrArg Dispatch.id eq
  rw [← id] at eq
  have told := foretells a layout eq real
  have enrolled := enrolled (earlier ++ move :: more) a
  have here : d ∈ m.dispatches a := by
    rw [all]
    exact List.mem_append_right _ (List.mem_cons_self ..)
  refine ⟨fun name found => ?_, arrivalsNoted a, congrArg Dispatch.transition eq, told, ?_, ?_, ?_⟩
  · unfold LookupRequest.run
    rw [found]
    rfl
  · intro d' r rs offered same
    have owed : .offer d' (r :: rs) ∈ (m.desk a).duties := by
      refine Multiset.mem_add.2 (.inr (Multiset.mem_add.2 (.inl (mem_taskDuties offered ?_))))
      simp [Task.duties, Duty.offers]
    exact enrolled.eq_of_id ((announces _ a).offers d' _ owed) here same
  · intro e sent
    obtain ⟨d', hd', same, rfl⟩ := (announces _ a).sends d.id e sent
    obtain rfl := enrolled.eq_of_id hd' here same
    exact ⟨told.physical, told.logical, congrArg (Option.map String.singleton) told.character⟩
  · intro before between d' later split still same
    have nodup : (m.dispatches a).Nodup := enrolled.ascending.imp fun lt eq => lt.ne (congrArg _ eq)
    have first : before = (after earlier).dispatches a := by
      rw [split, List.append_assoc, List.cons_append] at all nodup
      have once := (List.nodup_cons.1 (List.nodup_middle.1 nodup)).1
      rw [List.mem_append, not_or] at once
      exact ((List.append_cons_inj_of_notMem once.1 once.2).1 all).1
    subst first
    exact whole.keeps enrolled split press keys still same

/-- A press, and in the midst of its calls a repeat and the release of the key, both with the symbol
of another key. -/
def anotherSymbol : List Move :=
  [.go, .command (.event 0 { aPress with keyval := 0x62 }),
    .command (.event 0 { aPress with keyval := 0x62, isPress := false })]

theorem lookup_foretells_anotherSymbol :
    let start : List Move := [.command (.build { channelResponder := false } false [.hold])]
    let moves := start ++ .command (.event 0 aPress) :: anotherSymbol
    let d : Dispatch := ⟨aPress, 1, .down, ⟨0x70004⟩, ⟨0x61⟩, false⟩
    (∀ l, layouts moves 0 l → l.lookup = Layout.us.lookup) ∧
    d ∈ (after (start ++ [.command (.event 0 aPress)])).dispatches 0 ∧
    d ∉ (after start).dispatches 0 ∧ aPress.isPress = true ∧ aPress.synthesized = false ∧
    .ofKeycode 0x26 ∉ ((after start).book 0).held.down ∧
    LookupRequest.run ⟨0x26, 0x61, 0, none⟩ = .ok (.ofQuery .us aPress.query) ∧
    Foretells 0 (.ofQuery .us aPress.query) d ∧
    .sentToRuntime 1 d.runtimeEvent ∈ (after moves).past 0 ∧
    ∃ repeated release, (after moves).dispatches 0 = [d, repeated, release] ∧
      repeated.transition = .repeated ∧ repeated.logical = ⟨0x61⟩ ∧
      release.transition = .up ∧ release.logical = ⟨0x61⟩ ∧
      Layout.us.lookup release.event.query = ⟨0x62⟩ := by
  intro start moves d
  have steady : ∀ l, layouts moves 0 l → l.lookup = Layout.us.lookup := by
    rintro l ⟨k, built, rfl⟩
    rcases le_or_gt 5 k with le | lt
    · rw [List.take_of_length_le le]
      rfl
    · interval_cases k
      · exact absurd built (by decide)
      all_goals rfl
  have fresh : d ∈ (after (start ++ [.command (.event 0 aPress)])).dispatches 0 := by decide +kernel
  have new : d ∉ (after start).dispatches 0 := by decide +kernel
  have up : .ofKeycode 0x26 ∉ ((after start).book 0).held.down := by decide +kernel
  have found : resolveLayout none = .ok .us := by
    simp [resolveLayout, Layout.find?, Layout.registered]
  obtain ⟨reports, -, -, told, -, -, keeps⟩ :=
    lookup_foretells start anotherSymbol (.command (.event 0 aPress)) steady fresh new rfl rfl up
  let repeated : Dispatch :=
    ⟨{ aPress with keyval := 0x62 }, 2, .repeated, ⟨0x70004⟩, ⟨0x61⟩, false⟩
  let release : Dispatch :=
    ⟨{ aPress with keyval := 0x62, isPress := false }, 3, .up, ⟨0x70004⟩, ⟨0x61⟩, false⟩
  have all : (after moves).dispatches 0 = [d, repeated, release] := by decide +kernel
  obtain ⟨held, -, again⟩ := keeps [] [] repeated [release] all (by decide) rfl
  obtain ⟨kept, -, ended⟩ := keeps [] [repeated] release [] all (by decide) rfl
  exact ⟨steady, fresh, new, rfl, rfl, up, reports none found, told, by decide +kernel, repeated,
    release, all, again, held, ended, kept, by decide +kernel⟩

end Moment

end KeyArbiter
