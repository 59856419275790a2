import KeyArbiter.Proofs.Course
import Mathlib

/-!
# How a desk came about

The desk of an arbiter that is alive was blank when the arbiter was built, and all that happened
since is a course of changes (`Moment.exists_course`), whatever moves were made and in which order.
-/

namespace KeyArbiter

/-! ## The scene grows -/

/-- Arbiters and hooks only come in addition, until an arbiter is disposed of. -/
structure Scene.Grows (sc sc' : Scene) : Prop where
  length : sc.setups.length ≤ sc'.setups.length
  kept : ∀ a < sc.setups.length, sc'.isAlive a → sc'.setup a = sc.setup a
  aimed : ∀ h, (sc.hook h).target < sc.setups.length → sc'.hook h = sc.hook h

namespace Scene.Grows

variable {sc sc' sc'' : Scene}

theorem same (setups : sc'.setups = sc.setups) (hooks : sc'.hooks = sc.hooks) : Grows sc sc' := by
  refine ⟨by rw [setups], ?_, ?_⟩
  · intro a _ _
    simp only [Scene.setup, setups]
  · intro h _
    simp only [Scene.hook, setups, hooks]

theorem refl (sc : Scene) : Grows sc sc := .same rfl rfl

theorem trans (h : Grows sc sc') (h' : Grows sc' sc'') : Grows sc sc'' := by
  refine ⟨h.length.trans h'.length, ?_, ?_⟩
  · intro a lt alive
    have later := h'.kept a (lt.trans_le h.length) alive
    have alive' : sc'.isAlive a := by rwa [isAlive, ← later]
    rw [later, h.kept a lt alive']
  · intro k lt
    have here := h.aimed k lt
    have later := h'.aimed k (by rw [here]; exact lt.trans_le h.length)
    rw [later, here]

theorem aims (h : Grows sc sc') {t : Task} (aimed : t.Aimed sc) : t.Aimed sc' := by
  cases t with
  | act k e actions value outlet =>
    cases actions with
    | nil => trivial
    | cons x xs =>
      change (sc'.hook k).target < sc'.setups.length
      rw [h.aimed k aimed]
      exact lt_of_lt_of_le aimed h.length
  | feed b events => exact lt_of_lt_of_le aimed h.length
  | offer | deliver | settle => trivial

theorem lt_of_aimed {k : HookId} (lt : (sc.hook k).target < sc.setups.length) :
    k < sc.hooks.length := by
  by_contra outside
  rw [Scene.hook, List.getD_eq_default _ _ (not_lt.1 outside)] at lt
  exact lt_irrefl _ lt

theorem addHook (sc : Scene) (h : Hook) : Grows sc { sc with hooks := sc.hooks ++ [h] } := by
  refine ⟨le_rfl, fun _ _ _ => rfl, ?_⟩
  intro k lt
  simp [Scene.hook, List.getElem?_append_left (lt_of_aimed lt)]

theorem addSetup (sc : Scene) (s : Setup) : Grows sc { sc with setups := sc.setups ++ [s] } := by
  refine ⟨by simp, ?_, ?_⟩
  · intro a lt _
    simp [Scene.setup, List.getElem?_append_left lt]
  · intro k lt
    simp [Scene.hook, List.getElem?_eq_getElem (lt_of_aimed lt)]

theorem dispose (sc : Scene) (a : ArbiterId) :
    Grows sc { sc with setups := sc.setups.set a { sc.setup a with alive := false } } := by
  refine ⟨by simp, ?_, ?_⟩
  · intro b lt alive
    by_cases eq : a = b
    · subst eq
      simp [Scene.isAlive, Scene.setup, lt] at alive
    · simp [Scene.setup, List.getElem?_set_ne eq]
  · intro k _
    simp [Scene.hook]

end Scene.Grows

namespace Session

theorem grows_addResponders (s : Session) (extra : List ResponderSpec) :
    s.scene.Grows (s.addResponders extra).1.scene := by
  induction extra generalizing s with
  | nil => exact .refl _
  | cons r rs ih =>
    have first : s.scene.Grows (s.addResponder r).1.scene := by
      cases r with
      | reenter h => exact .addHook s.scene h.hook
      | _ => exact .refl _
    exact first.trans (ih (s.addResponder r).1)

theorem grows_build (s : Session) (settings : Settings) (scripted : Bool)
    (extra : List ResponderSpec) : s.scene.Grows (s.build settings scripted extra).1.scene :=
  ((grows_addResponders s extra).trans (.addSetup _ _)).trans (.same rfl rfl)

theorem grows_dispose (s : Session) (a : ArbiterId) : s.scene.Grows (s.dispose a).scene :=
  (Scene.Grows.dispose s.scene a).trans (.same rfl rfl)

/-! ## Slots -/

theorem slotDuties_set {α : Type} (f : α → Multiset Duty) {slots : List (Option α)} {n : Nat} {x : α}
    (full : slots.getD n none = some x) (o : Option α) :
    f x + slotDuties f (slots.set n o) = o.elim 0 f + slotDuties f slots := by
  induction slots generalizing n with
  | nil => simp at full
  | cons y ys ih =>
    cases n with
    | zero =>
      obtain rfl : y = some x := by simpa using full
      simp [slotDuties, add_left_comm]
    | succ n =>
      have := ih (n := n) (by simpa using full)
      simp only [slotDuties, List.set_cons_succ, List.map_cons, List.sum_cons] at this ⊢
      rw [add_left_comm, this, add_left_comm]

theorem slotDuties_append {α : Type} (f : α → Multiset Duty) (slots more : List (Option α)) :
    slotDuties f (slots ++ more) = slotDuties f slots + slotDuties f more := by
  simp [slotDuties]

theorem slotDuties_map_some {α : Type} (f : α → Multiset Duty) (xs : List α) :
    slotDuties f (xs.map some) = (xs.map f).sum := by
  simp [slotDuties, Function.comp_def]

theorem takeCompletion_spec {s s' : Session} {slot : Nat} {o : Option (Option Completion)}
    (taken : s.takeCompletion slot = (s', o)) (a : ArbiterId) :
    s'.state = s.state ∧ s'.scene = s.scene ∧
      (o.getD none).elim 0 (Completion.duties a) + s'.duties a = s.duties a := by
  unfold takeCompletion at taken
  cases full : s.records.getD slot none with
  | none =>
    rw [full] at taken
    cases taken
    simp
  | some r =>
    rw [full] at taken
    cases taken
    refine ⟨rfl, rfl, ?_⟩
    have := slotDuties_set (CallRecord.duties a) full (some { r with completion := none })
    simp only [CallRecord.duties, Option.elim_some, Option.elim_none, zero_add] at this
    simp only [Session.duties, Option.getD_some, ← add_assoc]
    rw [← this]

/-! ## Commands that call nobody -/

section Quiet

variable (s : Session) (a : ArbiterId) (D : Multiset Duty) {setup : Setup} {layouts : Layout → Prop}

theorem addResponders_spec (extra : List ResponderSpec) :
    (s.addResponders extra).1.state.desk a = s.state.desk a ∧
      (s.addResponders extra).1.duties a = s.duties a := by
  induction extra generalizing s with
  | nil => exact ⟨rfl, rfl⟩
  | cons r rs ih =>
    have first : (s.addResponder r).1.state.desk a = s.state.desk a ∧
        (s.addResponder r).1.duties a = s.duties a := by
      cases r <;> exact ⟨rfl, rfl⟩
    have rest := ih (s.addResponder r).1
    exact ⟨rest.1.trans first.1, rest.2.trans first.2⟩

/-- What holds at first, and is kept as each arbiter is told of the other layout, holds at last. -/
theorem layoutChange_induction {P : State → Prop} (start : P s.state)
    (tell : ∀ st b, P st → P ((st.setBook b (st.book b).forgetLayout).note b
      (.layoutChanged (st.book b).known.length))) : P s.layoutChange.state := by
  simp only [layoutChange]
  generalize s.state = st at start
  induction List.range s.scene.setups.length generalizing st with
  | nil => exact start
  | cons b bs ih =>
    rw [List.foldl_cons]
    refine ih _ ?_
    split
    · exact tell st b start
    · exact start

theorem course_layoutChange :
    Course setup layouts (s.state.desk a D) (s.layoutChange.state.desk a D) := by
  refine s.layoutChange_induction
    (P := fun st => Course setup layouts (s.state.desk a D) (st.desk a D)) .refl
    fun st b course => course.trans (.trans ?_ (State.course_note _ D b rfl))
  by_cases eq : b = a
  · subst eq
    rw [State.desk_setBook_self]
    exact .single .forgetLayout
  · rw [State.desk_setBook_of_ne st D eq]

theorem course_receive (channel : String) (data : List UInt8) :
    Course setup layouts (s.state.desk a D) ((s.receive channel data).1.state.desk a D) := by
  unfold receive
  split
  · exact .refl
  · exact .refl
  · split
    · split
      · exact .refl
      · exact State.course_note _ D _ rfl
      · exact State.course_note _ D _ rfl
    · exact .refl

theorem receive_frame (channel : String) (data : List UInt8) :
    (s.receive channel data).1.scene = s.scene ∧
      (s.receive channel data).1.duties a = s.duties a := by
  unfold receive
  split
  · exact ⟨rfl, rfl⟩
  · exact ⟨rfl, rfl⟩
  · split
    · split <;> exact ⟨rfl, rfl⟩
    · exact ⟨rfl, rfl⟩

end Quiet

/-! ## What a command does -/

/-- A command is a course of changes, lets the scene grow, and aims well. -/
structure Enters (s : Session) (a : ArbiterId) (tasks : List Task) (p : Session × List Task) :
    Prop where
  grows : s.scene.Grows p.1.scene
  aimed : ∀ t ∈ p.2, t.Aimed p.1.scene
  course : Course (p.1.scene.setup a) (s.scene.Consults a) (Moment.desk ⟨s, tasks⟩ a)
    (Moment.desk ⟨p.1, p.2 ++ tasks⟩ a)

namespace Enters

variable {s s' : Session} {a : ArbiterId} {tasks : List Task}

theorem of_lands {k : Desk} {p : Progress} (scene : s'.scene = s.scene)
    (desk : Moment.desk ⟨s, tasks⟩ a = k)
    (h : Lands s.scene a k p (taskDuties a tasks + s'.duties a)) : Enters s a tasks (s'.start p) := by
  have same : (s'.start p).1.scene = s.scene := scene
  refine ⟨.same (by rw [same]) (by rw [same]), ?_, ?_⟩
  · rw [same]
    exact h.aimed
  · rw [same, desk]
    convert h.course using 1
    simp only [Moment.desk, taskDuties_append, add_assoc]
    rfl

theorem quiet (grows : s.scene.Grows s'.scene)
    (course : ∀ setup layouts, Course setup layouts (Moment.desk ⟨s, tasks⟩ a)
      (Moment.desk ⟨s', tasks⟩ a)) : Enters s a tasks (s', []) :=
  ⟨grows, by simp, course _ _⟩

theorem still (grows : s.scene.Grows s'.scene)
    (desk : Moment.desk ⟨s', tasks⟩ a = Moment.desk ⟨s, tasks⟩ a) : Enters s a tasks (s', []) :=
  .quiet grows fun _ _ => by rw [desk]

end Enters

section Launch

variable (s : Session) (a : ArbiterId) (tasks : List Task)

theorem desk_eq :
    Moment.desk ⟨s, tasks⟩ a = s.state.desk a (taskDuties a tasks + s.duties a) := rfl

theorem enters_meet (b : ArbiterId) (e : KeyEvent) : Enters s a tasks (s.meet b e) := by
  unfold meet
  split
  · next alive => exact .of_lands rfl rfl (State.lands_arrive _ _ _ (lt_of_isAlive alive) e)
  · exact .still (.refl _) rfl

theorem enters_close {s' : Session} {c : Completion} (state : s'.state = s.state)
    (scene : s'.scene = s.scene) (duties : c.duties a + s'.duties a = s.duties a) (how : Ending) :
    Enters s a tasks (s'.close c how) := by
  have desk : Moment.desk ⟨s, tasks⟩ a =
      s'.state.desk a (c.duties a + (taskDuties a tasks + s'.duties a)) := by
    rw [add_left_comm, duties, state]
    rfl
  cases how with
  | answer claimed => exact .of_lands scene desk (State.lands_complete _ _ _ claimed c)
  | drop => exact .of_lands scene desk (State.lands_abandon _ _ _ c)

theorem enters_build (settings : Settings) (scripted : Bool) (extra : List ResponderSpec) :
    Enters s a tasks ((s.build settings scripted extra).1, []) := by
  refine .quiet (grows_build s settings scripted extra) fun setup layouts => ?_
  obtain ⟨desk, duties⟩ := addResponders_spec s a extra
  have same : (s.build settings scripted extra).1.duties a = (s.addResponders extra).1.duties a := rfl
  rw [desk_eq, desk_eq, same, duties, ← desk]
  exact State.course_note _ _ _ rfl

theorem desk_takeRecords :
    Moment.desk ⟨(s.perform .takeRecords).1, tasks⟩ a = Moment.desk ⟨s, tasks⟩ a := by
  have taken : slotDuties (CallRecord.duties a) (s.records ++ s.state.records.map some) =
      slotDuties (CallRecord.duties a) s.records + (s.state.records.map (CallRecord.duties a)).sum := by
    rw [slotDuties_append, slotDuties_map_some]
  rw [desk_eq, desk_eq]
  simp only [State.desk, State.duties, Session.duties, perform, taken]
  simp only [List.map_nil, List.sum_nil, zero_add]
  congr 1
  abel

theorem enters_takeRecords : Enters s a tasks (s.launch .takeRecords) :=
  .still (.refl _) (desk_takeRecords s a tasks)

theorem takeCallback_spec (slot : Nat) :
    (s.perform (.takeCallback slot)).1.state = s.state ∧
      (s.perform (.takeCallback slot)).1.scene = s.scene ∧
      Moment.desk ⟨(s.perform (.takeCallback slot)).1, tasks⟩ a = Moment.desk ⟨s, tasks⟩ a := by
  rcases taken : s.takeCompletion slot with ⟨s', o⟩
  obtain ⟨state, scene, duties⟩ := takeCompletion_spec taken a
  simp only [perform, taken]
  rcases o with _ | _ | c
  · exact ⟨state, scene, by rw [desk_eq, desk_eq, state, ← duties]; simp⟩
  · exact ⟨state, scene, by rw [desk_eq, desk_eq, state, ← duties]; simp⟩
  · refine ⟨state, scene, ?_⟩
    have moved : slotDuties (Completion.duties a) (s'.callbacks ++ [some c]) =
        c.duties a + slotDuties (Completion.duties a) s'.callbacks := by
      simp [slotDuties, add_comm]
    rw [desk_eq, desk_eq, ← duties]
    simp only [state, Session.duties, moved, Option.getD_some, Option.elim_some]
    rw [add_left_comm (c.duties a)]

theorem enters_takeCallback (slot : Nat) : Enters s a tasks (s.launch (.takeCallback slot)) := by
  obtain ⟨-, scene, desk⟩ := takeCallback_spec s a tasks slot
  exact .still (.same (congrArg Scene.setups scene) (congrArg Scene.hooks scene)) desk

theorem enters_respond (slot : Nat) (claimed : Bool) :
    Enters s a tasks (s.launch (.respond slot claimed)) := by
  rcases taken : s.takeCompletion slot with ⟨s', o⟩
  obtain ⟨state, scene, duties⟩ := takeCompletion_spec taken a
  have grows : s.scene.Grows s'.scene := .same (by rw [scene]) (by rw [scene])
  simp only [launch, taken]
  rcases o with _ | _ | c
  · exact .still grows (by rw [desk_eq, desk_eq, state, ← duties]; simp)
  · exact .still grows (by rw [desk_eq, desk_eq, state, ← duties]; simp)
  · exact enters_close s a tasks state scene duties _

theorem enters_dropRecord (slot : Nat) : Enters s a tasks (s.launch (.dropRecord slot)) := by
  simp only [launch, takeSlot]
  cases full : s.records.getD slot none with
  | none => exact .still (.refl _) rfl
  | some r =>
    have freed := slotDuties_set (CallRecord.duties a) full none
    rw [Option.elim_none, zero_add] at freed
    cases open? : r.completion with
    | none =>
      simp only [open?]
      refine .still (.same rfl rfl) ?_
      simp only [CallRecord.duties, open?, Option.elim_none, zero_add] at freed
      simp only [desk_eq, Session.duties, freed]
    | some c =>
      simp only [open?]
      refine enters_close s a tasks (by rfl) (by rfl) ?_ _
      simp only [CallRecord.duties, open?, Option.elim_some] at freed
      simp only [Session.duties, ← freed, add_assoc]

theorem enters_endCallback (slot : Nat) (how : Ending) :
    Enters s a tasks (s.launch (.endCallback slot how)) := by
  simp only [launch, takeSlot]
  cases full : s.callbacks.getD slot none with
  | none => exact .still (.refl _) rfl
  | some c =>
    have freed := slotDuties_set (Completion.duties a) full none
    rw [Option.elim_none, zero_add] at freed
    simp only
    refine enters_close s a tasks (by rfl) (by rfl) ?_ how
    rw [Session.duties, Session.duties, ← freed, add_left_comm]

theorem enters_endHeld (slot : Nat) (how : Ending) :
    Enters s a tasks (s.launch (.endHeld slot how)) := by
  simp only [launch, takeSlot]
  cases full : s.state.held.getD slot none with
  | none => exact .still (.refl _) rfl
  | some t =>
    have freed := slotDuties_set (Ticket.duties a) full none
    rw [Option.elim_none, zero_add] at freed
    have ended : s.state.desk a (taskDuties a tasks + s.duties a) =
        { s.state with held := s.state.held.set slot none }.desk a
          (t.duties a + (taskDuties a tasks + s.duties a)) := by
      simp only [State.desk, State.duties, ← freed]
      congr 1
      abel
    have lands (answer : Delivery) := State.lands_ticket (a := a) s.scene
      { s.state with held := s.state.held.set slot none } (taskDuties a tasks + s.duties a) t answer
    cases how with
    | answer claimed => exact .of_lands rfl ended (lands (.answered claimed))
    | drop => exact .of_lands rfl ended (lands .dropped)

theorem unowned : Moment.desk ⟨s, tasks⟩ a =
    s.state.desk a (ownerDuties a none + (taskDuties a tasks + s.duties a)) := by
  rw [ownerDuties, Option.elim_none, zero_add, desk_eq]

theorem enters_loop (b : ArbiterId) (reversed : Bool) :
    Enters s a tasks (s.launch (.loop b reversed)) := by
  simp only [launch]
  split
  · next alive =>
    refine .of_lands (p := ({ s.state with queue := [] }, [.feed b _])) rfl rfl (.of_eq ?_ ?_)
    · simp [deskOf, Task.duties]
      rfl
    · intro t ht
      obtain rfl := List.mem_singleton.1 ht
      exact lt_of_isAlive alive
  · exact .still (.same rfl rfl) rfl

theorem enters_launch (c : Command) : Enters s a tasks (s.launch c) := by
  cases c with
  | event b e => exact enters_meet s a tasks b e
  | feed b slot =>
    simp only [launch]
    split
    · exact .still (.refl _) rfl
    · exact enters_meet s a tasks b _
  | sync b modifiers time =>
    simp only [launch]
    split
    · next alive => exact .of_lands rfl rfl (State.lands_sync _ _ _ (lt_of_isAlive alive) _ _)
    · exact .still (.refl _) rfl
  | hostSend e => exact .of_lands rfl (unowned s a tasks) (State.lands_sendToRuntime _ _ _ e none)
  | channelSend channel data =>
    exact .of_lands rfl (unowned s a tasks) (State.lands_sendOnChannel _ _ _ channel data none)
  | hostRedispatch e => exact .of_lands rfl rfl (State.lands_redispatch _ _ _ e)
  | respond slot claimed => exact enters_respond s a tasks slot claimed
  | takeCallback slot => exact enters_takeCallback s a tasks slot
  | takeRecords => exact enters_takeRecords s a tasks
  | build settings scripted extra => exact enters_build s a tasks settings scripted extra
  | dropRecord slot => exact enters_dropRecord s a tasks slot
  | endCallback slot how => exact enters_endCallback s a tasks slot how
  | endHeld slot how => exact enters_endHeld s a tasks slot how
  | loop b reversed => exact enters_loop s a tasks b reversed
  | dispose b =>
    simp only [launch, perform]
    split
    · exact .quiet (grows_dispose s b) fun _ _ => State.course_note _ _ _ rfl
    · exact .still (.refl _) rfl
  | setRedispatch mode =>
    cases mode with
    | inline h => exact .still ((Scene.Grows.addHook s.scene h.hook).trans (.same rfl rfl)) rfl
    | _ => exact .still (.same rfl rfl) rfl
  | layoutChange => exact .quiet (.refl _) fun _ _ => course_layoutChange s a _
  | receive channel data =>
    obtain ⟨scene, duties⟩ := receive_frame s a channel data
    simp only [launch, perform]
    refine .quiet (.same (by rw [scene]) (by rw [scene])) fun _ _ => ?_
    rw [desk_eq, desk_eq, duties]
    exact course_receive s a _ channel data
  | _ => exact .still (.same rfl rfl) rfl

end Launch

end Session

/-! ## What moves do -/

namespace Moment

/-- A move lets the scene grow, aims well, and is a course of changes on each desk. -/
theorem next_spec {m : Moment} (aimed : ∀ t ∈ m.tasks, t.Aimed m.scene) (move : Move) :
    m.scene.Grows (m.next move).scene ∧
      (∀ t ∈ (m.next move).tasks, t.Aimed (m.next move).scene) ∧
      ∀ a, Course ((m.next move).scene.setup a) (m.scene.Consults a) (m.desk a)
        ((m.next move).desk a) := by
  obtain ⟨s, tasks⟩ := m
  cases move with
  | command c =>
    have enters a := Session.enters_launch s a tasks c
    refine ⟨(enters 0).grows, ?_, fun a => (enters a).course⟩
    intro t ht
    rcases List.mem_append.1 ht with ht | ht
    · exact (enters 0).aimed t ht
    · exact (enters 0).grows.aims (aimed t ht)
  | go =>
    cases tasks with
    | nil => exact ⟨.refl _, aimed, fun _ => .refl⟩
    | cons t rest =>
      have lands a := State.lands_step (a := a) s.scene s.state (taskDuties a rest + s.duties a)
        (aimed t (List.mem_cons_self ..))
      refine ⟨.same rfl rfl, ?_, fun a => ?_⟩
      · intro t' ht
        rcases List.mem_append.1 ht with ht | ht
        · exact (lands 0).aimed t' ht
        · exact aimed t' (List.mem_cons_of_mem _ ht)
      · have left : (Moment.next ⟨s, t :: rest⟩ .go).desk a =
            deskOf (s.state.step s.scene t) a (taskDuties a rest + s.duties a) := by
          simp only [next, Moment.desk, deskOf, taskDuties_append, add_assoc]
          rfl
        rw [left, Moment.desk, taskDuties_cons, add_assoc]
        exact (lands a).course

/-- The layouts that an arbiter could ask in the course of these moves. -/
def layouts (moves : List Move) (a : ArbiterId) (layout : Layout) : Prop :=
  ∃ k, (after (moves.take k)).scene.Consults a layout

theorem layouts_concat {moves : List Move} {move : Move} {a : ArbiterId} {layout : Layout}
    (h : layouts moves a layout) : layouts (moves ++ [move]) a layout := by
  obtain ⟨k, consults⟩ := h
  rcases le_total k moves.length with le | le
  · exact ⟨k, by rwa [List.take_append_of_le_length le]⟩
  · refine ⟨moves.length, ?_⟩
    rwa [List.take_left, ← List.take_of_length_le le]

structure Traced (moves : List Move) : Prop where
  aimed : ∀ t ∈ (after moves).tasks, t.Aimed (after moves).scene
  unbuilt : ∀ a, (after moves).scene.setups.length ≤ a → ((after moves).desk a).Blank
  built : ∀ a, (after moves).scene.isAlive a → ∃ start : Desk, start.Blank ∧
    Course ((after moves).scene.setup a) (layouts moves a) start ((after moves).desk a)

theorem traced (moves : List Move) : Traced moves := by
  induction moves using List.reverseRecOn with
  | nil =>
    refine ⟨by simp, ?_, ?_⟩
    · intro a _
      exact ⟨rfl, by simp [desk, State.desk, state], rfl⟩
    · intro a alive
      simp [scene, Scene.isAlive, Scene.setup] at alive
  | append_singleton moves move ih =>
    obtain ⟨grows, aimed, course⟩ := next_spec ih.aimed move
    refine ⟨?_, ?_, ?_⟩
    · rwa [after_concat]
    · intro a le
      rw [after_concat] at le ⊢
      have le' := grows.length.trans le
      refine (course a).blank ?_ (ih.unbuilt a le')
      intro l consults
      exact absurd consults.1 (not_lt.2 le')
    · intro a alive
      rw [after_concat] at alive ⊢
      have consulted : ∀ l, (after moves).scene.Consults a l → layouts (moves ++ [move]) a l :=
        fun l h => ⟨moves.length, by rwa [List.take_left]⟩
      rcases lt_or_ge a (after moves).scene.setups.length with lt | le
      · have same := grows.kept a lt alive
        have alive' : (after moves).scene.isAlive a := by rwa [Scene.isAlive, ← same]
        obtain ⟨start, blank, past⟩ := ih.built a alive'
        rw [← same] at past
        exact ⟨start, blank,
          (past.mono fun _ => layouts_concat).trans ((course a).mono consulted)⟩
      · exact ⟨_, ih.unbuilt a le, (course a).mono consulted⟩

theorem exists_course (moves : List Move) {a : ArbiterId} (alive : (after moves).scene.isAlive a) :
    ∃ start : Desk, start.Blank ∧
      Course ((after moves).scene.setup a) (layouts moves a) start ((after moves).desk a) :=
  (traced moves).built a alive

/-- What holds of a blank desk, and is kept by every change, holds of every desk at every moment:
also of those whose arbiter is gone, or not built yet. -/
theorem always {Inv : Desk → Prop} (blank : ∀ {k}, k.Blank → Inv k)
    (change : ∀ {setup layouts k k'}, Change setup layouts k k' → Inv k → Inv k')
    (moves : List Move) (a : ArbiterId) : Inv ((after moves).desk a) := by
  induction moves using List.reverseRecOn with
  | nil => exact blank ((traced []).unbuilt a (Nat.zero_le _))
  | append_singleton moves move ih =>
    obtain ⟨-, -, course⟩ := next_spec (traced moves).aimed move
    rw [after_concat]
    exact (course a).preserves change ih

end Moment

end KeyArbiter
