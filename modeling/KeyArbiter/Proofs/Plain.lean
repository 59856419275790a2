import KeyArbiter.Command.Replay
import KeyArbiter.Proofs.Stream
import Mathlib

/-!
# A plain fold

What a replay answers, from no more than the keys that are down: there is no arbiter, and nobody
waits for anything.
-/

namespace KeyArbiter

open Command (ReplayAnswers StepOutcome stepText)

/-! ## The fold -/

namespace Plain

/-- The keys that are down, with their logical keys. -/
abbrev Held := List (PhysicalKey × LogicalKey)

def absent (held : Held) (e : KeyEvent) : Bool :=
  (held.lookup (.ofKeycode e.keycode)).isNone

/-- Somebody claims the event: a responder, or the filter. -/
def claimed (settings : Settings) (answers : ReplayAnswers) (held : Held) (e : KeyEvent) : Bool :=
  settings.embedderResponder && (answers.embedder || (!e.isPress && absent held e)) ||
    settings.channelResponder && answers.channel ||
    !e.synthesized && (e.isPress || settings.textInputFiltersReleases) && answers.filter

/-- A press holds its key, if it is not down already. A release drops it. -/
def after (layout : Layout) (held : Held) (e : KeyEvent) : Held :=
  if e.isPress then
    if absent held e then (.ofKeycode e.keycode, layout.lookup e.query) :: held else held
  else held.filter (·.1 != .ofKeycode e.keycode)

def events (held : Held) : TraceStep → List KeyEvent
  | .event e => [e]
  | .sync modifiers time => modifiers.plan (held.map Prod.fst) time

variable (settings : Settings) (layout : Layout) (answers : ReplayAnswers)

/-- What events leave, and those of them that nobody claims. -/
def deliver : Held → List KeyEvent → Held × List KeyEvent
  | held, [] => (held, [])
  | held, e :: es =>
    let (final, back) := deliver (after layout held e) es
    (final, if claimed settings answers held e then back else e :: back)

def steps : Held → Nat → Trace → Held × List StepOutcome
  | held, _, [] => (held, [])
  | held, index, step :: rest =>
    let (held', back) := deliver settings layout answers held (events held step)
    let (final, outcomes) := steps held' (index + 1) rest
    (final, ⟨index, stepText step, true, back.map (·.text)⟩ :: outcomes)

/-! ## Keys that are down -/

theorem lookup_cons (physical key : PhysicalKey) (logical : LogicalKey) (held : Held) :
    List.lookup key ((physical, logical) :: held) =
      if key = physical then some logical else held.lookup key := by
  rw [List.lookup_cons]
  by_cases eq : key = physical
  · rw [if_pos eq, beq_iff_eq.2 eq]
  · rw [if_neg eq, beq_false_of_ne eq]

theorem lookup_filter (held : Held) (gone key : PhysicalKey) :
    (held.filter (·.1 != gone)).lookup key = if key = gone then none else held.lookup key := by
  induction held with
  | nil => simp
  | cons p held ih =>
    obtain ⟨physical, logical⟩ := p
    rw [List.filter_cons, lookup_cons]
    by_cases same : physical = gone
    · subst same
      rw [if_neg (by simp), ih]
      by_cases eq : key = physical <;> simp [eq]
    · rw [if_pos (by simp [same]), lookup_cons, ih]
      by_cases eq : key = physical
      · simp [eq, same]
      · simp [eq]

theorem lookup_after (layout : Layout) (held : Held) (id : Nat) (e : KeyEvent) (key : PhysicalKey) :
    (after layout held e).lookup key =
      (Keys.next layout.lookup (fun key => held.lookup key) id e).1 key := by
  unfold after Keys.next absent
  cases e.isPress with
  | true =>
    cases down : held.lookup (.ofKeycode e.keycode) with
    | some first => simp [down]
    | none =>
      simp only [down, Option.isNone_none, if_true]
      rw [lookup_cons, Function.update_apply]
  | false =>
    simp only [Bool.false_eq_true, if_false]
    rw [lookup_filter]
    cases down : held.lookup (.ofKeycode e.keycode) with
    | some first =>
      simp only
      rw [Function.update_apply]
    | none =>
      simp only
      split
      · next eq => rw [eq, down]
      · rfl

theorem nodup_after (layout : Layout) {held : Held} (nodup : (held.map Prod.fst).Nodup)
    (e : KeyEvent) : ((after layout held e).map Prod.fst).Nodup := by
  unfold after absent
  split
  · split
    · next up =>
      rw [List.map_cons, List.nodup_cons]
      refine ⟨?_, nodup⟩
      intro mem
      obtain ⟨p, hp, eq⟩ := List.mem_map.1 mem
      rw [Option.isNone_iff_eq_none, List.lookup_eq_none_iff] at up
      simpa [eq] using up p hp
    · exact nodup
  · exact nodup.sublist (List.filter_sublist.map _)

theorem orphan_next (layout : Layout) (held : Held) (id : Nat) (e : KeyEvent) :
    (Keys.next layout.lookup (fun key => held.lookup key) id e).2.orphan =
      (!e.isPress && absent held e) := by
  unfold Keys.next absent
  simp only
  cases e.isPress <;> cases held.lookup (.ofKeycode e.keycode) <;> rfl

theorem lookup_eq_some_iff {held : Held} (nodup : (held.map Prod.fst).Nodup) (key : PhysicalKey)
    (logical : LogicalKey) : held.lookup key = some logical ↔ (key, logical) ∈ held := by
  induction held with
  | nil => simp
  | cons p held ih =>
    obtain ⟨physical, first⟩ := p
    rw [List.map_cons, List.nodup_cons] at nodup
    obtain ⟨other, rest⟩ := nodup
    rw [lookup_cons, List.mem_cons]
    by_cases eq : key = physical
    · subst eq
      rw [if_pos rfl]
      constructor
      · intro same
        cases same
        exact .inl rfl
      · rintro (same | mem)
        · cases same
          rfl
        · exact absurd (List.mem_map.2 ⟨_, mem, rfl⟩) other
    · rw [if_neg eq, ih rest]
      simp [eq]

theorem mem_keys_iff (held : Held) (key : PhysicalKey) :
    key ∈ held.map Prod.fst ↔ (held.lookup key).isSome := by
  rw [List.lookup_isSome_iff, List.mem_map]
  constructor
  · rintro ⟨p, hp, rfl⟩
    exact ⟨p, hp, beq_self_eq_true _⟩
  · rintro ⟨p, hp, same⟩
    exact ⟨p, hp, (eq_of_beq same).symm⟩

end Plain

/-! ## Planned events -/

namespace Modifiers

variable (modifiers : Modifiers) (time : UInt32)

theorem plan_congr {held held' : List PhysicalKey} (same : ∀ key, key ∈ held ↔ key ∈ held') :
    modifiers.plan held time = modifiers.plan held' time := by
  have contains (key : PhysicalKey) : held.contains key = held'.contains key := by
    rw [Bool.eq_iff_iff, List.contains_iff_mem, List.contains_iff_mem]
    exact same key
  unfold plan ModifierPair.plan
  simp only [contains]

theorem keycodes_plan (p : ModifierPair) (held : List PhysicalKey) :
    ((p.plan modifiers held time).map (·.keycode)).Sublist (p.sides.map (·.keycode)) := by
  unfold ModifierPair.plan
  simp only
  split
  · split
    · exact List.singleton_sublist.2 (List.mem_cons_self ..)
    · exact List.nil_sublist _
  · rw [List.map_map]
    exact List.filter_sublist.map _

theorem nodup_plan (held : List PhysicalKey) : (modifiers.plan held time).Nodup := by
  have sides (ps : List ModifierPair) :
      ((ps.flatMap (·.plan modifiers held time)).map (·.keycode)).Sublist
        (ps.flatMap (·.sides.map (·.keycode))) := by
    induction ps with
    | nil => exact List.nil_sublist _
    | cons p ps ih =>
      rw [List.flatMap_cons, List.flatMap_cons, List.map_append]
      exact (modifiers.keycodes_plan time p held).append ih
  have distinct : (modifierPairs.flatMap (·.sides.map (·.keycode))).Nodup := by decide
  exact (distinct.sublist (sides modifierPairs)).of_map _

end Modifiers

end KeyArbiter
