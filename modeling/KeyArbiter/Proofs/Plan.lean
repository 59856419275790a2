import KeyArbiter.Proofs.Plain
import Mathlib

/-!
# What a plan brings about

A plan is empty exactly if the held keys agree with the modifier word, and they agree afterwards
exactly if each of its events was carried out.
-/

namespace KeyArbiter

namespace Modifiers

/-- For each pair, a side is held if the bit is set, and neither is if it is clear. -/
def Agrees (modifiers : Modifiers) (held : List PhysicalKey) : Prop :=
  ∀ p ∈ modifierPairs,
    if modifiers.contains p.mask then ∃ k ∈ p.sides, k.physical ∈ held
    else ∀ k ∈ p.sides, k.physical ∉ held

instance (modifiers : Modifiers) (held : List PhysicalKey) : Decidable (modifiers.Agrees held) :=
  inferInstanceAs (Decidable (∀ _ ∈ modifierPairs, _))

end Modifiers

/-! ## The keys of the pairs -/

theorem ModifierKey.ofKeycode_eq {p : ModifierPair} (hp : p ∈ modifierPairs) {k : ModifierKey}
    (hk : k ∈ p.sides) : PhysicalKey.ofKeycode k.keycode = k.physical := by
  have all : ∀ p ∈ modifierPairs, ∀ k ∈ p.sides, PhysicalKey.ofKeycode k.keycode = k.physical := by
    decide
  exact all p hp k hk

theorem ModifierKey.eq_of_physical {p p' : ModifierPair} (hp : p ∈ modifierPairs)
    (hp' : p' ∈ modifierPairs) {k k' : ModifierKey} (hk : k ∈ p.sides) (hk' : k' ∈ p'.sides)
    (same : k.physical = k'.physical) : p = p' ∧ k = k' := by
  have all : ∀ p ∈ modifierPairs, ∀ p' ∈ modifierPairs, ∀ k ∈ p.sides, ∀ k' ∈ p'.sides,
      k.physical = k'.physical → p = p' ∧ k = k' := by decide
  exact all p hp p' hp' k hk k' hk' same

namespace Modifiers

variable {modifiers : Modifiers} {held held' : List PhysicalKey} {time : UInt32}

/-! ## What is planned -/

inductive Planned (modifiers : Modifiers) (held : List PhysicalKey) (time : UInt32)
    (p : ModifierPair) : ModifierKey → KeyEvent → Prop
  | press (wanted : modifiers.contains p.mask = true) (up : ∀ k ∈ p.sides, k.physical ∉ held) :
    Planned modifiers held time p p.left (p.left.event modifiers time true)
  | release {k : ModifierKey} (unwanted : modifiers.contains p.mask = false)
    (down : k.physical ∈ held) : Planned modifiers held time p k (k.event modifiers time false)

theorem Planned.keycode {p : ModifierPair} {k : ModifierKey} {e : KeyEvent}
    (planned : Planned modifiers held time p k e) : e.keycode = k.keycode := by
  cases planned <;> rfl

theorem mem_pair_plan {p : ModifierPair} {e : KeyEvent} :
    e ∈ p.plan modifiers held time ↔ ∃ k ∈ p.sides, Planned modifiers held time p k e := by
  unfold ModifierPair.plan
  cases wanted : modifiers.contains p.mask with
  | true =>
    simp only [if_true, List.isEmpty_iff, List.filter_eq_nil_iff, List.contains_iff_mem]
    constructor
    · intro mem
      split at mem
      · next up =>
        obtain rfl := List.mem_singleton.1 mem
        exact ⟨p.left, List.mem_cons_self .., .press wanted up⟩
      · exact absurd mem List.not_mem_nil
    · rintro ⟨k, hk, ⟨-, up⟩ | ⟨unwanted, -⟩⟩
      · rw [if_pos up]
        exact List.mem_singleton_self _
      · rw [wanted] at unwanted
        cases unwanted
  | false =>
    simp only [Bool.false_eq_true, if_false, List.mem_map, List.mem_filter, List.contains_iff_mem]
    constructor
    · rintro ⟨k, ⟨hk, down⟩, rfl⟩
      exact ⟨k, hk, .release wanted down⟩
    · rintro ⟨k, hk, ⟨wanted', -⟩ | ⟨-, down⟩⟩
      · rw [wanted] at wanted'
        cases wanted'
      · exact ⟨k, ⟨hk, down⟩, rfl⟩

theorem mem_plan {e : KeyEvent} : e ∈ modifiers.plan held time ↔
    ∃ p ∈ modifierPairs, ∃ k ∈ p.sides, Planned modifiers held time p k e := by
  simp only [plan, List.mem_flatMap, mem_pair_plan]

theorem Planned.ofKeycode {p : ModifierPair} (hp : p ∈ modifierPairs) {k : ModifierKey}
    (hk : k ∈ p.sides) {e : KeyEvent} (planned : Planned modifiers held time p k e) :
    PhysicalKey.ofKeycode e.keycode = k.physical := by
  rw [planned.keycode, ModifierKey.ofKeycode_eq hp hk]

theorem planned_of_mem {e : KeyEvent} (mem : e ∈ modifiers.plan held time) {p : ModifierPair}
    (hp : p ∈ modifierPairs) {k : ModifierKey} (hk : k ∈ p.sides)
    (same : PhysicalKey.ofKeycode e.keycode = k.physical) : Planned modifiers held time p k e := by
  obtain ⟨p', hp', k', hk', planned⟩ := mem_plan.1 mem
  rw [planned.ofKeycode hp' hk'] at same
  obtain ⟨rfl, rfl⟩ := ModifierKey.eq_of_physical hp' hp hk' hk same
  exact planned

theorem Planned.unique {p : ModifierPair} {k : ModifierKey} {e e' : KeyEvent}
    (planned : Planned modifiers held time p k e) (planned' : Planned modifiers held time p k e') :
    e = e' := by
  cases planned with
  | press wanted =>
    cases planned' with
    | press => rfl
    | release unwanted =>
      rw [wanted] at unwanted
      cases unwanted
  | release unwanted =>
    cases planned' with
    | press wanted =>
      rw [wanted] at unwanted
      cases unwanted
    | release => rfl

theorem eq_of_mem_plan {e e' : KeyEvent} (mem : e ∈ modifiers.plan held time)
    (mem' : e' ∈ modifiers.plan held time)
    (same : PhysicalKey.ofKeycode e.keycode = PhysicalKey.ofKeycode e'.keycode) : e = e' := by
  obtain ⟨p, hp, k, hk, planned⟩ := mem_plan.1 mem
  rw [planned.ofKeycode hp hk] at same
  exact planned.unique (planned_of_mem mem' hp hk same.symm)

/-! ## Agreement -/

theorem plan_eq_nil_iff : modifiers.plan held time = [] ↔ modifiers.Agrees held := by
  constructor
  · intro none p hp
    have empty (k : ModifierKey) (hk : k ∈ p.sides) (e : KeyEvent) :
        ¬ Planned modifiers held time p k e := by
      intro planned
      have mem := mem_plan.2 ⟨p, hp, k, hk, planned⟩
      rw [none] at mem
      exact List.not_mem_nil mem
    split
    · next wanted =>
      by_contra up
      push Not at up
      exact empty p.left (List.mem_cons_self ..) _ (.press wanted up)
    · next unwanted =>
      intro k hk down
      exact empty k hk _ (.release (by simpa using unwanted) down)
  · intro agrees
    refine List.eq_nil_iff_forall_not_mem.2 fun e mem => ?_
    obtain ⟨p, hp, k, hk, planned⟩ := mem_plan.1 mem
    have here := agrees p hp
    cases planned with
    | press wanted up =>
      rw [if_pos wanted] at here
      obtain ⟨k, hk, down⟩ := here
      exact up k hk down
    | release unwanted down =>
      rw [if_neg (by simp [unwanted])] at here
      exact here k hk down

/-- If some planned events are carried out, and no other key moves, the keys agree exactly if all
were. -/
theorem agrees_iff {did : KeyEvent → Prop}
    (moved : ∀ e ∈ modifiers.plan held time, did e →
      (PhysicalKey.ofKeycode e.keycode ∈ held' ↔ e.isPress = true))
    (kept : ∀ key, (∀ e ∈ modifiers.plan held time, did e → PhysicalKey.ofKeycode e.keycode ≠ key) →
      (key ∈ held' ↔ key ∈ held)) :
    modifiers.Agrees held' ↔ ∀ e ∈ modifiers.plan held time, did e := by
  constructor
  · intro agrees e mem
    by_contra undone
    obtain ⟨p, hp, k, hk, planned⟩ := mem_plan.1 mem
    have here := agrees p hp
    have same (k' : ModifierKey) (hk' : k' ∈ p.sides)
        (only : ∀ e', Planned modifiers held time p k' e' → e' = e) :
        k'.physical ∈ held' ↔ k'.physical ∈ held := by
      refine kept _ fun e' mem' done eq => undone ?_
      rw [← only e' (planned_of_mem mem' hp hk' eq)]
      exact done
    cases planned with
    | press wanted up =>
      rw [if_pos wanted] at here
      obtain ⟨k', hk', down⟩ := here
      refine up k' hk' ((same k' hk' ?_).1 down)
      rintro e' (_ | ⟨unwanted, -⟩)
      · rfl
      · rw [wanted] at unwanted
        cases unwanted
    | release unwanted down =>
      rw [if_neg (by simp [unwanted])] at here
      refine here k hk ((same k hk fun e' planned' => ?_).2 down)
      exact planned'.unique (.release unwanted down)
  · intro all p hp
    have still (k : ModifierKey) (hk : k ∈ p.sides)
        (none : ∀ e, ¬ Planned modifiers held time p k e) : k.physical ∈ held' ↔ k.physical ∈ held := by
      refine kept _ fun e mem _ eq => none e ?_
      exact planned_of_mem mem hp hk eq
    have done (k : ModifierKey) (hk : k ∈ p.sides) {e : KeyEvent}
        (planned : Planned modifiers held time p k e) : k.physical ∈ held' ↔ e.isPress = true := by
      have mem := mem_plan.2 ⟨p, hp, k, hk, planned⟩
      rw [← planned.ofKeycode hp hk]
      exact moved e mem (all e mem)
    split
    · next wanted =>
      by_cases up : ∀ k ∈ p.sides, k.physical ∉ held
      · exact ⟨p.left, List.mem_cons_self .., (done _ (List.mem_cons_self ..) (.press wanted up)).2 rfl⟩
      · push Not at up
        obtain ⟨k, hk, down⟩ := up
        refine ⟨k, hk, (still k hk ?_).2 down⟩
        rintro e (⟨-, up⟩ | ⟨unwanted, -⟩)
        · exact up _ hk down
        · rw [wanted] at unwanted
          cases unwanted
    · next unwanted =>
      have unwanted : modifiers.contains p.mask = false := by simpa using unwanted
      intro k hk down'
      by_cases down : k.physical ∈ held
      · cases (done k hk (.release unwanted down)).1 down'
      · refine down ((still k hk ?_).1 down')
        rintro e (⟨wanted, -⟩ | ⟨-, down'⟩)
        · rw [unwanted] at wanted
          cases wanted
        · exact down down'

end Modifiers

end KeyArbiter
