import KeyArbiter.Proofs.Plan
import Mathlib

/-!
# Plans converge

Once all its events are carried out, a plan has brought the held keys in line with the modifier word,
and there is nothing left to plan. No event of it is in vain.
-/

namespace KeyArbiter

def KeyEvent.key (e : KeyEvent) : PhysicalKey := PhysicalKey.ofKeycode e.keycode

/-- The held keys after an event: a press adds its key, a release takes it away. -/
def KeyEvent.carryOut (held : List PhysicalKey) (e : KeyEvent) : List PhysicalKey :=
  if e.isPress then held.insert e.key else held.filter (· ≠ e.key)

/-- A side of the pair is held if its bit is set, and neither is if it is clear. -/
def ModifierPair.Agrees (p : ModifierPair) (modifiers : Modifiers) (held : List PhysicalKey) : Prop :=
  if modifiers.contains p.mask then ∃ k ∈ p.sides, k.physical ∈ held
  else ∀ k ∈ p.sides, k.physical ∉ held

/-! ## Carrying out events -/

theorem KeyEvent.mem_carryOut {held : List PhysicalKey} {e : KeyEvent} {key : PhysicalKey} :
    key ∈ e.carryOut held ↔ if e.key = key then e.isPress = true else key ∈ held := by
  unfold carryOut
  by_cases own : e.key = key
  · subst own
    cases e.isPress <;> simp
  · have other : key ≠ e.key := Ne.symm own
    cases e.isPress <;> simp [own, other]

theorem mem_foldl_carryOut_of_untouched {events : List KeyEvent} {key : PhysicalKey}
    (untouched : ∀ e ∈ events, e.key ≠ key) (held : List PhysicalKey) :
    key ∈ events.foldl KeyEvent.carryOut held ↔ key ∈ held := by
  induction events generalizing held with
  | nil => exact Iff.rfl
  | cons e events ih =>
    obtain ⟨other, untouched⟩ := List.forall_mem_cons.1 untouched
    rw [List.foldl_cons, ih untouched, KeyEvent.mem_carryOut, if_neg other]

theorem mem_foldl_carryOut {events : List KeyEvent} (once : (events.map KeyEvent.key).Nodup)
    {e : KeyEvent} (mem : e ∈ events) (held : List PhysicalKey) :
    e.key ∈ events.foldl KeyEvent.carryOut held ↔ e.isPress = true := by
  induction events generalizing held with
  | nil => exact absurd mem List.not_mem_nil
  | cons first events ih =>
    obtain ⟨new, once⟩ := List.nodup_cons.1 once
    rw [List.foldl_cons]
    rcases List.mem_cons.1 mem with rfl | mem
    · have untouched : ∀ other ∈ events, other.key ≠ e.key := by
        intro other hother same
        exact new (same ▸ List.mem_map_of_mem hother)
      rw [mem_foldl_carryOut_of_untouched untouched, KeyEvent.mem_carryOut, if_pos rfl]
    · exact ih once mem _

namespace Modifiers

variable {modifiers : Modifiers} {held : List PhysicalKey} {time : UInt32}

/-! ## What is planned is needed -/

theorem nodup_keys : ((modifiers.plan held time).map KeyEvent.key).Nodup := by
  refine List.Nodup.map_on ?_ (modifiers.nodup_plan time held)
  intro e mem e' mem' same
  exact eq_of_mem_plan mem mem' same

theorem held_iff_of_mem_plan {e : KeyEvent} (mem : e ∈ modifiers.plan held time) :
    e.key ∈ held ↔ e.isPress = false := by
  obtain ⟨p, hp, k, hk, planned⟩ := mem_plan.1 mem
  have key : e.key = k.physical := planned.ofKeycode hp hk
  rw [key]
  cases planned with
  | press _ up => exact iff_of_false (up _ hk) nofun
  | release _ down => exact iff_of_true down rfl

/-- When the turn of an event comes, those before it have not moved its key. -/
theorem held_iff_in_turn {e : KeyEvent} {before later : List KeyEvent}
    (split : modifiers.plan held time = before ++ e :: later) :
    e.key ∈ before.foldl KeyEvent.carryOut held ↔ e.isPress = false := by
  have once : ((modifiers.plan held time).map KeyEvent.key).Nodup := nodup_keys
  have mem : e ∈ modifiers.plan held time := by
    rw [split]
    exact List.mem_append_right _ (List.mem_cons_self ..)
  rw [split, List.map_append, List.map_cons, List.nodup_append] at once
  have untouched : ∀ other ∈ before, other.key ≠ e.key := by
    intro other hother
    exact once.2.2 _ (List.mem_map_of_mem hother) _ (List.mem_cons_self ..)
  rw [mem_foldl_carryOut_of_untouched untouched, held_iff_of_mem_plan mem]

theorem plan_spares {p : ModifierPair} (hp : p ∈ modifierPairs) (agrees : p.Agrees modifiers held)
    {e : KeyEvent} (mem : e ∈ modifiers.plan held time) {k : ModifierKey} (hk : k ∈ p.sides) :
    e.key ≠ k.physical := by
  intro same
  unfold ModifierPair.Agrees at agrees
  cases planned_of_mem mem hp hk same with
  | press wanted up =>
    rw [if_pos wanted] at agrees
    obtain ⟨side, hside, down⟩ := agrees
    exact up side hside down
  | release unwanted down =>
    rw [if_neg (by simp [unwanted])] at agrees
    exact agrees k hk down

/-! ## What it brings about -/

theorem mem_after_plan_of_unpaired {key : PhysicalKey}
    (unpaired : ∀ p ∈ modifierPairs, ∀ k ∈ p.sides, k.physical ≠ key) :
    key ∈ (modifiers.plan held time).foldl KeyEvent.carryOut held ↔ key ∈ held := by
  refine mem_foldl_carryOut_of_untouched (fun e mem => ?_) held
  obtain ⟨p, hp, k, hk, planned⟩ := mem_plan.1 mem
  rw [KeyEvent.key, planned.ofKeycode hp hk]
  exact unpaired p hp k hk

theorem agrees_after_plan :
    modifiers.Agrees ((modifiers.plan held time).foldl KeyEvent.carryOut held) := by
  have moved : ∀ e ∈ modifiers.plan held time, True →
      (e.key ∈ (modifiers.plan held time).foldl KeyEvent.carryOut held ↔ e.isPress = true) :=
    fun e mem _ => mem_foldl_carryOut nodup_keys mem held
  have kept : ∀ key, (∀ e ∈ modifiers.plan held time, True → e.key ≠ key) →
      (key ∈ (modifiers.plan held time).foldl KeyEvent.carryOut held ↔ key ∈ held) :=
    fun key untouched =>
      mem_foldl_carryOut_of_untouched (fun e mem => untouched e mem trivial) held
  exact (agrees_iff moved kept).2 fun _ _ => trivial

/-- Whatever the word and the held keys are: once the plan is carried out, each pair agrees with the
word, other keys are as before, and nothing is left to plan. In its turn each press finds its key up
and each release finds it down; no key is planned twice; a pair that agrees is left alone, and the
plan is empty exactly if all do. -/
theorem plan_converges (modifiers : Modifiers) (held : List PhysicalKey) (time : UInt32) :
    let plan := modifiers.plan held time
    let after := plan.foldl KeyEvent.carryOut held
    (∀ p ∈ modifierPairs, p.Agrees modifiers after) ∧
    (∀ key, (∀ p ∈ modifierPairs, ∀ k ∈ p.sides, k.physical ≠ key) → (key ∈ after ↔ key ∈ held)) ∧
    (∀ time', modifiers.plan after time' = []) ∧
    (∀ before e later, plan = before ++ e :: later →
      (e.key ∈ before.foldl KeyEvent.carryOut held ↔ e.isPress = false)) ∧
    (plan.map KeyEvent.key).Nodup ∧
    (∀ p ∈ modifierPairs, p.Agrees modifiers held →
      ∀ e ∈ plan, ∀ k ∈ p.sides, e.key ≠ k.physical) ∧
    (plan = [] ↔ ∀ p ∈ modifierPairs, p.Agrees modifiers held) := by
  intro plan after
  refine ⟨agrees_after_plan, fun key => mem_after_plan_of_unpaired, ?_, ?_, nodup_keys, ?_, ?_⟩
  · intro time'
    exact plan_eq_nil_iff.2 agrees_after_plan
  · intro before e later split
    exact held_iff_in_turn split
  · intro p hp agrees e mem k hk
    exact plan_spares hp agrees mem hk
  · exact plan_eq_nil_iff

end Modifiers

end KeyArbiter
