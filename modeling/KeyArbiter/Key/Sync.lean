import KeyArbiter.Key.Event

/-!
# Agreement of the modifier word with the held keys

The events that bring the held keys of all pairs in line with a modifier word.
-/

namespace KeyArbiter

/-- A press or release of a modifier key that nobody made. -/
def ModifierKey.event (k : ModifierKey) (modifiers : Modifiers) (time : UInt32) (isPress : Bool) :
    KeyEvent where
  time
  isPress
  keycode := k.keycode
  keyval := k.keyval
  modifiers
  synthesized := true

/-- If the bit is set and no side is held, the left side is pressed. If it is clear, each side that
is held is released. -/
def ModifierPair.plan (p : ModifierPair) (modifiers : Modifiers) (held : List PhysicalKey)
    (time : UInt32) : List KeyEvent :=
  let down := p.sides.filter (held.contains ·.physical)
  if modifiers.contains p.mask then
    if down.isEmpty then [p.left.event modifiers time true] else []
  else down.map (·.event modifiers time false)

namespace Modifiers

/-- The events that bring the held keys in line with this word. -/
def plan (modifiers : Modifiers) (held : List PhysicalKey) (time : UInt32) : List KeyEvent :=
  modifierPairs.flatMap (·.plan modifiers held time)

end Modifiers

/-! ## Size -/

theorem ModifierPair.length_plan_le (p : ModifierPair) (modifiers : Modifiers)
    (held : List PhysicalKey) (time : UInt32) : (p.plan modifiers held time).length ≤ 2 := by
  have one (none : Bool) (e : KeyEvent) : (if none then [e] else []).length ≤ 2 := by
    cases none <;> simp
  have two := List.length_filter_le (fun k : ModifierKey => held.contains k.physical) p.sides
  unfold plan
  split
  · exact one ..
  · simpa [sides] using two

theorem Modifiers.length_plan_le (modifiers : Modifiers) (held : List PhysicalKey)
    (time : UInt32) : (modifiers.plan held time).length ≤ 8 := by
  have bound (ps : List ModifierPair) :
      (ps.flatMap (·.plan modifiers held time)).length ≤ 2 * ps.length := by
    induction ps with
    | nil => simp
    | cons p ps ih =>
      have := p.length_plan_le modifiers held time
      simp only [List.flatMap_cons, List.length_append, List.length_cons]
      omega
  exact bound modifierPairs

end KeyArbiter
