import KeyArbiter.Key.Table

/-!
# Modifiers

The word of modifier bits that comes with every event, and the pairs of keys that hold some of
those bits down.
-/

namespace KeyArbiter

/-- Modifier bits. Those without a name are kept. -/
structure Modifiers where
  bits : UInt32
  deriving DecidableEq, Repr, Inhabited

namespace Modifiers

def none : Modifiers := ⟨0⟩
def shift : Modifiers := ⟨0x1⟩
def control : Modifiers := ⟨0x4⟩
def mod1 : Modifiers := ⟨0x8⟩
def metaKey : Modifiers := ⟨0x10000000⟩

/-- The bits that have a name, from the lowest. -/
def named : List (String × Modifiers) := [
  ("SHIFT", shift), ("LOCK", ⟨0x2⟩), ("CONTROL", control), ("MOD1", mod1), ("MOD2", ⟨0x10⟩),
  ("MOD3", ⟨0x20⟩), ("MOD4", ⟨0x40⟩), ("MOD5", ⟨0x80⟩), ("SUPER", ⟨0x4000000⟩),
  ("HYPER", ⟨0x8000000⟩), ("META", metaKey)]

def contains (a b : Modifiers) : Bool := a.bits &&& b.bits == b.bits

def union (a b : Modifiers) : Modifiers := ⟨a.bits ||| b.bits⟩

def names (m : Modifiers) : List String := (named.filter (m.contains ·.2)).map (·.1)

def unnamed (m : Modifiers) : UInt32 :=
  m.bits &&& ~~~(named.foldl (fun acc n => acc ||| n.2.bits) 0)

/-- The bits by name, and what is left as one number. -/
def text (m : Modifiers) : String :=
  let left := if m.unnamed = 0 ∧ m.bits ≠ 0 then [] else [Text.hex 0 m.unnamed.toNat]
  "ModifierState(" ++ String.intercalate " | " (m.names ++ left) ++ ")"

end Modifiers

/-! ## Pairs -/

structure ModifierKey where
  physical : PhysicalKey
  logical : LogicalKey
  keycode : UInt16
  keyval : UInt32
  deriving DecidableEq, Repr

/-- A modifier bit, and the keys on either side that set it. -/
structure ModifierPair where
  mask : Modifiers
  left : ModifierKey
  right : ModifierKey
  deriving DecidableEq, Repr

def ModifierPair.sides (p : ModifierPair) : List ModifierKey := [p.left, p.right]

/-- The pairs that are kept in step with the modifier word. A lock is a toggle, and none of these. -/
def modifierPairs : List ModifierPair := [
  ⟨.control,
    ⟨⟨0x700e0⟩, ⟨Plane.synonym ||| 0x100⟩, 0x25, 0xffe3⟩,
    ⟨⟨0x700e4⟩, ⟨Plane.synonym ||| 0x101⟩, 0x69, 0xffe4⟩⟩,
  ⟨.shift,
    ⟨⟨0x700e1⟩, ⟨Plane.synonym ||| 0x102⟩, 0x32, 0xffe1⟩,
    ⟨⟨0x700e5⟩, ⟨Plane.synonym ||| 0x103⟩, 0x3e, 0xffe2⟩⟩,
  ⟨.mod1,
    ⟨⟨0x700e2⟩, ⟨Plane.synonym ||| 0x104⟩, 0x40, 0xffe9⟩,
    ⟨⟨0x700e6⟩, ⟨Plane.synonym ||| 0x105⟩, 0x6c, 0xffea⟩⟩,
  ⟨.metaKey,
    ⟨⟨0x700e3⟩, ⟨Plane.synonym ||| 0x106⟩, 0x85, 0xffe7⟩,
    ⟨⟨0x700e7⟩, ⟨Plane.synonym ||| 0x107⟩, 0x86, 0xffe8⟩⟩]

end KeyArbiter
