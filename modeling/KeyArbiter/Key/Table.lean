import KeyArbiter.Key.Basic
import KeyArbiter.Text.LowerCase

/-!
# Key tables

From scan codes to physical keys, and from key symbols to logical keys and characters. What no table
names is carried into the toolkit plane.
-/

namespace KeyArbiter

/-! ## Scan codes -/

def keyboardPage : UInt64 := 0x70000

/-- Scan codes of a 105-key board, and their usages on the keyboard page. -/
def usages : List (UInt16 × UInt64) := [
  (0x09, 0x29), (0x0a, 0x1e), (0x0b, 0x1f), (0x0c, 0x20), (0x0d, 0x21), (0x0e, 0x22), (0x0f, 0x23),
  (0x10, 0x24), (0x11, 0x25), (0x12, 0x26), (0x13, 0x27), (0x14, 0x2d), (0x15, 0x2e), (0x16, 0x2a),
  (0x17, 0x2b), (0x18, 0x14), (0x19, 0x1a), (0x1a, 0x08), (0x1b, 0x15), (0x1c, 0x17), (0x1d, 0x1c),
  (0x1e, 0x18), (0x1f, 0x0c), (0x20, 0x12), (0x21, 0x13), (0x22, 0x2f), (0x23, 0x30), (0x24, 0x28),
  (0x25, 0xe0), (0x26, 0x04), (0x27, 0x16), (0x28, 0x07), (0x29, 0x09), (0x2a, 0x0a), (0x2b, 0x0b),
  (0x2c, 0x0d), (0x2d, 0x0e), (0x2e, 0x0f), (0x2f, 0x33), (0x30, 0x34), (0x31, 0x35), (0x32, 0xe1),
  (0x33, 0x31), (0x34, 0x1d), (0x35, 0x1b), (0x36, 0x06), (0x37, 0x19), (0x38, 0x05), (0x39, 0x11),
  (0x3a, 0x10), (0x3b, 0x36), (0x3c, 0x37), (0x3d, 0x38), (0x3e, 0xe5), (0x40, 0xe2), (0x41, 0x2c),
  (0x42, 0x39), (0x43, 0x3a), (0x44, 0x3b), (0x45, 0x3c), (0x46, 0x3d), (0x47, 0x3e), (0x48, 0x3f),
  (0x49, 0x40), (0x4a, 0x41), (0x4b, 0x42), (0x4c, 0x43), (0x5f, 0x44), (0x60, 0x45), (0x69, 0xe4),
  (0x6c, 0xe6), (0x6e, 0x4a), (0x6f, 0x52), (0x70, 0x4b), (0x71, 0x50), (0x72, 0x4f), (0x73, 0x4d),
  (0x74, 0x51), (0x75, 0x4e), (0x76, 0x49), (0x77, 0x4c), (0x85, 0xe3), (0x86, 0xe7)]

def PhysicalKey.ofKeycode (keycode : UInt16) : PhysicalKey :=
  match usages.find? (·.1 == keycode) with
  | some (_, usage) => ⟨keyboardPage ||| usage⟩
  | none => ⟨Plane.toolkit ||| keycode.toUInt64⟩

/-! ## Key symbols -/

/-- Key symbols with a named logical key. -/
def namedKeys : List (UInt32 × LogicalKey) := [
  -- Editing
  (0xff08, ⟨Plane.unprintable ||| 0x08⟩), (0xff09, ⟨Plane.unprintable ||| 0x09⟩),
  (0xff0d, ⟨Plane.unprintable ||| 0x0d⟩), (0xff1b, ⟨Plane.unprintable ||| 0x1b⟩),
  (0xffff, ⟨Plane.unprintable ||| 0x7f⟩), (0xff63, ⟨Plane.unprintable ||| 0x407⟩),
  -- Moving
  (0xff50, ⟨Plane.unprintable ||| 0x306⟩), (0xff51, ⟨Plane.unprintable ||| 0x302⟩),
  (0xff52, ⟨Plane.unprintable ||| 0x304⟩), (0xff53, ⟨Plane.unprintable ||| 0x303⟩),
  (0xff54, ⟨Plane.unprintable ||| 0x301⟩), (0xff55, ⟨Plane.unprintable ||| 0x308⟩),
  (0xff56, ⟨Plane.unprintable ||| 0x307⟩), (0xff57, ⟨Plane.unprintable ||| 0x305⟩),
  -- Keypad
  (0xff8d, ⟨Plane.synonym ||| 0x20d⟩),
  -- Modifiers
  (0xffe5, ⟨Plane.unprintable ||| 0x104⟩),
  (0xffe1, ⟨Plane.synonym ||| 0x102⟩), (0xffe2, ⟨Plane.synonym ||| 0x103⟩),
  (0xffe3, ⟨Plane.synonym ||| 0x100⟩), (0xffe4, ⟨Plane.synonym ||| 0x101⟩),
  (0xffe7, ⟨Plane.synonym ||| 0x106⟩), (0xffe8, ⟨Plane.synonym ||| 0x107⟩),
  (0xffe9, ⟨Plane.synonym ||| 0x104⟩), (0xffea, ⟨Plane.synonym ||| 0x105⟩),
  (0xffeb, ⟨Plane.synonym ||| 0x106⟩), (0xffec, ⟨Plane.synonym ||| 0x107⟩)]

def charOfNat? (n : Nat) : Option Char := if h : n.isValidChar then some (Char.ofNatAux n h) else none

/-- Unicode's control characters. -/
def isControl (c : Char) : Bool := c.toNat ≤ 0x1f || (0x7f ≤ c.toNat && c.toNat ≤ 0x9f)

def charOfKeyval (keyval : UInt32) : Option Char :=
  if (0x20 ≤ keyval ∧ keyval ≤ 0x7e) ∨ (0xa0 ≤ keyval ∧ keyval ≤ 0xff) then
    charOfNat? keyval.toNat
  else if 0x01000100 ≤ keyval ∧ keyval ≤ 0x0110ffff then
    (charOfNat? (keyval.toNat - 0x01000000)).filter (!isControl ·)
  else none

def LogicalKey.ofKeyval (keyval : UInt32) : LogicalKey :=
  match namedKeys.find? (·.1 == keyval) with
  | some (_, key) => key
  | none =>
    match charOfKeyval keyval with
    | some c => ⟨.ofNat (Text.lowerCase c).toNat⟩
    | none => ⟨Plane.toolkit ||| keyval.toUInt64⟩

end KeyArbiter
