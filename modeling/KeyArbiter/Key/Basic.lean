import KeyArbiter.Text.Numeral

/-!
# Keys

A physical key is a place on the keyboard, a logical key is what pressing it means. Both are 64-bit
words; the high half of a word is its plane.
-/

namespace KeyArbiter

/-- A place on the keyboard, whatever the layout. -/
structure PhysicalKey where
  word : UInt64
  deriving DecidableEq, Repr, Inhabited

/-- What a key means under a layout. -/
structure LogicalKey where
  word : UInt64
  deriving DecidableEq, Repr, Inhabited

def keyText (word : UInt64) : String := Text.hex 11 word.toNat

def PhysicalKey.text (k : PhysicalKey) : String := keyText k.word
def LogicalKey.text (k : LogicalKey) : String := keyText k.word

/-! ## Planes -/

namespace Plane

/-- Values taken from the toolkit as they are. -/
def toolkit : UInt64 := 0x1500000000

/-- Keys that have a name and print nothing. -/
def unprintable : UInt64 := 0x1000000000

/-- Keys that exist on the left and on the right. -/
def synonym : UInt64 := 0x2000000000

end Plane

end KeyArbiter
