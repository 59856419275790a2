import KeyArbiter.Key.Table

/-!
# Layouts

A layout gives the logical key of a scan code and its key symbol in a group.
-/

namespace KeyArbiter

structure LayoutQuery where
  keycode : UInt16
  keyval : UInt32
  group : UInt8
  deriving DecidableEq, Repr

structure Layout where
  name : String
  lookup : LayoutQuery → LogicalKey

namespace Layout

/-- The digit row gives its digits, shifted or not. Any other key follows its symbol. -/
def us : Layout where
  name := "us"
  lookup q :=
    if q.keycode = 0x13 then ⟨0x30⟩
    else if 0x0a ≤ q.keycode ∧ q.keycode < 0x13 then ⟨0x31 + (q.keycode - 0x0a).toUInt64⟩
    else .ofKeyval q.keyval

def registered : List Layout := [us]

/-- Names are compared without regard to the case of ASCII letters. -/
def find? (name : String) : Option Layout :=
  registered.find? (·.name.toLower == name.toLower)

def names : List String := (registered.map (·.name)).mergeSort (· ≤ ·)

/-! ## Scripted layouts -/

/-- Answers given in advance, one for each query. -/
abbrev Overrides := List (LayoutQuery × LogicalKey)

/-- Gives an answer in advance, in place of an earlier one. -/
def Overrides.set (overrides : Overrides) (q : LayoutQuery) (key : LogicalKey) : Overrides :=
  overrides.filter (·.1 != q) ++ [(q, key)]

/-- The us layout, but for some answers given in advance. -/
def scripted (overrides : Overrides) : Layout where
  name := "mock"
  lookup q := ((overrides.find? (·.1 == q)).map (·.2)).getD (us.lookup q)

end Layout

end KeyArbiter
