import KeyArbiter.Key.Modifier

/-!
# Events

A hardware key event as the toolkit delivers it, and the event that the embedded runtime sees.
-/

namespace KeyArbiter

/-- A press or release of a hardware key. Two events are the same if all their parts are: that is
how a replay is told from a new event. -/
structure KeyEvent where
  /-- In milliseconds. -/
  time : UInt32
  isPress : Bool
  keycode : UInt16
  keyval : UInt32
  modifiers : Modifiers := .none
  group : UInt8 := 0
  /-- No hardware delivered it. -/
  synthesized : Bool := false
  /-- The host's handle for its own event. -/
  origin : Option UInt64 := none
  deriving DecidableEq, Repr, Inhabited

/-- The event as it is made here and not read: groups belong to keyboards, so one that no hardware
delivered is in the first group. -/
def KeyEvent.regrouped (e : KeyEvent) : KeyEvent :=
  if e.synthesized then { e with group := 0 } else e

def KeyEvent.text (e : KeyEvent) : String :=
  (if e.isPress then "press" else "release") ++
    " keycode=" ++ Text.hex 4 e.keycode.toNat ++
    " keyval=" ++ Text.hex 6 e.keyval.toNat ++
    " state=" ++ Text.hex 0 e.modifiers.bits.toNat ++
    " group=" ++ Text.decimal e.group.toNat ++
    (if e.synthesized then " (synthesized)" else "")

/-! ## The runtime's view -/

inductive Transition
  | down
  | up
  | repeated
  deriving DecidableEq, Repr, Inhabited

/-- An event as the embedded runtime sees it. -/
structure RuntimeEvent where
  /-- In microseconds. -/
  timestamp : UInt64
  transition : Transition
  physical : PhysicalKey
  logical : LogicalKey
  character : Option String
  synthesized : Bool
  deriving DecidableEq, Repr, Inhabited

end KeyArbiter
