import KeyArbiter.Key.Event

/-!
# Dispatches

A fresh event with its keys resolved, as every responder sees it.
-/

namespace KeyArbiter

structure Dispatch where
  event : KeyEvent
  /-- Counts the fresh events of an arbiter from 1. -/
  id : Nat
  transition : Transition
  physical : PhysicalKey
  logical : LogicalKey
  /-- A release of a key that was not held. -/
  orphan : Bool
  deriving DecidableEq, Repr, Inhabited

namespace Dispatch

def idText (id : Nat) : String := "#" ++ Text.decimal id

/-- What the event types: nothing for a release, and nothing if no hardware delivered it. -/
def character (d : Dispatch) : Option Char :=
  if d.transition = .up ∨ d.event.synthesized then none else charOfKeyval d.event.keyval

def runtimeEvent (d : Dispatch) : RuntimeEvent where
  timestamp := d.event.time.toUInt64 * 1000
  transition := d.transition
  physical := d.physical
  logical := d.logical
  character := d.character.map String.singleton
  synthesized := d.event.synthesized

/-- The text input filter is asked about real presses, and about real releases if it wants them. -/
def filterable (filtersReleases : Bool) (d : Dispatch) : Bool :=
  !d.event.synthesized && (d.event.isPress || filtersReleases)

end Dispatch

end KeyArbiter
