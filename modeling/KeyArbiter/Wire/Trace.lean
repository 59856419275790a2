import KeyArbiter.Wire.Event

/-!
# Traces

A recorded run: key events, and modifier words that the held keys were synchronized with.
-/

namespace KeyArbiter

open Json

inductive TraceStep
  | event (e : KeyEvent)
  | sync (state : Modifiers) (time : UInt32)
  deriving DecidableEq, Repr

namespace TraceStep

def syncCodec : Codec (Modifiers × UInt32) :=
  .record "struct variant TraceStep::Sync"
    [.required "state" Modifiers.codec, .required "time" .word32]
    (fun (s, t, ()) => (s, t)) (fun (s, t) => (s, t, ()))

def variants : List (Variant TraceStep) := [
  ⟨"event", .holds "newtype variant" (KeyEvent.codec.read.map .event)⟩,
  ⟨"sync", .holds "struct variant" (syncCodec.read.map fun (s, t) => .sync s t)⟩]

def value : TraceStep → Value
  | .event e => .object [("event", KeyEvent.codec.write e)]
  | .sync s t => .object [("sync", syncCodec.write (s, t))]

def codec : Codec TraceStep := .choice variants value

end TraceStep

abbrev Trace := List TraceStep

def Trace.codec : Codec Trace := TraceStep.codec.list

end KeyArbiter
