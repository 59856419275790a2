import KeyArbiter.Json.Choice
import KeyArbiter.Key.Event

/-!
# Events on the wire
-/

namespace KeyArbiter

open Json

def PhysicalKey.codec : Codec PhysicalKey := Codec.word64.iso .mk (·.word)
def LogicalKey.codec : Codec LogicalKey := Codec.word64.iso .mk (·.word)
def Modifiers.codec : Codec Modifiers := Codec.word32.iso .mk (·.bits)

def KeyEvent.members : List Member := [
  .required "time" .word32,
  .required "is_press" .flag,
  .required "keycode" .word16,
  .required "keyval" .word32,
  .withDefault "state" Modifiers.codec .none,
  .withDefault "group" .word8 0,
  .withDefault "synthesized" .flag false,
  .unlessNone "origin" .word64]

def KeyEvent.codec : Codec KeyEvent :=
  .record "struct KeyEvent" members
    (fun (a, b, c, d, e, f, g, h, ()) => ⟨a, b, c, d, e, f, g, h⟩)
    (fun ⟨a, b, c, d, e, f, g, h⟩ => (a, b, c, d, e, f, g, h, ()))

namespace Transition

def name : Transition → String
  | .down => "down"
  | .up => "up"
  | .repeated => "repeat"

def variants : List (Variant Transition) :=
  [.down, .up, .repeated].map fun t => ⟨t.name, .unit t⟩

def codec : Codec Transition := .choice variants fun t => .text t.name

end Transition

def RuntimeEvent.members : List Member := [
  .required "timestamp" .word64,
  .required "kind" Transition.codec,
  .required "physical" PhysicalKey.codec,
  .required "logical" LogicalKey.codec,
  .optional "character" .text,
  .required "synthesized" .flag]

def RuntimeEvent.codec : Codec RuntimeEvent :=
  .record "struct EmbedderKeyEvent" members
    (fun (a, b, c, d, e, f, ()) => ⟨a, b, c, d, e, f⟩)
    (fun ⟨a, b, c, d, e, f⟩ => (a, b, c, d, e, f, ()))

end KeyArbiter
