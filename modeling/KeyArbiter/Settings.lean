import KeyArbiter.Json.Record

/-!
# Settings

What can be tuned of an arbiter. A settings text lists only what it changes.
-/

namespace KeyArbiter

structure Settings where
  keyEventChannel : String := "flutter/keyevent"
  keyboardChannel : String := "flutter/keyboard"
  keymap : String := "linux"
  toolkit : String := "gtk"
  embedderResponder : Bool := true
  channelResponder : Bool := true
  /-- The text input filter sees releases too. -/
  textInputFiltersReleases : Bool := false
  deriving DecidableEq, Repr, Inhabited

namespace Settings

open Json

def members : List Member :=
  let d : Settings := {}
  [ .withDefault "key_event_channel" .text d.keyEventChannel,
    .withDefault "keyboard_channel" .text d.keyboardChannel,
    .withDefault "keymap" .text d.keymap,
    .withDefault "toolkit" .text d.toolkit,
    .withDefault "embedder_responder" .flag d.embedderResponder,
    .withDefault "channel_responder" .flag d.channelResponder,
    .withDefault "text_input_filters_releases" .flag d.textInputFiltersReleases ]

def codec : Codec Settings :=
  .record "struct KeyboardSettings" members
    (fun (a, b, c, d, e, f, g, ()) => ⟨a, b, c, d, e, f, g⟩)
    (fun ⟨a, b, c, d, e, f, g⟩ => (a, b, c, d, e, f, g, ()))

def faultText (r : Report) : String := "invalid keyboard settings: " ++ r.message

end Settings

end KeyArbiter
