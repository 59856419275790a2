import KeyArbiter.Wire.Message

/-!
# The keyboard channel

Requests for the held keys, and the envelopes of their replies.
-/

namespace KeyArbiter

open Json

/-- A request. No method of this channel takes arguments, so they are not read. -/
structure MethodCall where
  method : String
  deriving DecidableEq, Repr

namespace MethodCall

def codec : Codec MethodCall :=
  .record "struct MethodCall" [.required "method" .text] (fun (m, ()) => ⟨m⟩) (fun ⟨m⟩ => (m, ()))

def decode (data : List UInt8) : Except ChannelError MethodCall :=
  (codec.decode data).mapError (.undecodable "method call")

end MethodCall

namespace Envelope

def success (result : Value) : Value := .list [result]

def error (code message : String) : Value := .list [.text code, .text message, .null]

end Envelope

namespace KeyboardChannel

/-- Physical keys by their decimal number, in the order of these names, with their logical keys. -/
def heldValue (held : List (PhysicalKey × LogicalKey)) : Value :=
  .object (held.foldl (fun acc (p, l) =>
    insertMember (Text.decimal p.word.toNat) (.natural l.word.toNat) acc) [])

/-- The reply to one request, and what was wrong with it. An unknown method gets an empty reply. -/
def answer (held : List (PhysicalKey × LogicalKey)) (data : List UInt8) :
    List UInt8 × Option ChannelError :=
  match MethodCall.decode data with
  | .ok call =>
    if call.method = "getKeyboardState" then
      (utf8 (Envelope.success (heldValue held)).compact, none)
    else ([], some (.unknownMethod call.method))
  | .error e => (utf8 (Envelope.error "bad_request" e.text).compact, some e)

end KeyboardChannel

end KeyArbiter
