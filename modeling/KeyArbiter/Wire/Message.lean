import KeyArbiter.Wire.Event

/-!
# Key messages and their replies

What is sent on the key event channel for each event, and what comes back.
-/

namespace KeyArbiter

open Json

inductive KeyMessageType
  | keyDown
  | keyUp
  deriving DecidableEq, Repr, Inhabited

structure KeyMessage where
  type : KeyMessageType
  keymap : String
  toolkit : String
  scanCode : UInt16
  keyCode : UInt32
  modifiers : Modifiers
  /-- The number of the character that the key symbol prints, 0 if there is none. -/
  unicodeScalarValues : UInt32
  deriving DecidableEq, Repr, Inhabited

def KeyMessage.ofEvent (e : KeyEvent) (keymap toolkit : String) : KeyMessage where
  type := if e.isPress then .keyDown else .keyUp
  keymap
  toolkit
  scanCode := e.keycode
  keyCode := e.keyval
  modifiers := e.modifiers
  unicodeScalarValues := ((charOfKeyval e.keyval).map fun c => c.val).getD 0

namespace KeyMessageType

def name : KeyMessageType → String
  | .keyDown => "keydown"
  | .keyUp => "keyup"

def variants : List (Variant KeyMessageType) :=
  [.keyDown, .keyUp].map fun t => ⟨t.name, .unit t⟩

def codec : Codec KeyMessageType := .choice variants fun t => .text t.name

end KeyMessageType

def KeyMessage.members : List Member := [
  .required "type" KeyMessageType.codec,
  .required "keymap" .text,
  .required "toolkit" .text,
  .required "scanCode" .word16,
  .required "keyCode" .word32,
  .required "modifiers" Modifiers.codec,
  .required "unicodeScalarValues" .word32]

def KeyMessage.codec : Codec KeyMessage :=
  .record "struct KeyEventMessage" members
    (fun (a, b, c, d, e, f, g, ()) => ⟨a, b, c, d, e, f, g⟩)
    (fun ⟨a, b, c, d, e, f, g⟩ => (a, b, c, d, e, f, g, ()))

/-! ## Transport failures -/

inductive TransportErrorKind
  | noResponse
  | channelClosed
  | encoding
  | unhandled
  deriving DecidableEq, Repr, Inhabited

structure TransportError where
  kind : TransportErrorKind
  detail : Option String := none
  deriving DecidableEq, Repr

def TransportErrorKind.text : TransportErrorKind → String
  | .noResponse => "no response on channel"
  | .channelClosed => "channel closed before reply"
  | .encoding => "message encoding failed"
  | .unhandled => "no handler registered for channel"

def TransportError.text (e : TransportError) : String :=
  match e.detail with
  | some detail => e.kind.text ++ ": " ++ detail
  | none => e.kind.text

/-! ## Replies -/

/-- What goes wrong on a channel. None of it reaches the host. -/
inductive ChannelError
  | undecodable (what : String) (report : Report)
  | transport (e : TransportError)
  | emptyReply (channel : String)
  | unknownMethod (method : String)
  deriving DecidableEq, Repr

def ChannelError.text : ChannelError → String
  | .undecodable what report => "failed to decode " ++ what ++ ": " ++ report.message
  | .transport e => "messenger failure: " ++ e.text
  | .emptyReply channel => "empty reply on channel `" ++ channel ++ "`"
  | .unknownMethod method => "unknown method `" ++ method ++ "`"

/-- The framework's verdict on a key message. -/
structure KeyReply where
  handled : Bool
  deriving DecidableEq, Repr

namespace KeyReply

def codec : Codec KeyReply :=
  .record "struct KeyEventReply" [.required "handled" .flag] (fun (h, ()) => ⟨h⟩)
    (fun ⟨h⟩ => (h, ()))

def decode (channel : String) (data : List UInt8) : Except ChannelError KeyReply :=
  if data.isEmpty then .error (.emptyReply channel)
  else (codec.decode data).mapError (.undecodable "key event reply")

end KeyReply

end KeyArbiter
