import KeyArbiter.Number.Shortest
import KeyArbiter.Text.Quoted

/-!
# What can be wrong with a JSON text

A fault is a cause and a place. Places are counted from the end of the text, in bytes still unread,
so that a reader which only knows the rest of its input can name one.
-/

namespace KeyArbiter.Json

open Text

inductive Found
  | null
  | flag (b : Bool)
  | integer (n : Int)
  | float (x : Binary64)
  | text (s : String)
  | list
  | object
  /-- The name of a variant without its payload. -/
  | bareVariant
  deriving DecidableEq, Repr

def Found.describe : Found → String
  | .null => "null"
  | .flag b => "boolean `" ++ (if b then "true" else "false") ++ "`"
  | .integer n => "integer `" ++ signedDecimal n ++ "`"
  | .float x => "floating point `" ++ x.text ++ "`"
  | .text s => "string " ++ quoted s
  | .list => "sequence"
  | .object => "map"
  | .bareVariant => "unit variant"

inductive Cause
  -- The text ends too early.
  | eofValue
  | eofList
  | eofObject
  | eofText
  -- The text is not JSON.
  | expectedValue
  | expectedIdent
  | expectedColon
  | expectedListCommaOrEnd
  | expectedObjectCommaOrEnd
  | trailingComma
  | trailingCharacters
  | keyMustBeText
  | controlCharacter
  | invalidEscape
  | invalidNumber
  | numberOutOfRange
  | invalidCodePoint
  | loneSurrogate
  | unexpectedEndOfHexEscape
  | tooDeep
  -- The text is JSON, but not of the expected shape.
  | invalidType (found : Found) (expected : String)
  | invalidValue (n : Int) (expected : String)
  | invalidLength (n : Nat) (expected : String)
  | missingField (name : String)
  | duplicateField (name : String)
  | unknownVariant (name : String) (known : List String)
  deriving DecidableEq, Repr

inductive Category
  | eof
  | malformed
  | data
  deriving DecidableEq, Repr

def Cause.category : Cause → Category
  | .eofValue | .eofList | .eofObject | .eofText => .eof
  | .invalidType .. | .invalidValue .. | .invalidLength .. | .missingField _ | .duplicateField _
  | .unknownVariant .. => .data
  | _ => .malformed

private def inTicks (s : String) : String := "`" ++ s ++ "`"

/-- The choices a name has, as a diagnostic lists them. -/
def listChoices : List String → String
  | [a] => inTicks a
  | [a, b] => inTicks a ++ " or " ++ inTicks b
  | names => "one of " ++ String.intercalate ", " (names.map inTicks)

def Cause.message : Cause → String
  | .eofValue => "EOF while parsing a value"
  | .eofList => "EOF while parsing a list"
  | .eofObject => "EOF while parsing an object"
  | .eofText => "EOF while parsing a string"
  | .expectedValue => "expected value"
  | .expectedIdent => "expected ident"
  | .expectedColon => "expected `:`"
  | .expectedListCommaOrEnd => "expected `,` or `]`"
  | .expectedObjectCommaOrEnd => "expected `,` or `\x7d`"
  | .trailingComma => "trailing comma"
  | .trailingCharacters => "trailing characters"
  | .keyMustBeText => "key must be a string"
  | .controlCharacter => "control character (\\u0000-\\u001F) found while parsing a string"
  | .invalidEscape => "invalid escape"
  | .invalidNumber => "invalid number"
  | .numberOutOfRange => "number out of range"
  | .invalidCodePoint => "invalid unicode code point"
  | .loneSurrogate => "lone leading surrogate in hex escape"
  | .unexpectedEndOfHexEscape => "unexpected end of hex escape"
  | .tooDeep => "recursion limit exceeded"
  | .invalidType found expected => "invalid type: " ++ found.describe ++ ", expected " ++ expected
  | .invalidValue n expected =>
    "invalid value: " ++ (Found.integer n).describe ++ ", expected " ++ expected
  | .invalidLength n expected => "invalid length " ++ decimal n ++ ", expected " ++ expected
  | .missingField name => "missing field " ++ inTicks name
  | .duplicateField name => "duplicate field " ++ inTicks name
  | .unknownVariant name known =>
    "unknown variant " ++ inTicks name ++ ", expected " ++ listChoices known

inductive Place
  | known (left : Nat)
  /-- Not settled yet: the enclosing list settles it, and this is what it has still to read. -/
  | unsettled (rest : List UInt8)
  deriving DecidableEq, Repr

structure Fault where
  cause : Cause
  place : Place
  deriving DecidableEq, Repr

namespace Fault

/-- A fault just after what has been read. -/
def here (cause : Cause) (rest : List UInt8) : Fault := ⟨cause, .known rest.length⟩

/-- A fault at the next byte, which was only looked at. -/
def peek (cause : Cause) (rest : List UInt8) : Fault := ⟨cause, .known (rest.length - 1)⟩

/-- Settles an unsettled place by what the enclosing value still skips. -/
def settle (close : List UInt8 → List UInt8) (f : Fault) : Fault :=
  match f.place with
  | .known _ => f
  | .unsettled rest => here f.cause (close rest)

end Fault

/-! ## Reports -/

/-- A fault as the reader of a whole text reports it. -/
structure Report where
  cause : Cause
  /-- Line from 1, and bytes of that line before the place. -/
  position : Option (Nat × Nat)
  deriving DecidableEq, Repr

/-- The line of the next byte, and the bytes already read of it. -/
def lineColumn (seen : List UInt8) : Nat × Nat :=
  (1 + seen.count 0x0a, (seen.reverse.takeWhile (· != 0x0a)).length)

def Fault.report (text : List UInt8) (f : Fault) : Report :=
  match f.place with
  | .known left => ⟨f.cause, some (lineColumn (text.take (text.length - left)))⟩
  | .unsettled _ => ⟨f.cause, none⟩

def Report.message (r : Report) : String :=
  match r.position with
  | some (line, column) =>
    r.cause.message ++ " at line " ++ decimal line ++ " column " ++ decimal column
  | none => r.cause.message

end KeyArbiter.Json
