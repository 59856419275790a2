import KeyArbiter.Text.Blank
import KeyArbiter.Text.Numeral

/-!
# Numbers on the command line

Decimal, or hexadecimal after `0x`, with blanks around it.
-/

namespace KeyArbiter.Command

open Text

inductive NumberError
  | malformed (reason : NumeralError)
  | outOfRange
  deriving DecidableEq, Repr

def NumberError.message (text : String) : NumberError → String
  | .malformed reason => "invalid number `" ++ text ++ "`: " ++ reason.message
  | .outOfRange => "number `" ++ text ++ "` is out of range"

/-- Reads a 64-bit word, in the base that its first characters tell. -/
def readWord (cs : List Char) : Except NumeralError Nat :=
  match cs with
  | '0' :: 'x' :: rest | '0' :: 'X' :: rest => readNatural 16 UInt64.size rest
  | cs => readNatural 10 UInt64.size cs

/-- A number up to `max`. It has to fit 64 bits first. -/
def parseNumber (max : Nat) (text : String) : Except NumberError Nat :=
  match readWord (trim text).toList with
  | .error reason => .error (.malformed reason)
  | .ok n => if n ≤ max then .ok n else .error .outOfRange

end KeyArbiter.Command
