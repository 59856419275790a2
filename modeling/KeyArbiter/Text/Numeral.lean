/-!
# Numerals

Writing a natural number in a base, and reading digits back under a limit. A numeral is read from
the left, so of several faults the leftmost is reported.
-/

namespace KeyArbiter.Text

/-! ## Writing -/

/-- The digits of `n` in `base`, most significant first. `0` has one digit. -/
def digitsOf (base n : Nat) : List Nat :=
  if n < base ∨ base < 2 then [n]
  else digitsOf base (n / base) ++ [n % base]
termination_by n
decreasing_by exact Nat.div_lt_self (by omega) (by omega)

def decimal (n : Nat) : String := String.ofList ((digitsOf 10 n).map Nat.digitChar)

/-- `n` in decimal, with a sign if negative. -/
def signedDecimal : Int → String
  | .ofNat n => decimal n
  | .negSucc n => "-" ++ decimal (n + 1)

/-- `n` in lower-case hexadecimal after `0x`, with zeros up to `width` characters in all. -/
def hex (width n : Nat) : String :=
  let digits := (digitsOf 16 n).map Nat.digitChar
  "0x" ++ String.ofList (List.replicate (width - 2 - digits.length) '0' ++ digits)

/-! ## Reading -/

inductive NumeralError
  | empty
  | invalidDigit
  | tooLarge
  | tooSmall
  deriving DecidableEq, Repr

def NumeralError.message : NumeralError → String
  | .empty => "cannot parse integer from empty string"
  | .invalidDigit => "invalid digit found in string"
  | .tooLarge => "number too large to fit in target type"
  | .tooSmall => "number too small to fit in target type"

/-- The value of a digit of `base`, up to base 16. Letters count in either case. -/
def digitValue (base : Nat) (c : Char) : Option Nat :=
  let n := c.toNat
  let d := if 0x30 ≤ n ∧ n ≤ 0x39 then n - 0x30
    else if 0x61 ≤ n ∧ n ≤ 0x66 then n - 0x61 + 10
    else if 0x41 ≤ n ∧ n ≤ 0x46 then n - 0x41 + 10
    else 16
  if d < base ∧ d < 16 then some d else none

/-- Appends digits to `acc`, staying below `limit`. -/
def readDigits (base limit : Nat) : Nat → List Char → Except NumeralError Nat
  | acc, [] => .ok acc
  | acc, c :: cs =>
    match digitValue base c with
    | none => .error .invalidDigit
    | some d =>
      if acc * base + d < limit then readDigits base limit (acc * base + d) cs
      else .error .tooLarge

/-- A natural number below `limit`, with at most one leading `+`. -/
def readNatural (base limit : Nat) (cs : List Char) : Except NumeralError Nat :=
  match cs with
  | [] => .error .empty
  | ['+'] | ['-'] => .error .invalidDigit
  | '+' :: rest => readDigits base limit 0 rest
  | cs => readDigits base limit 0 cs

/-- A whole number of `bits` bits in two's complement, in decimal. -/
def readInteger (bits : Nat) (cs : List Char) : Except NumeralError Int :=
  match cs with
  | '-' :: d :: rest =>
    match readDigits 10 (1 <<< (bits - 1) + 1) 0 (d :: rest) with
    | .ok n => .ok (-n)
    | .error .tooLarge => .error .tooSmall
    | .error e => .error e
  | cs => (readNatural 10 (1 <<< (bits - 1)) cs).map Int.ofNat

end KeyArbiter.Text
