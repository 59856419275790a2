import KeyArbiter.Json.Scan

/-!
# Numbers

A number without fraction and exponent is whole as long as it fits a 64-bit word; any other number
is a float. A float is computed from the longest run of digits that fits a word, one rounding for
that run and one for the power of ten.
-/

namespace KeyArbiter.Json

inductive Number
  | whole (n : Int)
  | float (x : Binary64)
  deriving DecidableEq, Repr

def significandLimit : Nat := 1 <<< 64

/-- The distance of the smallest whole number below zero. -/
def depthLimit : Nat := 1 <<< 63

def exponentLimit : Nat := 1 <<< 31

/-- Appends digits to `acc` as long as the result stays below `limit`. Gives the result, how many
digits went in, and the bytes after them. -/
def takeDigits (limit : Nat) : Nat → List UInt8 → Nat × Nat × List UInt8
  | acc, [] => (acc, 0, [])
  | acc, b :: rest =>
    if isDigit b ∧ acc * 10 + digitOf b < limit then
      let (n, count, rest) := takeDigits limit (acc * 10 + digitOf b) rest
      (n, count + 1, rest)
    else (acc, 0, b :: rest)

/-- The digits at the front: how many, and the bytes after them. -/
def skipDigits (bytes : List UInt8) : Nat × List UInt8 :=
  ((bytes.takeWhile isDigit).length, bytes.dropWhile isDigit)

def startsDigit (bytes : List UInt8) : Bool := bytes.head?.any isDigit

/-- `significand * 10 ^ power` as a float, unless that is past the largest one. -/
def floatOf (significand : Nat) (power : Int) : Option Binary64 := do
  (← Binary64.ofRatio significand 1).scaleTen power

/-- Reads nothing: this float, if there is one, under its sign. -/
def withSign (negative : Bool) (rest : List UInt8) :
    Option Binary64 → Except Fault (Number × List UInt8)
  | some x => .ok (.float (if negative then x.neg else x), rest)
  | none => .error (.here .numberOutOfRange rest)

/-- Reads nothing: `significand * 10 ^ power` as a float. -/
def asFloat (negative : Bool) (significand : Nat) (power : Int) (rest : List UInt8) :
    Except Fault (Number × List UInt8) :=
  withSign negative rest (floatOf significand power)

/-- Reads the digits of an exponent, which adds to `power`, or takes from it if it is `down`. -/
def readPower (negative : Bool) (significand : Nat) (power : Int) (down : Bool) :
    List UInt8 → Except Fault (Number × List UInt8)
  | [] => .error (.here .eofValue [])
  | b :: rest =>
    if isDigit b then
      let t := takeDigits exponentLimit (digitOf b) rest
      if startsDigit t.2.2 then
        -- The exponent itself does not fit: the number is zero, or past the largest one.
        if significand ≠ 0 ∧ !down then .error (.here .numberOutOfRange (t.2.2.drop 1))
        else .ok (.float ⟨negative, 0, 0⟩, (skipDigits t.2.2).2)
      else asFloat negative significand (if down then power - t.1 else power + t.1) t.2.2
    else .error (.here .invalidNumber rest)

/-- Reads what follows the `e` of an exponent: its sign, and its digits. -/
def readExponent (negative : Bool) (significand : Nat) (power : Int) :
    List UInt8 → Except Fault (Number × List UInt8)
  | [] => .error (.here .eofValue [])
  | b :: rest =>
    if b = 0x2b then readPower negative significand power false rest
    else if b = minus then readPower negative significand power true rest
    else readPower negative significand power false (b :: rest)

/-- Reads what may follow the digits of a float: an exponent, or nothing. -/
def readTail (negative : Bool) (significand : Nat) (power : Int) (bytes : List UInt8) :
    Except Fault (Number × List UInt8) :=
  match bytes with
  | b :: rest =>
    if b = 0x65 ∨ b = 0x45 then readExponent negative significand power rest
    else asFloat negative significand power bytes
  | [] => asFloat negative significand power []

/-- Reads the digits after a decimal point. Those that no longer fit are skipped. -/
def readFraction (negative : Bool) (significand : Nat) (power : Int) (bytes : List UInt8) :
    Except Fault (Number × List UInt8) :=
  let t := takeDigits significandLimit significand bytes
  if startsDigit t.2.2 then readTail negative t.1 (power - t.2.1) (skipDigits t.2.2).2
  else if t.2.1 = 0 then
    .error (.peek (if t.2.2.isEmpty then .eofValue else .invalidNumber) t.2.2)
  else readTail negative t.1 (power - t.2.1) t.2.2

/-- Reads what follows a significand: a point, an exponent, or nothing. -/
def readRest (negative : Bool) (significand : Nat) (power : Int)
    (whole : List UInt8 → Except Fault (Number × List UInt8)) (bytes : List UInt8) :
    Except Fault (Number × List UInt8) :=
  match bytes with
  | b :: rest =>
    if b = 0x2e then readFraction negative significand power rest
    else if b = 0x65 ∨ b = 0x45 then readExponent negative significand power rest
    else whole bytes
  | [] => whole []

/-- A significand with neither point nor exponent. Minus zero and what is below the smallest 64-bit
whole number are floats. -/
def asWhole (negative : Bool) (significand : Nat) (rest : List UInt8) :
    Except Fault (Number × List UInt8) :=
  if !negative then .ok (.whole significand, rest)
  else if significand = 0 ∨ depthLimit < significand then asFloat true significand 0 rest
  else .ok (.whole (-significand), rest)

def readNumber (negative : Bool) : List UInt8 → Except Fault (Number × List UInt8)
  | [] => .error (.here .eofValue [])
  | b :: rest =>
    if b = 0x30 then
      if startsDigit rest then .error (.peek .invalidNumber rest)
      else readRest negative 0 0 (asWhole negative 0) rest
    else if isDigit b then
      let t := takeDigits significandLimit (digitOf b) rest
      if startsDigit t.2.2 then
        let u := skipDigits t.2.2
        readRest negative t.1 u.1 (asFloat negative t.1 u.1) u.2
      else readRest negative t.1 0 (asWhole negative t.1) t.2.2
    else .error (.here .invalidNumber rest)

/-! ## Reading never goes back -/

theorem takeDigits_length_le (limit acc : Nat) (bytes : List UInt8) :
    (takeDigits limit acc bytes).2.2.length ≤ bytes.length := by
  induction bytes generalizing acc with
  | nil => simp [takeDigits]
  | cons b rest ih =>
    simp only [takeDigits]
    split
    · exact Nat.le_succ_of_le (ih _)
    · exact Nat.le_refl _

theorem skipDigits_length_le (bytes : List UInt8) : (skipDigits bytes).2.length ≤ bytes.length :=
  (List.dropWhile_suffix _).length_le

variable {negative : Bool} {significand : Nat} {power : Int} {bytes rest : List UInt8} {v : Number}

theorem withSign_rest {x : Option Binary64} (h : withSign negative bytes x = .ok (v, rest)) :
    rest = bytes := by
  cases x <;> cases h
  rfl

theorem asFloat_rest (h : asFloat negative significand power bytes = .ok (v, rest)) :
    rest = bytes :=
  withSign_rest h

theorem asWhole_rest (h : asWhole negative significand bytes = .ok (v, rest)) : rest = bytes := by
  unfold asWhole at h
  split at h
  · cases h; rfl
  · split at h
    · exact asFloat_rest h
    · cases h; rfl


theorem readPower_shorter {down : Bool}
    (h : readPower negative significand power down bytes = .ok (v, rest)) :
    rest.length < bytes.length := by
  cases bytes with
  | nil => cases h
  | cons b tail =>
    have len := takeDigits_length_le exponentLimit (digitOf b) tail
    have skip := skipDigits_length_le (takeDigits exponentLimit (digitOf b) tail).2.2
    simp only [readPower] at h
    split at h
    · split at h
      · split at h
        · cases h
        · cases h; simp; omega
      · rw [asFloat_rest h]; simp; omega
    · cases h

theorem readExponent_shorter (h : readExponent negative significand power bytes = .ok (v, rest)) :
    rest.length < bytes.length := by
  cases bytes with
  | nil => cases h
  | cons b tail =>
    simp only [readExponent] at h
    split at h
    · exact Nat.lt_succ_of_lt (readPower_shorter h)
    · split at h
      · exact Nat.lt_succ_of_lt (readPower_shorter h)
      · exact readPower_shorter h

theorem readTail_length_le (h : readTail negative significand power bytes = .ok (v, rest)) :
    rest.length ≤ bytes.length := by
  cases bytes with
  | nil => exact Nat.le_of_eq (congrArg _ (asFloat_rest h))
  | cons b tail =>
    simp only [readTail] at h
    split at h
    · exact Nat.le_of_lt (Nat.lt_succ_of_lt (readExponent_shorter h))
    · exact Nat.le_of_eq (congrArg _ (asFloat_rest h))

theorem readFraction_length_le
    (h : readFraction negative significand power bytes = .ok (v, rest)) :
    rest.length ≤ bytes.length := by
  have len := takeDigits_length_le significandLimit significand bytes
  have skip := skipDigits_length_le (takeDigits significandLimit significand bytes).2.2
  simp only [readFraction] at h
  split at h
  · have := readTail_length_le h; omega
  · split at h
    · cases h
    · have := readTail_length_le h; omega

theorem readRest_length_le {whole : List UInt8 → Except Fault (Number × List UInt8)}
    (hw : ∀ {bytes rest v}, whole bytes = .ok (v, rest) → rest = bytes)
    (h : readRest negative significand power whole bytes = .ok (v, rest)) :
    rest.length ≤ bytes.length := by
  cases bytes with
  | nil => exact Nat.le_of_eq (congrArg _ (hw h))
  | cons b tail =>
    simp only [readRest] at h
    split at h
    · exact Nat.le_succ_of_le (readFraction_length_le h)
    · split at h
      · exact Nat.le_of_lt (Nat.lt_succ_of_lt (readExponent_shorter h))
      · exact Nat.le_of_eq (congrArg _ (hw h))

theorem readNumber_shorter (h : readNumber negative bytes = .ok (v, rest)) :
    rest.length < bytes.length := by
  cases bytes with
  | nil => cases h
  | cons b tail =>
    have len := takeDigits_length_le significandLimit (digitOf b) tail
    have skip := skipDigits_length_le (takeDigits significandLimit (digitOf b) tail).2.2
    simp only [readNumber] at h
    split at h
    · split at h
      · cases h
      · exact Nat.lt_succ_of_le (readRest_length_le asWhole_rest h)
    · split at h
      · split at h
        · have := readRest_length_le asFloat_rest h; simp; omega
        · have := readRest_length_le asWhole_rest h; simp; omega
      · cases h

end KeyArbiter.Json
