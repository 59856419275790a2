import KeyArbiter.Json.Text

/-!
# Skipping a value

The value of an unknown member is only looked over. However deep it nests, the brackets still open
are kept in a list, and each step reads at least one byte.
-/

namespace KeyArbiter.Json

inductive Bracket
  | list
  | object
  deriving DecidableEq, Repr

namespace Bracket

def closing : Bracket → UInt8
  | .list => closeList
  | .object => closeObject

/-- The text ends inside the brackets. -/
def eof : Bracket → Cause
  | .list => .eofList
  | .object => .eofObject

/-- Neither a comma nor the closing bracket follows. -/
def expectedCommaOrEnd : Bracket → Cause
  | .list => .expectedListCommaOrEnd
  | .object => .expectedObjectCommaOrEnd

end Bracket

/-! ## Numbers by their form -/

/-- After the `e` of an exponent. -/
def skipPower : List UInt8 → Except Fault (List UInt8)
  | [] => .error (.here .invalidNumber [])
  | b :: rest =>
    if isDigit b then .ok (rest.dropWhile isDigit) else .error (.here .invalidNumber rest)

def skipExponent : List UInt8 → Except Fault (List UInt8)
  | [] => skipPower []
  | b :: rest => if b = 0x2b ∨ b = minus then skipPower rest else skipPower (b :: rest)

/-- After the last digit that could be followed by an exponent. -/
def skipTail : List UInt8 → Except Fault (List UInt8)
  | [] => .ok []
  | b :: rest => if b = 0x65 ∨ b = 0x45 then skipExponent rest else .ok (b :: rest)

/-- After a decimal point. -/
def skipFraction : List UInt8 → Except Fault (List UInt8)
  | [] => .error (.peek .invalidNumber [])
  | b :: rest =>
    if isDigit b then skipTail (rest.dropWhile isDigit) else .error (.peek .invalidNumber (b :: rest))

/-- After the digits before a point. -/
def skipPoint : List UInt8 → Except Fault (List UInt8)
  | [] => .ok []
  | b :: rest => if b = 0x2e then skipFraction rest else skipTail (b :: rest)

/-- After the sign. -/
def skipNumber : List UInt8 → Except Fault (List UInt8)
  | [] => .error (.here .invalidNumber [])
  | b :: rest =>
    if b = 0x30 then
      if rest.head?.any isDigit then .error (.peek .invalidNumber rest) else skipPoint rest
    else if isDigit b then skipPoint (rest.dropWhile isDigit)
    else .error (.here .invalidNumber rest)

/-! ## Values -/

def skipScalar (b : UInt8) (rest : List UInt8) : Except Fault (List UInt8) :=
  if b = 0x6e then literal (ascii "ull") rest
  else if b = 0x74 then literal (ascii "rue") rest
  else if b = 0x66 then literal (ascii "alse") rest
  else if b = minus then skipNumber rest
  else if isDigit b then skipNumber (b :: rest)
  else if b = quote then skipText .plain rest
  else .error (.peek .expectedValue (b :: rest))

def skipColon (bytes : List UInt8) : Except Fault (List UInt8) :=
  match skipBlank bytes with
  | [] => .error (.peek .eofObject [])
  | b :: rest => if b = colon then .ok rest else .error (.peek .expectedColon (b :: rest))

/-- Skips what stands before the next value in the brackets: in an object, its name. -/
def skipName : Bracket → List UInt8 → Except Fault (List UInt8)
  | .list, bytes => .ok bytes
  | .object, bytes =>
    match skipBlank bytes with
    | [] => .error (.peek .eofObject [])
    | b :: rest =>
      if b = quote then skipText .plain rest >>= skipColon
      else .error (.peek .keyMustBeText (b :: rest))

/-- Goes on after a value, as far as the next one. Gives the brackets open there, none of them if
all is read. -/
def skipAfter : List Bracket → List UInt8 → Except Fault (List Bracket × List UInt8)
  | [], bytes => .ok ([], bytes)
  | k :: outer, bytes =>
    match skipBlank bytes with
    | [] => .error (.peek k.eof [])
    | b :: rest =>
      if b = comma then (skipName k rest).map ((k :: outer, ·))
      else if b = k.closing then skipAfter outer rest
      else .error (.peek k.expectedCommaOrEnd (b :: rest))

/-- Goes on after an opening bracket. -/
def skipOpened (k : Bracket) (outer : List Bracket) (bytes : List UInt8) :
    Except Fault (List Bracket × List UInt8) :=
  match skipBlank bytes with
  | [] => .error (.peek k.eof [])
  | b :: rest =>
    if b = k.closing then skipAfter outer rest
    else (skipName k (b :: rest)).map ((k :: outer, ·))

/-- Looks over a value, as far as the next one. -/
def skipStep (outer : List Bracket) (bytes : List UInt8) :
    Except Fault (List Bracket × List UInt8) :=
  match skipBlank bytes with
  | [] => .error (.peek .eofValue [])
  | b :: rest =>
    if b = openList then skipOpened .list outer rest
    else if b = openObject then skipOpened .object outer rest
    else skipScalar b rest >>= skipAfter outer

/-! ## Each step reads something -/

theorem dropWhile_length_le (p : UInt8 → Bool) (bytes : List UInt8) :
    (bytes.dropWhile p).length ≤ bytes.length :=
  (List.dropWhile_suffix _).length_le

section

variable {k : Bracket} {outer still : List Bracket} {b : UInt8} {bytes rest : List UInt8}

theorem skipPower_shorter (h : skipPower bytes = .ok rest) : rest.length < bytes.length := by
  cases bytes with
  | nil => cases h
  | cons b tail =>
    simp only [skipPower] at h
    split at h
    · cases h; exact Nat.lt_succ_of_le (dropWhile_length_le _ _)
    · cases h

theorem skipExponent_shorter (h : skipExponent bytes = .ok rest) :
    rest.length < bytes.length := by
  cases bytes with
  | nil => exact skipPower_shorter h
  | cons b tail =>
    simp only [skipExponent] at h
    split at h
    · exact Nat.lt_succ_of_lt (skipPower_shorter h)
    · exact skipPower_shorter h

theorem skipTail_length_le (h : skipTail bytes = .ok rest) : rest.length ≤ bytes.length := by
  cases bytes with
  | nil => cases h; exact Nat.le_refl _
  | cons b tail =>
    simp only [skipTail] at h
    split at h
    · exact Nat.le_of_lt (Nat.lt_succ_of_lt (skipExponent_shorter h))
    · cases h; exact Nat.le_refl _

theorem skipFraction_length_le (h : skipFraction bytes = .ok rest) :
    rest.length ≤ bytes.length := by
  cases bytes with
  | nil => cases h
  | cons b tail =>
    simp only [skipFraction] at h
    split at h
    · exact Nat.le_succ_of_le (Nat.le_trans (skipTail_length_le h) (dropWhile_length_le _ _))
    · cases h

theorem skipPoint_length_le (h : skipPoint bytes = .ok rest) : rest.length ≤ bytes.length := by
  cases bytes with
  | nil => cases h; exact Nat.le_refl _
  | cons b tail =>
    simp only [skipPoint] at h
    split at h
    · exact Nat.le_succ_of_le (skipFraction_length_le h)
    · exact skipTail_length_le h

theorem skipNumber_shorter (h : skipNumber bytes = .ok rest) : rest.length < bytes.length := by
  cases bytes with
  | nil => cases h
  | cons b tail =>
    simp only [skipNumber] at h
    split at h
    · split at h
      · cases h
      · exact Nat.lt_succ_of_le (skipPoint_length_le h)
    · split at h
      · exact Nat.lt_succ_of_le (Nat.le_trans (skipPoint_length_le h) (dropWhile_length_le _ _))
      · cases h

theorem literal_length_le {word : List UInt8} (h : literal word bytes = .ok rest) :
    rest.length ≤ bytes.length := by
  have := literal_length h
  omega

theorem skipScalar_length_le (h : skipScalar b bytes = .ok rest) :
    rest.length ≤ bytes.length := by
  unfold skipScalar at h
  split at h
  · exact literal_length_le h
  split at h
  · exact literal_length_le h
  split at h
  · exact literal_length_le h
  split at h
  · exact Nat.le_of_lt (skipNumber_shorter h)
  split at h
  · exact Nat.le_of_lt_succ (skipNumber_shorter h)
  split at h
  · exact Nat.le_of_lt (skipText_shorter h)
  · cases h

theorem skipColon_shorter (h : skipColon bytes = .ok rest) : rest.length < bytes.length := by
  have len := skipBlank_length_le bytes
  unfold skipColon at h
  split at h
  · cases h
  · next heq =>
    rw [heq, List.length_cons] at len
    split at h
    · cases h; omega
    · cases h

theorem skipName_length_le (h : skipName k bytes = .ok rest) : rest.length ≤ bytes.length := by
  have len := skipBlank_length_le bytes
  cases k with
  | list => cases h; exact Nat.le_refl _
  | object =>
    simp only [skipName] at h
    split at h
    · cases h
    · next heq =>
      rw [heq, List.length_cons] at len
      split at h
      · obtain ⟨middle, h₁, h₂⟩ := exists_of_bind_eq_ok h
        have := skipText_shorter h₁
        have := skipColon_shorter h₂
        omega
      · cases h

theorem skipAfter_length_le (h : skipAfter outer bytes = .ok (still, rest)) :
    rest.length ≤ bytes.length := by
  induction outer generalizing bytes with
  | nil => cases h; exact Nat.le_refl _
  | cons k outer ih =>
    have len := skipBlank_length_le bytes
    simp only [skipAfter] at h
    split at h
    · cases h
    · next heq =>
      rw [heq, List.length_cons] at len
      split at h
      · obtain ⟨_, h₁, h₂⟩ := exists_of_map_eq_ok h
        cases h₂
        have := skipName_length_le h₁
        omega
      · split at h
        · have := ih h; omega
        · cases h

theorem skipOpened_length_le (h : skipOpened k outer bytes = .ok (still, rest)) :
    rest.length ≤ bytes.length := by
  have len := skipBlank_length_le bytes
  unfold skipOpened at h
  split at h
  · cases h
  · next heq =>
    rw [heq, List.length_cons] at len
    split at h
    · have := skipAfter_length_le h; omega
    · obtain ⟨_, h₁, h₂⟩ := exists_of_map_eq_ok h
      cases h₂
      have := skipName_length_le h₁
      rw [List.length_cons] at this
      omega

theorem skipStep_shorter (h : skipStep outer bytes = .ok (still, rest)) :
    rest.length < bytes.length := by
  have len := skipBlank_length_le bytes
  unfold skipStep at h
  split at h
  · cases h
  · next heq =>
    rw [heq, List.length_cons] at len
    split at h
    · have := skipOpened_length_le h; omega
    split at h
    · have := skipOpened_length_le h; omega
    · obtain ⟨_, h₁, h₂⟩ := exists_of_bind_eq_ok h
      have := skipScalar_length_le h₁
      have := skipAfter_length_le h₂
      omega

end

/-- Skips values until none is awaited: one value, if `outer` is empty. -/
def skipValue (outer : List Bracket) (bytes : List UInt8) : Except Fault (List UInt8) :=
  match _h : skipStep outer bytes with
  | .error e => .error e
  | .ok ([], rest) => .ok rest
  | .ok (k :: outer, rest) => skipValue (k :: outer) rest
termination_by bytes.length
decreasing_by exact skipStep_shorter _h

theorem skipValue_shorter {outer : List Bracket} {bytes rest : List UInt8}
    (h : skipValue outer bytes = .ok rest) : rest.length < bytes.length := by
  fun_induction skipValue outer bytes with
  | case1 => cases h
  | case2 _ _ _ hs => cases h; exact skipStep_shorter hs
  | case3 _ _ _ _ _ hs ih => exact Nat.lt_trans (ih h) (skipStep_shorter hs)

end KeyArbiter.Json
