import KeyArbiter.Json.Fault

/-!
# Bytes, blanks and literals

The smallest parts of a JSON text. A reader takes the bytes still unread and gives back its value
and the bytes after it, and it always reads at least one byte.
-/

namespace KeyArbiter.Json

/-! ## Bytes with a meaning -/

def quote : UInt8 := 0x22
def backslash : UInt8 := 0x5c
def comma : UInt8 := 0x2c
def colon : UInt8 := 0x3a
def openList : UInt8 := 0x5b
def closeList : UInt8 := 0x5d
def openObject : UInt8 := 0x7b
def closeObject : UInt8 := 0x7d
def minus : UInt8 := 0x2d

def isBlank (b : UInt8) : Bool := b == 0x20 || b == 0x0a || b == 0x09 || b == 0x0d

def isDigit (b : UInt8) : Bool := 0x30 ≤ b && b ≤ 0x39

def digitOf (b : UInt8) : Nat := b.toNat - 0x30

def ascii (s : String) : List UInt8 := s.toList.map fun c => UInt8.ofNat c.toNat

def skipBlank (bytes : List UInt8) : List UInt8 := bytes.dropWhile isBlank

theorem skipBlank_length_le (bytes : List UInt8) : (skipBlank bytes).length ≤ bytes.length :=
  (List.dropWhile_suffix _).length_le

/-! ## Outcomes -/

theorem exists_of_bind_eq_ok {ε α β : Type} {x : Except ε α} {f : α → Except ε β} {b : β}
    (h : x >>= f = .ok b) : ∃ a, x = .ok a ∧ f a = .ok b := by
  cases x with
  | error => cases h
  | ok a => exact ⟨a, rfl, h⟩

theorem exists_of_map_eq_ok {ε α β : Type} {x : Except ε α} {f : α → β} {b : β}
    (h : x.map f = .ok b) : ∃ a, x = .ok a ∧ f a = b := by
  cases x with
  | error => cases h
  | ok a => cases h; exact ⟨a, rfl, rfl⟩

/-! ## Readers -/

/-- Reads a value off the front of a text. -/
structure Reader (α : Type) where
  run : List UInt8 → Except Fault (α × List UInt8)
  run_shorter : ∀ {bytes : List UInt8} {a : α} {rest : List UInt8},
    run bytes = .ok (a, rest) → rest.length < bytes.length

def Reader.map {α β : Type} (f : α → β) (r : Reader α) : Reader β where
  run bytes := match r.run bytes with
    | .ok (a, rest) => .ok (f a, rest)
    | .error e => .error e
  run_shorter h := by
    split at h
    · next hr => cases h; exact r.run_shorter hr
    · cases h

/-- Reads a value whose first byte that is not blank decides how it goes on. -/
def Reader.ofStart {α : Type} (start : UInt8 → List UInt8 → Except Fault (α × List UInt8))
    (length_le : ∀ {b : UInt8} {bytes : List UInt8} {rest : List UInt8} {a : α},
      start b bytes = .ok (a, rest) → rest.length ≤ bytes.length) : Reader α where
  run bytes := match skipBlank bytes with
    | [] => .error (.peek .eofValue [])
    | b :: rest => start b rest
  run_shorter {bytes} _ _ h := by
    have len := skipBlank_length_le bytes
    split at h
    · cases h
    · next heq =>
      rw [heq, List.length_cons] at len
      have := length_le h
      omega

/-! ## Literals -/

def literal : List UInt8 → List UInt8 → Except Fault (List UInt8)
  | [], rest => .ok rest
  | _ :: _, [] => .error (.here .eofValue [])
  | w :: ws, b :: rest =>
    if b = w then literal ws rest else .error (.here .expectedIdent rest)

theorem literal_length {word bytes rest : List UInt8} (h : literal word bytes = .ok rest) :
    rest.length + word.length = bytes.length := by
  fun_induction literal word bytes with
  | case1 => cases h; rfl
  | case2 => cases h
  | case3 w ws _ ih => simp [← ih h]; omega
  | case4 => cases h

/-- The word is read off a text that starts with it. -/
theorem literal_append (word rest : List UInt8) : literal word (word ++ rest) = .ok rest := by
  induction word with
  | nil => cases rest <;> rfl
  | cons w ws ih => simp [literal, ih]

end KeyArbiter.Json
