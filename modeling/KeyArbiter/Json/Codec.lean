import KeyArbiter.Json.Value

/-!
# Codecs

How a type is written as a JSON value and read from a JSON text. A text that does not fit is
reported with what was expected, and where.
-/

namespace KeyArbiter.Json

structure Codec (α : Type) where
  read : Reader α
  write : α → Value

namespace Codec

variable {α β : Type}

/-- Reads a text that holds one value and nothing else. -/
def decode (c : Codec α) (text : List UInt8) : Except Report α :=
  match c.read.run text with
  | .error e => .error (e.report text)
  | .ok (a, rest) =>
    match skipBlank rest with
    | [] => .ok a
    | b :: rest => .error ((Fault.peek .trailingCharacters (b :: rest)).report text)

def encode (c : Codec α) (a : α) : String := (c.write a).compact

def iso (c : Codec α) (make : α → β) (view : β → α) : Codec β where
  read := c.read.map make
  write b := c.write (view b)

end Codec

/-- Any value, with at most 127 brackets inside each other. -/
def Value.codec : Codec Value := ⟨Value.reader 127, id⟩

/-! ## What stands there instead -/

/-- The fault of a value that starts with `b`, where `expected` was wanted. Anything but a list or
an object is read first. -/
def mismatch (expected : String) (b : UInt8) (rest : List UInt8) : Fault :=
  let instead (found : Found) : Except Fault (List UInt8) → Fault
    | .ok rest => .here (.invalidType found expected) rest
    | .error e => e
  let insteadNumber : Except Fault (Number × List UInt8) → Fault
    | .ok (.whole n, rest) => .here (.invalidType (.integer n) expected) rest
    | .ok (.float x, rest) => .here (.invalidType (.float x) expected) rest
    | .error e => e
  if b = 0x6e then instead .null (literal (ascii "ull") rest)
  else if b = 0x74 then instead (.flag true) (literal (ascii "rue") rest)
  else if b = 0x66 then instead (.flag false) (literal (ascii "alse") rest)
  else if b = minus then insteadNumber (readNumber true rest)
  else if isDigit b then insteadNumber (readNumber false (b :: rest))
  else if b = quote then
    match readText rest with
    | .ok (s, rest) => .here (.invalidType (.text s) expected) rest
    | .error e => e
  else if b = openList then .here (.invalidType .list expected) (b :: rest)
  else if b = openObject then .here (.invalidType .object expected) (b :: rest)
  else .peek .expectedValue (b :: rest)

/-! ## Scalars -/

/-- A number as a word below `limit`. -/
def asWord (limit : Nat) (expected : String) :
    Number × List UInt8 → Except Fault (Nat × List UInt8)
  | (.whole n, rest) =>
    if 0 ≤ n ∧ n < limit then .ok (n.toNat, rest)
    else .error (.here (.invalidValue n expected) rest)
  | (.float x, rest) => .error (.here (.invalidType (.float x) expected) rest)

def readWord (limit : Nat) (expected : String) (b : UInt8) (rest : List UInt8) :
    Except Fault (Nat × List UInt8) :=
  if b = minus then readNumber true rest >>= asWord limit expected
  else if isDigit b then readNumber false (b :: rest) >>= asWord limit expected
  else .error (mismatch expected b rest)

theorem asWord_rest {limit n : Nat} {expected : String} {v : Number} {bytes rest : List UInt8}
    (h : asWord limit expected (v, bytes) = .ok (n, rest)) : rest = bytes := by
  cases v with
  | whole => simp only [asWord] at h; split at h <;> cases h; rfl
  | float => cases h

theorem readWord_length_le {limit n : Nat} {expected : String} {b : UInt8}
    {bytes rest : List UInt8} (h : readWord limit expected b bytes = .ok (n, rest)) :
    rest.length ≤ bytes.length := by
  unfold readWord at h
  split at h
  · obtain ⟨⟨v, middle⟩, h₁, h₂⟩ := exists_of_bind_eq_ok h
    rw [asWord_rest h₂]
    exact Nat.le_of_lt (readNumber_shorter h₁)
  split at h
  · obtain ⟨⟨v, middle⟩, h₁, h₂⟩ := exists_of_bind_eq_ok h
    rw [asWord_rest h₂]
    exact Nat.le_of_lt_succ (readNumber_shorter h₁)
  · cases h

def readFlag (b : UInt8) (rest : List UInt8) : Except Fault (Bool × List UInt8) :=
  if b = 0x74 then (literal (ascii "rue") rest).map ((true, ·))
  else if b = 0x66 then (literal (ascii "alse") rest).map ((false, ·))
  else .error (mismatch "a boolean" b rest)

theorem readFlag_length_le {b v : _} {bytes rest : List UInt8}
    (h : readFlag b bytes = .ok (v, rest)) : rest.length ≤ bytes.length := by
  unfold readFlag at h
  split at h
  · obtain ⟨_, h₁, h₂⟩ := exists_of_map_eq_ok h; cases h₂; exact literal_length_le h₁
  split at h
  · obtain ⟨_, h₁, h₂⟩ := exists_of_map_eq_ok h; cases h₂; exact literal_length_le h₁
  · cases h

def readTextAs (expected : String) (b : UInt8) (rest : List UInt8) :
    Except Fault (String × List UInt8) :=
  if b = quote then readText rest else .error (mismatch expected b rest)

theorem readTextAs_length_le {expected s : String} {b : UInt8} {bytes rest : List UInt8}
    (h : readTextAs expected b bytes = .ok (s, rest)) : rest.length ≤ bytes.length := by
  unfold readTextAs at h
  split at h
  · exact Nat.le_of_lt (readText_shorter h)
  · cases h

def readNull (b : UInt8) (rest : List UInt8) : Except Fault (Unit × List UInt8) :=
  if b = 0x6e then (literal (ascii "ull") rest).map (((), ·))
  else .error (mismatch "unit" b rest)

theorem readNull_length_le {b : UInt8} {u : Unit} {bytes rest : List UInt8}
    (h : readNull b bytes = .ok (u, rest)) : rest.length ≤ bytes.length := by
  unfold readNull at h
  split at h
  · obtain ⟨_, h₁, h₂⟩ := exists_of_map_eq_ok h; cases h₂; exact literal_length_le h₁
  · cases h

def readOptional {α : Type} (r : Reader α) (bytes : List UInt8) :
    Except Fault (Option α × List UInt8) :=
  match skipBlank bytes with
  | b :: rest =>
    if b = 0x6e then (literal (ascii "ull") rest).map ((none, ·))
    else (r.map some).run bytes
  | [] => (r.map some).run bytes

theorem readOptional_shorter {α : Type} {r : Reader α} {bytes rest : List UInt8} {o : Option α}
    (h : readOptional r bytes = .ok (o, rest)) : rest.length < bytes.length := by
  have len := skipBlank_length_le bytes
  unfold readOptional at h
  split at h
  · next heq =>
    rw [heq, List.length_cons] at len
    split at h
    · obtain ⟨_, h₁, h₂⟩ := exists_of_map_eq_ok h
      cases h₂
      have := literal_length_le h₁
      omega
    · exact (r.map some).run_shorter h
  · exact (r.map some).run_shorter h

namespace Codec

variable {α : Type}

def natural (limit : Nat) (expected : String) : Codec Nat where
  read := .ofStart (readWord limit expected) readWord_length_le
  write n := .natural n

def word8 : Codec UInt8 := (natural UInt8.size "u8").iso .ofNat UInt8.toNat
def word16 : Codec UInt16 := (natural UInt16.size "u16").iso .ofNat UInt16.toNat
def word32 : Codec UInt32 := (natural UInt32.size "u32").iso .ofNat UInt32.toNat
def word64 : Codec UInt64 := (natural UInt64.size "u64").iso .ofNat UInt64.toNat

def flag : Codec Bool where
  read := .ofStart readFlag readFlag_length_le
  write b := .flag b

def text : Codec String where
  read := .ofStart (readTextAs "a string") readTextAs_length_le
  write s := .text s

/-- Null, for a type of one value. -/
def null : Codec Unit where
  read := .ofStart readNull readNull_length_le
  write _ := .null

def optional (c : Codec α) : Codec (Option α) where
  read := ⟨readOptional c.read, readOptional_shorter⟩
  write o := o.elim .null c.write

end Codec

/-! ## Lists -/

def readList {α : Type} (r : Reader α) (b : UInt8) (rest : List UInt8) :
    Except Fault (List α × List UInt8) :=
  if b = openList then
    match readItems r true rest with
    | .ok (as, rest) => (endList rest).map ((as, ·))
    | .error e => .error (e.settle abandonList)
  else .error (mismatch "a sequence" b rest)

theorem readList_length_le {α : Type} {r : Reader α} {b : UInt8} {as : List α}
    {bytes rest : List UInt8} (h : readList r b bytes = .ok (as, rest)) :
    rest.length ≤ bytes.length := by
  unfold readList at h
  split at h
  · split at h
    · next hi =>
      obtain ⟨_, h₁, h₂⟩ := exists_of_map_eq_ok h
      cases h₂
      have := readItems_length_le hi
      have := endList_shorter h₁
      omega
    · cases h
  · cases h

def Codec.list {α : Type} (c : Codec α) : Codec (List α) where
  read := .ofStart (readList c.read) readList_length_le
  write as := .list (as.map c.write)

end KeyArbiter.Json
