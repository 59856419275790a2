import KeyArbiter.Json.Codec

/-!
# Records

A record is written as an object with its members in order. It is read from an object with its
members in any order and others between them, or from a list of its values.
-/

namespace KeyArbiter.Json

structure Member where
  name : String
  Val : Type
  codec : Codec Val
  /-- What an object without the member stands for, if it may lack it. -/
  absent : Option Val
  /-- What a list that ends before the member stands for, if it may. -/
  short : Option Val
  /-- The values that are left out when written. -/
  omitted : Val → Bool

namespace Member

def required (name : String) {α : Type} (codec : Codec α) : Member :=
  ⟨name, α, codec, none, none, fun _ => false⟩

def withDefault (name : String) {α : Type} (codec : Codec α) (a : α) : Member :=
  ⟨name, α, codec, some a, some a, fun _ => false⟩

/-- A member that an object may lack, and a list may not. -/
def optional (name : String) {α : Type} (codec : Codec α) : Member :=
  ⟨name, Option α, codec.optional, some none, none, fun _ => false⟩

/-- A member that is only written where there is one. -/
def unlessNone (name : String) {α : Type} (codec : Codec α) : Member :=
  ⟨name, Option α, codec.optional, some none, some none, Option.isNone⟩

end Member

def Row : List Member → Type
  | [] => Unit
  | m :: ms => m.Val × Row ms

def Draft : List Member → Type
  | [] => Unit
  | m :: ms => Option m.Val × Draft ms

def Draft.empty : (ms : List Member) → Draft ms
  | [] => ()
  | _ :: ms => (none, empty ms)

/-! ## Writing -/

def Row.members : (ms : List Member) → Row ms → List (String × Value)
  | [], _ => []
  | m :: ms, (v, row) =>
    if m.omitted v then members ms row else (m.name, m.codec.write v) :: members ms row

/-! ## Reading an object -/

def readMember (m : Member) (bytes : List UInt8) : Except Fault (m.Val × List UInt8) :=
  match skipColon bytes with
  | .ok rest => m.codec.read.run rest
  | .error e => .error e

theorem readMember_shorter {m : Member} {v : m.Val} {bytes rest : List UInt8}
    (h : readMember m bytes = .ok (v, rest)) : rest.length < bytes.length := by
  unfold readMember at h
  split at h
  · next hc => exact Nat.lt_trans (m.codec.read.run_shorter h) (skipColon_shorter hc)
  · cases h

/-- Skips the value after the name of no member. -/
def skipMember (bytes : List UInt8) : Except Fault (List UInt8) :=
  match skipColon bytes with
  | .ok rest => skipValue [] rest
  | .error e => .error e

theorem skipMember_shorter {bytes rest : List UInt8} (h : skipMember bytes = .ok rest) :
    rest.length < bytes.length := by
  unfold skipMember at h
  split at h
  · next hc => exact Nat.lt_trans (skipValue_shorter h) (skipColon_shorter hc)
  · cases h

namespace Draft

/-- Takes in the member of this name. The place of one that was there before is not settled yet. -/
def take : (ms : List Member) → String → Draft ms → List UInt8 →
    Except Fault (Draft ms × List UInt8)
  | [], _, _, bytes => (skipMember bytes).map (((), ·))
  | m :: ms, name, (v, draft), bytes =>
    if name = m.name then
      match v with
      | some _ => .error ⟨.duplicateField m.name, .unsettled bytes⟩
      | none => (readMember m bytes).map fun (v, rest) => ((some v, draft), rest)
    else (take ms name draft bytes).map fun (draft, rest) => ((v, draft), rest)

theorem take_shorter {ms : List Member} {name : String} {draft draft' : Draft ms}
    {bytes rest : List UInt8} (h : take ms name draft bytes = .ok (draft', rest)) :
    rest.length < bytes.length := by
  induction ms with
  | nil =>
    obtain ⟨_, h₁, h₂⟩ := exists_of_map_eq_ok h
    cases h₂
    exact skipMember_shorter h₁
  | cons m ms ih =>
    obtain ⟨v, draft⟩ := draft
    simp only [take] at h
    split at h
    · split at h
      · cases h
      · obtain ⟨⟨_, _⟩, h₁, h₂⟩ := exists_of_map_eq_ok h
        cases h₂
        exact readMember_shorter h₁
    · obtain ⟨⟨_, _⟩, h₁, h₂⟩ := exists_of_map_eq_ok h
      cases h₂
      exact ih h₁

def reader (ms : List Member) : MemberReader (Draft ms) := ⟨take ms, take_shorter⟩

/-- The row, once all is read, or the first name that is missing. -/
def finish : (ms : List Member) → Draft ms → Except String (Row ms)
  | [], _ => .ok ()
  | m :: ms, (v, draft) =>
    match v <|> m.absent with
    | some v => (finish ms draft).map ((v, ·))
    | none => .error m.name

end Draft

/-- Reads the members of an object and its closing bracket. -/
def readObjectRow (ms : List Member) (bytes : List UInt8) : Except Fault (Row ms × List UInt8) :=
  match readMembers (Draft.reader ms) true (Draft.empty ms) bytes with
  | .error e => .error (e.settle abandonObject)
  | .ok (draft, rest) =>
    match Draft.finish ms draft with
    | .error name => .error (.here (.missingField name) (abandonObject rest))
    | .ok row => (endObject rest).map ((row, ·))

/-! ## Reading a list -/

/-- Reads the values of a list from the `index`-th on. -/
def Row.read (tooShort : Nat → Cause) : (ms : List Member) → (index : Nat) → List UInt8 →
    Except Fault (Row ms × List UInt8)
  | [], _, bytes => .ok ((), bytes)
  | m :: ms, index, bytes =>
    match nextItem (index == 0) bytes with
    | .error e => .error e
    | .ok (true, start) =>
      match m.codec.read.run start with
      | .error e => .error e
      | .ok (v, rest) => (Row.read tooShort ms (index + 1) rest).map fun (row, rest) => ((v, row), rest)
    | .ok (false, rest) =>
      match m.short with
      | none => .error ⟨tooShort index, .unsettled rest⟩
      | some v => (Row.read tooShort ms (index + 1) rest).map fun (row, rest) => ((v, row), rest)

theorem Row.read_length_le {tooShort : Nat → Cause} {ms : List Member} {index : Nat}
    {row : Row ms} {bytes rest : List UInt8}
    (h : Row.read tooShort ms index bytes = .ok (row, rest)) : rest.length ≤ bytes.length := by
  induction ms generalizing index bytes with
  | nil => cases h; exact Nat.le_refl _
  | cons m ms ih =>
    simp only [Row.read] at h
    split at h
    · cases h
    · next hn =>
      split at h
      · cases h
      · next hr =>
        obtain ⟨⟨_, _⟩, h₁, h₂⟩ := exists_of_map_eq_ok h
        cases h₂
        have := ih h₁
        have := m.codec.read.run_shorter hr
        have := nextItem_length_le hn
        omega
    · next hn =>
      split at h
      · cases h
      · obtain ⟨⟨_, _⟩, h₁, h₂⟩ := exists_of_map_eq_ok h
        cases h₂
        exact Nat.le_trans (ih h₁) (nextItem_length_le hn)

def counted (n : Nat) (noun : String) : String :=
  KeyArbiter.Text.decimal n ++ " " ++ noun ++ (if n = 1 then "" else "s")

/-- Reads the values of a list and its closing bracket. -/
def readListRow (label : String) (ms : List Member) (bytes : List UInt8) :
    Except Fault (Row ms × List UInt8) :=
  let tooShort (index : Nat) : Cause :=
    .invalidLength index (label ++ " with " ++ counted ms.length "element")
  match Row.read tooShort ms 0 bytes with
  | .error e => .error (e.settle abandonList)
  | .ok (row, rest) => (endList rest).map ((row, ·))

/-! ## The codec -/

def readRow (label : String) (ms : List Member) (b : UInt8) (rest : List UInt8) :
    Except Fault (Row ms × List UInt8) :=
  if b = openObject then readObjectRow ms rest
  else if b = openList then readListRow label ms rest
  else .error (mismatch label b rest)

theorem readRow_length_le {label : String} {ms : List Member} {b : UInt8} {row : Row ms}
    {bytes rest : List UInt8} (h : readRow label ms b bytes = .ok (row, rest)) :
    rest.length ≤ bytes.length := by
  unfold readRow at h
  split at h
  · unfold readObjectRow at h
    split at h
    · cases h
    · next hm =>
      split at h
      · cases h
      · obtain ⟨_, h₁, h₂⟩ := exists_of_map_eq_ok h
        cases h₂
        have := readMembers_length_le hm
        have := endObject_shorter h₁
        omega
  split at h
  · unfold readListRow at h
    simp only at h
    split at h
    · cases h
    · next hm =>
      obtain ⟨_, h₁, h₂⟩ := exists_of_map_eq_ok h
      cases h₂
      have := Row.read_length_le hm
      have := endList_shorter h₁
      omega
  · cases h

namespace Codec

/-- The record with these members, which a report calls `label`. -/
def row (label : String) (ms : List Member) : Codec (Row ms) where
  read := .ofStart (readRow label ms) readRow_length_le
  write row := .object (Row.members ms row)

/-- A type that is made of a record and seen as one. -/
def record {α : Type} (label : String) (ms : List Member) (make : Row ms → α) (view : α → Row ms) :
    Codec α :=
  (row label ms).iso make view

end Codec

end KeyArbiter.Json
