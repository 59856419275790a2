import KeyArbiter.Json.Number
import KeyArbiter.Json.Sequence

/-!
# Values

Any JSON value, how it is written on one line or on many, and how it is read.
-/

namespace KeyArbiter.Json

inductive Value
  | null
  | flag (b : Bool)
  | number (n : Number)
  | text (s : String)
  | list (items : List Value)
  | object (members : List (String × Value))
  deriving Inhabited

namespace Value

def integer (n : Int) : Value := .number (.whole n)

def natural (n : Nat) : Value := integer n

end Value

def Number.text : Number → String
  | .whole n => KeyArbiter.Text.signedDecimal n
  | .float x => x.text

def flagText (b : Bool) : String := if b then "true" else "false"

/-! ## Writing -/

namespace Value

mutual

/-- The characters of a value, without any blank. -/
def chars : Value → List Char
  | .null => "null".toList
  | .flag b => (flagText b).toList
  | .number n => n.text.toList
  | .text s => (writeText s).toList
  | .list items => '[' :: itemChars items ++ [']']
  | .object members => '{' :: memberChars members ++ ['}']

def itemChars : List Value → List Char
  | [] => []
  | [v] => v.chars
  | v :: vs => v.chars ++ ',' :: itemChars vs

def memberChars : List (String × Value) → List Char
  | [] => []
  | [(name, v)] => (writeText name).toList ++ ':' :: v.chars
  | (name, v) :: ms => (writeText name).toList ++ ':' :: v.chars ++ ',' :: memberChars ms

end

def compact (v : Value) : String := String.ofList v.chars

/-- A new line, and two blanks for each level. -/
def newLine (level : Nat) : List Char := '\n' :: List.replicate (2 * level) ' '

mutual

/-- The characters of a value at this level of indentation. Each item and each member has a line of
its own. -/
def lines (level : Nat) : Value → List Char
  | .list [] => ['[', ']']
  | .list (v :: vs) => '[' :: itemLines (level + 1) (v :: vs) ++ newLine level ++ [']']
  | .object [] => ['{', '}']
  | .object (m :: ms) => '{' :: memberLines (level + 1) (m :: ms) ++ newLine level ++ ['}']
  | v => v.chars

def itemLines (level : Nat) : List Value → List Char
  | [] => []
  | [v] => newLine level ++ v.lines level
  | v :: vs => newLine level ++ v.lines level ++ ',' :: itemLines level vs

def memberLines (level : Nat) : List (String × Value) → List Char
  | [] => []
  | [(name, v)] => newLine level ++ (writeText name).toList ++ ':' :: ' ' :: v.lines level
  | (name, v) :: ms =>
    newLine level ++ (writeText name).toList ++ ':' :: ' ' :: v.lines level
      ++ ',' :: memberLines level ms

end

/-- A value on many lines, two blanks deeper for each level. -/
def pretty (v : Value) : String := String.ofList (v.lines 0)

end Value

/-! ## Reading -/

/-- Puts a member where its name belongs, in place of an earlier one of that name. -/
def insertMember (name : String) (v : Value) : List (String × Value) → List (String × Value)
  | [] => [(name, v)]
  | (other, w) :: rest =>
    if name = other then (name, v) :: rest
    else if name < other then (name, v) :: (other, w) :: rest
    else (other, w) :: insertMember name v rest

/-- Takes in a member with a value that `r` reads. -/
def takeMember (r : Reader Value) : MemberReader (List (String × Value)) where
  run name members bytes :=
    match skipColon bytes with
    | .error e => .error e
    | .ok rest => match r.run rest with
      | .error e => .error e
      | .ok (v, rest) => .ok (insertMember name v members, rest)
  run_shorter h := by
    split at h
    · cases h
    · next hc =>
      split at h
      · cases h
      · next hr => cases h; exact Nat.lt_trans (r.run_shorter hr) (skipColon_shorter hc)

/-- Reads a value off bytes that are not blank. In lists and objects, `r` reads what is inside. -/
def readValue (r : Option (Reader Value)) (b : UInt8) (rest : List UInt8) :
    Except Fault (Value × List UInt8) :=
  if b = 0x6e then (literal (ascii "ull") rest).map ((.null, ·))
  else if b = 0x74 then (literal (ascii "rue") rest).map ((.flag true, ·))
  else if b = 0x66 then (literal (ascii "alse") rest).map ((.flag false, ·))
  else if b = minus then (readNumber true rest).map fun (n, rest) => (.number n, rest)
  else if isDigit b then (readNumber false (b :: rest)).map fun (n, rest) => (.number n, rest)
  else if b = quote then (readText rest).map fun (s, rest) => (.text s, rest)
  else if b = openList then
    match r with
    | none => .error (.peek .tooDeep (b :: rest))
    | some r => do
      let (items, rest) ← readItems r true rest
      return (.list items, ← endList rest)
  else if b = openObject then
    match r with
    | none => .error (.peek .tooDeep (b :: rest))
    | some r => do
      let (members, rest) ← readMembers (takeMember r) true [] rest
      return (.object members, ← endObject rest)
  else .error (.peek .expectedValue (b :: rest))

theorem readValue_length_le {r : Option (Reader Value)} {b : UInt8} {bytes rest : List UInt8}
    {v : Value} (h : readValue r b bytes = .ok (v, rest)) : rest.length ≤ bytes.length := by
  unfold readValue at h
  split at h
  · obtain ⟨_, h₁, h₂⟩ := exists_of_map_eq_ok h; cases h₂; exact literal_length_le h₁
  split at h
  · obtain ⟨_, h₁, h₂⟩ := exists_of_map_eq_ok h; cases h₂; exact literal_length_le h₁
  split at h
  · obtain ⟨_, h₁, h₂⟩ := exists_of_map_eq_ok h; cases h₂; exact literal_length_le h₁
  split at h
  · obtain ⟨_, h₁, h₂⟩ := exists_of_map_eq_ok h; cases h₂; exact Nat.le_of_lt (readNumber_shorter h₁)
  split at h
  · obtain ⟨_, h₁, h₂⟩ := exists_of_map_eq_ok h; cases h₂
    exact Nat.le_of_lt_succ (readNumber_shorter h₁)
  split at h
  · obtain ⟨_, h₁, h₂⟩ := exists_of_map_eq_ok h; cases h₂; exact Nat.le_of_lt (readText_shorter h₁)
  split at h
  · split at h
    · cases h
    · obtain ⟨_, h₁, h⟩ := exists_of_bind_eq_ok h
      obtain ⟨_, h₂, h⟩ := exists_of_bind_eq_ok h
      cases h
      have := readItems_length_le h₁
      have := endList_shorter h₂
      omega
  split at h
  · split at h
    · cases h
    · obtain ⟨_, h₁, h⟩ := exists_of_bind_eq_ok h
      obtain ⟨_, h₂, h⟩ := exists_of_bind_eq_ok h
      cases h
      have := readMembers_length_le h₁
      have := endObject_shorter h₂
      omega
  · cases h

/-- Reads a value with at most so many brackets inside each other. Members come out sorted by name,
the last of each name. -/
def Value.reader : Nat → Reader Value
  | 0 => .ofStart (readValue none) readValue_length_le
  | depth + 1 => .ofStart (readValue (some (reader depth))) readValue_length_le

end KeyArbiter.Json
