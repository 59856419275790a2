import KeyArbiter.Json.Scan

/-!
# Texts

Reading and writing JSON strings. The reader is a machine over single bytes: the text ends at the
first quote that no escape takes.
-/

namespace KeyArbiter.Json

/-! ## Escapes -/

def isHighSurrogate (n : Nat) : Bool := 0xd800 ≤ n && n ≤ 0xdbff

def isLowSurrogate (n : Nat) : Bool := 0xdc00 ≤ n && n ≤ 0xdfff

def pairOf (high low : Nat) : Nat := 0x10000 + (high - 0xd800) * 0x400 + (low - 0xdc00)

def charBytes (n : Nat) : List UInt8 := String.utf8EncodeChar (Char.ofNat n)

/-- What a letter after a backslash stands for. -/
def shortEscape (b : UInt8) : Option UInt8 :=
  if b = quote ∨ b = backslash ∨ b = 0x2f then some b
  else if b = 0x62 then some 0x08
  else if b = 0x66 then some 0x0c
  else if b = 0x6e then some 0x0a
  else if b = 0x72 then some 0x0d
  else if b = 0x74 then some 0x09
  else none

/-- The number that hex digits write, in either case. -/
def hexValue : List UInt8 → Option Nat :=
  List.foldl (fun acc b => do
    return (← acc) * 16 + (← Text.digitValue 16 (Char.ofNat b.toNat))) (some 0)

/-! ## Reading -/

/-- Where the machine stands inside a text. -/
inductive TextMode
  | plain
  | escape
  /-- In the digits of a `\u` escape, up to three of them seen; `high` waits for its other half. -/
  | hex (high : Option Nat) (seen : List UInt8)
  /-- After a first half: the backslash of the second. -/
  | secondBackslash (high : Nat)
  /-- After that: its `u`. -/
  | secondLetter (high : Nat)

/-- Puts bytes in front of what is read next. -/
def emit (bs : List UInt8) :
    Except Fault (List UInt8 × List UInt8) → Except Fault (List UInt8 × List UInt8)
  | .ok (text, rest) => .ok (bs ++ text, rest)
  | .error e => .error e

/-- The bytes of a text up to its closing quote, escapes undone, and the bytes after the quote. -/
def textBytes : TextMode → List UInt8 → Except Fault (List UInt8 × List UInt8)
  | _, [] => .error (.here .eofText [])
  | .plain, b :: rest =>
    if b = quote then .ok ([], rest)
    else if b = backslash then textBytes .escape rest
    else if b < 0x20 then .error (.here .controlCharacter rest)
    else emit [b] (textBytes .plain rest)
  | .escape, b :: rest =>
    if b = 0x75 then textBytes (.hex none []) rest
    else match shortEscape b with
      | some c => emit [c] (textBytes .plain rest)
      | none => .error (.here .invalidEscape rest)
  | .hex high seen, b :: rest =>
    if seen.length < 3 then textBytes (.hex high (seen ++ [b])) rest
    else match hexValue (seen ++ [b]), high with
      | none, _ => .error (.here .invalidEscape rest)
      | some n, none =>
        if isLowSurrogate n then .error (.here .loneSurrogate rest)
        else if isHighSurrogate n then textBytes (.secondBackslash n) rest
        else emit (charBytes n) (textBytes .plain rest)
      | some n, some h =>
        if isLowSurrogate n then emit (charBytes (pairOf h n)) (textBytes .plain rest)
        else .error (.here .loneSurrogate rest)
  | .secondBackslash h, b :: rest =>
    if b = backslash then textBytes (.secondLetter h) rest
    else .error (.here .unexpectedEndOfHexEscape rest)
  | .secondLetter h, b :: rest =>
    if b = 0x75 then textBytes (.hex (some h) []) rest
    else .error (.here .unexpectedEndOfHexEscape rest)

def ofUtf8? (bytes : List UInt8) : Option String := String.fromUTF8? ⟨bytes.toArray⟩

/-- The length of the longest prefix that is UTF-8. A character has at most four bytes; those of
one that is not complete yet are in `begun`. -/
def utf8Length (begun : List UInt8) : List UInt8 → Nat
  | [] => 0
  | b :: rest =>
    let char := begun ++ [b]
    if (ofUtf8? char).isSome then char.length + utf8Length [] rest
    else if char.length < 4 then utf8Length char rest
    else 0

example : utf8Length [] [0x61, 0xc3, 0xa9, 0xe2, 0x82, 0x61] = 3 := by decide +kernel

/-- Reads a text after its opening quote. A text that is not UTF-8 is faulted as many bytes before
its end as it has from its first bad one on. -/
def readText (bytes : List UInt8) : Except Fault (String × List UInt8) := do
  let (text, rest) ← textBytes .plain bytes
  match ofUtf8? text with
  | some s => .ok (s, rest)
  | none => .error ⟨.invalidCodePoint, .known (rest.length + (text.length - utf8Length [] text))⟩

theorem of_emit_eq_ok {bs text rest : List UInt8} {r : Except Fault (List UInt8 × List UInt8)}
    (h : emit bs r = .ok (text, rest)) : ∃ t, r = .ok (t, rest) := by
  match r, h with
  | .ok (t, _), h => cases h; exact ⟨t, rfl⟩

theorem textBytes_shorter {mode : TextMode} {bytes text rest : List UInt8}
    (h : textBytes mode bytes = .ok (text, rest)) : rest.length < bytes.length := by
  fun_induction textBytes mode bytes generalizing text rest
  all_goals first
    | cases h; done
    | (cases h; simp)
    | (rename_i ih; obtain ⟨t, h⟩ := of_emit_eq_ok h; have := ih h; simp; omega)
    | (rename_i ih; have := ih h; simp; omega)

theorem readText_shorter {bytes : List UInt8} {s : String} {rest : List UInt8}
    (h : readText bytes = .ok (s, rest)) : rest.length < bytes.length := by
  unfold readText at h
  match hb : textBytes .plain bytes with
  | .error e => rw [hb] at h; cases h
  | .ok (text, r) =>
    rw [hb] at h
    simp only [bind, Except.bind] at h
    split at h
    · cases h; exact textBytes_shorter hb
    · cases h

/-! ## Skipping -/

/-- Where the machine stands inside a text that nobody wants. -/
inductive SkipMode
  | plain
  | escape
  /-- In the digits of a `\u` escape. -/
  | hex (seen : List UInt8)

/-- The bytes after a text. Only its form is looked at: halves of surrogate pairs may stand alone,
and its bytes need not be UTF-8. -/
def skipText : SkipMode → List UInt8 → Except Fault (List UInt8)
  | _, [] => .error (.here .eofText [])
  | .plain, b :: rest =>
    if b = quote then .ok rest
    else if b = backslash then skipText .escape rest
    else if b < 0x20 then .error (.here .controlCharacter (b :: rest))
    else skipText .plain rest
  | .escape, b :: rest =>
    if b = 0x75 then skipText (.hex []) rest
    else if (shortEscape b).isSome then skipText .plain rest
    else .error (.here .invalidEscape rest)
  | .hex seen, b :: rest =>
    if seen.length < 3 then skipText (.hex (seen ++ [b])) rest
    else if (hexValue (seen ++ [b])).isSome then skipText .plain rest
    else .error (.here .invalidEscape rest)

theorem skipText_shorter {mode : SkipMode} {bytes rest : List UInt8}
    (h : skipText mode bytes = .ok rest) : rest.length < bytes.length := by
  fun_induction skipText mode bytes
  all_goals first
    | cases h; done
    | (cases h; simp)
    | (rename_i ih; have := ih h; simp; omega)

/-! ## Writing -/

def escapeChar (c : Char) : List Char :=
  match c with
  | '"' => ['\\', '"']
  | '\\' => ['\\', '\\']
  | '\n' => ['\\', 'n']
  | '\r' => ['\\', 'r']
  | '\t' => ['\\', 't']
  | c =>
    if c.toNat = 0x08 then ['\\', 'b']
    else if c.toNat = 0x0c then ['\\', 'f']
    else if c.toNat < 0x20 then
      ['\\', 'u', '0', '0', Nat.digitChar (c.toNat / 16), Nat.digitChar (c.toNat % 16)]
    else [c]

def writeText (s : String) : String := String.ofList ('"' :: s.toList.flatMap escapeChar ++ ['"'])

def utf8 (s : String) : List UInt8 := s.toList.flatMap String.utf8EncodeChar

end KeyArbiter.Json
