import KeyArbiter.Command.Number
import KeyArbiter.Proofs.Digits
import Mathlib

/-!
# Numbers given on the command line

Which texts are a number, and what is said of the others. The grammar knows nothing of the reader,
and each of the reader's three outcomes has its exact condition.
-/

namespace KeyArbiter.Command

open Text

/-! ## Grammar -/

/-- Decimal, or hexadecimal after `0x`. A plus may come before the digits. -/
inductive Numeral : List Char → Nat → Prop
  | decimal {cs : List Char} {n : Nat} (digits : WritesNatural 10 cs n) : Numeral cs n
  | hexadecimal {x : Char} {cs : List Char} {n : Nat} (mark : x = 'x' ∨ x = 'X')
      (digits : WritesNatural 16 cs n) : Numeral ('0' :: x :: cs) n

def Blank (cs : List Char) : Prop := ∀ c ∈ cs, isBlank c = true

/-- The text is a numeral for `n` with blanks around it. -/
def Spells (text : String) (n : Nat) : Prop :=
  ∃ before numeral after, text.toList = before ++ numeral ++ after ∧ Blank before ∧ Blank after ∧
    Numeral numeral n

/-! ## Blanks -/

section Blanks

variable {n : Nat} {cs before after : List Char}

theorem solid_of_writesNatural {base : Nat} (digits : WritesNatural base cs n) :
    cs ≠ [] ∧ ∀ c ∈ cs, isBlank c = false := by
  have solid : ∀ c ∈ digitChars, isBlank c = false :=
    List.forall_iff_forall_mem.1 (by decide +kernel)
  constructor
  · rintro rfl
    rcases digits with ⟨some, -⟩ | ⟨_, eq, -⟩
    · exact some rfl
    · cases eq
  · intro c hc
    rcases digits.mem c hc with rfl | digit
    · decide
    · exact solid c digit

theorem Numeral.solid (numeral : Numeral cs n) : cs ≠ [] ∧ ∀ c ∈ cs, isBlank c = false := by
  cases numeral with
  | decimal digits => exact solid_of_writesNatural digits
  | hexadecimal mark digits =>
    refine ⟨List.cons_ne_nil _ _, List.forall_mem_cons.2 ⟨by decide, List.forall_mem_cons.2 ⟨?_, ?_⟩⟩⟩
    · rcases mark with rfl | rfl <;> decide
    · exact (solid_of_writesNatural digits).2

theorem dropBlankStart_append {c : Char} (blank : Blank before) (solid : isBlank c = false) :
    dropBlankStart (before ++ c :: cs) = c :: cs := by
  unfold dropBlankStart
  rw [List.dropWhile_append_of_pos blank, List.dropWhile_cons_of_neg (by simp [solid])]

theorem dropBlankEnd_append {c : Char} (blank : Blank after) (solid : isBlank c = false) :
    dropBlankEnd (cs ++ [c] ++ after) = cs ++ [c] := by
  have backwards : (cs ++ [c] ++ after).reverse = after.reverse ++ c :: cs.reverse := by simp
  have dropped : dropBlankStart (after.reverse ++ c :: cs.reverse) = c :: cs.reverse :=
    dropBlankStart_append (fun d hd => blank d (List.mem_reverse.1 hd)) solid
  unfold dropBlankEnd
  rw [backwards]
  exact (congrArg List.reverse dropped).trans (by simp)

theorem exists_blank_start (cs : List Char) :
    ∃ before, Blank before ∧ cs = before ++ dropBlankStart cs :=
  ⟨cs.takeWhile isBlank, fun _ hc => List.mem_takeWhile_imp hc,
    (List.takeWhile_append_dropWhile ..).symm⟩

theorem exists_blank_end (cs : List Char) :
    ∃ after, Blank after ∧ cs = dropBlankEnd cs ++ after := by
  obtain ⟨before, blank, split⟩ := exists_blank_start cs.reverse
  refine ⟨before.reverse, fun c hc => blank c (List.mem_reverse.1 hc), ?_⟩
  rw [← List.reverse_inj, split]
  simp [dropBlankEnd, dropBlankStart]

theorem spells_iff {text : String} : Spells text n ↔ Numeral (trim text).toList n := by
  simp only [trim, String.toList_ofList]
  constructor
  · rintro ⟨before, numeral, after, split, blank, blank', reads⟩
    obtain ⟨some, solid⟩ := reads.solid
    have start : dropBlankStart text.toList = numeral ++ after := by
      obtain ⟨c, more, rfl⟩ := List.exists_cons_of_ne_nil some
      rw [split, List.append_assoc, List.cons_append]
      exact dropBlankStart_append blank (solid c (List.mem_cons_self ..))
    have stop : dropBlankEnd (numeral ++ after) = numeral := by
      obtain ⟨more, c, rfl⟩ := (List.eq_nil_or_concat' numeral).resolve_left some
      exact dropBlankEnd_append blank' (solid c (by simp))
    rwa [start, stop]
  · intro reads
    obtain ⟨before, blank, start⟩ := exists_blank_start text.toList
    obtain ⟨after, blank', stop⟩ := exists_blank_end (dropBlankStart text.toList)
    refine ⟨before, _, after, ?_, blank, blank', reads⟩
    rw [List.append_assoc, ← stop]
    exact start

end Blanks

/-! ## Reading -/

section Reading

variable {max n : Nat} {cs : List Char} {text : String}

theorem readWord_eq_ok_iff : readWord cs = .ok n ↔ Numeral cs n ∧ n < UInt64.size := by
  have room : 0 < UInt64.size := by decide
  have unmarked {x : Char} {rest : List Char} (mark : x = 'x' ∨ x = 'X') :
      ¬ WritesNatural 10 ('0' :: x :: rest) n := by
    intro digits
    have := digits.mem x (by simp)
    rcases mark with rfl | rfl <;> revert this <;> decide
  have hexadecimal {x : Char} {rest : List Char} (mark : x = 'x' ∨ x = 'X') :
      Numeral ('0' :: x :: rest) n ↔ WritesNatural 16 rest n := by
    refine ⟨fun numeral => ?_, .hexadecimal mark⟩
    cases numeral with
    | decimal digits => exact absurd digits (unmarked mark)
    | hexadecimal _ digits => exact digits
  unfold readWord
  split
  · next rest => rw [readNatural_eq_ok_iff (by decide) le_rfl room, hexadecimal (.inl rfl)]
  · next rest => rw [readNatural_eq_ok_iff (by decide) le_rfl room, hexadecimal (.inr rfl)]
  · next lower upper =>
    rw [readNatural_eq_ok_iff (by decide) (by decide) room]
    refine and_congr_left' ⟨.decimal, fun numeral => ?_⟩
    cases numeral with
    | decimal digits => exact digits
    | hexadecimal mark _ =>
      rcases mark with rfl | rfl
      · exact absurd rfl (lower _)
      · exact absurd rfl (upper _)

theorem parseNumber_eq_ok_iff :
    parseNumber max text = .ok n ↔ Spells text n ∧ n < UInt64.size ∧ n ≤ max := by
  rw [← and_assoc, spells_iff, ← readWord_eq_ok_iff]
  unfold parseNumber
  cases readWord (trim text).toList with
  | error reason => exact iff_of_false nofun (fun ⟨read, _⟩ => nomatch read)
  | ok m => grind

theorem parseNumber_eq_outOfRange_iff :
    parseNumber max text = .error .outOfRange ↔
      ∃ n, Spells text n ∧ n < UInt64.size ∧ max < n := by
  simp only [← and_assoc, spells_iff, ← readWord_eq_ok_iff]
  unfold parseNumber
  cases readWord (trim text).toList with
  | error reason => simp
  | ok m => grind

theorem parseNumber_eq_malformed_iff :
    (∃ reason, parseNumber max text = .error (.malformed reason)) ↔
      ¬ ∃ n, Spells text n ∧ n < UInt64.size := by
  simp only [spells_iff, ← readWord_eq_ok_iff]
  unfold parseNumber
  cases readWord (trim text).toList with
  | error reason => simp
  | ok m => grind

end Reading

/-! ## Writing -/

section Writing

variable {before after : String}

theorem spells_decimal (blank : Blank before.toList) (blank' : Blank after.toList) (zeros n : Nat) :
    Spells (before ++ String.ofList (List.replicate zeros '0') ++ decimal n ++ after) n := by
  refine ⟨_, _, _, ?_, blank, blank',
    .decimal (.inl (writes_digitsOf (by decide) (by decide) zeros n))⟩
  simp only [decimal, String.toList_append, String.toList_ofList, List.append_assoc]

theorem toList_hex (width n : Nat) : ∃ zeros, (hex width n).toList =
    '0' :: 'x' :: (List.replicate zeros '0' ++ (digitsOf 16 n).map Nat.digitChar) := by
  refine ⟨width - 2 - ((digitsOf 16 n).map Nat.digitChar).length, ?_⟩
  rw [hex, String.toList_append]
  exact congrArg (['0', 'x'] ++ ·) String.toList_ofList

theorem spells_hex (blank : Blank before.toList) (blank' : Blank after.toList) (width n : Nat) :
    Spells (before ++ hex width n ++ after) n := by
  obtain ⟨zeros, eq⟩ := toList_hex width n
  refine ⟨_, _, _, ?_, blank, blank',
    .hexadecimal (.inl rfl) (.inl (writes_digitsOf (by decide) le_rfl zeros n))⟩
  simp only [String.toList_append, eq]

end Writing

/-! ## Types of numbers -/

/-- The types that a number is read into. -/
inductive IntegerType
  | u8
  | u16
  | u32
  | u64
  | i8
  | i64
  deriving DecidableEq, Repr

namespace IntegerType

def max : IntegerType → Nat
  | u8 => 2 ^ 8 - 1
  | u16 => 2 ^ 16 - 1
  | u32 => 2 ^ 32 - 1
  | u64 => 2 ^ 64 - 1
  | i8 => 2 ^ 7 - 1
  | i64 => 2 ^ 63 - 1

/-- The number, or what is said of the text. -/
def parse (t : IntegerType) (text : String) : Except String Nat :=
  (parseNumber t.max text).mapError (·.message text)

theorem max_lt (t : IntegerType) : t.max < UInt64.size := by cases t <;> decide

section Parse

variable {t : IntegerType} {text : String} {n : Nat}

theorem parse_eq_ok_iff : t.parse text = .ok n ↔ Spells text n ∧ n ≤ t.max := by
  have fits := t.max_lt
  have narrow : Spells text n ∧ n ≤ t.max ↔ Spells text n ∧ n < UInt64.size ∧ n ≤ t.max := by
    grind
  rw [narrow, ← parseNumber_eq_ok_iff]
  unfold parse
  cases parseNumber t.max text <;> simp [Except.mapError]

theorem message_malformed_ne (reason : NumeralError) :
    (NumberError.malformed reason).message text ≠ NumberError.outOfRange.message text := by
  have invalid : "invalid number `".toList.head? = some 'i' := by decide
  have number : "number `".toList.head? = some 'n' := by decide
  intro same
  unfold NumberError.message at same
  have first := congrArg (·.toList.head?) same
  simp only [String.toList_append, List.head?_append, invalid, number, Option.some_or] at first
  cases first

theorem parse_eq_outOfRange_iff :
    t.parse text = .error ("number `" ++ text ++ "` is out of range") ↔
      ∃ n, Spells text n ∧ t.max < n ∧ n < 2 ^ 64 := by
  have told : t.parse text = .error (NumberError.outOfRange.message text) ↔
      parseNumber t.max text = .error .outOfRange := by
    unfold parse
    rcases parseNumber t.max text with (reason | -) | n
    · simpa [Except.mapError] using message_malformed_ne reason
    · simp [Except.mapError]
    · simp [Except.mapError]
  refine told.trans (parseNumber_eq_outOfRange_iff.trans ?_)
  simp only [and_comm, UInt64.size, Nat.reducePow]

theorem parse_eq_malformed_iff :
    (∃ reason : NumeralError,
        t.parse text = .error ("invalid number `" ++ text ++ "`: " ++ reason.message)) ↔
      ¬ ∃ n, Spells text n ∧ n < 2 ^ 64 := by
  have told : (∃ reason : NumeralError,
        t.parse text = .error ("invalid number `" ++ text ++ "`: " ++ reason.message)) ↔
      ∃ reason, parseNumber t.max text = .error (.malformed reason) := by
    unfold parse
    rcases parseNumber t.max text with (reason | -) | n
    · exact iff_of_true ⟨reason, rfl⟩ ⟨reason, rfl⟩
    · refine iff_of_false (fun ⟨reason, same⟩ => ?_) (by simp)
      exact message_malformed_ne reason (Except.error.inj same).symm
    · simp [Except.mapError]
  rw [told, parseNumber_eq_malformed_iff]
  rfl

end Parse

end IntegerType

/-- A text is read just if it is a numeral that fits the type. If only a 64-bit word has room for it
that is said, and any other text is called invalid. -/
theorem numerals_parsed (t : IntegerType) (text : String) :
    (∀ n, t.parse text = .ok n ↔ Spells text n ∧ n ≤ t.max) ∧
    (t.parse text = .error ("number `" ++ text ++ "` is out of range") ↔
      ∃ n, Spells text n ∧ t.max < n ∧ n < 2 ^ 64) ∧
    ((∃ reason : NumeralError,
        t.parse text = .error ("invalid number `" ++ text ++ "`: " ++ reason.message)) ↔
      ¬ ∃ n, Spells text n ∧ n < 2 ^ 64) ∧
    ∀ n ≤ t.max, ∀ before after : String, Blank before.toList → Blank after.toList →
      (∀ zeros, t.parse (before ++ String.ofList (List.replicate zeros '0') ++ decimal n ++ after) =
        .ok n) ∧
      ∀ width, t.parse (before ++ hex width n ++ after) = .ok n :=
  ⟨fun _ => IntegerType.parse_eq_ok_iff, IntegerType.parse_eq_outOfRange_iff,
    IntegerType.parse_eq_malformed_iff, fun n fits _ _ blank blank' =>
    ⟨fun zeros => IntegerType.parse_eq_ok_iff.2 ⟨spells_decimal blank blank' zeros n, fits⟩,
      fun width => IntegerType.parse_eq_ok_iff.2 ⟨spells_hex blank blank' width n, fits⟩⟩⟩

example : IntegerType.u8.parse " 0X+0fF " = .ok 255 := by decide +kernel

end KeyArbiter.Command
