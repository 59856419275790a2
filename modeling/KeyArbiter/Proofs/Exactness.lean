import KeyArbiter.Json.Record
import KeyArbiter.Proofs.Spelling
import Mathlib

/-!
# What a codec reads off a value

Given the bytes of a value, a codec reads the same off them wherever they stand, and what that is can
be told from how the value is spelled: a numeral, a literal, or a text in quotes. Anything else that
JSON has is rejected.
-/

namespace KeyArbiter.Json

variable {α β : Type} {v ws rest : List UInt8}

/-! ## Values by their first byte -/

inductive StartForm : UInt8 → List UInt8 → Prop
  | null : StartForm 0x6e (ascii "ull")
  | yes : StartForm 0x74 (ascii "rue")
  | no : StartForm 0x66 (ascii "alse")
  | negative {more : List UInt8} : StartForm minus more
  | digit {d : UInt8} {more ds fraction power : List UInt8} (digit : isDigit d = true)
    (isWhole : WholeForm ds) (isFraction : FractionForm fraction) (isPower : PowerForm power)
    (split : d :: more = ds ++ (fraction ++ power)) : StartForm d more
  | text {body : List UInt8} (text : TextForm body) : StartForm quote (body ++ [quote])
  | bracket (k : Bracket) {more : List UInt8} : StartForm k.opening more

theorem Form.start (form : Form .value v) :
    ∃ b more, v = b :: more ∧ isBlank b = false ∧ StartForm b more := by
  obtain ⟨b, more, rfl, solid, -⟩ := form.exists_cons
  refine ⟨b, more, rfl, solid, ?_⟩
  generalize eq : b :: more = v at form
  cases form with
  | null => cases eq; exact .null
  | flag b => cases b <;> cases eq <;> constructor
  | number number =>
    obtain ⟨rfl | rfl, isWhole, isFraction, isPower⟩ := number
    · obtain ⟨d, ds, rfl, digit⟩ := isWhole.exists_cons
      obtain ⟨rfl, -⟩ := List.cons_eq_cons.1 eq
      exact .digit digit isWhole isFraction isPower eq
    · cases eq; exact .negative
  | text text => cases eq; exact .text text
  | empty k => cases eq; exact .bracket k
  | filled => cases eq; exact .bracket _

theorem StartForm.of_first {b : UInt8} {more : List UInt8} (starts : StartForm b more) :
    (b = 0x6e → more = ascii "ull") ∧ (b = 0x74 → more = ascii "rue") ∧
      (b = 0x66 → more = ascii "alse") ∧
      (b = quote → ∃ body, TextForm body ∧ more = body ++ [quote]) := by
  have other : ∀ d : UInt8, isDigit d = true →
      d ≠ 0x6e ∧ d ≠ 0x74 ∧ d ≠ 0x66 ∧ d ≠ quote := by decide +kernel
  cases starts with
  | null => exact ⟨fun _ => rfl, nofun, nofun, nofun⟩
  | yes => exact ⟨nofun, fun _ => rfl, nofun, nofun⟩
  | no => exact ⟨nofun, nofun, fun _ => rfl, nofun⟩
  | negative => exact ⟨nofun, nofun, nofun, nofun⟩
  | digit digit =>
    obtain ⟨null, yes, no, text⟩ := other b digit
    exact ⟨fun eq => absurd eq null, fun eq => absurd eq yes, fun eq => absurd eq no,
      fun eq => absurd eq text⟩
  | text text => exact ⟨nofun, nofun, nofun, fun _ => ⟨_, text, rfl⟩⟩
  | bracket k => cases k <;> exact ⟨nofun, nofun, nofun, nofun⟩

/-! ## Codecs -/

/-- What the codec reads off the value is what `P` says, wherever the value stands. -/
def Codec.ReadsAs (c : Codec α) (v : List UInt8) (P : α → Prop) : Prop :=
  ∀ ⦃ws rest more : List UInt8⦄ ⦃a : α⦄, Blank ws → EndsNumber rest →
    (c.read.run (ws ++ (v ++ rest)) = .ok (a, more) ↔ P a ∧ more = rest)

def Codec.Spelled (c : Codec α) (S : List UInt8 → α → Prop) : Prop :=
  ∀ v, Form .value v → c.ReadsAs v (S v)

def Codec.Alone (c : Codec α) (v : List UInt8) (a : α) : Prop := c.read.run v = .ok (a, [])

/-- Where a value stands makes no difference to the codec. -/
def Codec.Exact (c : Codec α) : Prop := c.Spelled c.Alone

namespace Codec

variable {c : Codec α} {S : List UInt8 → α → Prop}

theorem Spelled.alone_iff (spelled : c.Spelled S) (form : Form .value v) (a : α) :
    c.Alone v a ↔ S v a := by
  have read := @spelled v form [] [] [] a .nil nofun
  simpa [Alone] using read

theorem Spelled.exact (spelled : c.Spelled S) : c.Exact := by
  intro v form ws rest more a blank ends
  rw [spelled v form blank ends, spelled.alone_iff form]

theorem ReadsAs.congr {P P' : α → Prop} (reads : c.ReadsAs v P) (same : ∀ a, P a ↔ P' a) :
    c.ReadsAs v P' := by
  intro ws rest more a blank ends
  rw [reads blank ends, same]

theorem ReadsAs.iso {P : α → Prop} (reads : c.ReadsAs v P) (make : α → β) (view : β → α) :
    (c.iso make view).ReadsAs v fun b => ∃ a, P a ∧ make a = b := by
  intro ws rest more b blank ends
  simp only [Codec.iso, Reader.map]
  constructor
  · intro h
    split at h
    · next a tail read =>
      cases h
      obtain ⟨here, rfl⟩ := (reads blank ends).1 read
      exact ⟨⟨a, here, rfl⟩, rfl⟩
    · cases h
  · rintro ⟨⟨a, here, rfl⟩, rfl⟩
    rw [(reads blank ends).2 ⟨here, rfl⟩]

theorem Spelled.congr {S' : List UInt8 → α → Prop} (spelled : c.Spelled S)
    (same : ∀ v a, S v a ↔ S' v a) : c.Spelled S' :=
  fun v form => ReadsAs.congr (spelled v form) (same v)

theorem Spelled.iso (spelled : c.Spelled S) (make : α → β) (view : β → α) :
    (c.iso make view).Spelled fun v b => ∃ a, S v a ∧ make a = b :=
  fun v form => ReadsAs.iso (spelled v form) make view

theorem decode_eq_ok_iff {c : Codec α} {text : List UInt8} {a : α} :
    c.decode text = .ok a ↔ ∃ ws, Blank ws ∧ c.read.run text = .ok (a, ws) := by
  unfold decode
  constructor
  · intro h
    split at h
    · cases h
    · next a' left read =>
      split at h
      · next done =>
        cases h
        obtain ⟨ws, blank, split⟩ := exists_blank left
        rw [done, List.append_nil] at split
        exact ⟨ws, blank, split ▸ read⟩
      · cases h
  · rintro ⟨ws, blank, read⟩
    have done := blank.skipBlank_append []
    rw [List.append_nil] at done
    simp only [read, done]
    rfl

theorem ReadsAs.decode_eq_ok_iff {P : α → Prop} (reads : c.ReadsAs v P) {text : List UInt8}
    (around : Around v text) (a : α) : c.decode text = .ok a ↔ P a := by
  obtain @⟨ws, ws', before, after⟩ := around
  have ends : EndsNumber ws' := by
    have blank := after.endsNumber (nofun : EndsNumber [])
    rwa [List.append_nil] at blank
  rw [Codec.decode_eq_ok_iff]
  constructor
  · rintro ⟨left, -, read⟩
    exact ((reads before ends).1 read).1
  · intro here
    exact ⟨ws', after, (reads before ends).2 ⟨here, rfl⟩⟩

end Codec

/-! ## Scalars -/

namespace Codec

theorem spelled_ofStart {start : UInt8 → List UInt8 → Except Fault (α × List UInt8)}
    (length_le : ∀ {b : UInt8} {bytes rest : List UInt8} {a : α},
      start b bytes = .ok (a, rest) → rest.length ≤ bytes.length)
    {S : List UInt8 → α → Prop} {write : α → Value}
    (reads : ∀ {b : UInt8} {tail rest more : List UInt8} {a : α}, StartForm b tail →
      EndsNumber rest → (start b (tail ++ rest) = .ok (a, more) ↔ S (b :: tail) a ∧ more = rest)) :
    Codec.Spelled ⟨.ofStart start length_le, write⟩ S := by
  intro v form ws rest more a blank ends
  obtain ⟨b, tail, rfl, solid, starts⟩ := form.start
  simp only [Reader.ofStart, blank.skipBlank_append, List.cons_append, skipBlank_of_solid solid]
  exact reads starts ends

theorem readNumber_numeral {n : Nat} (small : n < significandLimit) (ends : EndsNumber rest) :
    readNumber false (numeral n ++ rest) = .ok (.whole n, rest) := by
  rw [numeral, ← bytesOf_decimal]
  exact readNumber_written small ends

theorem isDigit_head_numeral (n : Nat) : ∃ d more, numeral n = d :: more ∧ isDigit d = true := by
  obtain ⟨d, ds, eq, -⟩ := exists_digitsOf n
  have small := Text.digitsOf_lt (show 2 ≤ 10 by decide) n d (by rw [eq]; exact List.mem_cons_self ..)
  refine ⟨digitByte d, ds.map digitByte, ?_, (digitByte_spec d small).1⟩
  rw [numeral, eq, List.map_cons]

theorem asWord_eq_ok_iff {limit n : Nat} {expected : String} {x : Number} {bytes more : List UInt8} :
    asWord limit expected (x, bytes) = .ok (n, more) ↔ x = .whole n ∧ n < limit ∧ more = bytes := by
  cases x with
  | float x => simp only [asWord, reduceCtorEq, false_and]
  | whole m =>
    simp only [asWord]
    split
    · next fits =>
      simp only [Except.ok.injEq, Prod.mk.injEq, Number.whole.injEq]
      constructor
      · rintro ⟨rfl, rfl⟩
        exact ⟨by omega, by omega, rfl⟩
      · rintro ⟨rfl, -, rfl⟩
        exact ⟨Int.toNat_natCast n, rfl⟩
    · next out =>
      constructor
      · intro h
        cases h
      · rintro ⟨⟨⟩, small, -⟩
        exact absurd ⟨Int.natCast_nonneg n, Int.ofNat_lt.2 small⟩ out

/-- A number is read off its numeral alone: not with a fraction, an exponent or a sign, and not with
zeros before it. -/
theorem spelled_natural {limit : Nat} (word : limit ≤ significandLimit) (expected : String) :
    (natural limit expected).Spelled fun v n => v = numeral n ∧ n < limit := by
  refine spelled_ofStart readWord_length_le fun {b tail rest more n} starts ends => ?_
  constructor
  · intro h
    unfold readWord at h
    split at h
    · next sign =>
      subst sign
      obtain ⟨⟨x, r⟩, number, word⟩ := exists_of_bind_eq_ok h
      obtain ⟨rfl, -⟩ := asWord_eq_ok_iff.1 word
      have := neg_of_readNumber number
      omega
    split at h
    · next digit =>
      obtain ⟨⟨x, r⟩, number, word⟩ := exists_of_bind_eq_ok h
      obtain ⟨rfl, small, rfl⟩ := asWord_eq_ok_iff.1 word
      cases starts with
      | digit _ isWhole isFraction isPower split =>
        rw [← List.cons_append, split, List.append_assoc, List.append_assoc] at number
        obtain ⟨rfl, m, eq, numeral⟩ := numeral_of_readNumber isWhole isFraction isPower ends number
        obtain rfl : n = m := Int.ofNat_inj.1 eq
        exact ⟨⟨split.trans numeral, small⟩, rfl⟩
      | bracket k => cases k <;> exact absurd digit (by decide)
      | _ => exact absurd digit (by decide)
    · cases h
  · rintro ⟨⟨eq, small⟩, rfl⟩
    obtain ⟨d, ds, first, digit⟩ := isDigit_head_numeral n
    obtain ⟨rfl, -⟩ := List.cons_eq_cons.1 (eq.trans first)
    have positive : b ≠ minus := by
      rintro rfl
      exact absurd digit (by decide)
    have number : readNumber false (b :: (tail ++ more)) = .ok (.whole n, more) := by
      rw [← List.cons_append, eq]
      exact readNumber_numeral (small.trans_le word) ends
    rw [readWord, if_neg positive, if_pos digit, number]
    exact asWord_eq_ok_iff.2 ⟨rfl, small, rfl⟩

section Words

variable {limit : Nat} {expected : String} {make : Nat → α} {view : α → Nat}

theorem spelled_word (word : limit ≤ significandLimit) (small : ∀ a, view a < limit)
    (back : ∀ a, make (view a) = a) (there : ∀ n < limit, view (make n) = n) :
    ((natural limit expected).iso make view).Spelled fun v a => v = numeral (view a) := by
  refine ((spelled_natural word expected).iso make view).congr fun v a => ?_
  constructor
  · rintro ⟨n, ⟨rfl, fits⟩, rfl⟩
    rw [there n fits]
  · rintro rfl
    exact ⟨view a, ⟨rfl, small a⟩, back a⟩

end Words

theorem spelled_word8 : word8.Spelled fun v w => v = numeral w.toNat :=
  spelled_word (by decide) UInt8.toNat_lt_size (fun _ => UInt8.ofNat_toNat)
    fun _ fits => UInt8.toNat_ofNat_of_lt fits

theorem spelled_word16 : word16.Spelled fun v w => v = numeral w.toNat :=
  spelled_word (by decide) UInt16.toNat_lt_size (fun _ => UInt16.ofNat_toNat)
    fun _ fits => UInt16.toNat_ofNat_of_lt fits

theorem spelled_word32 : word32.Spelled fun v w => v = numeral w.toNat :=
  spelled_word (by decide) UInt32.toNat_lt_size (fun _ => UInt32.ofNat_toNat)
    fun _ fits => UInt32.toNat_ofNat_of_lt fits

theorem spelled_word64 : word64.Spelled fun v w => v = numeral w.toNat :=
  spelled_word (by decide) UInt64.toNat_lt_size (fun _ => UInt64.ofNat_toNat)
    fun _ fits => UInt64.toNat_ofNat_of_lt fits

theorem spelled_flag : flag.Spelled fun v b => v = ascii (flagText b) := by
  refine spelled_ofStart readFlag_length_le fun {b tail rest more a} starts ends => ?_
  obtain ⟨-, yes, no, -⟩ := starts.of_first
  constructor
  · intro h
    unfold readFlag at h
    split at h
    · next eq =>
      obtain ⟨r, literal, same⟩ := exists_of_map_eq_ok h
      cases same
      rw [yes eq, literal_append] at literal
      cases literal
      exact ⟨by rw [eq, yes eq]; rfl, rfl⟩
    split at h
    · next eq =>
      obtain ⟨r, literal, same⟩ := exists_of_map_eq_ok h
      cases same
      rw [no eq, literal_append] at literal
      cases literal
      exact ⟨by rw [eq, no eq]; rfl, rfl⟩
    · cases h
  · rintro ⟨eq, rfl⟩
    cases a <;> cases eq
    · exact congrArg (Except.map _) (literal_append (ascii "alse") more)
    · exact congrArg (Except.map _) (literal_append (ascii "rue") more)

theorem spelled_text : text.Spelled fun v s => Quotes s v := by
  refine spelled_ofStart readTextAs_length_le fun {b tail rest more s} starts ends => ?_
  obtain ⟨-, -, -, text⟩ := starts.of_first
  constructor
  · intro h
    unfold readTextAs at h
    split at h
    · next eq =>
      obtain ⟨body, form, rfl⟩ := text eq
      obtain ⟨body', spells, split⟩ := readText_eq_ok_iff.1 h
      rw [List.append_assoc] at split
      have skipped := skipText_body form rest
      have skipped' := skipText_body spells.textForm more
      rw [← split, List.singleton_append, skipped] at skipped'
      cases skipped'
      obtain rfl := List.append_cancel_right split
      rw [eq]
      exact ⟨.mk spells, rfl⟩
    · cases h
  · rintro ⟨quotes, rfl⟩
    generalize eq : b :: tail = v at quotes
    obtain ⟨spells⟩ := quotes
    cases eq
    rw [readTextAs, if_pos rfl, List.append_assoc]
    exact readText_eq_ok_iff.2 ⟨_, spells, rfl⟩

theorem Spelled.optional {c : Codec α} {S : List UInt8 → α → Prop} (spelled : c.Spelled S) :
    c.optional.Spelled fun v o =>
      o.elim (v = ascii "null") fun a => S v a ∧ v ≠ ascii "null" := by
  intro v form ws rest more o blank ends
  have whole {a : α} := @spelled v form ws rest more a blank ends
  obtain ⟨b, tail, rfl, solid, starts⟩ := form.start
  have first : skipBlank (ws ++ (b :: tail ++ rest)) = b :: (tail ++ rest) := by
    rw [blank.skipBlank_append, List.cons_append, skipBlank_of_solid solid]
  simp only [Codec.optional, readOptional, first]
  split
  · next null =>
    subst null
    obtain rfl := starts.of_first.1 rfl
    rw [literal_append]
    constructor
    · intro h
      cases h
      exact ⟨rfl, rfl⟩
    · rintro ⟨spells, rfl⟩
      cases o with
      | none => rfl
      | some a => exact absurd rfl spells.2
  · next other =>
    have given : b :: tail ≠ ascii "null" := fun eq => other (List.cons_eq_cons.1 eq).1
    simp only [Reader.map]
    constructor
    · intro h
      split at h
      · next read =>
        cases h
        obtain ⟨spells, rfl⟩ := whole.1 read
        exact ⟨⟨spells, given⟩, rfl⟩
      · cases h
    · rintro ⟨spells, rfl⟩
      cases o with
      | none => exact absurd spells given
      | some a => rw [whole.2 ⟨spells.1, rfl⟩]

end Codec
end KeyArbiter.Json
