import KeyArbiter.Json.Codec
import KeyArbiter.Proofs.Channel
import Mathlib

/-!
# Texts and numbers, written and read

The reader of a text undoes the escapes of the writer, whatever characters the text has, and the
reader of a number gets back the number whose digits were written, unless more digits follow.
-/

namespace KeyArbiter.Json

/-! ## Characters as bytes -/

def bytesOf (cs : List Char) : List UInt8 := cs.flatMap String.utf8EncodeChar

theorem utf8_ofList (cs : List Char) : utf8 (String.ofList cs) = bytesOf cs := by
  rw [utf8, String.toList_ofList]
  rfl

@[simp] theorem bytesOf_append (cs ds : List Char) : bytesOf (cs ++ ds) = bytesOf cs ++ bytesOf ds :=
  List.flatMap_append

theorem bytesOf_cons (c : Char) (cs : List Char) :
    bytesOf (c :: cs) = String.utf8EncodeChar c ++ bytesOf cs :=
  List.flatMap_cons

theorem ofUtf8?_utf8 (s : String) : ofUtf8? (utf8 s) = some s := by
  have bytes : (⟨(utf8 s).toArray⟩ : ByteArray) = s.toByteArray := by
    rw [← String.utf8Encode_toList]
    exact ByteArray.ext List.data_toByteArray.symm
  unfold ofUtf8? String.fromUTF8?
  rw [bytes, dif_pos s.isValidUTF8]
  rfl

theorem mem_utf8EncodeChar {c : Char} {b : UInt8} (mem : b ∈ String.utf8EncodeChar c) :
    b.toNat = c.toNat ∨ 0x80 ≤ b.toNat := by
  have number : c.val.toNat = c.toNat := rfl
  unfold String.utf8EncodeChar at mem
  simp only [number] at mem
  split at mem
  · obtain rfl := List.mem_singleton.1 mem
    left
    rw [UInt8.toNat_ofNat']
    omega
  · right
    have large (n lead : Nat) (large : 0x80 ≤ lead) (small : lead + n < 0x100) :
        0x80 ≤ (UInt8.ofNat (n + lead)).toNat := by
      rw [UInt8.toNat_ofNat']
      omega
    split at mem
    · simp only [List.mem_cons, List.not_mem_nil, or_false] at mem
      rcases mem with rfl | rfl <;> exact large _ _ (by omega) (by omega)
    · split at mem <;> simp only [List.mem_cons, List.not_mem_nil, or_false] at mem
      · rcases mem with rfl | rfl | rfl <;> exact large _ _ (by omega) (by omega)
      · rcases mem with rfl | rfl | rfl | rfl <;> exact large _ _ (by omega) (by omega)

/-! ## Escapes -/

theorem emit_emit (bs cs : List UInt8) (r : Except Fault (List UInt8 × List UInt8)) :
    emit bs (emit cs r) = emit (bs ++ cs) r := by
  cases r with
  | ok p => simp only [emit, List.append_assoc]
  | error e => rfl

theorem emit_nil (r : Except Fault (List UInt8 × List UInt8)) : emit [] r = r := by
  cases r <;> rfl

theorem textBytes_plain {bs : List UInt8}
    (plain : ∀ b ∈ bs, b ≠ quote ∧ b ≠ backslash ∧ ¬ b < 0x20) (more : List UInt8) :
    textBytes .plain (bs ++ more) = emit bs (textBytes .plain more) := by
  induction bs with
  | nil => exact (emit_nil _).symm
  | cons b bs ih =>
    obtain ⟨⟨quoted, escaped, control⟩, rest⟩ := List.forall_mem_cons.1 plain
    rw [List.cons_append, textBytes, if_neg quoted, if_neg escaped, if_neg control, ih rest, emit_emit]
    rfl

theorem textBytes_control {n : Nat} (control : n < 0x20) (more : List UInt8) :
    textBytes .plain (bytesOf ['\\', 'u', '0', '0', Nat.digitChar (n / 16), Nat.digitChar (n % 16)] ++
      more) = emit (charBytes n) (textBytes .plain more) := by
  interval_cases n <;> rfl

theorem textBytes_escapeChar (c : Char) (more : List UInt8) :
    textBytes .plain (bytesOf (escapeChar c) ++ more) =
      emit (String.utf8EncodeChar c) (textBytes .plain more) := by
  have number {n : Nat} (eq : c.toNat = n) : c = Char.ofNat n := by
    rw [← eq, Char.ofNat_toNat]
  unfold escapeChar
  split
  case h_1 | h_2 | h_3 | h_4 | h_5 => rfl
  case h_6 quoted escaped _ _ _ =>
    split_ifs with backspace feed control
    · rw [number backspace]
      rfl
    · rw [number feed]
      rfl
    · rw [textBytes_control control, charBytes, Char.ofNat_toNat]
    · have alone : bytesOf [c] = String.utf8EncodeChar c := List.append_nil _
      rw [alone]
      refine textBytes_plain (fun b hb => ?_) more
      have byte := mem_utf8EncodeChar hb
      refine ⟨?_, ?_, ?_⟩
      · rintro rfl
        exact quoted (number (byte.resolve_right (by decide)).symm)
      · rintro rfl
        exact escaped (number (byte.resolve_right (by decide)).symm)
      · have space : (0x20 : UInt8).toNat = 0x20 := rfl
        rw [UInt8.lt_iff_toNat_lt, space]
        omega

theorem textBytes_written (cs : List Char) (rest : List UInt8) :
    textBytes .plain (bytesOf (cs.flatMap escapeChar) ++ quote :: rest) = .ok (bytesOf cs, rest) := by
  induction cs with
  | nil => rfl
  | cons c cs ih =>
    rw [List.flatMap_cons, bytesOf_append, List.append_assoc, textBytes_escapeChar, ih, bytesOf_cons]
    rfl

/-- Every text is read back from what is written for it. -/
theorem readText_written (s : String) (rest : List UInt8) :
    readText (bytesOf (s.toList.flatMap escapeChar) ++ quote :: rest) = .ok (s, rest) := by
  have text : bytesOf s.toList = utf8 s := rfl
  unfold readText
  rw [textBytes_written, text]
  simp only [bind, Except.bind, ofUtf8?_utf8]

theorem bytesOf_writeText (s : String) :
    bytesOf (writeText s).toList = quote :: (bytesOf (s.toList.flatMap escapeChar) ++ [quote]) := by
  rw [writeText, String.toList_ofList, List.cons_append, bytesOf_cons, bytesOf_append]
  rfl

/-! ## Numerals -/

def EndsNumber (rest : List UInt8) : Prop :=
  ∀ b ∈ rest.head?, isDigit b = false ∧ b ≠ 0x2e ∧ b ≠ 0x65 ∧ b ≠ 0x45

def digitByte (d : Nat) : UInt8 := UInt8.ofNat (0x30 + d)

theorem digitByte_spec : ∀ d < 10, isDigit (digitByte d) = true ∧ digitOf (digitByte d) = d ∧
    (digitByte d = 0x30 ↔ d = 0) ∧ String.utf8EncodeChar (Nat.digitChar d) = [digitByte d] := by
  decide

theorem bytesOf_decimal (n : Nat) :
    bytesOf (Text.decimal n).toList = (Text.digitsOf 10 n).map digitByte := by
  rw [Text.decimal, String.toList_ofList, bytesOf, List.flatMap_map, List.map_eq_flatMap]
  exact List.flatMap_congr fun d hd => (digitByte_spec d (Text.digitsOf_lt (by decide) n d hd)).2.2.2

theorem exists_digitsOf (n : Nat) : ∃ d ds, Text.digitsOf 10 n = d :: ds ∧ (0 < n → d ≠ 0) := by
  fun_induction Text.digitsOf 10 n with
  | case1 n small => exact ⟨n, [], rfl, Nat.ne_of_gt⟩
  | case2 n large ih =>
    obtain ⟨d, ds, eq, ne⟩ := ih
    exact ⟨d, ds ++ [n % 10], by rw [eq, List.cons_append], fun _ => ne (by omega)⟩

namespace EndsNumber

variable {rest : List UInt8}

theorem startsDigit (ends : EndsNumber rest) : startsDigit rest = false := by
  cases rest with
  | nil => rfl
  | cons b rest => exact (ends b rfl).1

theorem takeDigits (ends : EndsNumber rest) (limit acc : Nat) :
    takeDigits limit acc rest = (acc, 0, rest) := by
  cases rest with
  | nil => rfl
  | cons b rest =>
    rw [Json.takeDigits, if_neg]
    simp [(ends b rfl).1]

theorem readRest (ends : EndsNumber rest) (negative : Bool) (significand : Nat) (power : Int)
    (whole : List UInt8 → Except Fault (Number × List UInt8)) :
    readRest negative significand power whole rest = whole rest := by
  cases rest with
  | nil => rfl
  | cons b rest =>
    obtain ⟨-, point, small, large⟩ := ends b rfl
    rw [Json.readRest, if_neg point, if_neg (not_or.2 ⟨small, large⟩)]

end EndsNumber

theorem le_foldl_digits (ds : List Nat) (acc : Nat) :
    acc ≤ ds.foldl (fun n d => 10 * n + d) acc := by
  induction ds generalizing acc with
  | nil => exact le_rfl
  | cons d ds ih => exact le_trans (by omega) (ih (10 * acc + d))

theorem takeDigits_written {limit : Nat} {ds : List Nat} (digits : ∀ d ∈ ds, d < 10)
    {rest : List UInt8} (ends : EndsNumber rest) {acc : Nat}
    (small : ds.foldl (fun n d => 10 * n + d) acc < limit) :
    takeDigits limit acc (ds.map digitByte ++ rest) =
      (ds.foldl (fun n d => 10 * n + d) acc, ds.length, rest) := by
  induction ds generalizing acc with
  | nil => exact ends.takeDigits limit acc
  | cons d ds ih =>
    obtain ⟨first, digits⟩ := List.forall_mem_cons.1 digits
    obtain ⟨digit, value, -⟩ := digitByte_spec d first
    rw [List.foldl_cons] at small ⊢
    have fits : isDigit (digitByte d) ∧ acc * 10 + digitOf (digitByte d) < limit := by
      have := le_foldl_digits ds (10 * acc + d)
      exact ⟨digit, by rw [value]; omega⟩
    have next : acc * 10 + digitOf (digitByte d) = 10 * acc + d := by rw [value, Nat.mul_comm]
    rw [List.map_cons, List.cons_append, takeDigits, if_pos fits, next, ih digits small]
    rfl

theorem readNumber_written {n : Nat} (small : n < significandLimit) {rest : List UInt8}
    (ends : EndsNumber rest) :
    readNumber false (bytesOf (Text.decimal n).toList ++ rest) = .ok (.whole n, rest) := by
  have number := Text.foldl_digitsOf 10 n
  have digits := Text.digitsOf_lt (show 2 ≤ 10 by decide) n
  rw [bytesOf_decimal]
  rcases Nat.eq_zero_or_pos n with rfl | pos
  · have zero : (Text.digitsOf 10 0).map digitByte = [0x30] := by
      rw [Text.digitsOf]
      rfl
    rw [zero, List.singleton_append, readNumber, if_pos rfl, ends.startsDigit]
    exact ends.readRest false 0 0 (asWhole false 0)
  · obtain ⟨d, ds, eq, ne⟩ := exists_digitsOf n
    rw [eq] at number digits ⊢
    obtain ⟨first, digits⟩ := List.forall_mem_cons.1 digits
    obtain ⟨digit, value, zero, -⟩ := digitByte_spec d first
    rw [List.foldl_cons, Nat.mul_zero, Nat.zero_add] at number
    have taken := takeDigits_written digits ends (by rw [number]; exact small)
    rw [number] at taken
    rw [List.map_cons, List.cons_append, readNumber, if_neg (mt zero.1 (ne pos)), if_pos digit, value]
    simp only [taken, ends.startsDigit, Bool.false_eq_true, if_false]
    exact ends.readRest false n 0 (asWhole false n)

end KeyArbiter.Json
