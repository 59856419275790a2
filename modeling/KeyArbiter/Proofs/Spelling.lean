import KeyArbiter.Proofs.Skipping
import Mathlib

/-!
# Spellings

A text has many spellings, since characters may be escaped; it is read from each of them, and from
nothing else. A whole number has one: its digits, without a zero before them.
-/

namespace KeyArbiter.Json

variable {bytes rest : List UInt8}

/-! ## Texts -/

theorem exists_of_emit {bs text : List UInt8} {r : Except Fault (List UInt8 × List UInt8)}
    (h : emit bs r = .ok (text, rest)) : ∃ t, r = .ok (t, rest) ∧ text = bs ++ t := by
  match r, h with
  | .ok (t, _), h => cases h; exact ⟨t, rfl, rfl⟩

inductive TextMode.Begun : TextMode → List UInt8 → Prop
  | plain : Begun .plain []
  | escape : Begun .escape [backslash]
  | hex {seen : List UInt8} (few : seen.length ≤ 3) :
    Begun (.hex none seen) (backslash :: 0x75 :: seen)
  | secondBackslash {hs : List UInt8} {high : Nat} (four : hs.length = 4)
    (known : hexValue hs = some high) (isHigh : isHighSurrogate high = true) :
    Begun (.secondBackslash high) (backslash :: 0x75 :: hs)
  | secondLetter {hs : List UInt8} {high : Nat} (four : hs.length = 4)
    (known : hexValue hs = some high) (isHigh : isHighSurrogate high = true) :
    Begun (.secondLetter high) (backslash :: 0x75 :: (hs ++ [backslash]))
  | secondHex {hs seen : List UInt8} {high : Nat} (four : hs.length = 4)
    (known : hexValue hs = some high) (isHigh : isHighSurrogate high = true)
    (few : seen.length ≤ 3) :
    Begun (.hex (some high) seen) (backslash :: 0x75 :: (hs ++ backslash :: 0x75 :: seen))

theorem TextMode.Begun.snoc {high : Option Nat} {seen begun : List UInt8} {b : UInt8}
    (under : (TextMode.hex high seen).Begun begun) (few : seen.length < 3) :
    (TextMode.hex high (seen ++ [b])).Begun (begun ++ [b]) := by
  have few' : (seen ++ [b]).length ≤ 3 := by
    rw [List.length_append, List.length_singleton]
    omega
  cases under with
  | hex => exact .hex few'
  | secondHex four known isHigh =>
    have more := Begun.secondHex four known isHigh few'
    simpa only [List.append_assoc, List.cons_append] using more

theorem exists_of_textBytes {mode : TextMode} {begun text : List UInt8} (under : mode.Begun begun)
    (h : textBytes mode bytes = .ok (text, rest)) :
    ∃ w, Spells (begun ++ w) text ∧ bytes = w ++ quote :: rest := by
  have four {seen : List UInt8} (few : seen.length ≤ 3) (enough : ¬ seen.length < 3) (b : UInt8) :
      (seen ++ [b]).length = 4 := by
    rw [List.length_append, List.length_singleton]
    omega
  fun_induction textBytes mode bytes generalizing begun text with
  | case1 | case4 | case8 | case10 | case11 | case15 | case17 | case19 => cases h
  | case2 =>
    cases h
    cases under
    exact ⟨[], .nil, rfl⟩
  | case3 more _ ih =>
    cases under
    obtain ⟨w, spells, rfl⟩ := ih .escape h
    exact ⟨backslash :: w, spells, rfl⟩
  | case5 b more quoted escaped control ih =>
    cases under
    obtain ⟨t, read, rfl⟩ := exists_of_emit h
    obtain ⟨w, spells, rfl⟩ := ih .plain read
    exact ⟨b :: w, .plain ⟨quoted, escaped, control⟩ spells, rfl⟩
  | case6 more ih =>
    cases under
    obtain ⟨w, spells, rfl⟩ := ih (.hex (Nat.zero_le 3)) h
    exact ⟨0x75 :: w, spells, rfl⟩
  | case7 b more _ c known ih =>
    cases under
    obtain ⟨t, read, rfl⟩ := exists_of_emit h
    obtain ⟨w, spells, rfl⟩ := ih .plain read
    exact ⟨b :: w, .short known spells, rfl⟩
  | case9 high seen b more few ih =>
    obtain ⟨w, spells, rfl⟩ := ih (under.snoc few) h
    exact ⟨b :: w, by simpa only [List.append_assoc, List.singleton_append] using spells, rfl⟩
  | case12 seen b more enough n known _ isHigh ih =>
    cases under with
    | hex few =>
      obtain ⟨w, spells, rfl⟩ := ih (.secondBackslash (four few enough b) known isHigh) h
      refine ⟨b :: w, ?_, rfl⟩
      simpa only [List.append_assoc, List.cons_append, List.nil_append] using spells
  | case13 seen b more enough n known low high ih =>
    cases under with
    | hex few =>
      obtain ⟨t, read, eq⟩ := exists_of_emit h
      rw [eq]
      obtain ⟨w, spells, rfl⟩ := ih .plain read
      have whole := Spells.hex (four few enough b) known
        ⟨Bool.eq_false_of_not_eq_true high, Bool.eq_false_of_not_eq_true low⟩ spells
      refine ⟨b :: w, ?_, rfl⟩
      simpa only [List.append_assoc, List.cons_append, List.nil_append] using whole
  | case14 seen b more enough n high known isLow ih =>
    cases under with
    | secondHex fourHigh knownHigh isHigh few =>
      obtain ⟨t, read, eq⟩ := exists_of_emit h
      rw [eq]
      obtain ⟨w, spells, rfl⟩ := ih .plain read
      have pair := Spells.pair fourHigh knownHigh isHigh (four few enough b) known isLow spells
      refine ⟨b :: w, ?_, rfl⟩
      simpa only [List.append_assoc, List.cons_append, List.nil_append] using pair
  | case16 high more ih =>
    cases under with
    | secondBackslash four known isHigh =>
      obtain ⟨w, spells, rfl⟩ := ih (.secondLetter four known isHigh) h
      refine ⟨backslash :: w, ?_, rfl⟩
      simpa only [List.append_assoc, List.cons_append, List.nil_append] using spells
  | case18 high more ih =>
    cases under with
    | secondLetter four known isHigh =>
      obtain ⟨w, spells, rfl⟩ := ih (.secondHex four known isHigh (Nat.zero_le 3)) h
      refine ⟨0x75 :: w, ?_, rfl⟩
      simpa only [List.append_assoc, List.cons_append, List.nil_append] using spells

theorem textBytes_hex {hs : List UInt8} (four : hs.length = 4) {n : Nat}
    (known : hexValue hs = some n) (high : Option Nat) (rest : List UInt8) :
    textBytes (.hex high []) (hs ++ rest) =
      match high with
      | none =>
        if isLowSurrogate n then .error (.here .loneSurrogate rest)
        else if isHighSurrogate n then textBytes (.secondBackslash n) rest
        else emit (charBytes n) (textBytes .plain rest)
      | some h =>
        if isLowSurrogate n then emit (charBytes (pairOf h n)) (textBytes .plain rest)
        else .error (.here .loneSurrogate rest) := by
  match hs, four with
  | [a, b, c, d], _ =>
    have last : textBytes (.hex high []) ([a, b, c, d] ++ rest) =
        textBytes (.hex high [a, b, c]) (d :: rest) := rfl
    have enough : ¬ [a, b, c].length < 3 := Nat.lt_irrefl 3
    have known : hexValue ([a, b, c] ++ [d]) = some n := known
    cases high <;> simp only [last, textBytes, enough, if_false, known]

theorem textBytes_spelled {body text : List UInt8} (spells : Spells body text) (rest : List UInt8) :
    textBytes .plain (body ++ quote :: rest) = .ok (text, rest) := by
  have escape (more : List UInt8) :
      textBytes .plain (backslash :: 0x75 :: more) = textBytes (.hex none []) more := rfl
  have second (high : Nat) (more : List UInt8) :
      textBytes (.secondBackslash high) (backslash :: 0x75 :: more) =
        textBytes (.hex (some high) []) more := rfl
  have halves {n : Nat} (high : isHighSurrogate n = true) : isLowSurrogate n = false := by
    simp only [isHighSurrogate, isLowSurrogate, Bool.and_eq_true, decide_eq_true_eq] at high ⊢
    simp only [Bool.and_eq_false_iff, decide_eq_false_iff_not]
    omega
  induction spells with
  | nil => rfl
  | plain plain _ ih =>
    obtain ⟨quoted, escaped, control⟩ := plain
    rw [List.cons_append, textBytes, if_neg quoted, if_neg escaped, if_neg control, ih]
    rfl
  | short known _ ih =>
    have other := ne_of_isSome_shortEscape (by rw [known]; rfl)
    rw [List.cons_append, textBytes, if_neg (by decide), if_pos rfl, List.cons_append, textBytes,
      if_neg other, known]
    simp only [ih]
    rfl
  | hex four known whole _ ih =>
    obtain ⟨high, low⟩ := whole
    rw [List.cons_append, List.cons_append, List.append_assoc, escape, textBytes_hex four known]
    simp only [high, low, Bool.false_eq_true, if_false, ih]
    rfl
  | pair four known isHigh four' known' isLow _ ih =>
    rw [List.cons_append, List.cons_append, List.append_assoc, escape, textBytes_hex four known]
    simp only [isHigh, halves isHigh, Bool.false_eq_true, if_false, if_true]
    rw [List.cons_append, List.cons_append, List.append_assoc, second, textBytes_hex four' known']
    simp only [isLow, if_true, ih]
    rfl

theorem toByteArray_utf8 (s : String) : (⟨(utf8 s).toArray⟩ : ByteArray) = s.toByteArray := by
  rw [← String.utf8Encode_toList]
  exact ByteArray.ext List.data_toByteArray.symm

theorem utf8_of_ofUtf8? {s : String} (h : ofUtf8? bytes = some s) : bytes = utf8 s := by
  have array : (⟨bytes.toArray⟩ : ByteArray) = s.toByteArray := by
    unfold ofUtf8? String.fromUTF8? at h
    split at h
    · cases h
      rfl
    · cases h
  rw [← toByteArray_utf8] at array
  exact congrArg (fun a : ByteArray => a.data.toList) array

theorem readText_eq_ok_iff {s : String} :
    readText bytes = .ok (s, rest) ↔ ∃ body, Spells body (utf8 s) ∧ bytes = body ++ quote :: rest := by
  constructor
  · intro h
    obtain ⟨⟨text, more⟩, read, h⟩ := exists_of_bind_eq_ok h
    simp only at h
    split at h
    · next decoded =>
      cases h
      rw [utf8_of_ofUtf8? decoded] at read
      exact exists_of_textBytes .plain read
    · cases h
  · rintro ⟨body, spells, rfl⟩
    unfold readText
    rw [textBytes_spelled spells]
    simp only [bind, Except.bind, ofUtf8?_utf8]

/-! ## Numerals -/

def numeral (n : Nat) : List UInt8 := (Text.digitsOf 10 n).map digitByte

theorem digitOf_spec : ∀ b : UInt8, isDigit b = true →
    digitOf b < 10 ∧ digitByte (digitOf b) = b ∧ (digitOf b = 0 → b = 0x30) := by
  decide +kernel

theorem digitsOf_foldl {d : Nat} {ds : List Nat} (first : d < 10) (positive : 0 < d)
    (digits : ∀ d ∈ ds, d < 10) :
    Text.digitsOf 10 (ds.foldl (fun n d => 10 * n + d) d) = d :: ds := by
  induction ds using List.reverseRecOn with
  | nil => rw [List.foldl_nil, Text.digitsOf, if_pos (.inl first)]
  | append_singleton ds last ih =>
    obtain ⟨digits, small⟩ := List.forall_mem_append.1 digits
    have small : last < 10 := small last (List.mem_singleton_self last)
    have large := le_foldl_digits ds d
    rw [List.foldl_append, List.foldl_cons, List.foldl_nil, Text.digitsOf, if_neg (by omega),
      Nat.mul_add_div (by decide), Nat.div_eq_of_lt small, Nat.add_zero, ih digits,
      Nat.mul_add_mod, Nat.mod_eq_of_lt small]
    rfl

theorem numeral_zero : numeral 0 = [0x30] := by
  rw [numeral, Text.digitsOf]
  rfl

theorem numeral_foldl {d : UInt8} {ds : List UInt8} (digits : ∀ b ∈ d :: ds, isDigit b = true)
    (positive : d ≠ 0x30) :
    numeral ((ds.map digitOf).foldl (fun n d => 10 * n + d) (digitOf d)) = d :: ds := by
  obtain ⟨first, digits⟩ := List.forall_mem_cons.1 digits
  obtain ⟨small, back, zero⟩ := digitOf_spec d first
  have values : ∀ n ∈ ds.map digitOf, n < 10 := by
    rintro n mem
    obtain ⟨b, hb, rfl⟩ := List.mem_map.1 mem
    exact (digitOf_spec b (digits b hb)).1
  have bytes : (ds.map digitOf).map digitByte = ds := by
    rw [List.map_map]
    exact (List.map_congr_left fun b hb => (digitOf_spec b (digits b hb)).2.1).trans (List.map_id _)
  have nonzero := Nat.pos_of_ne_zero (mt zero positive)
  rw [numeral, digitsOf_foldl small nonzero values, List.map_cons, back, bytes]

theorem takeDigits_cases (limit acc : Nat) {ds : List UInt8} (digits : ∀ d ∈ ds, isDigit d = true)
    (stop : startsDigit rest = false) :
    startsDigit (takeDigits limit acc (ds ++ rest)).2.2 = true ∨
      takeDigits limit acc (ds ++ rest) =
        ((ds.map digitOf).foldl (fun n d => 10 * n + d) acc, ds.length, rest) := by
  induction ds generalizing acc with
  | nil =>
    right
    cases rest with
    | nil => rfl
    | cons b rest =>
      have other : isDigit b = false := stop
      simp only [List.nil_append, takeDigits, other, Bool.false_eq_true, false_and, if_false]
      rfl
  | cons d ds ih =>
    obtain ⟨digit, digits⟩ := List.forall_mem_cons.1 digits
    rw [List.cons_append, takeDigits]
    split
    · rcases ih (acc * 10 + digitOf d) digits with left | taken
      · exact .inl left
      · right
        rw [taken, List.map_cons, List.foldl_cons, Nat.mul_comm acc]
        rfl
    · exact .inl digit

section Numbers

variable {negative : Bool} {significand : Nat} {power n : Int} {r : List UInt8} {v : Number}

theorem float_of_asFloat (h : asFloat negative significand power bytes = .ok (v, r)) :
    ∃ x, v = .float x := by
  unfold asFloat withSign at h
  split at h
  · cases h; exact ⟨_, rfl⟩
  · cases h

theorem float_of_readPower {down : Bool}
    (h : readPower negative significand power down bytes = .ok (v, r)) : ∃ x, v = .float x := by
  cases bytes with
  | nil => cases h
  | cons b bytes =>
    simp only [readPower] at h
    split_ifs at h
    · cases h; exact ⟨_, rfl⟩
    · exact float_of_asFloat h
    · exact float_of_asFloat h

theorem float_of_readExponent (h : readExponent negative significand power bytes = .ok (v, r)) :
    ∃ x, v = .float x := by
  cases bytes with
  | nil => cases h
  | cons b bytes =>
    simp only [readExponent] at h
    split_ifs at h <;> exact float_of_readPower h

theorem float_of_readTail (h : readTail negative significand power bytes = .ok (v, r)) :
    ∃ x, v = .float x := by
  cases bytes with
  | nil => exact float_of_asFloat h
  | cons b bytes =>
    simp only [readTail] at h
    split_ifs at h
    · exact float_of_readExponent h
    · exact float_of_asFloat h

theorem float_of_readFraction (h : readFraction negative significand power bytes = .ok (v, r)) :
    ∃ x, v = .float x := by
  simp only [readFraction] at h
  split_ifs at h
  · exact float_of_readTail h
  · exact float_of_readTail h

theorem readRest_whole {whole : List UInt8 → Except Fault (Number × List UInt8)}
    (h : readRest negative significand power whole bytes = .ok (.whole n, r)) :
    whole bytes = .ok (.whole n, r) ∧ ∀ b ∈ bytes.head?, b ≠ 0x2e ∧ b ≠ 0x65 ∧ b ≠ 0x45 := by
  cases bytes with
  | nil => exact ⟨h, nofun⟩
  | cons b bytes =>
    simp only [readRest] at h
    split_ifs at h with point letter
    · obtain ⟨x, float⟩ := float_of_readFraction h
      cases float
    · obtain ⟨x, float⟩ := float_of_readExponent h
      cases float
    · refine ⟨h, ?_⟩
      rintro _ ⟨⟩
      exact ⟨point, not_or.1 letter⟩

theorem asWhole_false {s : Nat} (h : asWhole false s bytes = .ok (.whole n, r)) :
    n = s ∧ r = bytes := by
  cases h
  exact ⟨rfl, rfl⟩

theorem neg_of_readNumber (h : readNumber true bytes = .ok (.whole n, r)) : n < 0 := by
  have below {s : Nat} {bytes : List UInt8} (h : asWhole true s bytes = .ok (.whole n, r)) :
      n < 0 := by
    rw [asWhole, if_neg (by decide)] at h
    split at h
    · obtain ⟨x, float⟩ := float_of_asFloat h
      cases float
    · next inside =>
      obtain ⟨positive, -⟩ := not_or.1 inside
      injection h with h
      injection h with h
      injection h with h
      omega
  cases bytes with
  | nil => cases h
  | cons b bytes =>
    simp only [readNumber] at h
    split_ifs at h
    · exact below (readRest_whole h).1
    · obtain ⟨x, float⟩ := float_of_asFloat (readRest_whole h).1
      cases float
    · exact below (readRest_whole h).1

/-- Of the numbers without a sign, those are read as whole that are numerals. -/
theorem numeral_of_readNumber {ds fraction power : List UInt8} (isWhole : WholeForm ds)
    (isFraction : FractionForm fraction) (isPower : PowerForm power) (ends : EndsNumber rest)
    (h : readNumber false (ds ++ (fraction ++ (power ++ rest))) = .ok (.whole n, r)) :
    r = rest ∧ ∃ m : Nat, n = m ∧ ds ++ (fraction ++ power) = numeral m := by
  have stop := startsDigit_tail isFraction isPower ends
  have plain {s : Nat} (h : readRest false s 0 (asWhole false s) (fraction ++ (power ++ rest)) =
      .ok (.whole n, r)) : fraction = [] ∧ power = [] ∧ n = s ∧ r = rest := by
    obtain ⟨value, last⟩ := readRest_whole h
    cases isFraction with
    | some => exact absurd rfl (last _ rfl).1
    | none =>
      cases isPower with
      | some letter => exact absurd letter (not_or.2 (last _ rfl).2)
      | none => exact ⟨rfl, rfl, asWhole_false value⟩
  obtain ⟨d, more, rfl, digit, digits⟩ := isWhole.1.exists_cons
  rw [List.cons_append, readNumber] at h
  split at h
  · next zero =>
    subst zero
    obtain rfl : more = [] := by simpa using isWhole.2 rfl
    rw [List.nil_append, stop] at h
    obtain ⟨rfl, rfl, rfl, rfl⟩ := plain h
    exact ⟨rfl, 0, rfl, numeral_zero.symm⟩
  · next positive =>
    rcases takeDigits_cases significandLimit (digitOf d) digits stop with left | taken
    · simp only [left, if_true] at h
      obtain ⟨x, float⟩ := float_of_asFloat (readRest_whole h).1
      cases float
    · simp only [taken, stop, Bool.false_eq_true, if_false] at h
      obtain ⟨rfl, rfl, rfl, rfl⟩ := plain h
      refine ⟨rfl, _, rfl, ?_⟩
      rw [List.append_nil, List.append_nil]
      exact (numeral_foldl (List.forall_mem_cons.2 ⟨digit, digits⟩) positive).symm

end Numbers

end KeyArbiter.Json
