import KeyArbiter.Text.Numeral
import Mathlib

/-!
# Digits

What a text of digits is worth, the digits that a number is written in, and which texts are read as a
number.
-/

namespace KeyArbiter.Text

/-! ## The worth of digits -/

def digitChars : List Char := "0123456789abcdefABCDEF".toList

/-- The character is the digit `d` of `base`. A letter counts in either case. -/
def IsDigit (base : Nat) (c : Char) (d : Nat) : Prop :=
  d < base ∧ ("0123456789abcdef".toList[d]? = some c ∨ "0123456789ABCDEF".toList[d]? = some c)

def Writes (base : Nat) (cs : List Char) (n : Nat) : Prop :=
  cs ≠ [] ∧ ∃ ds, List.Forall₂ (IsDigit base) cs ds ∧ n = Nat.ofDigits base ds.reverse

def WritesNatural (base : Nat) (cs : List Char) (n : Nat) : Prop :=
  Writes base cs n ∨ ∃ digits, cs = '+' :: digits ∧ Writes base digits n

section Digits

variable {base n d : Nat} {c : Char} {cs : List Char}

theorem digitValue_ascii : ∀ n < 128, ∀ d < 16, digitValue 16 (Char.ofNat n) = some d ↔
    "0123456789abcdef".toList[d]? = some (Char.ofNat n) ∨
      "0123456789ABCDEF".toList[d]? = some (Char.ofNat n) := by
  decide +kernel

theorem IsDigit.mem (is : IsDigit base c d) : c ∈ digitChars := by
  -- decided along the list: characters are finitely many, and deciding over all of them is too much
  have lower : ∀ c ∈ "0123456789abcdef".toList, c ∈ digitChars :=
    List.forall_iff_forall_mem.1 (by decide +kernel)
  have upper : ∀ c ∈ "0123456789ABCDEF".toList, c ∈ digitChars :=
    List.forall_iff_forall_mem.1 (by decide +kernel)
  rcases is.2 with found | found
  · exact lower c (List.mem_of_getElem? found)
  · exact upper c (List.mem_of_getElem? found)

theorem digitValue_eq_some_iff (small : base ≤ 16) :
    digitValue base c = some d ↔ IsDigit base c d := by
  have below : digitValue base c = some d ↔ d < base ∧ digitValue 16 c = some d := by
    unfold digitValue
    grind
  rw [below]
  by_cases ascii : c.toNat < 128
  · have table := digitValue_ascii c.toNat ascii d
    rw [Char.ofNat_toNat] at table
    exact and_congr_right fun lt => table (lt.trans_le small)
  · have all : ∀ c ∈ digitChars, c.toNat < 128 :=
      List.forall_iff_forall_mem.1 (by decide +kernel)
    refine iff_of_false (fun ⟨_, value⟩ => ?_) fun is => ascii (all c (is.mem))
    unfold digitValue at value
    grind

theorem IsDigit.unique (small : base ≤ 16) {d' : Nat} (is : IsDigit base c d)
    (is' : IsDigit base c d') : d = d' := by
  rw [← digitValue_eq_some_iff small] at is is'
  exact Option.some.inj (is.symm.trans is')

theorem isDigit_digitChar (small : base ≤ 16) (lt : d < base) : IsDigit base (Nat.digitChar d) d := by
  have rows : ∀ d < 16, "0123456789abcdef".toList[d]? = some (Nat.digitChar d) := by decide
  exact ⟨lt, .inl (rows d (lt.trans_le small))⟩

theorem Writes.mem (writes : Writes base cs n) : ∀ c ∈ cs, c ∈ digitChars := by
  obtain ⟨-, ds, digits, -⟩ := writes
  induction digits with
  | nil => exact List.forall_mem_nil _
  | cons digit _ ih => exact List.forall_mem_cons.2 ⟨digit.mem, ih⟩

theorem not_writes (other : c ∉ digitChars) : ¬ Writes base (c :: cs) n :=
  fun writes => other (writes.mem c (List.mem_cons_self ..))

theorem WritesNatural.mem (writes : WritesNatural base cs n) :
    ∀ c ∈ cs, c = '+' ∨ c ∈ digitChars := by
  rcases writes with writes | ⟨digits, rfl, writes⟩
  · exact fun c hc => .inr (writes.mem c hc)
  · exact List.forall_mem_cons.2 ⟨.inl rfl, fun c hc => .inr (writes.mem c hc)⟩

theorem ofDigits_reverse (ds : List Nat) :
    Nat.ofDigits base ds.reverse = ds.foldl (fun n d => base * n + d) 0 := by
  rw [Nat.ofDigits_eq_foldr, List.foldr_reverse]
  simp only [Nat.cast_id, Nat.add_comm]

end Digits

/-! ## Writing -/

section Writing

variable {base : Nat}

theorem digitsOf_lt (two : 2 ≤ base) (n : Nat) : ∀ d ∈ digitsOf base n, d < base := by
  fun_induction digitsOf base n with
  | case1 n small =>
    have := small.resolve_right (by omega)
    simpa using this
  | case2 n large ih =>
    refine List.forall_mem_append.2 ⟨ih, ?_⟩
    intro d hd
    obtain rfl := List.mem_singleton.1 hd
    exact Nat.mod_lt n (by omega)

theorem foldl_digitsOf (base n : Nat) :
    (digitsOf base n).foldl (fun n d => base * n + d) 0 = n := by
  fun_induction digitsOf base n with
  | case1 n small => simp
  | case2 n large ih =>
    rw [List.foldl_append, ih]
    exact Nat.div_add_mod n base

theorem writes_digitsOf (two : 2 ≤ base) (small : base ≤ 16) (zeros n : Nat) :
    Writes base (List.replicate zeros '0' ++ (digitsOf base n).map Nat.digitChar) n := by
  have zero : List.replicate zeros '0' = (List.replicate zeros 0).map Nat.digitChar := by
    rw [List.map_replicate]
    rfl
  rw [zero, ← List.map_append]
  refine ⟨?_, _, List.forall₂_map_left_iff.2 (List.forall₂_same.2 fun d hd => ?_), ?_⟩
  · rw [digitsOf]
    split <;> simp
  · have lt : d < base := by
      rcases List.mem_append.1 hd with hd | hd
      · rw [(List.mem_replicate.1 hd).2]
        omega
      · exact digitsOf_lt two n d hd
    exact isDigit_digitChar small lt
  · rw [List.reverse_append, List.reverse_replicate, Nat.ofDigits_append_replicate_zero,
      ofDigits_reverse, foldl_digitsOf]

end Writing

/-! ## Reading -/

def Extends (base acc : Nat) (cs : List Char) (n : Nat) : Prop :=
  ∃ ds, List.Forall₂ (IsDigit base) cs ds ∧ n = ds.foldl (fun n d => base * n + d) acc

section Reading

variable {base limit acc n d : Nat} {c : Char} {cs : List Char}

theorem writes_iff : Writes base cs n ↔ cs ≠ [] ∧ Extends base 0 cs n := by
  simp only [Writes, Extends, ofDigits_reverse]

theorem extends_nil : Extends base acc [] n ↔ n = acc := by
  simp only [Extends, List.forall₂_nil_left_iff, exists_eq_left, List.foldl_nil]

theorem Extends.digit (makes : Extends base acc (c :: cs) n) : ∃ d, IsDigit base c d := by
  obtain ⟨_, digits, -⟩ := makes
  obtain ⟨d, _, digit, -⟩ := List.forall₂_cons_left_iff.1 digits
  exact ⟨d, digit⟩

theorem extends_cons (small : base ≤ 16) (digit : IsDigit base c d) :
    Extends base acc (c :: cs) n ↔ Extends base (base * acc + d) cs n := by
  constructor
  · rintro ⟨_, digits, worth⟩
    obtain ⟨d', ds, digit', others, rfl⟩ := List.forall₂_cons_left_iff.1 digits
    rw [digit.unique small digit']
    exact ⟨ds, others, worth⟩
  · rintro ⟨ds, digits, worth⟩
    exact ⟨d :: ds, .cons digit digits, worth⟩

theorem Extends.le (positive : 0 < base) (makes : Extends base acc cs n) : acc ≤ n := by
  obtain ⟨ds, -, rfl⟩ := makes
  clear cs
  induction ds generalizing acc with
  | nil => exact le_rfl
  | cons d ds ih =>
    have := Nat.le_mul_of_pos_left acc positive
    exact (by omega : acc ≤ base * acc + d).trans ih

/-- The limit is kept all the way if it is kept at the end. -/
theorem readDigits_eq_ok_iff (positive : 0 < base) (small : base ≤ 16) (low : acc < limit) :
    readDigits base limit acc cs = .ok n ↔ Extends base acc cs n ∧ n < limit := by
  induction cs generalizing acc with
  | nil =>
    rw [extends_nil, readDigits, Except.ok.injEq]
    constructor
    · rintro rfl
      exact ⟨rfl, low⟩
    · exact fun ⟨same, _⟩ => same.symm
  | cons c cs ih =>
    rw [readDigits]
    cases value : digitValue base c with
    | none =>
      refine iff_of_false nofun fun ⟨makes, _⟩ => ?_
      obtain ⟨d, digit⟩ := makes.digit
      simp [(digitValue_eq_some_iff small).2 digit] at value
    | some d =>
      rw [extends_cons small ((digitValue_eq_some_iff small).1 value), Nat.mul_comm base acc]
      dsimp only
      split
      · next below => exact ih below
      · next above =>
        exact iff_of_false nofun fun ⟨makes, lt⟩ => above ((makes.le positive).trans_lt lt)

theorem readDigits_zero (positive : 0 < base) (small : base ≤ 16) (room : 0 < limit)
    (some : cs ≠ []) : readDigits base limit 0 cs = .ok n ↔ Writes base cs n ∧ n < limit := by
  rw [readDigits_eq_ok_iff positive small room, writes_iff, and_iff_right some]

theorem readNatural_eq_ok_iff (positive : 0 < base) (small : base ≤ 16) (room : 0 < limit) :
    readNatural base limit cs = .ok n ↔ WritesNatural base cs n ∧ n < limit := by
  unfold readNatural WritesNatural
  split
  · -- Nothing at all.
    refine iff_of_false nofun ?_
    rintro ⟨⟨ne, -⟩ | ⟨_, eq, -⟩, -⟩
    · exact ne rfl
    · cases eq
  · -- A sign alone.
    refine iff_of_false nofun ?_
    rintro ⟨writes | ⟨_, eq, ne, -⟩, -⟩
    · exact not_writes (by decide) writes
    · cases eq
      exact ne rfl
  · refine iff_of_false nofun ?_
    rintro ⟨writes | ⟨_, eq, -⟩, -⟩
    · exact not_writes (by decide) writes
    · cases eq
  · next rest alone =>
    have some : rest ≠ [] := fun none => alone (none ▸ rfl)
    rw [readDigits_zero positive small room some]
    refine and_congr_left' ⟨fun writes => .inr ⟨rest, rfl, writes⟩, ?_⟩
    rintro (writes | ⟨_, eq, writes⟩)
    · exact absurd writes (not_writes (by decide))
    · cases eq
      exact writes
  · next some _ _ unsigned =>
    rw [readDigits_zero positive small room some]
    refine and_congr_left' ⟨.inl, ?_⟩
    rintro (writes | ⟨digits, eq, -⟩)
    · exact writes
    · exact absurd eq (unsigned digits)

end Reading

end KeyArbiter.Text
