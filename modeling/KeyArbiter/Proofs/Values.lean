import KeyArbiter.Proofs.Readback
import Mathlib

/-!
# Values read back

What is written for a value is read as that value, if its numbers fit words and the members of its
objects stand in the order of their names, each name once. That is the order of the bytes of the names
as well.
-/

namespace KeyArbiter.Json

/-! ## The order of bytes -/

/-- Of two different characters, the one with the smaller number has the bytes that come first,
whatever follows each of them. -/
theorem utf8EncodeChar_lt {c d : Char} (lt : c < d) (x y : List UInt8) :
    String.utf8EncodeChar c ++ x < String.utf8EncodeChar d ++ y := by
  have numbers : c.val.toNat < d.val.toNat := lt
  have top : d.val.toNat < 0x110000 := by
    rcases d.valid with below | within
    · have below : d.val.toNat < 0xd800 := below
      omega
    · exact within.2
  unfold String.utf8EncodeChar
  generalize c.val.toNat = m at *
  generalize d.val.toNat = n at *
  simp only
  split_ifs <;> simp only [List.cons_append, List.nil_append, List.cons_lt_cons_iff,
    UInt8.lt_iff_toNat_lt, ← UInt8.toNat_inj, UInt8.toNat_ofNat']
  all_goals try omega
  -- Only where both have four bytes is it not plain which of these differ first.
  have nested (k : Nat) : k / 64 / 64 = k / 4096 ∧ k / 4096 / 64 = k / 262144 := by omega
  have low (k : Nat) : (k % 64 + 128) % 2 ^ 8 = k % 64 + 128 := by omega
  have lead (k : Nat) (small : k < 0x110000) :
      (k / 262144 % 8 + 240) % 2 ^ 8 = k / 262144 + 240 := by omega
  obtain ⟨hm, hm'⟩ := nested m
  obtain ⟨hn, hn'⟩ := nested n
  simp only [low, lead m (by omega), lead n top]
  by_cases high : m / 4096 = n / 4096
  · by_cases middle : m / 64 = n / 64 <;> omega
  · by_cases higher : m / 262144 = n / 262144 <;> omega

theorem bytesOf_lt_bytesOf {cs ds : List Char} (lt : cs < ds) : bytesOf cs < bytesOf ds := by
  induction cs generalizing ds with
  | nil =>
    cases ds with
    | nil => exact absurd lt (List.lt_irrefl _)
    | cons d ds =>
      have some : bytesOf (d :: ds) ≠ [] := by
        have := Char.utf8Size_pos d
        rw [bytesOf_cons, ← List.length_pos_iff, List.length_append, String.length_utf8EncodeChar]
        omega
      obtain ⟨b, more, eq⟩ := List.exists_cons_of_ne_nil some
      rw [eq]
      exact List.nil_lt_cons b more
  | cons c cs ih =>
    cases ds with
    | nil => exact absurd lt (List.not_lt_nil _)
    | cons d ds =>
      rw [bytesOf_cons, bytesOf_cons]
      rcases List.cons_lt_cons_iff.1 lt with first | ⟨rfl, others⟩
      · exact utf8EncodeChar_lt first _ _
      · exact List.append_left_lt (ih others)

theorem utf8_lt_utf8 {s t : String} (lt : s < t) : utf8 s < utf8 t :=
  bytesOf_lt_bytesOf (String.lt_iff_toList_lt.1 lt)

/-! ## Values -/

/-- A value with at most so many brackets inside each other that is read back. -/
inductive Value.Legible : Nat → Value → Prop
  | null {depth : Nat} : Legible depth .null
  | flag {depth : Nat} (b : Bool) : Legible depth (.flag b)
  | natural {depth n : Nat} (word : n < significandLimit) : Legible depth (.natural n)
  | text {depth : Nat} (s : String) : Legible depth (.text s)
  | list {depth : Nat} {items : List Value} (each : ∀ v ∈ items, Legible depth v) :
    Legible (depth + 1) (.list items)
  | object {depth : Nat} {members : List (String × Value)} (order : InNameOrder members)
    (each : ∀ p ∈ members, Legible depth p.2) : Legible (depth + 1) (.object members)

namespace Value

variable {depth : Nat} {v : Value}

theorem reader_eq (depth : Nat) :
    ∃ r, reader depth = .ofStart (readValue r) readValue_length_le := by
  cases depth <;> exact ⟨_, rfl⟩

theorem Legible.starts (legible : Legible depth v) :
    ∃ b more, v.bytes = b :: more ∧ isBlank b = false ∧ b ≠ closeList := by
  cases legible with
  | null => exact ⟨_, _, rfl, by decide⟩
  | flag b => cases b <;> exact ⟨_, _, rfl, by decide⟩
  | @natural _ n =>
    obtain ⟨d, lt, more, eq⟩ := Codec.exists_bytes_natural n
    obtain ⟨⟨solid, inside, -⟩, -⟩ := Codec.opens_digitByte d lt
    exact ⟨_, more, eq, solid, inside⟩
  | text s => exact ⟨_, _, bytesOf_writeText s, by decide⟩
  | list => exact ⟨openList, _, rfl, by decide⟩
  | object => exact ⟨openObject, _, rfl, by decide⟩

theorem insertMember_of_lt (before : ∀ p ∈ members, p.1 < name) (v : Value) :
    insertMember name v members = members ++ [(name, v)] := by
  induction members with
  | nil => rfl
  | cons p members ih =>
    obtain ⟨first, others⟩ := List.forall_mem_cons.1 before
    rw [insertMember, if_neg (ne_of_gt first), if_neg (lt_asymm first), ih others]
    rfl

theorem takes_members {r : Reader Value} {members ms : List (String × Value)}
    (reads : ∀ p ∈ ms, ∀ rest, EndsNumber rest → r.run (p.2.bytes ++ rest) = .ok (p.2, rest))
    (order : InNameOrder (members ++ ms)) : (takeMember r).Takes members ms (members ++ ms) := by
  induction ms generalizing members with
  | nil =>
    rw [List.append_nil]
    exact .nil _
  | cons p ms ih =>
    obtain ⟨name, v⟩ := p
    obtain ⟨first, others⟩ := List.forall_mem_cons.1 reads
    have before : ∀ q ∈ members, q.1 < name := fun q hq =>
      (List.pairwise_append.1 order).2.2 q hq (name, v) (List.mem_cons_self ..)
    rw [List.append_cons] at order ⊢
    refine .cons (fun rest ends => ?_) (ih others order)
    have colon : skipColon (colon :: (v.bytes ++ rest)) = .ok (v.bytes ++ rest) := rfl
    simp only [takeMember, colon, first rest ends, insertMember_of_lt before]

theorem Legible.reads (legible : Legible depth v) (rest : List UInt8) (ends : EndsNumber rest) :
    (reader depth).run (v.bytes ++ rest) = .ok (v, rest) := by
  induction legible generalizing rest with
  | @null depth =>
    obtain ⟨r, eq⟩ := reader_eq depth
    rw [eq]
    exact congrArg (Except.map _) (literal_append (ascii "ull") rest)
  | @flag depth b =>
    obtain ⟨r, eq⟩ := reader_eq depth
    rw [eq]
    cases b
    · exact congrArg (Except.map _) (literal_append (ascii "alse") rest)
    · exact congrArg (Except.map _) (literal_append (ascii "rue") rest)
  | @natural depth n word =>
    obtain ⟨r, eq⟩ := reader_eq depth
    obtain ⟨d, lt, more, first⟩ := Codec.exists_bytes_natural n
    obtain ⟨⟨solid, -⟩, positive⟩ := Codec.opens_digitByte d lt
    have letters : ∀ d < 10, digitByte d ≠ 0x6e ∧ digitByte d ≠ 0x74 ∧ digitByte d ≠ 0x66 := by decide
    obtain ⟨null, yes, no⟩ := letters d lt
    have read : readNumber false (digitByte d :: (more ++ rest)) = .ok (.whole n, rest) := by
      rw [← List.cons_append, ← first]
      exact readNumber_written word ends
    have start : readValue r (digitByte d) (more ++ rest) = .ok (.natural n, rest) := by
      unfold readValue
      rw [if_neg null, if_neg yes, if_neg no, if_neg positive, if_pos (digitByte_spec d lt).1, read]
      rfl
    rw [eq, first, List.cons_append]
    exact (Reader.run_ofStart readValue_length_le solid _).trans start
  | @text depth s =>
    obtain ⟨r, eq⟩ := reader_eq depth
    rw [eq, bytes_text]
    exact congrArg (Except.map _) (readText_written s rest)
  | @list depth items each ih =>
    have takes : ∀ v ∈ items, (reader depth).TakesItem (id v) v :=
      fun v hv => ⟨ih v hv, (each v hv).starts⟩
    have read := readItems_written takes rest
    rw [List.map_id] at read
    have start : readValue (some (reader depth)) openList
        (bytesOf (itemChars items) ++ closeList :: rest) = .ok (.list items, rest) := by
      have opened (bytes : List UInt8) : readValue (some (reader depth)) openList bytes =
          readItems (reader depth) true bytes >>= fun p =>
            endList p.2 >>= fun rest => .ok (.list p.1, rest) := rfl
      rw [opened, read]
      rfl
    rw [bytes_list]
    exact (Reader.run_ofStart readValue_length_le rfl _).trans start
  | @object depth members order each ih =>
    have read := readMembers_written (@takes_members _ [] members ih order) rest
    have start : readValue (some (reader depth)) openObject
        (bytesOf (memberChars members) ++ closeObject :: rest) = .ok (.object members, rest) := by
      have opened (bytes : List UInt8) : readValue (some (reader depth)) openObject bytes =
          readMembers (takeMember (reader depth)) true [] bytes >>= fun p =>
            endObject p.2 >>= fun rest => .ok (.object p.1, rest) := rfl
      rw [opened, read]
      rfl
    rw [bytes_object]
    exact (Reader.run_ofStart readValue_length_le rfl _).trans start

/-- A text that is written for a value that is not too deep is a text of that value. -/
theorem Legible.decode_compact (legible : Legible 127 v) : codec.decode (utf8 v.compact) = .ok v := by
  have written : utf8 v.compact = v.bytes := utf8_ofList v.chars
  have read : codec.read.run (v.bytes ++ []) = .ok (v, []) := legible.reads [] nofun
  rw [List.append_nil] at read
  rw [Codec.decode, written, read]
  rfl

end Value

end KeyArbiter.Json
