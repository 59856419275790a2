import KeyArbiter.Json.Choice
import KeyArbiter.Proofs.Written
import Mathlib

/-!
# Codecs that read what they write

A codec is faithful if it reads every value back from what it writes for it, whatever follows. Each
way to make a codec of others keeps that: so it is enough to look at the parts of a format.
-/

namespace KeyArbiter.Json

variable {α β σ : Type}

/-! ## Faithful codecs -/

def Value.bytes (v : Value) : List UInt8 := bytesOf v.chars

theorem Codec.utf8_encode (c : Codec α) (a : α) : utf8 (c.encode a) = (c.write a).bytes :=
  utf8_ofList _

namespace Value

theorem bytes_text (s : String) (rest : List UInt8) : (text s).bytes ++ rest =
    quote :: (bytesOf (s.toList.flatMap escapeChar) ++ quote :: rest) := by
  rw [bytes, chars, bytesOf_writeText, List.cons_append, List.append_assoc, List.singleton_append]

theorem bytes_list (items : List Value) (rest : List UInt8) : (list items).bytes ++ rest =
    openList :: (bytesOf (itemChars items) ++ closeList :: rest) := by
  rw [bytes, chars, bytesOf_append, bytesOf_cons, List.append_assoc, List.append_assoc]
  rfl

theorem bytes_object (members : List (String × Value)) (rest : List UInt8) :
    (object members).bytes ++ rest =
      openObject :: (bytesOf (memberChars members) ++ closeObject :: rest) := by
  rw [bytes, chars, bytesOf_append, bytesOf_cons, List.append_assoc, List.append_assoc]
  rfl

end Value

/-- A value may start with this byte, unless it is null. -/
def Opens (b : UInt8) : Prop := isBlank b = false ∧ b ≠ closeList ∧ b ≠ 0x6e

/-- What is written for a value is read back, unless it is a number and goes on. -/
def Codec.ReadsBack (c : Codec α) (a : α) : Prop :=
  ∀ rest, EndsNumber rest → c.read.run ((c.write a).bytes ++ rest) = .ok (a, rest)

structure Codec.Faithful (c : Codec α) : Prop where
  reads (a : α) : c.ReadsBack a
  opens (a : α) : ∃ b more, (c.write a).bytes = b :: more ∧ Opens b

theorem skipBlank_of_solid {b : UInt8} (solid : isBlank b = false) (rest : List UInt8) :
    skipBlank (b :: rest) = b :: rest := by
  rw [skipBlank, List.dropWhile_cons_of_neg (by simp [solid])]

theorem Reader.run_ofStart {start : UInt8 → List UInt8 → Except Fault (α × List UInt8)}
    (length_le : ∀ {b : UInt8} {bytes rest : List UInt8} {a : α},
      start b bytes = .ok (a, rest) → rest.length ≤ bytes.length)
    {b : UInt8} (solid : isBlank b = false) (rest : List UInt8) :
    (Reader.ofStart start length_le).run (b :: rest) = start b rest := by
  simp only [Reader.ofStart, skipBlank_of_solid solid]

namespace Codec.Faithful

variable {c : Codec α}

theorem iso (faithful : c.Faithful) {make : α → β} {view : β → α} (back : ∀ b, make (view b) = b) :
    (c.iso make view).Faithful := by
  refine ⟨fun b rest ends => ?_, fun b => faithful.opens (view b)⟩
  have read := faithful.reads (view b) rest ends
  simp only [Codec.iso, Reader.map, read, back]

end Codec.Faithful

/-! ## Scalars -/

namespace Codec

theorem opens_digitByte : ∀ d < 10, Opens (digitByte d) ∧ digitByte d ≠ minus := by
  unfold Opens
  decide

theorem exists_bytes_natural (n : Nat) :
    ∃ d < 10, ∃ more, (Value.natural n).bytes = digitByte d :: more := by
  obtain ⟨d, ds, eq, -⟩ := exists_digitsOf n
  refine ⟨d, Text.digitsOf_lt (by decide) n d (by rw [eq]; exact List.mem_cons_self ..), ds.map digitByte, ?_⟩
  have bytes : (Value.natural n).bytes = (Text.digitsOf 10 n).map digitByte := bytesOf_decimal n
  rw [bytes, eq, List.map_cons]

theorem faithful_word {limit : Nat} (word : limit ≤ significandLimit) (expected : String)
    {make : Nat → α} {view : α → Nat} (small : ∀ a, view a < limit) (back : ∀ a, make (view a) = a) :
    ((natural limit expected).iso make view).Faithful := by
  refine ⟨fun a rest ends => ?_, fun a => ?_⟩
  · obtain ⟨d, lt, more, eq⟩ := exists_bytes_natural (view a)
    obtain ⟨⟨solid, -⟩, positive⟩ := opens_digitByte d lt
    have read : readNumber false (digitByte d :: (more ++ rest)) = .ok (.whole (view a), rest) := by
      rw [← List.cons_append, ← eq]
      exact readNumber_written ((small a).trans_le word) ends
    have bytes : ((((natural limit expected).iso make view).write a).bytes ++ rest) =
        digitByte d :: (more ++ rest) := congrArg (· ++ rest) eq
    have value : asWord limit expected (.whole (view a), rest) = .ok (view a, rest) := by
      rw [asWord, if_pos ⟨Int.natCast_nonneg _, Int.ofNat_lt.2 (small a)⟩]
      rfl
    have start : readWord limit expected (digitByte d) (more ++ rest) = .ok (view a, rest) := by
      rw [readWord, if_neg positive, if_pos (digitByte_spec d lt).1, read]
      exact value
    rw [bytes]
    simp only [Codec.iso, Reader.map, natural, Reader.run_ofStart _ solid, start, back]
  · obtain ⟨d, lt, more, eq⟩ := exists_bytes_natural (view a)
    exact ⟨digitByte d, more, eq, (opens_digitByte d lt).1⟩

theorem faithful_word8 : word8.Faithful :=
  faithful_word (by decide) "u8" UInt8.toNat_lt_size fun _ => UInt8.ofNat_toNat

theorem faithful_word16 : word16.Faithful :=
  faithful_word (by decide) "u16" UInt16.toNat_lt_size fun _ => UInt16.ofNat_toNat

theorem faithful_word32 : word32.Faithful :=
  faithful_word (by decide) "u32" UInt32.toNat_lt_size fun _ => UInt32.ofNat_toNat

theorem faithful_word64 : word64.Faithful :=
  faithful_word (by decide) "u64" UInt64.toNat_lt_size fun _ => UInt64.ofNat_toNat

theorem faithful_flag : flag.Faithful := by
  refine ⟨fun b rest _ => ?_, fun b => ?_⟩
  · have read : readFlag ((Value.flag b).bytes.headD 0) ((Value.flag b).bytes.tail ++ rest) =
        .ok (b, rest) := by
      cases b
      · exact congrArg (Except.map _) (literal_append (ascii "alse") rest)
      · exact congrArg (Except.map _) (literal_append (ascii "rue") rest)
    cases b <;> exact read
  · cases b <;> exact ⟨_, _, rfl, by unfold Opens; decide⟩

theorem faithful_text : text.Faithful := by
  refine ⟨fun s rest _ => ?_, fun s => ⟨quote, _, bytesOf_writeText s, by unfold Opens; decide⟩⟩
  have read : readTextAs "a string" quote (bytesOf (s.toList.flatMap escapeChar) ++ quote :: rest) =
      .ok (s, rest) := readText_written s rest
  have written : (text.write s).bytes ++ rest =
      quote :: (bytesOf (s.toList.flatMap escapeChar) ++ quote :: rest) := Value.bytes_text s rest
  rw [written]
  exact read

theorem readsBack_optional {c : Codec α} (faithful : c.Faithful) (o : Option α) :
    c.optional.ReadsBack o := by
  intro rest ends
  cases o with
  | none =>
    have read : literal (ascii "ull") (ascii "ull" ++ rest) = .ok rest := literal_append _ rest
    exact congrArg (Except.map _) read
  | some a =>
    obtain ⟨b, more, bytes, solid, -, other⟩ := faithful.opens a
    have read := faithful.reads a rest ends
    have written : (c.optional.write (some a)).bytes = b :: more := bytes
    rw [bytes, List.cons_append] at read
    rw [written, List.cons_append]
    simp only [optional, readOptional, skipBlank_of_solid solid, other, if_false, Reader.map, read]

end Codec

/-! ## Lists -/

def itemsAfter (rest : List UInt8) : List Value → List UInt8
  | [] => closeList :: rest
  | v :: vs => comma :: (bytesOf (Value.itemChars (v :: vs)) ++ closeList :: rest)

theorem bytesOf_itemChars (v : Value) (vs : List Value) (rest : List UInt8) :
    bytesOf (Value.itemChars (v :: vs)) ++ closeList :: rest = v.bytes ++ itemsAfter rest vs := by
  cases vs with
  | nil => rfl
  | cons w ws =>
    rw [Value.itemChars, bytesOf_append, bytesOf_cons, List.append_assoc, List.append_assoc]
    · rfl
    · nofun

theorem endsNumber_itemsAfter (rest : List UInt8) (vs : List Value) :
    EndsNumber (itemsAfter rest vs) := by
  cases vs <;> · rintro b ⟨⟩; decide

theorem readItems_nil {r : Reader α} {first : Bool} {bytes rest : List UInt8}
    (next : nextItem first bytes = .ok (false, rest)) : readItems r first bytes = .ok ([], rest) := by
  rw [readItems]
  split <;> rename_i here <;> rw [next] at here <;> cases here
  rfl

theorem readItems_cons {r : Reader α} {first : Bool} {bytes start rest : List UInt8} {a : α}
    (next : nextItem first bytes = .ok (true, start)) (read : r.run start = .ok (a, rest)) :
    readItems r first bytes = (readItems r false rest).map fun (as, rest) => (a :: as, rest) := by
  rw [readItems]
  split <;> rename_i here <;> rw [next] at here <;> cases here
  split <;> rename_i there <;> rw [read] at there <;> cases there
  rfl

structure Reader.TakesItem (r : Reader α) (w : Value) (a : α) : Prop where
  reads : ∀ rest, EndsNumber rest → r.run (w.bytes ++ rest) = .ok (a, rest)
  starts : ∃ b more, w.bytes = b :: more ∧ isBlank b = false ∧ b ≠ closeList

theorem readItems_itemsAfter {r : Reader α} {write : α → Value} {as : List α}
    (takes : ∀ a ∈ as, r.TakesItem (write a) a) (rest : List UInt8) :
    readItems r false (itemsAfter rest (as.map write)) = .ok (as, closeList :: rest) := by
  induction as with
  | nil => exact readItems_nil rfl
  | cons a as ih =>
    obtain ⟨⟨reads, b, more, bytes, solid, inside⟩, others⟩ := List.forall_mem_cons.1 takes
    have after := endsNumber_itemsAfter rest (as.map write)
    have next : nextItem false (itemsAfter rest ((a :: as).map write)) =
        .ok (true, (write a).bytes ++ itemsAfter rest (as.map write)) := by
      rw [List.map_cons, itemsAfter, bytesOf_itemChars, bytes, List.cons_append]
      simp only [nextItem, skipBlank_of_solid (b := comma) rfl, skipBlank_of_solid solid, inside]
      rfl
    rw [readItems_cons next (reads _ after), ih others]
    rfl

theorem readItems_written {r : Reader α} {write : α → Value} {as : List α}
    (takes : ∀ a ∈ as, r.TakesItem (write a) a) (rest : List UInt8) :
    readItems r true (bytesOf (Value.itemChars (as.map write)) ++ closeList :: rest) =
      .ok (as, closeList :: rest) := by
  cases as with
  | nil => exact readItems_nil rfl
  | cons a as =>
    obtain ⟨⟨reads, b, more, bytes, solid, inside⟩, others⟩ := List.forall_mem_cons.1 takes
    have after := endsNumber_itemsAfter rest (as.map write)
    have next : nextItem true ((write a).bytes ++ itemsAfter rest (as.map write)) =
        .ok (true, (write a).bytes ++ itemsAfter rest (as.map write)) := by
      rw [bytes, List.cons_append]
      simp only [nextItem, skipBlank_of_solid solid, inside, if_false, if_true]
    rw [List.map_cons, bytesOf_itemChars, readItems_cons next (reads _ after),
      readItems_itemsAfter others]
    rfl

namespace Codec

variable {c : Codec α}

theorem Faithful.takesItem (faithful : c.Faithful) (a : α) : c.read.TakesItem (c.write a) a := by
  obtain ⟨b, more, bytes, solid, inside, -⟩ := faithful.opens a
  exact ⟨faithful.reads a, b, more, bytes, solid, inside⟩

theorem Faithful.list (faithful : c.Faithful) : c.list.Faithful := by
  refine ⟨fun as rest _ => ?_, fun as => ⟨_, _, rfl, by unfold Opens; decide⟩⟩
  have items := readItems_written (fun a (_ : a ∈ as) => faithful.takesItem a) rest
  have start : readList c.read openList
      (bytesOf (Value.itemChars (as.map c.write)) ++ closeList :: rest) = .ok (as, rest) := by
    rw [readList, if_pos rfl, items]
    rfl
  have written : (c.list.write as).bytes ++ rest = _ := Value.bytes_list (as.map c.write) rest
  rw [written]
  exact (Reader.run_ofStart readList_length_le rfl _).trans start

end Codec

/-! ## Members -/

inductive MemberReader.Takes (r : MemberReader σ) : σ → List (String × Value) → σ → Prop
  | nil (s : σ) : r.Takes s [] s
  | cons {s s' t : σ} {name : String} {v : Value} {members : List (String × Value)}
    (first : ∀ rest, EndsNumber rest → r.run name s (colon :: (v.bytes ++ rest)) = .ok (s', rest))
    (others : r.Takes s' members t) : r.Takes s ((name, v) :: members) t

def membersAfter (rest : List UInt8) : List (String × Value) → List UInt8
  | [] => closeObject :: rest
  | m :: ms => comma :: (bytesOf (Value.memberChars (m :: ms)) ++ closeObject :: rest)

theorem bytesOf_memberChars (name : String) (v : Value) (ms : List (String × Value))
    (rest : List UInt8) : bytesOf (Value.memberChars ((name, v) :: ms)) ++ closeObject :: rest =
      quote :: (bytesOf (name.toList.flatMap escapeChar) ++
        quote :: colon :: (v.bytes ++ membersAfter rest ms)) := by
  have colon : String.utf8EncodeChar ':' = [colon] := rfl
  have comma : String.utf8EncodeChar ',' = [comma] := rfl
  cases ms with
  | nil =>
    simp only [Value.memberChars, bytesOf_append, bytesOf_cons, bytesOf_writeText, colon, Value.bytes,
      membersAfter, List.append_assoc, List.cons_append, List.nil_append]
  | cons m ms =>
    rw [Value.memberChars]
    · simp only [bytesOf_append, bytesOf_cons, bytesOf_writeText, colon, comma, Value.bytes,
        membersAfter, List.append_assoc, List.cons_append, List.nil_append]
    · nofun

theorem endsNumber_membersAfter (rest : List UInt8) (ms : List (String × Value)) :
    EndsNumber (membersAfter rest ms) := by
  cases ms <;> · rintro b ⟨⟩; decide

theorem readMembers_nil {r : MemberReader σ} {first : Bool} {s : σ} {bytes rest : List UInt8}
    (next : nextName first bytes = .ok (none, rest)) : readMembers r first s bytes = .ok (s, rest) := by
  rw [readMembers]
  split <;> rename_i here <;> rw [next] at here <;> cases here
  rfl

theorem readMembers_cons {r : MemberReader σ} {first : Bool} {s s' : σ} {name : String}
    {bytes start rest : List UInt8} (next : nextName first bytes = .ok (some name, start))
    (read : r.run name s start = .ok (s', rest)) :
    readMembers r first s bytes = readMembers r false s' rest := by
  rw [readMembers]
  split <;> rename_i here <;> rw [next] at here <;> cases here
  split <;> rename_i there <;> rw [read] at there <;> cases there
  rfl

theorem nextName_written (name : String) (rest : List UInt8) :
    nextName true (quote :: (bytesOf (name.toList.flatMap escapeChar) ++ quote :: rest)) =
        .ok (some name, rest) ∧
      nextName false (comma :: quote :: (bytesOf (name.toList.flatMap escapeChar) ++ quote :: rest)) =
        .ok (some name, rest) := by
  have name : (readText (bytesOf (name.toList.flatMap escapeChar) ++ quote :: rest)).map
      (fun p => (some p.1, p.2)) = .ok (some name, rest) := by
    rw [readText_written]
    rfl
  exact ⟨name, name⟩

theorem readMembers_membersAfter {r : MemberReader σ} {s t : σ} {ms : List (String × Value)}
    (takes : r.Takes s ms t) (rest : List UInt8) :
    readMembers r false s (membersAfter rest ms) = .ok (t, closeObject :: rest) := by
  induction takes with
  | nil s => exact readMembers_nil rfl
  | @cons s s' t name v ms first _ ih =>
    have next := (nextName_written name (colon :: (v.bytes ++ membersAfter rest ms))).2
    rw [← bytesOf_memberChars] at next
    exact (readMembers_cons next (first _ (endsNumber_membersAfter rest ms))).trans ih

theorem readMembers_written {r : MemberReader σ} {s t : σ} {ms : List (String × Value)}
    (takes : r.Takes s ms t) (rest : List UInt8) :
    readMembers r true s (bytesOf (Value.memberChars ms) ++ closeObject :: rest) =
      .ok (t, closeObject :: rest) := by
  cases takes with
  | nil => exact readMembers_nil rfl
  | @cons _ s' _ name v ms first others =>
    have next := (nextName_written name (colon :: (v.bytes ++ membersAfter rest ms))).1
    rw [← bytesOf_memberChars] at next
    exact (readMembers_cons next (first _ (endsNumber_membersAfter rest ms))).trans
      (readMembers_membersAfter others rest)

/-! ## Records -/

namespace Member

/-- What is written of a member is read back, and what is not written is what its absence stands
for. -/
structure Faithful (m : Member) : Prop where
  reads (v : m.Val) : m.omitted v = false → m.codec.ReadsBack v
  absent (v : m.Val) : m.omitted v = true → m.absent = some v

variable {c : Codec α}

theorem faithful_required (name : String) (faithful : c.Faithful) : (required name c).Faithful :=
  ⟨fun v _ => faithful.reads v, nofun⟩

theorem faithful_withDefault (name : String) (faithful : c.Faithful) (a : α) :
    (withDefault name c a).Faithful :=
  ⟨fun v _ => faithful.reads v, nofun⟩

theorem faithful_optional (name : String) (faithful : c.Faithful) : (optional name c).Faithful :=
  ⟨fun o _ => Codec.readsBack_optional faithful o, nofun⟩

theorem faithful_unlessNone (name : String) (faithful : c.Faithful) :
    (unlessNone name c).Faithful := by
  refine ⟨fun o _ => Codec.readsBack_optional faithful o, fun o omitted => ?_⟩
  rw [Option.isNone_iff_eq_none.1 omitted]
  rfl

end Member

theorem readMember_written {m : Member} (faithful : m.Faithful) {v : m.Val}
    (written : m.omitted v = false) {rest : List UInt8} (ends : EndsNumber rest) :
    readMember m (colon :: ((m.codec.write v).bytes ++ rest)) = .ok (v, rest) :=
  faithful.reads v written rest ends

namespace Draft

def written : (ms : List Member) → Row ms → Draft ms
  | [], _ => ()
  | m :: ms, (v, row) => (if m.omitted v then none else some v, written ms row)

theorem finish_written {ms : List Member} (faithful : ∀ m ∈ ms, m.Faithful) (row : Row ms) :
    finish ms (written ms row) = .ok row := by
  induction ms with
  | nil => rfl
  | cons m ms ih =>
    obtain ⟨v, row⟩ := row
    obtain ⟨first, others⟩ := List.forall_mem_cons.1 faithful
    have value : ((if m.omitted v then none else some v) <|> m.absent) = some v := by
      cases omitted : m.omitted v with
      | true => exact first.absent v omitted
      | false => rfl
    rw [written, finish, value]
    simp only [ih others row]
    rfl

theorem takes_cons {m : Member} {ms : List Member} {draft draft' : Draft ms}
    {members : List (String × Value)} (takes : (reader ms).Takes draft members draft')
    (others : ∀ p ∈ members, p.1 ≠ m.name) (o : Option m.Val) :
    (reader (m :: ms)).Takes (o, draft) members (o, draft') := by
  induction takes with
  | nil => exact .nil _
  | @cons s s' t name v members first _ ih =>
    obtain ⟨other, others⟩ := List.forall_mem_cons.1 others
    refine .cons (fun rest ends => ?_) (ih others)
    have read : take ms name s (colon :: (v.bytes ++ rest)) = .ok (s', rest) := first rest ends
    have skipped : take (m :: ms) name (o, s) (colon :: (v.bytes ++ rest)) =
        (take ms name s (colon :: (v.bytes ++ rest))).map fun p => ((o, p.1), p.2) :=
      if_neg other
    exact skipped.trans (by rw [read]; rfl)

theorem name_of_mem_members {ms : List Member} {row : Row ms} {p : String × Value}
    (mem : p ∈ Row.members ms row) : p.1 ∈ ms.map (·.name) := by
  induction ms with
  | nil => exact absurd mem List.not_mem_nil
  | cons m ms ih =>
    obtain ⟨v, row⟩ := row
    rw [Row.members] at mem
    rw [List.map_cons, List.mem_cons]
    split at mem
    · exact .inr (ih mem)
    · rcases List.mem_cons.1 mem with rfl | mem
      · exact .inl rfl
      · exact .inr (ih mem)

theorem takes_written {ms : List Member} (names : (ms.map (·.name)).Nodup)
    (faithful : ∀ m ∈ ms, m.Faithful) (row : Row ms) :
    (reader ms).Takes (empty ms) (Row.members ms row) (written ms row) := by
  induction ms with
  | nil => exact .nil _
  | cons m ms ih =>
    obtain ⟨v, row⟩ := row
    obtain ⟨new, names⟩ := List.nodup_cons.1 names
    obtain ⟨first, others⟩ := List.forall_mem_cons.1 faithful
    have elsewhere : ∀ p ∈ Row.members ms row, p.1 ≠ m.name := by
      intro p hp own
      have mem := name_of_mem_members hp
      rw [own] at mem
      exact new mem
    have rest (o : Option m.Val) := takes_cons (ih names others row) elsewhere o
    rw [Row.members, written]
    cases omitted : m.omitted v with
    | true => exact rest none
    | false =>
      refine .cons (fun bytes ends => ?_) (rest (some v))
      have read := readMember_written first omitted ends
      have taken : take (m :: ms) m.name (none, empty ms)
          (colon :: ((m.codec.write v).bytes ++ bytes)) =
          (readMember m (colon :: ((m.codec.write v).bytes ++ bytes))).map
            fun p => ((some p.1, empty ms), p.2) := if_pos rfl
      exact taken.trans (by rw [read]; rfl)

end Draft

namespace Codec

/-- A row is read back if its members have different names and are faithful. -/
theorem faithful_row (label : String) {ms : List Member} (names : (ms.map (·.name)).Nodup)
    (faithful : ∀ m ∈ ms, m.Faithful) : (row label ms).Faithful := by
  refine ⟨fun a rest _ => ?_, fun a => ⟨_, _, rfl, by unfold Opens; decide⟩⟩
  have members := readMembers_written (Draft.takes_written names faithful a) rest
  have start : readRow label ms openObject
      (bytesOf (Value.memberChars (Row.members ms a)) ++ closeObject :: rest) = .ok (a, rest) := by
    rw [readRow, if_pos rfl, readObjectRow, members]
    simp only [Draft.finish_written faithful]
    rfl
  have written : ((row label ms).write a).bytes ++ rest = _ := Value.bytes_object _ rest
  rw [written]
  exact (Reader.run_ofStart readRow_length_le rfl _).trans start

theorem faithful_record (label : String) {ms : List Member} {make : Row ms → α} {view : α → Row ms}
    (names : (ms.map (·.name)).Nodup) (faithful : ∀ m ∈ ms, m.Faithful)
    (back : ∀ a, make (view a) = a) : (record label ms make view).Faithful :=
  (faithful_row label names faithful).iso back

end Codec

/-! ## Choices -/

/-- How a variant may be written: by its name alone if it is a unit, else as its name and what it
holds. -/
inductive Variant.Writes (variants : List (Variant α)) (a : α) : Value → Prop
  | unit {name : String} (found : variants.find? (·.name == name) = some ⟨name, .unit a⟩) :
    Writes variants a (.text name)
  | holds {name form : String} {r : Reader α} {v : Value}
    (found : variants.find? (·.name == name) = some ⟨name, .holds form r⟩)
    (reads : ∀ rest, EndsNumber rest → r.run (v.bytes ++ rest) = .ok (a, rest)) :
    Writes variants a (.object [(name, v)])

namespace Variant.Writes

variable {variants : List (Variant α)} {a : α} {v : Value}

theorem reads (writes : Writes variants a v) (rest : List UInt8) :
    (Reader.ofStart (readChoice variants) readChoice_length_le).run (v.bytes ++ rest) =
      .ok (a, rest) := by
  cases writes with
  | @unit name found =>
    have start : readChoice variants quote
        (bytesOf (name.toList.flatMap escapeChar) ++ quote :: rest) = .ok (a, rest) := by
      rw [readChoice, if_neg (by decide), if_pos rfl, readText_written]
      simp only [payloadOf, found, bind, Except.bind]
    rw [Value.bytes_text]
    exact (Reader.run_ofStart readChoice_length_le rfl _).trans start
  | @holds name form r v found reads =>
    have read := reads (closeObject :: rest) (endsNumber_membersAfter rest [])
    have named (rest : List UInt8) : variantName (quote :: (bytesOf (name.toList.flatMap escapeChar) ++
        quote :: rest)) = .ok (name, rest) := readText_written name rest
    have colon (rest : List UInt8) : skipColon (colon :: rest) = .ok rest := rfl
    have start : readChoice variants openObject
        (bytesOf (Value.memberChars [(name, v)]) ++ closeObject :: rest) = .ok (a, rest) := by
      rw [bytesOf_memberChars, readChoice, if_pos rfl, named]
      simp only [payloadOf, found, bind, Except.bind, colon, Payload.reader, membersAfter, read]
      rfl
    rw [Value.bytes_object]
    exact (Reader.run_ofStart readChoice_length_le rfl _).trans start

theorem opens (writes : Writes variants a v) : ∃ b more, v.bytes = b :: more ∧ Opens b := by
  cases writes with
  | @unit name => exact ⟨quote, _, bytesOf_writeText name, by unfold Opens; decide⟩
  | holds => exact ⟨openObject, _, rfl, by unfold Opens; decide⟩

end Variant.Writes

theorem Codec.faithful_choice {variants : List (Variant α)} {write : α → Value}
    (writes : ∀ a, Variant.Writes variants a (write a)) : (choice variants write).Faithful :=
  ⟨fun a rest _ => (writes a).reads rest, fun a => (writes a).opens⟩

/-! ## Whole texts -/

namespace Codec

/-- What is written for a value is a text of that value, and whatever text has a value, the text that
is written for it has the same value and is written again. -/
def RoundTrips (c : Codec α) : Prop :=
  (∀ a, c.decode (utf8 (c.encode a)) = .ok a) ∧
    ∀ text a, c.decode text = .ok a →
      ∃ a', c.decode (utf8 (c.encode a)) = .ok a' ∧ a' = a ∧ c.encode a' = c.encode a

theorem Faithful.roundTrips {c : Codec α} (faithful : c.Faithful) : c.RoundTrips := by
  have back (a : α) : c.decode (utf8 (c.encode a)) = .ok a := by
    have read := faithful.reads a [] nofun
    rw [List.append_nil] at read
    rw [decode, utf8_encode, read]
    rfl
  exact ⟨back, fun _ a _ => ⟨a, back a, rfl, rfl⟩⟩

end Codec

end KeyArbiter.Json
