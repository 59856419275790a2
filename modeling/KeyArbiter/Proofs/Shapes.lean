import KeyArbiter.Proofs.Objects
import Mathlib

/-!
# What is read as a record

A text that is read as a record is an object or a list with blanks around it, and with nothing else:
so what it is read as can be told from its members or its items.
-/

namespace KeyArbiter.Json

variable {α σ : Type} {bytes rest : List UInt8}

def Codec.Grammatical (c : Codec α) : Prop :=
  ∀ ⦃bytes rest : List UInt8⦄ ⦃a : α⦄, c.read.run bytes = .ok (a, rest) →
    ∃ ws v, Blank ws ∧ Form .value v ∧ bytes = ws ++ (v ++ rest)

theorem exists_of_ofStart {start : UInt8 → List UInt8 → Except Fault (α × List UInt8)}
    (length_le : ∀ {b : UInt8} {bytes rest : List UInt8} {a : α},
      start b bytes = .ok (a, rest) → rest.length ≤ bytes.length)
    {a : α} (h : (Reader.ofStart start length_le).run bytes = .ok (a, rest)) :
    ∃ ws b tail, Blank ws ∧ bytes = ws ++ b :: tail ∧ start b tail = .ok (a, rest) := by
  simp only [Reader.ofStart] at h
  split at h
  · cases h
  · next b tail eq =>
    obtain ⟨ws, blank, split⟩ := blanks_before eq
    exact ⟨ws, b, tail, blank, split, h⟩

theorem Codec.grammatical_flag : flag.Grammatical := by
  intro bytes rest b h
  obtain ⟨ws, first, tail, blank, rfl, start⟩ := exists_of_ofStart readFlag_length_le h
  unfold readFlag at start
  split at start
  · next is =>
    obtain ⟨r, literal, same⟩ := exists_of_map_eq_ok start
    cases same
    exact ⟨ws, _, blank, .flag true, by rw [is, eq_of_literal literal]; rfl⟩
  split at start
  · next is =>
    obtain ⟨r, literal, same⟩ := exists_of_map_eq_ok start
    cases same
    exact ⟨ws, _, blank, .flag false, by rw [is, eq_of_literal literal]; rfl⟩
  · cases start

/-! ## Objects -/

/-- What is left of an object before its closing bracket, if these members are still to come. -/
inductive MembersLeft (first : Bool) : List (String × List UInt8) → List UInt8 → Prop
  | none {ws : List UInt8} (blank : Blank ws) : MembersLeft first [] ws
  | some {lead w : List UInt8} {ps : List (String × List UInt8)} (turn : Turn first lead)
    (members : MembersForm ps w) : MembersLeft first ps (lead ++ w)

theorem MembersLeft.objectForm {ps : List (String × List UInt8)} {left : List UInt8}
    (members : MembersLeft true ps left) : ObjectForm ps (openObject :: (left ++ [closeObject])) := by
  cases members with
  | none blank => exact .empty blank
  | some turn members =>
    cases turn
    exact .filled members

theorem MembersLeft.cons {first : Bool} {lead ws quoted ws₁ ws₂ v left : List UInt8} {name : String}
    {ps : List (String × List UInt8)} (turn : Turn first lead) (before : Blank ws)
    (quotes : Quotes name quoted) (beforeColon : Blank ws₁) (afterColon : Blank ws₂)
    (value : Form .value v) (others : MembersLeft false ps left) :
    MembersLeft first ((name, v) :: ps)
      (lead ++ (ws ++ (quoted ++ (ws₁ ++ colon :: (ws₂ ++ (v ++ left)))))) := by
  cases others with
  | none after =>
    exact .some turn (.last (.mk before quotes beforeColon afterColon value after))
  | some next members =>
    cases next with
    | next after =>
      have all := MembersForm.more
        (.mk before quotes beforeColon afterColon value after) members
      simpa only [List.append_assoc, List.cons_append, List.nil_append] using
        MembersLeft.some turn all

theorem exists_of_readText {name : String} (h : readText bytes = .ok (name, rest)) :
    ∃ quoted, Quotes name quoted ∧ quote :: bytes = quoted ++ rest := by
  obtain ⟨body, spells, rfl⟩ := readText_eq_ok_iff.1 h
  refine ⟨_, .mk spells, ?_⟩
  rw [List.cons_append, List.append_assoc]
  rfl

theorem exists_of_nextName {first : Bool} {o : Option String}
    (h : nextName first bytes = .ok (o, rest)) :
    (o = none ∧ ∃ ws tail, Blank ws ∧ rest = closeObject :: tail ∧ bytes = ws ++ rest) ∨
      ∃ name lead ws quoted, o = some name ∧ Turn first lead ∧ Blank ws ∧ Quotes name quoted ∧
        bytes = lead ++ (ws ++ (quoted ++ rest)) := by
  unfold nextName at h
  split at h
  · cases h
  · next b tail eq =>
    obtain ⟨ws, blank, rfl⟩ := blanks_before eq
    split at h
    · next is =>
      cases h
      exact .inl ⟨rfl, ws, tail, blank, by rw [is], rfl⟩
    split at h
    · next isFirst =>
      subst isFirst
      split at h
      · next is =>
        obtain ⟨⟨name, _⟩, read, same⟩ := exists_of_map_eq_ok h
        cases same
        obtain ⟨quoted, quotes, split⟩ := exists_of_readText read
        exact .inr ⟨name, [], ws, quoted, rfl, .first, blank, quotes, by rw [is, split]; rfl⟩
      · cases h
    · next notFirst =>
      obtain rfl := Bool.eq_false_of_not_eq_true notFirst
      split at h
      · next comma =>
        split at h
        · cases h
        · next c after eq =>
          obtain ⟨ws', blank', rfl⟩ := blanks_before eq
          split at h
          · next is =>
            obtain ⟨⟨name, _⟩, read, same⟩ := exists_of_map_eq_ok h
            cases same
            obtain ⟨quoted, quotes, split⟩ := exists_of_readText read
            refine .inr ⟨name, _, ws', quoted, rfl, .next blank, blank', quotes, ?_⟩
            rw [comma, is, split, List.append_assoc]
            rfl
          split at h <;> cases h
      · cases h

def MemberReader.Grammatical (r : MemberReader σ) : Prop :=
  ∀ ⦃name : String⦄ ⦃s s' : σ⦄ ⦃bytes rest : List UInt8⦄, r.run name s bytes = .ok (s', rest) →
    ∃ ws ws' v, Blank ws ∧ Blank ws' ∧ Form .value v ∧
      bytes = ws ++ colon :: (ws' ++ (v ++ rest))

theorem Draft.grammatical_reader {ms : List Member} (grammatical : ∀ m ∈ ms, m.codec.Grammatical) :
    (Draft.reader ms).Grammatical := by
  intro name draft draft' bytes rest h
  induction ms with
  | nil =>
    obtain ⟨left, skipped, same⟩ := exists_of_map_eq_ok h
    cases same
    unfold skipMember at skipped
    split at skipped
    · next colon =>
      obtain ⟨ws, before, rfl⟩ := exists_of_skipColon colon
      obtain ⟨ws', v, after, form, rfl⟩ := exists_of_skipValue skipped
      exact ⟨ws, ws', v, before, after, form, rfl⟩
    · cases skipped
  | cons m ms ih =>
    obtain ⟨own, others⟩ := List.forall_mem_cons.1 grammatical
    obtain ⟨o, draft⟩ := draft
    simp only [Draft.reader, Draft.take] at h
    split at h
    · split at h
      · cases h
      · obtain ⟨⟨a, left⟩, read, same⟩ := exists_of_map_eq_ok h
        cases same
        unfold readMember at read
        split at read
        · next colon =>
          obtain ⟨ws, before, rfl⟩ := exists_of_skipColon colon
          obtain ⟨ws', v, after, form, rfl⟩ := own read
          exact ⟨ws, ws', v, before, after, form, rfl⟩
        · cases read
    · obtain ⟨⟨next, left⟩, taken, same⟩ := exists_of_map_eq_ok h
      cases same
      exact ih others taken

theorem exists_of_readMembers {r : MemberReader σ} (grammatical : r.Grammatical) {first : Bool}
    {s t : σ} (h : readMembers r first s bytes = .ok (t, rest)) :
    ∃ ps left more, MembersLeft first ps left ∧ rest = closeObject :: more ∧
      bytes = left ++ rest := by
  fun_induction readMembers r first s bytes with
  | case1 => cases h
  | case2 _ _ _ _ next =>
    cases h
    obtain ⟨-, ws, more, blank, last, split⟩ | ⟨_, _, _, _, ⟨⟩, -⟩ := exists_of_nextName next
    exact ⟨[], ws, more, .none blank, last, split⟩
  | case3 => cases h
  | case4 _ _ _ name start next _ _ read ih =>
    obtain ⟨ps, left, more, others, last, rfl⟩ := ih h
    obtain ⟨⟨⟩, -⟩ | ⟨_, lead, ws, quoted, ⟨⟩, turn, before, quotes, rfl⟩ := exists_of_nextName next
    obtain ⟨ws₁, ws₂, v, beforeColon, afterColon, value, rfl⟩ := grammatical read
    refine ⟨_, _, more, .cons turn before quotes beforeColon afterColon value others, last, ?_⟩
    simp only [List.append_assoc, List.cons_append]

theorem exists_of_readObjectRow {ms : List Member} (grammatical : ∀ m ∈ ms, m.codec.Grammatical)
    {row : Row ms} (h : readObjectRow ms bytes = .ok (row, rest)) :
    ∃ ps v, ObjectForm ps v ∧ openObject :: bytes = v ++ rest := by
  obtain ⟨draft, tail, read, -, ended⟩ := readObjectRow_eq_ok_iff.1 h
  obtain ⟨ps, left, more, members, rfl, rfl⟩ :=
    exists_of_readMembers (Draft.grammatical_reader grammatical) read
  cases (endObject_close more).symm.trans ended
  refine ⟨ps, _, members.objectForm, ?_⟩
  rw [List.cons_append, List.append_assoc]
  rfl

/-! ## Lists -/

theorem ItemsLeft.listForm {vs : List (List UInt8)} {left : List UInt8}
    (items : ItemsLeft true vs left) : ListForm vs (openList :: (left ++ [closeList])) := by
  cases items with
  | none blank => exact .empty blank
  | some turn items =>
    cases turn
    exact .filled items

theorem ItemsLeft.cons {first : Bool} {lead ws v left : List UInt8} {vs : List (List UInt8)}
    (turn : Turn first lead) (before : Blank ws) (value : Form .value v)
    (others : ItemsLeft false vs left) : ItemsLeft first (v :: vs) (lead ++ (ws ++ (v ++ left))) := by
  cases others with
  | none after => exact .some turn (.last before value after)
  | some next items =>
    cases next with
    | next after =>
      have all := ItemsForm.more before value after items
      simpa only [List.append_assoc, List.cons_append, List.nil_append] using ItemsLeft.some turn all

theorem exists_of_nextItem {first more : Bool} (h : nextItem first bytes = .ok (more, rest)) :
    (more = false ∧ ∃ ws tail, Blank ws ∧ rest = closeList :: tail ∧ bytes = ws ++ rest) ∨
      more = true ∧ ∃ lead ws, Turn first lead ∧ Blank ws ∧ bytes = lead ++ (ws ++ rest) := by
  unfold nextItem at h
  split at h
  · cases h
  · next b tail eq =>
    obtain ⟨ws, blank, rfl⟩ := blanks_before eq
    split at h
    · next is =>
      cases h
      exact .inl ⟨rfl, ws, tail, blank, by rw [is], rfl⟩
    split at h
    · next isFirst =>
      subst isFirst
      cases h
      exact .inr ⟨rfl, [], ws, .first, blank, rfl⟩
    · next notFirst =>
      obtain rfl := Bool.eq_false_of_not_eq_true notFirst
      split at h
      · next comma =>
        split at h
        · cases h
        · next c after eq =>
          obtain ⟨ws', blank', rfl⟩ := blanks_before eq
          split at h
          · cases h
          · cases h
            refine .inr ⟨rfl, _, ws', .next blank, blank', ?_⟩
            rw [comma, List.append_assoc]
            rfl
      · cases h

theorem exists_of_endList (h : endList bytes = .ok rest) :
    ∃ ws, Blank ws ∧ bytes = ws ++ closeList :: rest := by
  unfold endList at h
  split at h
  · cases h
  · next b tail eq =>
    obtain ⟨ws, blank, rfl⟩ := blanks_before eq
    split at h
    · next is =>
      cases h
      exact ⟨ws, blank, by rw [is]⟩
    split at h
    · split at h <;> cases h
    · cases h

theorem exists_of_rowRead {tooShort : Nat → Cause} {ms : List Member}
    (grammatical : ∀ m ∈ ms, m.codec.Grammatical) {index : Nat} {row : Row ms} {tail : List UInt8}
    (h : Row.read tooShort ms index bytes = .ok (row, tail)) (ended : endList tail = .ok rest) :
    ∃ vs left, ItemsLeft (index == 0) vs left ∧ bytes = left ++ closeList :: rest := by
  induction ms generalizing index bytes with
  | nil =>
    cases h
    obtain ⟨ws, blank, rfl⟩ := exists_of_endList ended
    exact ⟨[], ws, .none blank, rfl⟩
  | cons m ms ih =>
    obtain ⟨own, others⟩ := List.forall_mem_cons.1 grammatical
    simp only [Row.read] at h
    split at h
    · cases h
    · next start next =>
      obtain ⟨⟨⟩, -⟩ | ⟨-, lead, ws, turn, before, rfl⟩ := exists_of_nextItem next
      split at h
      · cases h
      · next read =>
        obtain ⟨⟨row', left⟩, later, same⟩ := exists_of_map_eq_ok h
        cases same
        obtain ⟨ws', v, before', value, rfl⟩ := own read
        obtain ⟨vs, left, items, rfl⟩ := ih others later
        refine ⟨_, _, .cons turn (before.append before') value items, ?_⟩
        simp only [List.append_assoc]
    · next start next =>
      obtain ⟨-, ws, more, blank, rfl, rfl⟩ | ⟨⟨⟩, -⟩ := exists_of_nextItem next
      split at h
      · cases h
      · obtain ⟨⟨row', left⟩, later, same⟩ := exists_of_map_eq_ok h
        cases same
        obtain ⟨vs, left, items, split⟩ := ih others later
        have closed : endList (left ++ closeList :: rest) = .ok more := split ▸ endList_end .nil more
        obtain ⟨-, rfl⟩ := (endList_iff items).1 closed
        exact ⟨[], ws, .none blank, rfl⟩

theorem exists_of_readListRow {label : String} {ms : List Member}
    (grammatical : ∀ m ∈ ms, m.codec.Grammatical) {row : Row ms}
    (h : readListRow label ms bytes = .ok (row, rest)) :
    ∃ vs v, ListForm vs v ∧ openList :: bytes = v ++ rest := by
  obtain ⟨tail, read, ended⟩ := readListRow_eq_ok_iff.1 h
  obtain ⟨vs, left, items, rfl⟩ := exists_of_rowRead grammatical read ended
  refine ⟨vs, _, items.listForm, ?_⟩
  rw [List.cons_append, List.append_assoc]
  rfl

/-! ## Whole texts -/

namespace Codec

theorem exists_of_row {label : String} {ms : List Member}
    (grammatical : ∀ m ∈ ms, m.codec.Grammatical) {row : Row ms}
    (h : (Codec.row label ms).read.run bytes = .ok (row, rest)) :
    ∃ ws v, Blank ws ∧ ((∃ ps, ObjectForm ps v) ∨ ∃ vs, ListForm vs v) ∧
      bytes = ws ++ (v ++ rest) := by
  obtain ⟨ws, b, tail, blank, rfl, start⟩ := exists_of_ofStart readRow_length_le h
  unfold readRow at start
  split at start
  · next is =>
    obtain ⟨ps, v, object, split⟩ := exists_of_readObjectRow grammatical start
    exact ⟨ws, v, blank, .inl ⟨ps, object⟩, by rw [is, split]⟩
  split at start
  · next is =>
    obtain ⟨vs, v, list, split⟩ := exists_of_readListRow grammatical start
    exact ⟨ws, v, blank, .inr ⟨vs, list⟩, by rw [is, split]⟩
  · cases start

theorem decode_iso {β : Type} (c : Codec α) (make : α → β) (view : β → α) (text : List UInt8) :
    (c.iso make view).decode text = (c.decode text).map make := by
  simp only [decode, iso, Reader.map]
  cases c.read.run text with
  | error e => rfl
  | ok p =>
    simp only
    split <;> rfl

/-- A text is read as a record exactly if it is an object whose members tell of that, or a list whose
items do so in order, with blanks around it. -/
theorem decode_record_iff (label : String) {ms : List Member} (names : (ms.map (·.name)).Nodup)
    (exact : ∀ m ∈ ms, m.codec.Exact) (grammatical : ∀ m ∈ ms, m.codec.Grammatical)
    (make : Row ms → α) (view : α → Row ms) {text : List UInt8} {a : α} :
    (record label ms make view).decode text = .ok a ↔
      ∃ v, Around v text ∧ ((∃ ps, ObjectForm ps v ∧ ∃ row, Row.Holds ms ps row ∧ make row = a) ∨
        ∃ vs, ListForm vs v ∧ ∃ row, Row.InOrder ms vs row ∧ make row = a) := by
  constructor
  · intro read
    have same := decode_iso (Codec.row label ms) make view text
    obtain ⟨row, readRow, -⟩ := exists_of_map_eq_ok (same.symm.trans read)
    obtain ⟨ws', after, run⟩ := decode_eq_ok_iff.1 readRow
    obtain ⟨ws, v, before, form, rfl⟩ := exists_of_row grammatical run
    have around : Around v (ws ++ (v ++ ws')) := .mk before after
    refine ⟨v, around, form.imp ?_ ?_⟩
    · rintro ⟨ps, object⟩
      have reads := record_object label names exact make view object
      exact ⟨ps, object, (reads.decode_eq_ok_iff around a).1 read⟩
    · rintro ⟨vs, list⟩
      have reads := (row_list label exact list).iso make view
      exact ⟨vs, list, (reads.decode_eq_ok_iff around a).1 read⟩
  · rintro ⟨v, around, ⟨ps, object, holds⟩ | ⟨vs, list, inOrder⟩⟩
    · have reads := record_object label names exact make view object
      exact (reads.decode_eq_ok_iff around a).2 holds
    · have reads := (row_list label exact list).iso make view
      exact (reads.decode_eq_ok_iff around a).2 inOrder

end Codec

end KeyArbiter.Json
