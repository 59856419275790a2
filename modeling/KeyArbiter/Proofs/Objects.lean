import KeyArbiter.Proofs.Exactness
import Mathlib

/-!
# Records read off objects and lists

A record is read off an object by the names of its members, whatever their order and whatever else is
there, and off a list by their order. Each member is listed once, or has a value to stand for it.
-/

namespace KeyArbiter.Json

variable {α σ : Type}

/-! ## All members of an object -/

/-- What a reader of members does with one of them is what `P` says. -/
def MemberReader.ReadsAs (r : MemberReader σ) (P : String × List UInt8 → σ → σ → Prop) : Prop :=
  ∀ ⦃name : String⦄ ⦃v : List UInt8⦄, Form .value v →
    ∀ ⦃ws ws' rest more : List UInt8⦄ ⦃s s' : σ⦄, Blank ws → Blank ws' → EndsNumber rest →
      (r.run name s (ws ++ colon :: (ws' ++ (v ++ rest))) = .ok (s', more) ↔
        P (name, v) s s' ∧ more = rest)

inductive Steps (P : String × List UInt8 → σ → σ → Prop) : σ → List (String × List UInt8) → σ → Prop
  | nil (s : σ) : Steps P s [] s
  | cons {s s' t : σ} {p : String × List UInt8} {ps : List (String × List UInt8)}
    (first : P p s s') (others : Steps P s' ps t) : Steps P s (p :: ps) t

theorem Steps.nil_iff {P : String × List UInt8 → σ → σ → Prop} {s t : σ} :
    Steps P s [] t ↔ t = s := by
  constructor
  · rintro ⟨⟩
    rfl
  · rintro rfl
    exact .nil t

theorem Steps.cons_iff {P : String × List UInt8 → σ → σ → Prop} {s t : σ}
    {p : String × List UInt8} {ps : List (String × List UInt8)} :
    Steps P s (p :: ps) t ↔ ∃ s', P p s s' ∧ Steps P s' ps t := by
  constructor
  · rintro ⟨⟩
    exact ⟨_, ‹_›, ‹_›⟩
  · rintro ⟨s', first, others⟩
    exact .cons first others

/-- What stands before a member or an item: nothing, or the comma after the one before. -/
inductive Turn : Bool → List UInt8 → Prop
  | first : Turn true []
  | next {ws : List UInt8} (blank : Blank ws) : Turn false (ws ++ [comma])

section Members

variable {r : MemberReader σ} {first : Bool} {s t : σ} {name : String}
  {ws lead bytes rest more : List UInt8}

theorem readMembers_eq {start : List UInt8} (next : nextName first bytes = .ok (some name, start)) :
    readMembers r first s bytes = r.run name s start >>= fun p => readMembers r false p.1 p.2 := by
  rw [readMembers]
  split <;> rename_i here <;> rw [next] at here <;> cases here
  split <;> rename_i there <;> rw [there] <;> rfl

theorem nextName_end (blank : Blank ws) (first : Bool) (rest : List UInt8) :
    nextName first (ws ++ closeObject :: rest) = .ok (none, closeObject :: rest) := by
  simp only [nextName, blank.skipBlank_append, skipBlank_of_solid (b := closeObject) rfl, if_true]

theorem nextName_quoted {quoted : List UInt8} (turn : Turn first lead) (blank : Blank ws)
    (quotes : Quotes name quoted) (rest : List UInt8) :
    nextName first (lead ++ (ws ++ (quoted ++ rest))) = .ok (some name, rest) := by
  obtain @⟨body, spells⟩ := quotes
  have read : readText (body ++ quote :: rest) = .ok (name, rest) :=
    readText_eq_ok_iff.2 ⟨body, spells, rfl⟩
  have start : skipBlank (ws ++ (quote :: (body ++ [quote]) ++ rest)) =
      quote :: (body ++ quote :: rest) := by
    rw [blank.skipBlank_append, List.cons_append, skipBlank_of_solid rfl, List.append_assoc]
    rfl
  have closing : quote ≠ closeObject := by decide
  cases turn with
  | first =>
    simp only [nextName, List.nil_append, start, closing, if_false, if_true, read]
    rfl
  | @next ws' before =>
    have comma : skipBlank (ws' ++ [comma] ++ (ws ++ (quote :: (body ++ [quote]) ++ rest))) =
        comma :: (ws ++ (quote :: (body ++ [quote]) ++ rest)) := by
      rw [List.append_assoc, before.skipBlank_append]
      exact skipBlank_of_solid rfl _
    have other : Json.comma ≠ closeObject := by decide
    simp only [nextName, comma, other, Bool.false_eq_true, if_false, if_true, start, read]
    rfl

variable {P : String × List UInt8 → σ → σ → Prop}

theorem readMembers_member {p : String × List UInt8} {w tail : List UInt8} (member : MemberForm p w)
    (reads : r.ReadsAs P) (turn : Turn first lead) (ends : EndsNumber tail) :
    ∃ ws, Blank ws ∧ ∀ {s t more}, readMembers r first s (lead ++ (w ++ tail)) = .ok (t, more) ↔
      ∃ s', P p s s' ∧ readMembers r false s' (ws ++ tail) = .ok (t, more) := by
  obtain @⟨name, ws, quoted, ws₁, ws₂, v, ws', before, quotes, beforeColon, afterColon, value, after⟩ :=
    member
  have ends := after.endsNumber ends
  refine ⟨ws', after, fun {s t more} => ?_⟩
  simp only [List.append_assoc, List.cons_append]
  rw [readMembers_eq (nextName_quoted turn before quotes _)]
  constructor
  · intro h
    obtain ⟨⟨s', rest⟩, read, others⟩ := exists_of_bind_eq_ok h
    obtain ⟨step, rfl⟩ := (reads value beforeColon afterColon ends).1 read
    exact ⟨s', step, others⟩
  · rintro ⟨s', step, others⟩
    rw [(reads value beforeColon afterColon ends).2 ⟨step, rfl⟩]
    exact others

theorem readMembers_members {ps : List (String × List UInt8)} {w : List UInt8}
    (members : MembersForm ps w) (reads : r.ReadsAs P) (turn : Turn first lead) :
    readMembers r first s (lead ++ (w ++ closeObject :: rest)) = .ok (t, more) ↔
      Steps P s ps t ∧ more = closeObject :: rest := by
  induction members generalizing first lead s with
  | last member =>
    obtain ⟨ws, blank, taken⟩ :=
      readMembers_member member reads turn (endsNumber_closing .object rest)
    have ended (s' : σ) : readMembers r false s' (ws ++ closeObject :: rest) = .ok (t, more) ↔
        Steps P s' [] t ∧ more = closeObject :: rest := by
      rw [readMembers_nil (nextName_end blank false rest), Steps.nil_iff]
      simp only [Except.ok.injEq, Prod.mk.injEq, eq_comm]
    refine taken.trans ?_
    simp only [Bracket.closing, ended, Steps.cons_iff, exists_and_right, ← and_assoc]
  | @more p ps w w' member _ ih =>
    obtain ⟨ws, blank, taken⟩ :=
      readMembers_member member reads turn (endsNumber_comma (w' ++ closeObject :: rest))
    have others (s' : σ) : readMembers r false s' (ws ++ comma :: (w' ++ closeObject :: rest)) =
        .ok (t, more) ↔ Steps P s' ps t ∧ more = closeObject :: rest := by
      rw [← ih (.next blank), List.append_assoc]
      rfl
    rw [List.append_assoc]
    refine taken.trans ?_
    simp only [others, Steps.cons_iff, exists_and_right, ← and_assoc]

theorem readMembers_object {ps : List (String × List UInt8)} {inner : List UInt8}
    (object : ObjectForm ps (openObject :: inner)) (reads : r.ReadsAs P) :
    readMembers r true s (inner ++ rest) = .ok (t, more) ↔
      Steps P s ps t ∧ more = closeObject :: rest := by
  cases object with
  | @empty ws blank =>
    rw [List.append_assoc, List.singleton_append, readMembers_nil (nextName_end blank true rest),
      Steps.nil_iff]
    simp only [Except.ok.injEq, Prod.mk.injEq, eq_comm]
  | filled members =>
    rw [List.append_assoc, List.singleton_append]
    exact readMembers_members members reads .first

end Members

/-! ## Drafts -/

/-- The values that are listed under a name, in their order. -/
def valuesOf (name : String) (ps : List (String × List UInt8)) : List (List UInt8) :=
  (ps.filter (·.1 = name)).map Prod.snd

@[simp] theorem valuesOf_append (name : String) (ps qs : List (String × List UInt8)) :
    valuesOf name (ps ++ qs) = valuesOf name ps ++ valuesOf name qs := by
  unfold valuesOf
  rw [List.filter_append, List.map_append]

theorem valuesOf_self (name : String) (v : List UInt8) : valuesOf name [(name, v)] = [v] := by
  simp [valuesOf]

theorem valuesOf_of_ne {name other : String} (ne : other ≠ name) (v : List UInt8) :
    valuesOf name [(other, v)] = [] := by
  simp [valuesOf, ne]

/-- What a draft has of a member, given the values under its name so far. -/
inductive Member.Tells (m : Member) : List (List UInt8) → Option m.Val → Prop
  | unlisted : m.Tells [] none
  | listed {v : List UInt8} {a : m.Val} (alone : m.codec.Alone v a) : m.Tells [v] (some a)

namespace Member.Tells

variable {m : Member} {vs : List (List UInt8)} {o o' : Option m.Val}

theorem unique (tells : m.Tells vs o) (tells' : m.Tells vs o') : o' = o := by
  cases tells with
  | unlisted => cases tells'; rfl
  | listed alone =>
    cases tells' with
    | listed alone' =>
      have same := Except.ok.inj (alone.symm.trans alone')
      rw [(Prod.mk.inj same).1]

theorem exists_of_append {vs' : List (List UInt8)} (tells : m.Tells (vs ++ vs') o) :
    ∃ o', m.Tells vs o' := by
  cases vs with
  | nil => exact ⟨none, .unlisted⟩
  | cons v vs =>
    generalize eq : v :: vs ++ vs' = all at tells
    cases tells with
    | unlisted => cases eq
    | listed alone =>
      obtain ⟨rfl, rest⟩ := List.cons_eq_cons.1 eq
      obtain ⟨rfl, -⟩ := List.append_eq_nil_iff.1 rest
      exact ⟨_, .listed alone⟩

theorem snoc_iff (tells : m.Tells vs o) (v : List UInt8) :
    m.Tells (vs ++ [v]) o' ↔ o = none ∧ ∃ a, m.codec.Alone v a ∧ o' = some a := by
  constructor
  · intro more
    cases tells with
    | unlisted =>
      cases more with
      | listed alone => exact ⟨rfl, _, alone, rfl⟩
    | listed => nomatch more
  · rintro ⟨rfl, a, alone, rfl⟩
    cases tells
    exact .listed alone

end Member.Tells

namespace Draft

def Step : (ms : List Member) → String × List UInt8 → Draft ms → Draft ms → Prop
  | [], _, _, _ => True
  | m :: ms, p, (o, draft), (o', draft') =>
    if p.1 = m.name then o = none ∧ (∃ a, m.codec.Alone p.2 a ∧ o' = some a) ∧ draft' = draft
    else o' = o ∧ Step ms p draft draft'

def Tells : (ms : List Member) → List (String × List UInt8) → Draft ms → Prop
  | [], _, _ => True
  | m :: ms, ps, (o, draft) => m.Tells (valuesOf m.name ps) o ∧ Tells ms ps draft

variable {ms : List Member} {ps : List (String × List UInt8)} {draft draft' : Draft ms}

theorem tells_empty (ms : List Member) : Tells ms [] (empty ms) := by
  induction ms with
  | nil => trivial
  | cons m ms ih => exact ⟨.unlisted, ih⟩

theorem Tells.unique (tells : Tells ms ps draft) (tells' : Tells ms ps draft') : draft' = draft := by
  induction ms with
  | nil => rfl
  | cons m ms ih => exact Prod.ext (tells.1.unique tells'.1) (ih tells.2 tells'.2)

theorem Tells.exists_of_append {qs : List (String × List UInt8)} (tells : Tells ms (ps ++ qs) draft) :
    ∃ draft', Tells ms ps draft' := by
  induction ms with
  | nil => exact ⟨(), trivial⟩
  | cons m ms ih =>
    obtain ⟨first, others⟩ := tells
    rw [valuesOf_append] at first
    obtain ⟨o, first⟩ := first.exists_of_append
    obtain ⟨draft', others⟩ := ih others
    exact ⟨(o, draft'), first, others⟩

theorem tells_snoc_of_not_mem {p : String × List UInt8} (other : p.1 ∉ ms.map (·.name)) :
    Tells ms (ps ++ [p]) draft ↔ Tells ms ps draft := by
  induction ms with
  | nil => exact Iff.rfl
  | cons m ms ih =>
    obtain ⟨o, draft⟩ := draft
    rw [List.map_cons, List.mem_cons, not_or] at other
    have none : valuesOf m.name [p] = [] := valuesOf_of_ne other.1 p.2
    rw [Tells, Tells, valuesOf_append, none, List.append_nil, ih other.2]

/-- A step takes a draft that tells of the members so far to one that tells of the next one too. -/
theorem step_iff {p : String × List UInt8} (names : (ms.map (·.name)).Nodup)
    (tells : Tells ms ps draft) : Step ms p draft draft' ↔ Tells ms (ps ++ [p]) draft' := by
  induction ms with
  | nil => exact Iff.rfl
  | cons m ms ih =>
    obtain ⟨o, draft⟩ := draft
    obtain ⟨o', draft'⟩ := draft'
    obtain ⟨new, names⟩ := List.nodup_cons.1 names
    obtain ⟨first, others⟩ := tells
    rw [Step, Tells, valuesOf_append]
    split
    · next own =>
      have one : valuesOf m.name [p] = [p.2] := own ▸ valuesOf_self p.1 p.2
      have same : draft' = draft ↔ Tells ms ps draft' :=
        ⟨fun eq => eq ▸ others, fun others' => others.unique others'⟩
      have new : p.1 ∉ ms.map (·.name) := by rwa [own]
      rw [one, first.snoc_iff, tells_snoc_of_not_mem new, same, and_assoc]
    · next other =>
      have none : valuesOf m.name [p] = [] := valuesOf_of_ne other p.2
      have same : o' = o ↔ m.Tells (valuesOf m.name ps) o' :=
        ⟨fun eq => eq ▸ first, fun first' => first.unique first'⟩
      rw [none, List.append_nil, same, ih names others]

theorem steps_iff {qs : List (String × List UInt8)} (names : (ms.map (·.name)).Nodup)
    (tells : Tells ms ps draft) : Steps (Step ms) draft qs draft' ↔ Tells ms (ps ++ qs) draft' := by
  induction qs generalizing ps draft with
  | nil =>
    rw [Steps.nil_iff, List.append_nil]
    constructor
    · rintro rfl
      exact tells
    · exact tells.unique
  | cons p qs ih =>
    have split : ps ++ p :: qs = ps ++ [p] ++ qs := List.append_cons ps p qs
    rw [Steps.cons_iff, split]
    constructor
    · rintro ⟨next, step, others⟩
      exact (ih ((step_iff names tells).1 step)).1 others
    · intro all
      obtain ⟨next, told⟩ := all.exists_of_append
      exact ⟨next, (step_iff names tells).2 told, (ih told).2 all⟩

theorem reads_reader (exact : ∀ m ∈ ms, m.codec.Exact) : (reader ms).ReadsAs (Step ms) := by
  intro name v form ws ws' rest more draft draft' before after ends
  induction ms with
  | nil =>
    have skipped : skipMember (ws ++ colon :: (ws' ++ (v ++ rest))) = .ok rest := by
      rw [skipMember, skipColon_blank before]
      exact form.skipValue after ends
    have taken : (reader []).run name draft (ws ++ colon :: (ws' ++ (v ++ rest))) = .ok ((), rest) :=
      congrArg (Except.map _) skipped
    rw [taken]
    constructor
    · intro h
      cases h
      exact ⟨trivial, rfl⟩
    · rintro ⟨-, rfl⟩
      rfl
  | cons m ms ih =>
    obtain ⟨own, others⟩ := List.forall_mem_cons.1 exact
    obtain ⟨o, draft⟩ := draft
    obtain ⟨o', draft'⟩ := draft'
    simp only [reader, take, Step]
    split
    · cases o with
      | some a => simp only [reduceCtorEq, false_and]
      | none =>
        have read : readMember m (ws ++ colon :: (ws' ++ (v ++ rest))) =
            m.codec.read.run (ws' ++ (v ++ rest)) := by
          rw [readMember, skipColon_blank before]
        rw [read]
        constructor
        · intro h
          obtain ⟨⟨a, left⟩, value, eq⟩ := exists_of_map_eq_ok h
          cases eq
          obtain ⟨alone, rfl⟩ := (own v form after ends).1 value
          exact ⟨⟨rfl, ⟨a, alone, rfl⟩, rfl⟩, rfl⟩
        · rintro ⟨⟨-, ⟨a, alone, rfl⟩, rfl⟩, rfl⟩
          rw [(own v form after ends).2 ⟨alone, rfl⟩]
          rfl
    · constructor
      · intro h
        obtain ⟨⟨next, left⟩, value, eq⟩ := exists_of_map_eq_ok h
        cases eq
        obtain ⟨step, rfl⟩ := (ih others).1 value
        exact ⟨⟨rfl, step⟩, rfl⟩
      · rintro ⟨⟨rfl, step⟩, rfl⟩
        have value := (ih others).2 ⟨step, rfl⟩
        exact congrArg (Except.map _) value

end Draft

/-! ## Objects -/

/-- What the values under a member's name stand for: a single one for what is read off it, and none
for what the member has when it is absent. -/
inductive Member.Holds (m : Member) : List (List UInt8) → m.Val → Prop
  | listed {v : List UInt8} {a : m.Val} (alone : m.codec.Alone v a) : m.Holds [v] a
  | omitted {a : m.Val} (absent : m.absent = some a) : m.Holds [] a

def Row.Holds : (ms : List Member) → List (String × List UInt8) → Row ms → Prop
  | [], _, _ => True
  | m :: ms, ps, (a, row) => m.Holds (valuesOf m.name ps) a ∧ Holds ms ps row

theorem Row.Holds.length_le_one {ms : List Member} {ps : List (String × List UInt8)} {row : Row ms}
    (holds : Row.Holds ms ps row) : ∀ m ∈ ms, (valuesOf m.name ps).length ≤ 1 := by
  induction ms with
  | nil => exact List.forall_mem_nil _
  | cons m ms ih =>
    obtain ⟨first, others⟩ := holds
    refine List.forall_mem_cons.2 ⟨?_, ih others⟩
    generalize valuesOf m.name ps = vs at first
    cases first with
    | listed => exact le_rfl
    | omitted => exact Nat.zero_le 1

theorem Draft.finish_iff {ms : List Member} {ps : List (String × List UInt8)} {row : Row ms} :
    (∃ draft, Draft.Tells ms ps draft ∧ Draft.finish ms draft = .ok row) ↔ Row.Holds ms ps row := by
  induction ms with
  | nil => exact iff_of_true ⟨(), trivial, rfl⟩ trivial
  | cons m ms ih =>
    obtain ⟨a, row⟩ := row
    constructor
    · rintro ⟨⟨o, draft⟩, ⟨first, others⟩, finished⟩
      simp only [Draft.finish] at finished
      split at finished
      · next value =>
        obtain ⟨row', finished, eq⟩ := exists_of_map_eq_ok finished
        cases eq
        refine ⟨?_, ih.1 ⟨draft, others, finished⟩⟩
        generalize valuesOf m.name ps = vs at first
        cases first with
        | unlisted => exact .omitted value
        | listed alone =>
          cases value
          exact .listed alone
      · cases finished
    · rintro ⟨first, others⟩
      obtain ⟨draft, told, finished⟩ := ih.2 others
      have value : ∃ o, m.Tells (valuesOf m.name ps) o ∧ (o <|> m.absent) = some a := by
        generalize valuesOf m.name ps = vs at first
        cases first with
        | listed alone => exact ⟨some a, .listed alone, rfl⟩
        | omitted absent => exact ⟨none, .unlisted, absent⟩
      obtain ⟨o, own, value⟩ := value
      refine ⟨(o, draft), ⟨own, told⟩, ?_⟩
      simp only [Draft.finish, value, finished]
      rfl

theorem readObjectRow_eq_ok_iff {ms : List Member} {bytes more : List UInt8} {row : Row ms} :
    readObjectRow ms bytes = .ok (row, more) ↔
      ∃ draft rest, readMembers (Draft.reader ms) true (Draft.empty ms) bytes = .ok (draft, rest) ∧
        Draft.finish ms draft = .ok row ∧ endObject rest = .ok more := by
  unfold readObjectRow
  constructor
  · intro h
    split at h
    · cases h
    · next draft rest read =>
      split at h
      · cases h
      · next row' finished =>
        obtain ⟨left, ended, eq⟩ := exists_of_map_eq_ok h
        cases eq
        exact ⟨draft, rest, read, finished, ended⟩
  · rintro ⟨draft, rest, read, finished, ended⟩
    simp only [read, finished, ended]
    rfl

theorem ObjectForm.exists_cons {ps : List (String × List UInt8)} {v : List UInt8}
    (object : ObjectForm ps v) : ∃ inner, v = openObject :: inner := by
  cases object <;> exact ⟨_, rfl⟩

theorem endObject_close (rest : List UInt8) : endObject (closeObject :: rest) = .ok rest := rfl

namespace Codec

variable {ms : List Member}

/-- A row is read off an object by names: each member is listed once, in whatever place, or is absent
and has a value for that. -/
theorem row_object (label : String) (names : (ms.map (·.name)).Nodup)
    (exact : ∀ m ∈ ms, m.codec.Exact) {ps : List (String × List UInt8)} {v : List UInt8}
    (object : ObjectForm ps v) : (row label ms).ReadsAs v (Row.Holds ms ps) := by
  intro ws rest more a blank _
  obtain ⟨inner, rfl⟩ := object.exists_cons
  have start : (row label ms).read.run (ws ++ (openObject :: inner ++ rest)) =
      readObjectRow ms (inner ++ rest) := by
    simp only [row, Reader.ofStart, blank.skipBlank_append, List.cons_append,
      skipBlank_of_solid (b := openObject) rfl, readRow, if_true]
  rw [start, readObjectRow_eq_ok_iff, ← Draft.finish_iff]
  have reads := Draft.reads_reader exact
  constructor
  · rintro ⟨draft, left, read, finished, ended⟩
    obtain ⟨steps, rfl⟩ := (readMembers_object object reads).1 read
    cases (endObject_close rest).symm.trans ended
    exact ⟨⟨draft, (Draft.steps_iff names (Draft.tells_empty ms)).1 steps, finished⟩, rfl⟩
  · rintro ⟨⟨draft, told, finished⟩, rfl⟩
    have steps := (Draft.steps_iff names (Draft.tells_empty ms)).2 told
    exact ⟨draft, _, (readMembers_object object reads).2 ⟨steps, rfl⟩, finished,
      endObject_close more⟩

theorem record_object (label : String) (names : (ms.map (·.name)).Nodup)
    (exact : ∀ m ∈ ms, m.codec.Exact) (make : Row ms → α) (view : α → Row ms)
    {ps : List (String × List UInt8)} {v : List UInt8} (object : ObjectForm ps v) :
    (record label ms make view).ReadsAs v fun a => ∃ row, Row.Holds ms ps row ∧ make row = a :=
  (row_object label names exact object).iso make view

end Codec

/-! ## Lists -/

/-- What the items of a list stand for as a row: each for the member at its place, and where they have
run out, what a short list stands for. -/
def Row.InOrder : (ms : List Member) → List (List UInt8) → Row ms → Prop
  | [], vs, _ => vs = []
  | m :: ms, v :: vs, (a, row) => m.codec.Alone v a ∧ InOrder ms vs row
  | m :: ms, [], (a, row) => m.short = some a ∧ InOrder ms [] row

/-- What is left of a list before its closing bracket, if these items are still to come. -/
inductive ItemsLeft (first : Bool) : List (List UInt8) → List UInt8 → Prop
  | none {ws : List UInt8} (blank : Blank ws) : ItemsLeft first [] ws
  | some {lead w : List UInt8} {vs : List (List UInt8)} (turn : Turn first lead)
    (items : ItemsForm vs w) : ItemsLeft first vs (lead ++ w)

theorem ItemsForm.exists_cons {vs : List (List UInt8)} {w : List UInt8} (items : ItemsForm vs w) :
    ∃ ws v vs' left, Blank ws ∧ Form .value v ∧ vs = v :: vs' ∧ w = ws ++ (v ++ left) ∧
      ItemsLeft false vs' left := by
  cases items with
  | last before value after => exact ⟨_, _, [], _, before, value, rfl, rfl, .none after⟩
  | @more ws v ws' w vs before value after others =>
    have left := ItemsLeft.some (.next after) others
    rw [List.append_assoc] at left
    exact ⟨ws, v, vs, _, before, value, rfl, rfl, left⟩

theorem ItemsLeft.endsNumber {vs : List (List UInt8)} {left rest : List UInt8}
    (items : ItemsLeft false vs left) : EndsNumber (left ++ closeList :: rest) := by
  cases items with
  | none blank => exact blank.endsNumber (endsNumber_closing .list rest)
  | some turn =>
    cases turn with
    | next blank =>
      rw [List.append_assoc, List.append_assoc]
      exact blank.endsNumber (endsNumber_comma _)

section Items

variable {first : Bool} {lead ws v rest : List UInt8}

theorem nextItem_end (blank : Blank ws) (first : Bool) (rest : List UInt8) :
    nextItem first (ws ++ closeList :: rest) = .ok (false, closeList :: rest) := by
  simp only [nextItem, blank.skipBlank_append, skipBlank_of_solid (b := closeList) rfl, if_true]

theorem nextItem_value (turn : Turn first lead) (blank : Blank ws) (form : Form .value v)
    (rest : List UInt8) : nextItem first (lead ++ (ws ++ (v ++ rest))) = .ok (true, v ++ rest) := by
  obtain ⟨b, more, rfl, solid, other⟩ := form.exists_cons
  have start : skipBlank (ws ++ (b :: more ++ rest)) = b :: (more ++ rest) := by
    rw [blank.skipBlank_append, List.cons_append, skipBlank_of_solid solid]
  have inside : b ≠ closeList := other .list
  cases turn with
  | first =>
    simp only [nextItem, List.nil_append, start, inside, if_false, if_true]
    rfl
  | @next ws' before =>
    have comma : skipBlank (ws' ++ [comma] ++ (ws ++ (b :: more ++ rest))) =
        comma :: (ws ++ (b :: more ++ rest)) := by
      rw [List.append_assoc, before.skipBlank_append]
      exact skipBlank_of_solid rfl _
    have different : Json.comma ≠ closeList := by decide
    simp only [nextItem, comma, different, Bool.false_eq_true, if_false, if_true, start, inside]
    rfl

theorem endList_end (blank : Blank ws) (rest : List UInt8) :
    endList (ws ++ closeList :: rest) = .ok rest := by
  simp only [endList, blank.skipBlank_append, skipBlank_of_solid (b := closeList) rfl, if_true]

theorem endList_value (turn : Turn first lead) (blank : Blank ws) (form : Form .value v)
    (rest more : List UInt8) : endList (lead ++ (ws ++ (v ++ rest))) ≠ .ok more := by
  intro h
  unfold endList at h
  cases turn with
  | first =>
    obtain ⟨b, tail, rfl, solid, other⟩ := form.exists_cons
    have inside : b ≠ closeList := other .list
    rw [List.nil_append, blank.skipBlank_append, List.cons_append, skipBlank_of_solid solid] at h
    simp only [inside, if_false] at h
    split at h
    · split at h <;> cases h
    · cases h
  | @next ws' before =>
    have different : comma ≠ closeList := by decide
    rw [List.append_assoc, before.skipBlank_append, List.singleton_append,
      skipBlank_of_solid (b := comma) rfl] at h
    simp only [different, if_false, if_true] at h
    split at h <;> cases h

end Items

theorem endList_iff {first : Bool} {vs : List (List UInt8)} {left rest more : List UInt8}
    (items : ItemsLeft first vs left) :
    endList (left ++ closeList :: rest) = .ok more ↔ vs = [] ∧ more = rest := by
  cases items with
  | none blank =>
    rw [endList_end blank]
    constructor
    · intro h
      cases h
      exact ⟨rfl, rfl⟩
    · rintro ⟨-, rfl⟩
      rfl
  | some turn items =>
    obtain ⟨ws, v, vs', left, blank, form, rfl, rfl, -⟩ := items.exists_cons
    rw [List.append_assoc, List.append_assoc, List.append_assoc]
    exact iff_of_false (endList_value turn blank form _ _) nofun

theorem rowRead_iff {tooShort : Nat → Cause} {ms : List Member} (exact : ∀ m ∈ ms, m.codec.Exact)
    {index : Nat} {vs : List (List UInt8)} {left rest more : List UInt8} {row : Row ms}
    (items : ItemsLeft (index == 0) vs left) :
    (∃ tail, Row.read tooShort ms index (left ++ closeList :: rest) = .ok (row, tail) ∧
      endList tail = .ok more) ↔ Row.InOrder ms vs row ∧ more = rest := by
  induction ms generalizing index vs left with
  | nil =>
    rw [Row.InOrder, ← endList_iff items]
    constructor
    · rintro ⟨tail, read, ended⟩
      cases read
      exact ended
    · intro ended
      exact ⟨_, rfl, ended⟩
  | cons m ms ih =>
    obtain ⟨own, others⟩ := List.forall_mem_cons.1 exact
    obtain ⟨a, row⟩ := row
    cases items with
    | none blank =>
      have next := nextItem_end blank (index == 0) rest
      have still : ItemsLeft (index + 1 == 0) [] [] := .none .nil
      have later := @ih others (index + 1) [] [] row still
      rw [Row.InOrder, and_assoc, ← later]
      simp only [Row.read, next]
      constructor
      · rintro ⟨tail, read, ended⟩
        split at read
        · cases read
        · next short =>
          obtain ⟨⟨row', left⟩, others, eq⟩ := exists_of_map_eq_ok read
          cases eq
          exact ⟨short, _, others, ended⟩
      · rintro ⟨short, tail, read, ended⟩
        refine ⟨tail, ?_, ended⟩
        simp only [short]
        exact congrArg (Except.map _) read
    | some turn items =>
      obtain ⟨ws, v, vs, left, blank, form, rfl, rfl, still⟩ := items.exists_cons
      have next := nextItem_value turn blank form (left ++ closeList :: rest)
      have value {a : m.Val} {tail : List UInt8} := 
        @own v form [] (left ++ closeList :: rest) tail a .nil still.endsNumber
      have later := @ih others (index + 1) vs left row still
      rw [List.append_assoc, List.append_assoc, List.append_assoc]
      rw [Row.InOrder, and_assoc, ← later]
      simp only [Row.read, next]
      constructor
      · rintro ⟨tail, read, ended⟩
        split at read
        · cases read
        · next item =>
          obtain ⟨alone, rfl⟩ := value.1 item
          obtain ⟨⟨row', tail⟩, others, eq⟩ := exists_of_map_eq_ok read
          cases eq
          exact ⟨alone, _, others, ended⟩
      · rintro ⟨alone, tail, read, ended⟩
        refine ⟨tail, ?_, ended⟩
        have item := value.2 ⟨alone, rfl⟩
        rw [List.nil_append] at item
        simp only [item]
        exact congrArg (Except.map _) read

theorem readListRow_eq_ok_iff {label : String} {ms : List Member} {bytes more : List UInt8}
    {row : Row ms} : readListRow label ms bytes = .ok (row, more) ↔
      ∃ tail, Row.read (fun index => .invalidLength index (label ++ " with " ++
        counted ms.length "element")) ms 0 bytes = .ok (row, tail) ∧ endList tail = .ok more := by
  unfold readListRow
  constructor
  · intro h
    simp only at h
    split at h
    · cases h
    · next read =>
      obtain ⟨left, ended, eq⟩ := exists_of_map_eq_ok h
      cases eq
      exact ⟨_, read, ended⟩
  · rintro ⟨tail, read, ended⟩
    simp only [read, ended]
    rfl

/-- A row is read off a list by places, and from a list that is too short if what is missing may be. -/
theorem Codec.row_list (label : String) {ms : List Member} (exact : ∀ m ∈ ms, m.codec.Exact)
    {vs : List (List UInt8)} {v : List UInt8} (list : ListForm vs v) :
    (Codec.row label ms).ReadsAs v (Row.InOrder ms vs) := by
  intro ws rest more a blank _
  have left : ∃ inner, v = openList :: (inner ++ [closeList]) ∧ ItemsLeft (0 == 0) vs inner := by
    cases list with
    | empty blank => exact ⟨_, rfl, .none blank⟩
    | filled items => exact ⟨_, rfl, .some .first items⟩
  obtain ⟨inner, rfl, items⟩ := left
  have start : (row label ms).read.run (ws ++ (openList :: (inner ++ [closeList]) ++ rest)) =
      readListRow label ms (inner ++ closeList :: rest) := by
    have other : openList ≠ openObject := by decide
    simp only [row, Reader.ofStart, blank.skipBlank_append, List.cons_append, List.append_assoc,
      List.nil_append, skipBlank_of_solid (b := openList) rfl, readRow, other, if_false, if_true]
  rw [start, readListRow_eq_ok_iff]
  exact rowRead_iff exact items

end KeyArbiter.Json
