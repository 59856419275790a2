import KeyArbiter.Proofs.Objects
import KeyArbiter.Settings
import KeyArbiter.Wire.Event
import Mathlib

/-!
# Events and settings read by field

An object is read as an event or as settings by the names of its members. Their order makes no
difference, members of other names are passed over, whatever they hold, and a field that is not listed
has its default, if it has one.
-/

namespace KeyArbiter

open Json

namespace Json

variable {α : Type} {c : Codec α} {S : List UInt8 → α → Prop} {vs : List (List UInt8)} {a : α}

theorem MembersForm.form_of_mem {ps : List (String × List UInt8)} {w : List UInt8}
    (members : MembersForm ps w) : ∀ p ∈ ps, Form .value p.2 := by
  have value {p : String × List UInt8} {w : List UInt8} (member : MemberForm p w) :
      Form .value p.2 := by
    obtain ⟨-, -, -, -, value, -⟩ := member
    exact value
  induction members with
  | last member => exact List.forall_mem_singleton.2 (value member)
  | more member _ ih => exact List.forall_mem_cons.2 ⟨value member, ih⟩

theorem ObjectForm.form_of_mem {ps : List (String × List UInt8)} {v : List UInt8}
    (object : ObjectForm ps v) (name : String) : ∀ v ∈ valuesOf name ps, Form .value v := by
  have values : ∀ p ∈ ps, Form .value p.2 := by
    cases object with
    | empty => exact List.forall_mem_nil _
    | filled members => exact members.form_of_mem
  intro v mem
  obtain ⟨p, hp, rfl⟩ := List.mem_map.1 mem
  exact values p (List.mem_of_mem_filter hp)

namespace Member

theorem holds_iff {m : Member} {S : List UInt8 → m.Val → Prop} (spelled : m.codec.Spelled S)
    (forms : ∀ v ∈ vs, Form .value v) (a : m.Val) :
    m.Holds vs a ↔ (∃ v, vs = [v] ∧ S v a) ∨ vs = [] ∧ m.absent = some a := by
  constructor
  · intro holds
    cases holds with
    | @listed v _ alone =>
      exact .inl ⟨v, rfl, (spelled.alone_iff (forms v (List.mem_singleton_self v)) a).1 alone⟩
    | omitted absent => exact .inr ⟨rfl, absent⟩
  · rintro (⟨v, rfl, spells⟩ | ⟨rfl, absent⟩)
    · exact .listed ((spelled.alone_iff (forms v (List.mem_singleton_self v)) a).2 spells)
    · exact .omitted absent

theorem holds_required (name : String) (spelled : c.Spelled S) (forms : ∀ v ∈ vs, Form .value v)
    (a : α) : (required name c).Holds vs a ↔ ∃ v, vs = [v] ∧ S v a :=
  (holds_iff (m := required name c) spelled forms a).trans (or_iff_left nofun)

theorem holds_defaulted {m : Member} {S : List UInt8 → m.Val → Prop} {d : m.Val}
    (default : m.absent = some d) (spelled : m.codec.Spelled S) (forms : ∀ v ∈ vs, Form .value v)
    (a : m.Val) : m.Holds vs a ↔ (∃ v, vs = [v] ∧ S v a) ∨ vs = [] ∧ a = d := by
  rw [holds_iff spelled forms, default, Option.some.injEq, eq_comm (a := d)]

theorem holds_withDefault (name : String) (spelled : c.Spelled S)
    (forms : ∀ v ∈ vs, Form .value v) (d a : α) :
    (withDefault name c d).Holds vs a ↔ (∃ v, vs = [v] ∧ S v a) ∨ vs = [] ∧ a = d :=
  holds_defaulted (m := withDefault name c d) rfl spelled forms a

theorem holds_unlessNone (name : String) {S : List UInt8 → Option α → Prop}
    (spelled : c.optional.Spelled S) (forms : ∀ v ∈ vs, Form .value v) (o : Option α) :
    (unlessNone name c).Holds vs o ↔ (∃ v, vs = [v] ∧ S v o) ∨ vs = [] ∧ o = none :=
  holds_defaulted (m := unlessNone name c) rfl spelled forms o

end Member

theorem Spells.of_plain {bs : List UInt8} (plain : ∀ b ∈ bs, Plain b) : Spells bs bs := by
  induction bs with
  | nil => exact .nil
  | cons b bs ih =>
    obtain ⟨first, others⟩ := List.forall_mem_cons.1 plain
    exact .plain first (ih others)

theorem eq_of_mem_given {v w : List UInt8} {default : Prop} (given : vs = [w] ∨ vs = [] ∧ default)
    (mem : v ∈ vs) : v = w := by
  rcases given with rfl | ⟨rfl, -⟩
  · exact List.mem_singleton.1 mem
  · exact absurd mem List.not_mem_nil

theorem not_number_null : ¬ NumberForm (ascii "null") := by
  intro number
  have start : ascii "null" = 0x6e :: ascii "ull" := rfl
  generalize ascii "null" = v at number start
  obtain ⟨rfl | rfl, isWhole, -, -⟩ := number
  · obtain ⟨d, more, rfl, digit⟩ := isWhole.exists_cons
    obtain ⟨rfl, -⟩ := List.cons_eq_cons.1 start
    exact absurd digit (by decide)
  · exact absurd (List.cons_eq_cons.1 start).1 (by decide)

theorem Codec.spelled_optional_word64 : word64.optional.Spelled fun v o =>
    v = o.elim (ascii "null") fun w => numeral w.toNat := by
  refine spelled_word64.optional.congr fun v o => ?_
  cases o with
  | none => exact Iff.rfl
  | some w =>
    refine and_iff_left_of_imp ?_
    rintro rfl null
    obtain ⟨d, more, first, digit⟩ := isDigit_head_numeral w.toNat
    obtain ⟨rfl, -⟩ := List.cons_eq_cons.1 (first.symm.trans null)
    exact absurd digit (by decide)

end Json

theorem Modifiers.spelled : codec.Spelled fun v m => v = numeral m.bits.toNat := by
  refine (Codec.spelled_word32.iso Modifiers.mk (·.bits)).congr fun v m => ?_
  constructor
  · rintro ⟨w, rfl, rfl⟩
    rfl
  · rintro rfl
    exact ⟨m.bits, rfl, rfl⟩

/-! ## Events -/

namespace KeyEvent

/-- The members of an object are those of this event, each once, though what is at its default may be
left out. -/
structure ToldBy (ps : List (String × List UInt8)) (e : KeyEvent) : Prop where
  time : valuesOf "time" ps = [numeral e.time.toNat]
  isPress : valuesOf "is_press" ps = [ascii (flagText e.isPress)]
  keycode : valuesOf "keycode" ps = [numeral e.keycode.toNat]
  keyval : valuesOf "keyval" ps = [numeral e.keyval.toNat]
  modifiers : valuesOf "state" ps = [numeral e.modifiers.bits.toNat] ∨
    valuesOf "state" ps = [] ∧ e.modifiers = .none
  group : valuesOf "group" ps = [numeral e.group.toNat] ∨ valuesOf "group" ps = [] ∧ e.group = 0
  synthesized : valuesOf "synthesized" ps = [ascii (flagText e.synthesized)] ∨
    valuesOf "synthesized" ps = [] ∧ e.synthesized = false
  origin : valuesOf "origin" ps = [e.origin.elim (ascii "null") fun o => numeral o.toNat] ∨
    valuesOf "origin" ps = [] ∧ e.origin = none

theorem exact_members : ∀ m ∈ members, m.codec.Exact := by
  simp only [members, List.forall_mem_cons]
  exact ⟨Codec.spelled_word32.exact, Codec.spelled_flag.exact, Codec.spelled_word16.exact,
    Codec.spelled_word32.exact, Modifiers.spelled.exact, Codec.spelled_word8.exact,
    Codec.spelled_flag.exact, Codec.spelled_optional_word64.exact, List.forall_mem_nil _⟩

theorem toldBy_iff {ps : List (String × List UInt8)}
    (forms : ∀ name, ∀ v ∈ valuesOf name ps, Form .value v) (e : KeyEvent) :
    e.ToldBy ps ↔ Row.Holds members ps
      (e.time, e.isPress, e.keycode, e.keyval, e.modifiers, e.group, e.synthesized, e.origin, ()) := by
  have time := Member.holds_required "time" Codec.spelled_word32 (forms "time") e.time
  have isPress := Member.holds_required "is_press" Codec.spelled_flag (forms "is_press") e.isPress
  have keycode := Member.holds_required "keycode" Codec.spelled_word16 (forms "keycode") e.keycode
  have keyval := Member.holds_required "keyval" Codec.spelled_word32 (forms "keyval") e.keyval
  have state := Member.holds_withDefault "state" Modifiers.spelled (forms "state") .none e.modifiers
  have group := Member.holds_withDefault "group" Codec.spelled_word8 (forms "group") 0 e.group
  have synthesized := Member.holds_withDefault "synthesized" Codec.spelled_flag
    (forms "synthesized") false e.synthesized
  have origin := Member.holds_unlessNone "origin" Codec.spelled_optional_word64 (forms "origin")
    e.origin
  simp only [exists_eq_right] at time isPress keycode keyval state group synthesized origin
  constructor
  · rintro ⟨t, p, kc, kv, st, gr, sy, og⟩
    exact ⟨time.2 t, isPress.2 p, keycode.2 kc, keyval.2 kv, state.2 st, group.2 gr,
      synthesized.2 sy, origin.2 og, trivial⟩
  · rintro ⟨t, p, kc, kv, st, gr, sy, og, -⟩
    exact ⟨time.1 t, isPress.1 p, keycode.1 kc, keyval.1 kv, state.1 st, group.1 gr,
      synthesized.1 sy, origin.1 og⟩

theorem reads_object {ps : List (String × List UInt8)} {v : List UInt8} (object : ObjectForm ps v) :
    codec.ReadsAs v (ToldBy ps) := by
  refine (Codec.record_object _ (by decide) exact_members _ _ object).congr fun e => ?_
  rw [toldBy_iff object.form_of_mem]
  constructor
  · rintro ⟨row, holds, rfl⟩
    exact holds
  · intro holds
    exact ⟨_, holds, rfl⟩

/-- The fields that are numbers, and what these have to be below. -/
def limits : List (String × Nat) :=
  [("time", UInt32.size), ("keycode", UInt16.size), ("keyval", UInt32.size), ("state", UInt32.size),
    ("group", UInt8.size), ("origin", UInt64.size)]

/-- The members of an object are those of no event. -/
inductive Unfit (ps : List (String × List UInt8)) : Prop
  | repeated {name : String} (known : name ∈ members.map (·.name))
    (twice : 2 ≤ (valuesOf name ps).length)
  | missing {name : String} (needed : name ∈ ["time", "is_press", "keycode", "keyval"])
    (none : valuesOf name ps = [])
  | outOfRange {name : String} {limit : Nat} {v : List UInt8} (field : (name, limit) ∈ limits)
    (listed : v ∈ valuesOf name ps) (number : NumberForm v) (out : ∀ n < limit, v ≠ numeral n)

theorem ToldBy.inRange {ps : List (String × List UInt8)} {e : KeyEvent} (told : e.ToldBy ps)
    {name : String} {limit : Nat} (field : (name, limit) ∈ limits) {v : List UInt8}
    (listed : v ∈ valuesOf name ps) : v = ascii "null" ∨ ∃ n < limit, v = numeral n := by
  simp only [limits, List.mem_cons, List.not_mem_nil, or_false] at field
  rcases field with field | field | field | field | field | field <;> cases field
  · rw [told.time, List.mem_singleton] at listed
    exact .inr ⟨_, e.time.toNat_lt, listed⟩
  · rw [told.keycode, List.mem_singleton] at listed
    exact .inr ⟨_, e.keycode.toNat_lt, listed⟩
  · rw [told.keyval, List.mem_singleton] at listed
    exact .inr ⟨_, e.keyval.toNat_lt, listed⟩
  · exact .inr ⟨_, e.modifiers.bits.toNat_lt, eq_of_mem_given told.modifiers listed⟩
  · exact .inr ⟨_, e.group.toNat_lt, eq_of_mem_given told.group listed⟩
  · have eq := eq_of_mem_given told.origin listed
    cases origin : e.origin with
    | none => rw [origin] at eq; exact .inl eq
    | some o => rw [origin] at eq; exact .inr ⟨_, o.toNat_lt, eq⟩

theorem Unfit.not_toldBy {ps : List (String × List UInt8)}
    (forms : ∀ name, ∀ v ∈ valuesOf name ps, Form .value v) (unfit : Unfit ps) (e : KeyEvent) :
    ¬ e.ToldBy ps := by
  intro told
  cases unfit with
  | repeated known twice =>
    obtain ⟨m, mem, rfl⟩ := List.mem_map.1 known
    have once := ((toldBy_iff forms e).1 told).length_le_one m mem
    omega
  | missing needed none =>
    simp only [List.mem_cons, List.not_mem_nil, or_false] at needed
    rcases needed with rfl | rfl | rfl | rfl
    · cases none.symm.trans told.time
    · cases none.symm.trans told.isPress
    · cases none.symm.trans told.keycode
    · cases none.symm.trans told.keyval
  | outOfRange field listed number out =>
    rcases told.inRange field listed with null | ⟨n, lt, eq⟩
    · exact not_number_null (null ▸ number)
    · exact out n lt eq

end KeyEvent

/-! ## Settings -/

namespace Settings

/-- The values under a name are a single one that spells the text, or none, and the text is the
default. -/
def TextGiven (vs : List (List UInt8)) (default s : String) : Prop :=
  (∃ v, vs = [v] ∧ Quotes s v) ∨ vs = [] ∧ s = default

def FlagGiven (vs : List (List UInt8)) (default b : Bool) : Prop :=
  vs = [ascii (flagText b)] ∨ vs = [] ∧ b = default

/-- The members of an object are those of these settings, each once, and what is not listed has its
default. -/
structure ToldBy (ps : List (String × List UInt8)) (s : Settings) : Prop where
  keyEventChannel : TextGiven (valuesOf "key_event_channel" ps)
    ({} : Settings).keyEventChannel s.keyEventChannel
  keyboardChannel : TextGiven (valuesOf "keyboard_channel" ps)
    ({} : Settings).keyboardChannel s.keyboardChannel
  keymap : TextGiven (valuesOf "keymap" ps) ({} : Settings).keymap s.keymap
  toolkit : TextGiven (valuesOf "toolkit" ps) ({} : Settings).toolkit s.toolkit
  embedderResponder : FlagGiven (valuesOf "embedder_responder" ps)
    ({} : Settings).embedderResponder s.embedderResponder
  channelResponder : FlagGiven (valuesOf "channel_responder" ps)
    ({} : Settings).channelResponder s.channelResponder
  textInputFiltersReleases : FlagGiven (valuesOf "text_input_filters_releases" ps)
    ({} : Settings).textInputFiltersReleases s.textInputFiltersReleases

theorem exact_members : ∀ m ∈ members, m.codec.Exact := by
  have text := Codec.spelled_text.exact
  have flag := Codec.spelled_flag.exact
  simp only [members, List.forall_mem_cons]
  exact ⟨text, text, text, text, flag, flag, flag, List.forall_mem_nil _⟩

theorem toldBy_iff {ps : List (String × List UInt8)}
    (forms : ∀ name, ∀ v ∈ valuesOf name ps, Form .value v) (s : Settings) :
    s.ToldBy ps ↔ Row.Holds members ps (s.keyEventChannel, s.keyboardChannel, s.keymap, s.toolkit,
      s.embedderResponder, s.channelResponder, s.textInputFiltersReleases, ()) := by
  have text (name default s : String) : (Member.withDefault name .text default).Holds
      (valuesOf name ps) s ↔ TextGiven (valuesOf name ps) default s :=
    Member.holds_withDefault name Codec.spelled_text (forms name) default s
  have flag (name : String) (default b : Bool) : (Member.withDefault name .flag default).Holds
      (valuesOf name ps) b ↔ FlagGiven (valuesOf name ps) default b := by
    refine (Member.holds_withDefault name Codec.spelled_flag (forms name) default b).trans ?_
    simp only [exists_eq_right, FlagGiven]
  constructor
  · rintro ⟨a, b, c, d, e, f, g⟩
    exact ⟨(text _ _ _).2 a, (text _ _ _).2 b, (text _ _ _).2 c, (text _ _ _).2 d,
      (flag _ _ _).2 e, (flag _ _ _).2 f, (flag _ _ _).2 g, trivial⟩
  · rintro ⟨a, b, c, d, e, f, g, -⟩
    exact ⟨(text _ _ _).1 a, (text _ _ _).1 b, (text _ _ _).1 c, (text _ _ _).1 d,
      (flag _ _ _).1 e, (flag _ _ _).1 f, (flag _ _ _).1 g⟩

theorem reads_object {ps : List (String × List UInt8)} {v : List UInt8} (object : ObjectForm ps v) :
    codec.ReadsAs v (ToldBy ps) := by
  refine (Codec.record_object _ (by decide) exact_members _ _ object).congr fun s => ?_
  rw [toldBy_iff object.form_of_mem]
  constructor
  · rintro ⟨row, holds, rfl⟩
    exact holds
  · intro holds
    exact ⟨_, holds, rfl⟩

end Settings

/-! ## Whole texts -/

theorem Json.Codec.exists_error {α : Type} {c : Codec α} {text : List UInt8}
    (none : ∀ a, c.decode text ≠ .ok a) : ∃ r, c.decode text = .error r := by
  cases h : c.decode text with
  | error r => exact ⟨r, rfl⟩
  | ok a => exact absurd h (none a)

/-- Objects are read by field. Whatever the order of its members, the blanks around them, and the
members of other names among them, an object has the event, and the settings, that the members of
these names tell of; what is not listed has its default. If one of them is listed twice, or is missing
and has no default, or is a number out of its range, the object is rejected. -/
theorem read_by_field {ps : List (String × List UInt8)} {v text : List UInt8}
    (object : ObjectForm ps v) (around : Around v text) :
    (∀ e, KeyEvent.codec.decode text = .ok e ↔ e.ToldBy ps) ∧
      (∀ s, Settings.codec.decode text = .ok s ↔ s.ToldBy ps) ∧
      (KeyEvent.Unfit ps → ∃ r, KeyEvent.codec.decode text = .error r) ∧
      ((∃ name ∈ Settings.members.map (·.name), 2 ≤ (valuesOf name ps).length) →
        ∃ r, Settings.codec.decode text = .error r) := by
  have event := (KeyEvent.reads_object object).decode_eq_ok_iff around
  have settings := (Settings.reads_object object).decode_eq_ok_iff around
  have forms := object.form_of_mem
  refine ⟨event, settings, ?_, ?_⟩
  · intro unfit
    exact Codec.exists_error fun e read => unfit.not_toldBy forms e ((event e).1 read)
  · rintro ⟨name, known, twice⟩
    obtain ⟨m, mem, rfl⟩ := List.mem_map.1 known
    refine Codec.exists_error fun s read => ?_
    have once := ((Settings.toldBy_iff forms s).1 ((settings s).1 read)).length_le_one m mem
    omega

/-- The members of an event out of order, and among them one of another name that holds an object
with a member of a known one. -/
def jumbled : List (String × List UInt8) :=
  [("keyval", ascii "97"), ("note", ascii "[\x7b \"time\" : null \x7d]"),
    ("is_press", ascii "true"), ("time", ascii "7"), ("keycode", ascii "38"), ("origin", ascii "null")]

theorem read_by_field_jumbled : ∃ v text, ObjectForm jumbled v ∧ Around v text ∧
    text = ascii ("\n\x7b \"keyval\" : 97 , \"note\" : [\x7b \"time\" : null \x7d] , " ++
      "\"is_press\" : true , \"time\" : 7 , \"keycode\" : 38 , \"origin\" : null \x7d") ∧
    KeyEvent.codec.decode text =
      .ok { time := 7, isPress := true, keycode := 38, keyval := 97 } := by
  have space : Blank [0x20] := by decide +kernel
  have member {name : String} {v : List UInt8} (plain : ∀ b ∈ utf8 name, Plain b)
      (value : Form .value v) := MemberForm.mk space (.mk (.of_plain plain)) space space value space
  have number {ds : List UInt8} (isWhole : WholeForm ds) : Form .value ds := by
    simpa using Form.number (.mk (.inl rfl) isWhole .none .none)
  have inner : ObjectForm [("time", ascii "null")] _ :=
    .filled (.last (member (by decide +kernel) .null))
  have note : Form .value (ascii "[\x7b \"time\" : null \x7d]") :=
    .filled (.last .item .nil inner.form .nil)
  have object : ObjectForm jumbled _ := .filled
    (.more (member (by decide +kernel) (number (by decide +kernel)))
    (.more (member (by decide +kernel) note)
    (.more (member (by decide +kernel) (.flag true))
    (.more (member (by decide +kernel) (number (by decide +kernel)))
    (.more (member (by decide +kernel) (number (by decide +kernel)))
    (.last (member (by decide +kernel) .null)))))))
  have around {v : List UInt8} : Around v ([0x0a] ++ (v ++ [])) :=
    .mk (by decide +kernel) .nil
  refine ⟨_, _, object, around, by decide +kernel, ?_⟩
  refine ((read_by_field object around).1 _).2 ⟨?_, ?_, ?_, ?_, .inr ?_, .inr ?_, .inr ?_, .inl ?_⟩
  all_goals decide +kernel

end KeyArbiter
