import KeyArbiter.Proofs.Fields
import KeyArbiter.Proofs.Shapes
import KeyArbiter.Proofs.Tickets
import Mathlib

/-!
# What counts as a claim on the channel

A reply claims an event only where it says so in one of two shapes: an object in which `handled` is
listed once, and is true, or a list that holds true and nothing else. Any other reply, and a message
that could not be sent, claims nothing.
-/

namespace KeyArbiter

open Json

namespace Json

variable {α : Type} {c : Codec α} {S : List UInt8 → α → Prop}

theorem Row.inOrder_required (name : String) (spelled : c.Spelled S) {vs : List (List UInt8)}
    (forms : ∀ v ∈ vs, Form .value v) (a : α) :
    Row.InOrder [.required name c] vs (a, ()) ↔ ∃ v, vs = [v] ∧ S v a := by
  cases vs with
  | nil =>
    constructor
    · rintro ⟨⟨⟩, -⟩
    · rintro ⟨_, ⟨⟩, -⟩
  | cons v vs =>
    have alone := spelled.alone_iff (forms v (List.mem_cons_self ..)) a
    constructor
    · rintro ⟨read, rfl⟩
      exact ⟨v, rfl, alone.1 read⟩
    · rintro ⟨w, single, spells⟩
      obtain ⟨rfl, rfl⟩ := List.cons_eq_cons.1 single
      exact ⟨alone.2 spells, rfl⟩

end Json

namespace KeyReply

/-- With blanks around it, an object that lists this verdict under `handled`, once. -/
def InObject (handled : Bool) (data : List UInt8) : Prop :=
  ∃ ps v, ObjectForm ps v ∧ Around v data ∧ valuesOf "handled" ps = [ascii (flagText handled)]

/-- With blanks around it, a list that holds this verdict and nothing else. -/
def InList (handled : Bool) (data : List UInt8) : Prop :=
  ∃ v, ListForm [ascii (flagText handled)] v ∧ Around v data

theorem codec_decode_iff {data : List UInt8} {handled : Bool} :
    codec.decode data = .ok ⟨handled⟩ ↔ InObject handled data ∨ InList handled data := by
  have exact : ∀ m ∈ [Member.required "handled" .flag], m.codec.Exact :=
    List.forall_mem_singleton.2 Codec.spelled_flag.exact
  have grammatical : ∀ m ∈ [Member.required "handled" .flag], m.codec.Grammatical :=
    List.forall_mem_singleton.2 Codec.grammatical_flag
  have names : ([Member.required "handled" .flag].map (·.name)).Nodup := List.nodup_singleton _
  rw [codec, Codec.decode_record_iff _ names exact grammatical]
  have listed {ps : List (String × List UInt8)} {v : List UInt8} (object : ObjectForm ps v) :=
    Member.holds_required "handled" Codec.spelled_flag (object.form_of_mem "handled") handled
  have only {vs : List (List UInt8)} {v : List UInt8} (list : ListForm vs v) :=
    Row.inOrder_required "handled" Codec.spelled_flag list.form_of_mem handled
  simp only [exists_eq_right] at listed only
  constructor
  · rintro ⟨v, around, ⟨ps, object, ⟨h, ⟨⟩⟩, holds, ⟨⟩⟩ | ⟨vs, list, ⟨h, ⟨⟩⟩, inOrder, ⟨⟩⟩⟩
    · exact .inl ⟨ps, v, object, around, (listed object).1 holds.1⟩
    · obtain rfl := (only list).1 inOrder
      exact .inr ⟨v, list, around⟩
  · rintro (⟨ps, v, object, around, single⟩ | ⟨v, list, around⟩)
    · exact ⟨v, around, .inl ⟨ps, object, (handled, ()), ⟨(listed object).2 single, trivial⟩, rfl⟩⟩
    · exact ⟨v, around, .inr ⟨_, list, (handled, ()), (only list).2 rfl, rfl⟩⟩

theorem decode_iff {channel : String} {data : List UInt8} {handled : Bool} :
    decode channel data = .ok ⟨handled⟩ ↔ InObject handled data ∨ InList handled data := by
  rw [← codec_decode_iff, decode]
  cases data with
  | nil =>
    constructor
    · intro read
      cases read
    · intro read
      cases read
  | cons b data =>
    simp only [List.isEmpty_cons, Bool.false_eq_true, if_false]
    cases codec.decode (b :: data) with
    | error r => simp only [Except.mapError, reduceCtorEq]
    | ok r => simp only [Except.mapError, Except.ok.injEq]

end KeyReply

/-- Two shapes of replies are read, and the verdict is the one that stands there: an object that lists
it under `handled`, once, and whatever else under other names, and a list of it alone. Whoever waits
for a reply gets one answer, which claims the event exactly if a reply came and has the verdict true
in one of these shapes. -/
theorem claims_only_if_told (st : State) (channel : String) (t : Ticket) :
    (∀ data handled, KeyReply.decode channel data = .ok ⟨handled⟩ ↔
        KeyReply.InObject handled data ∨ KeyReply.InList handled data) ∧
      ∀ reply, ∃ claimed, (st.giveReply channel reply (some t)).2 = [.deliver t (.answered claimed)] ∧
        (claimed = true ↔
          ∃ data, reply = .ok data ∧ (KeyReply.InObject true data ∨ KeyReply.InList true data)) := by
  refine ⟨fun data handled => KeyReply.decode_iff, fun reply => ?_⟩
  obtain ⟨claimed, answer, told⟩ := repliesOnce st channel reply t
  refine ⟨claimed, answer, told.trans ?_⟩
  constructor
  · rintro ⟨data, ⟨handled⟩, came, decoded, rfl⟩
    exact ⟨data, came, KeyReply.decode_iff.1 decoded⟩
  · rintro ⟨data, came, shape⟩
    exact ⟨data, ⟨true⟩, came, KeyReply.decode_iff.2 shape, rfl⟩

/-- A list is no object, but a reply all the same. Nor is a text of an object that is passed over
checked for being UTF-8. -/
theorem claimed_by_list :
    let list := ascii "[true]"
    let astray := ascii "\x7b\"handled\":true,\"x\":\"" ++ [0xff] ++ ascii "\"\x7d"
    (∀ ps v, ObjectForm ps v → ¬ Around v list) ∧ ofUtf8? astray = none ∧
      ∀ data ∈ [list, astray], ∀ st channel t,
        (State.giveReply st channel (.ok data) (some t)).2 = [.deliver t (.answered true)] := by
  refine ⟨?_, by decide +kernel, ?_⟩
  · intro ps v object around
    obtain ⟨inner, rfl⟩ := object.exists_cons
    generalize eq : ascii "[true]" = text at around
    obtain @⟨ws, ws', before, after⟩ := around
    have start := congrArg (fun text => (skipBlank text).head?) eq
    simp only [before.skipBlank_append, List.cons_append, skipBlank_of_solid (b := openObject) rfl,
      List.head?_cons] at start
    exact absurd start (by decide +kernel)
  · intro data mem st channel t
    have read : KeyReply.codec.decode data = .ok ⟨true⟩ := by
      simp only [List.mem_cons, List.not_mem_nil, or_false] at mem
      rcases mem with rfl | rfl <;> decide +kernel
    have came : ((Except.ok data).mapError .transport >>= KeyReply.decode channel) = .ok ⟨true⟩ :=
      KeyReply.decode_iff.2 (KeyReply.codec_decode_iff.1 read)
    simp only [State.giveReply, came]

end KeyArbiter
