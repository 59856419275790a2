import KeyArbiter.Proofs.Values
import Mathlib

/-!
# Requests on the keyboard channel

Whoever asks for the held keys gets an object from which they can be told without loss, in whatever
order they were gathered. An unknown method gets nothing, and what is no request gets the words of
what is wrong with it. Nothing is changed by asking.
-/

namespace KeyArbiter

open Json

namespace KeyboardChannel

variable {held held' : List (PhysicalKey × LogicalKey)} {data : List UInt8}

/-! ## Members for keys -/

theorem member_injective : Function.Injective member := by
  intro p q same
  have physical := physical_of_name (congrArg Prod.fst same)
  obtain ⟨p, ⟨v⟩⟩ := p
  obtain ⟨q, ⟨w⟩⟩ := q
  have value : Value.natural v.toNat = Value.natural w.toNat := congrArg Prod.snd same
  obtain rfl : p = q := physical
  injection value with number
  injection number with whole
  have words : v = w := UInt64.toNat_inj.1 (Int.ofNat.inj whole)
  rw [words]

theorem heldValue_perm (distinct : (held.map Prod.fst).Nodup) (perm : held'.Perm held) :
    heldValue held' = heldValue held := by
  obtain ⟨members, eq, order, all⟩ := exists_members distinct
  obtain ⟨members', eq', order', all'⟩ := exists_members ((perm.map _).nodup_iff.2 distinct)
  have same : members'.Perm members := all'.trans ((perm.map member).trans all.symm)
  rw [eq, eq']
  congr
  exact same.eq_of_pairwise (fun p q _ _ lt gt => absurd gt (lt_asymm lt)) order' order

/-! ## Replies -/

theorem decode_success (distinct : (held.map Prod.fst).Nodup) :
    Value.codec.decode (utf8 (Envelope.success (heldValue held)).compact) =
      .ok (.list [heldValue held]) := by
  obtain ⟨members, eq, order, all⟩ := exists_members distinct
  have each : ∀ p ∈ members, Value.Legible 125 p.2 := by
    intro p hp
    obtain ⟨⟨key, l⟩, -, rfl⟩ := List.mem_map.1 (all.mem_iff.1 hp)
    exact .natural l.word.toNat_lt
  rw [eq]
  exact (Value.Legible.list (List.forall_mem_singleton.2 (.object order each))).decode_compact

theorem decode_error (code message : String) :
    Value.codec.decode (utf8 (Envelope.error code message).compact) =
      .ok (.list [.text code, .text message, .null]) := by
  refine Value.Legible.decode_compact (.list ?_)
  simp only [List.forall_mem_cons]
  exact ⟨.text code, .text message, .null, List.forall_mem_nil _⟩

theorem ne_nil_of_decode {v : Value} {reply : List UInt8}
    (decoded : Value.codec.decode reply = .ok v) : reply ≠ [] := by
  rintro rfl
  cases decoded

theorem answer_of_unknown {method : String} (decoded : MethodCall.decode data = .ok ⟨method⟩)
    (unknown : method ≠ "getKeyboardState") :
    answer held data = ([], some (.unknownMethod method)) := by
  simp only [answer, decoded, unknown, if_false]

theorem answer_of_error {e : ChannelError} (decoded : MethodCall.decode data = .error e) :
    answer held data = (utf8 (Envelope.error "bad_request" e.text).compact, some e) := by
  simp only [answer, decoded]

end KeyboardChannel

namespace Session

variable (s : Session) (channel : String) (data : List UInt8)

theorem exists_journal_receive :
    ∃ journal, (s.receive channel data).1 = { s with state := { s.state with journal } } := by
  unfold receive
  split
  · exact ⟨_, rfl⟩
  · exact ⟨_, rfl⟩
  · split
    · split <;> exact ⟨_, rfl⟩
    · exact ⟨_, rfl⟩

theorem receive_arbiter {a : ArbiterId} (handler : s.scene.handler? channel = some (.arbiter a))
    (alive : s.scene.isAlive a) : (s.receive channel data).2 =
      some (KeyboardChannel.answer (s.state.book a).held.toList data).1 := by
  simp only [receive, handler, alive, if_true]
  split <;> next answered => rw [answered]

end Session

namespace KeyboardChannel

/-- A request gets one of three replies, by what it decodes as. Asked for the held keys, an arbiter
writes an object that has one member for each of them: its name is the physical key in decimals, its
value the logical key, and the members are written in the order of the bytes of their names. So the
keys can be read back from it, but not the order in which they were gathered. Any other method gets
the empty reply, and nothing else does. What does not decode is told what is wrong with it, word by
word. Nothing is changed but the journal. -/
theorem replies_told_apart (held : List (PhysicalKey × LogicalKey))
    (distinct : (held.map Prod.fst).Nodup) (data : List UInt8) :
    (MethodCall.decode data = .ok ⟨"getKeyboardState"⟩ →
      ∃ members, (answer held data).1 = utf8 (Envelope.success (.object members)).compact ∧
        Value.codec.decode (answer held data).1 = .ok (.list [.object members]) ∧
        members.Perm (held.map member) ∧ (∀ p, member p ∈ members ↔ p ∈ held) ∧
        members.Pairwise (fun x y => utf8 x.1 < utf8 y.1) ∧
        ∀ held', held'.Perm held → answer held' data = answer held data) ∧
    (∀ method, MethodCall.decode data = .ok ⟨method⟩ → method ≠ "getKeyboardState" →
      (answer held data).1 = []) ∧
    (∀ e, MethodCall.decode data = .error e → Value.codec.decode (answer held data).1 =
      .ok (.list [.text "bad_request", .text e.text, .null])) ∧
    ((answer held data).1 = [] ↔
      ∃ method, MethodCall.decode data = .ok ⟨method⟩ ∧ method ≠ "getKeyboardState") ∧
    ∀ (s : Session) (channel : String),
      (∀ a, s.scene.handler? channel = some (.arbiter a) → s.scene.isAlive a →
        ((s.state.book a).held.toList.map Prod.fst).Nodup ∧
        (s.receive channel data).2 = some (answer (s.state.book a).held.toList data).1) ∧
      ∃ journal, (s.receive channel data).1 = { s with state := { s.state with journal } } := by
  have asked (decoded : MethodCall.decode data = .ok ⟨"getKeyboardState"⟩)
      (held : List (PhysicalKey × LogicalKey)) :
      answer held data = (utf8 (Envelope.success (heldValue held)).compact, none) :=
    answer_of_asks (by rw [Asks, decoded]; rfl) held
  have told (decoded : MethodCall.decode data = .ok ⟨"getKeyboardState"⟩) :
      Value.codec.decode (answer held data).1 = .ok (.list [heldValue held]) := by
    simp only [asked decoded, decode_success distinct]
  have wrong (e : ChannelError) (decoded : MethodCall.decode data = .error e) :
      Value.codec.decode (answer held data).1 =
        .ok (.list [.text "bad_request", .text e.text, .null]) := by
    simp only [answer_of_error decoded, decode_error]
  have unknown (method : String) (decoded : MethodCall.decode data = .ok ⟨method⟩)
      (other : method ≠ "getKeyboardState") : (answer held data).1 = [] := by
    rw [answer_of_unknown decoded other]
  refine ⟨fun decoded => ?_, unknown, wrong, ⟨fun empty => ?_, ?_⟩, fun s channel => ⟨?_, ?_⟩⟩
  · obtain ⟨members, eq, order, all⟩ := exists_members distinct
    refine ⟨members, ?_, ?_, all, fun p => ?_, ?_, fun held' perm => ?_⟩
    · rw [asked decoded, eq]
    · rw [told decoded, eq]
    · rw [all.mem_iff, List.mem_map_of_injective member_injective]
    · exact order.imp utf8_lt_utf8
    · rw [asked decoded, asked decoded, heldValue_perm distinct perm]
  · cases decoded : MethodCall.decode data with
    | error e => exact absurd empty (ne_nil_of_decode (wrong e decoded))
    | ok call =>
      refine ⟨call.method, rfl, fun same => ?_⟩
      have state : MethodCall.decode data = .ok ⟨"getKeyboardState"⟩ := by rw [decoded, ← same]
      exact ne_nil_of_decode (told state) empty
  · rintro ⟨method, decoded, other⟩
    exact unknown method decoded other
  · intro a handler alive
    exact ⟨nodup_of_ascending (s.state.book a).held.ascending_toList,
      s.receive_arbiter channel data handler alive⟩
  · exact s.exists_journal_receive channel data

/-- The larger of two keys has the name that comes first. A text is no request, and what is wrong with
it is told with the quote and the control character that it has. -/
theorem replies_told_apart_twoKeys :
    let held : List (PhysicalKey × LogicalKey) :=
      [(⟨9⟩, ⟨0x61⟩), (⟨10⟩, ⟨0xffffffffffffffff⟩)]
    let astray := ascii "\"a\\\"\\u0001\""
    (held.map Prod.fst).Nodup ∧
      MethodCall.decode Moment.getKeyboardState = .ok ⟨"getKeyboardState"⟩ ∧
      (answer held Moment.getKeyboardState).1 = utf8 "[\x7b\"10\":18446744073709551615,\"9\":97\x7d]" ∧
      (∃ members, (answer held Moment.getKeyboardState).1 =
          utf8 (Envelope.success (.object members)).compact ∧
        members.Perm (held.map member) ∧ members.Pairwise (fun x y => utf8 x.1 < utf8 y.1)) ∧
      ∃ e, MethodCall.decode astray = .error e ∧ Value.codec.decode (answer held astray).1 =
        .ok (.list [.text "bad_request", .text e.text, .null]) := by
  intro held astray
  have distinct : (held.map Prod.fst).Nodup := by decide
  have asked : MethodCall.decode Moment.getKeyboardState = .ok ⟨"getKeyboardState"⟩ := by
    decide +kernel
  refine ⟨distinct, asked, by decide +kernel, ?_, ?_⟩
  · obtain ⟨members, written, -, each, -, order, -⟩ :=
      (replies_told_apart held distinct Moment.getKeyboardState).1 asked
    exact ⟨members, written, each, order⟩
  · cases decoded : MethodCall.decode astray with
    | ok call =>
      have none : (MethodCall.decode astray).toOption = none := by decide +kernel
      rw [decoded] at none
      cases none
    | error e => exact ⟨e, rfl, (replies_told_apart held distinct astray).2.2.1 e decoded⟩

end KeyboardChannel

end KeyArbiter
