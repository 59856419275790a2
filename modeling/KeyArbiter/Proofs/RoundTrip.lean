import KeyArbiter.Proofs.Readback
import KeyArbiter.Settings
import KeyArbiter.Wire.Message
import KeyArbiter.Wire.Trace
import Mathlib

/-!
# What goes over the wire and back

Events, key messages, settings and traces: each is read back from what is written for it. The parts
of each format are faithful, and so is the whole.
-/

namespace KeyArbiter

open Json

/-! ## Words -/

theorem PhysicalKey.faithful : codec.Faithful := Codec.faithful_word64.iso fun _ => rfl

theorem LogicalKey.faithful : codec.Faithful := Codec.faithful_word64.iso fun _ => rfl

theorem Modifiers.faithful : codec.Faithful := Codec.faithful_word32.iso fun _ => rfl

/-! ## Events -/

theorem KeyEvent.faithful : codec.Faithful := by
  refine Codec.faithful_record _ (by decide) ?_ fun _ => rfl
  simp only [members, List.forall_mem_cons]
  exact ⟨Member.faithful_required _ Codec.faithful_word32,
    Member.faithful_required _ Codec.faithful_flag,
    Member.faithful_required _ Codec.faithful_word16,
    Member.faithful_required _ Codec.faithful_word32,
    Member.faithful_withDefault _ Modifiers.faithful _,
    Member.faithful_withDefault _ Codec.faithful_word8 _,
    Member.faithful_withDefault _ Codec.faithful_flag _,
    Member.faithful_unlessNone _ Codec.faithful_word64, List.forall_mem_nil _⟩

theorem Transition.faithful : codec.Faithful := by
  refine Codec.faithful_choice fun t => ?_
  cases t <;> exact .unit rfl

theorem RuntimeEvent.faithful : codec.Faithful := by
  refine Codec.faithful_record _ (by decide) ?_ fun _ => rfl
  simp only [members, List.forall_mem_cons]
  exact ⟨Member.faithful_required _ Codec.faithful_word64,
    Member.faithful_required _ Transition.faithful,
    Member.faithful_required _ PhysicalKey.faithful,
    Member.faithful_required _ LogicalKey.faithful,
    Member.faithful_optional _ Codec.faithful_text,
    Member.faithful_required _ Codec.faithful_flag, List.forall_mem_nil _⟩

/-! ## Key messages -/

theorem KeyMessageType.faithful : codec.Faithful := by
  refine Codec.faithful_choice fun t => ?_
  cases t <;> exact .unit rfl

theorem KeyMessage.faithful : codec.Faithful := by
  refine Codec.faithful_record _ (by decide) ?_ fun _ => rfl
  simp only [members, List.forall_mem_cons]
  exact ⟨Member.faithful_required _ KeyMessageType.faithful,
    Member.faithful_required _ Codec.faithful_text,
    Member.faithful_required _ Codec.faithful_text,
    Member.faithful_required _ Codec.faithful_word16,
    Member.faithful_required _ Codec.faithful_word32,
    Member.faithful_required _ Modifiers.faithful,
    Member.faithful_required _ Codec.faithful_word32, List.forall_mem_nil _⟩

/-! ## Settings -/

theorem Settings.faithful : codec.Faithful := by
  refine Codec.faithful_record _ (by decide) ?_ fun _ => rfl
  simp only [members, List.forall_mem_cons]
  exact ⟨Member.faithful_withDefault _ Codec.faithful_text _,
    Member.faithful_withDefault _ Codec.faithful_text _,
    Member.faithful_withDefault _ Codec.faithful_text _,
    Member.faithful_withDefault _ Codec.faithful_text _,
    Member.faithful_withDefault _ Codec.faithful_flag _,
    Member.faithful_withDefault _ Codec.faithful_flag _,
    Member.faithful_withDefault _ Codec.faithful_flag _, List.forall_mem_nil _⟩

/-! ## Traces -/

namespace TraceStep

theorem faithful_syncCodec : syncCodec.Faithful := by
  refine Codec.faithful_record _ (by decide) ?_ fun _ => rfl
  simp only [List.forall_mem_cons]
  exact ⟨Member.faithful_required _ Modifiers.faithful,
    Member.faithful_required _ Codec.faithful_word32, List.forall_mem_nil _⟩

theorem faithful : codec.Faithful := by
  refine Codec.faithful_choice fun t => ?_
  cases t with
  | event e =>
    refine .holds rfl fun rest ends => ?_
    have read := KeyEvent.faithful.reads e rest ends
    simp only [Reader.map, read]
  | sync state time =>
    refine .holds rfl fun rest ends => ?_
    have read := faithful_syncCodec.reads (state, time) rest ends
    simp only [Reader.map, read]

end TraceStep

theorem Trace.faithful : codec.Faithful := TraceStep.faithful.list

/-- Every event, key message, settings and trace is read back from its text, whatever words, texts
and lists it is made of; and whatever text is read as one of these, what is written for its value has
the same value and is written for it again. -/
theorem wire_round_trips : KeyEvent.codec.RoundTrips ∧ RuntimeEvent.codec.RoundTrips ∧
    KeyMessage.codec.RoundTrips ∧ Settings.codec.RoundTrips ∧ Trace.codec.RoundTrips :=
  ⟨KeyEvent.faithful.roundTrips, RuntimeEvent.faithful.roundTrips, KeyMessage.faithful.roundTrips,
    Settings.faithful.roundTrips, Trace.faithful.roundTrips⟩

end KeyArbiter
