import KeyArbiter.Proofs.Digits
import KeyArbiter.Proofs.Held
import KeyArbiter.Proofs.Resolution
import KeyArbiter.Proofs.Scenery
import Mathlib

/-!
# The keyboard channel

The arbiter that was built last with a keyboard channel is asked there for its held keys, until an
arbiter with that channel is disposed of, be it the same or an older one. From then on no one is.
-/

namespace KeyArbiter

open Session (Command)

/-! ## Names of keys -/

namespace Text

def numberOf (digits : List Char) : Nat :=
  (digits.map (·.toNat - 48)).foldl (fun n d => 10 * n + d) 0

theorem numberOf_decimal (n : Nat) : numberOf (decimal n).toList = n := by
  have digit : ∀ d < 10, (Nat.digitChar d).toNat - 48 = d := by decide
  have digits : ((digitsOf 10 n).map Nat.digitChar).map (·.toNat - 48) = digitsOf 10 n := by
    rw [List.map_map]
    exact (List.map_congr_left fun d hd => digit d (digitsOf_lt (by decide) n d hd)).trans (List.map_id _)
  unfold numberOf decimal
  rw [String.toList_ofList, digits, foldl_digitsOf]

theorem decimal_injective : Function.Injective decimal := by
  intro m n same
  rw [← numberOf_decimal m, same, numberOf_decimal]

end Text

/-! ## Members in order -/

namespace Json

def InNameOrder (members : List (String × Value)) : Prop :=
  members.Pairwise fun p q => p.1 < q.1

section Members

variable {name : String} {members : List (String × Value)}

theorem perm_insertMember (fresh : name ∉ members.map Prod.fst) (v : Value) :
    (insertMember name v members).Perm ((name, v) :: members) := by
  induction members with
  | nil => exact .refl _
  | cons p members ih =>
    rw [List.map_cons, List.mem_cons, not_or] at fresh
    rw [insertMember, if_neg fresh.1]
    split
    · exact .refl _
    · exact ((ih fresh.2).cons p).trans (.swap ..)

theorem inNameOrder_insertMember (order : InNameOrder members)
    (fresh : name ∉ members.map Prod.fst) (v : Value) : InNameOrder (insertMember name v members) := by
  induction members with
  | nil => exact List.pairwise_singleton _ _
  | cons p members ih =>
    obtain ⟨first, others⟩ := List.pairwise_cons.1 order
    rw [List.map_cons, List.mem_cons, not_or] at fresh
    rw [insertMember, if_neg fresh.1]
    split
    · next lt =>
      refine List.pairwise_cons.2 ⟨List.forall_mem_cons.2 ⟨lt, fun q hq => ?_⟩, order⟩
      exact lt_trans lt (first q hq)
    · next ge =>
      refine List.pairwise_cons.2 ⟨fun q hq => ?_, ih others fresh.2⟩
      rcases List.mem_cons.1 ((perm_insertMember fresh.2 v).mem_iff.1 hq) with rfl | hq
      · exact lt_of_le_of_ne (not_lt.1 ge) (Ne.symm fresh.1)
      · exact first q hq

end Members

end Json

/-! ## Requests -/

namespace KeyboardChannel

/-- The data is a request for the held keys. -/
def Asks (data : List UInt8) : Prop :=
  (MethodCall.decode data).toOption = some ⟨"getKeyboardState"⟩

instance (data : List UInt8) : Decidable (Asks data) :=
  inferInstanceAs (Decidable (_ = _))

theorem answer_of_asks {data : List UInt8} (asks : Asks data)
    (held : List (PhysicalKey × LogicalKey)) :
    answer held data = (Json.utf8 (Envelope.success (heldValue held)).compact, none) := by
  unfold Asks at asks
  unfold answer
  cases decoded : MethodCall.decode data with
  | error e =>
    rw [decoded] at asks
    cases asks
  | ok call =>
    rw [decoded] at asks
    cases asks
    rfl

/-! ## Replies -/

/-- The member that tells of a held key. -/
def member (p : PhysicalKey × LogicalKey) : String × Json.Value :=
  (Text.decimal p.1.word.toNat, .natural p.2.word.toNat)

theorem physical_of_name {p q : PhysicalKey × LogicalKey} (same : (member p).1 = (member q).1) :
    p.1 = q.1 := by
  obtain ⟨⟨v⟩, l⟩ := p
  obtain ⟨⟨w⟩, k⟩ := q
  have words : v = w := UInt64.toNat_inj.1 (Text.decimal_injective same)
  rw [words]

section Held

variable {held : List (PhysicalKey × LogicalKey)}

theorem nodup_of_ascending (ascending : held.Pairwise fun p q => p.1.word < q.1.word) :
    (held.map Prod.fst).Nodup := by
  rw [List.Nodup, List.pairwise_map]
  refine ascending.imp fun {p q} lt same => ?_
  rw [same] at lt
  exact UInt64.lt_irrefl _ lt

theorem foldl_member (distinct : (held.map Prod.fst).Nodup) {acc : List (String × Json.Value)}
    (order : Json.InNameOrder acc) (fresh : ∀ p ∈ held, (member p).1 ∉ acc.map Prod.fst) :
    let members := held.foldl (fun acc p => Json.insertMember (member p).1 (member p).2 acc) acc
    Json.InNameOrder members ∧ members.Perm (held.map member ++ acc) := by
  induction held generalizing acc with
  | nil => exact ⟨order, .refl _⟩
  | cons p held ih =>
    obtain ⟨new, distinct⟩ := List.nodup_cons.1 distinct
    obtain ⟨here, others⟩ := List.forall_mem_cons.1 fresh
    have inserted := Json.perm_insertMember here (member p).2
    have later : ∀ q ∈ held,
        (member q).1 ∉ (Json.insertMember (member p).1 (member p).2 acc).map Prod.fst := by
      intro q hq mem
      rw [(inserted.map Prod.fst).mem_iff, List.map_cons, List.mem_cons] at mem
      rcases mem with same | mem
      · exact new (physical_of_name same ▸ List.mem_map_of_mem hq)
      · exact others q hq mem
    obtain ⟨ordered, all⟩ := ih distinct (Json.inNameOrder_insertMember order here _) later
    refine ⟨ordered, all.trans ?_⟩
    exact (inserted.append_left _).trans List.perm_middle

theorem exists_members (distinct : (held.map Prod.fst).Nodup) :
    ∃ members, heldValue held = .object members ∧ Json.InNameOrder members ∧
      members.Perm (held.map member) := by
  obtain ⟨order, all⟩ := foldl_member distinct .nil fun _ _ => List.not_mem_nil
  rw [List.append_nil] at all
  exact ⟨_, rfl, order, all⟩

theorem mem_heldValue (ascending : held.Pairwise fun p q => p.1.word < q.1.word) :
    ∃ members, heldValue held = .object members ∧ ∀ x, x ∈ members ↔ ∃ p ∈ held, x = member p := by
  obtain ⟨members, eq, -, all⟩ := exists_members (nodup_of_ascending ascending)
  refine ⟨members, eq, fun x => ?_⟩
  rw [all.mem_iff, List.mem_map]
  exact exists_congr fun p => and_congr_right fun _ => eq_comm

end Held

end KeyboardChannel

namespace Session

variable (s : Session) {channel : String} {data : List UInt8}

theorem receive_of_none (none : s.scene.handler? channel = none) :
    s.receive channel data = (s, .none) := by
  unfold receive
  rw [none]

theorem receive_of_asks {a : ArbiterId} (handler : s.scene.handler? channel = some (.arbiter a))
    (alive : s.scene.isAlive a) (asks : KeyboardChannel.Asks data) :
    s.receive channel data = (s, some (Json.utf8
      (Envelope.success (KeyboardChannel.heldValue (s.state.book a).held.toList)).compact)) := by
  unfold receive
  rw [handler]
  simp only [alive, if_true, KeyboardChannel.answer_of_asks asks]

end Session

/-! ## Who is asked -/

/-- The move says who is asked on this channel, if anyone. -/
def Move.Assigns (channel : String) : Move → Prop
  | .command (.build settings _ _) => settings.keyboardChannel = channel
  | .command (.setEcho name _) => name = channel
  | _ => False

namespace Moment

def vacates (m : Moment) (channel : String) : Move → Bool
  | .command (.dispose a) =>
    m.scene.isAlive a && (m.scene.setup a).settings.keyboardChannel == channel
  | _ => false

/-- In the course of the moves an arbiter with this keyboard channel is disposed of. -/
def vacated (channel : String) (m : Moment) : List Move → Bool
  | [] => false
  | move :: later => m.vacates channel move || vacated channel (m.next move) later

variable (m : Moment) {channel : String}

theorem handler?_next {move : Move} (other : ¬ move.Assigns channel) :
    (m.next move).scene.handler? channel =
      if m.vacates channel move then none else m.scene.handler? channel := by
  obtain ⟨s, tasks⟩ := m
  cases move with
  | go => cases tasks <;> rfl
  | command c =>
    have scene : (next ⟨s, tasks⟩ (.command c)).scene = (s.launch c).1.scene := rfl
    rw [scene]
    by_cases still : c.Still
    · have calm : vacates ⟨s, tasks⟩ channel (.command c) = false := by
        cases c with
        | dispose a => exact still.elim
        | _ => rfl
      rw [calm]
      exact (Session.alike_launch s still).handler?_eq channel
    · cases c with
      | build settings scripted extra =>
        exact (Session.handler?_build s settings scripted extra channel).trans (if_neg other)
      | setEcho name on => exact (s.scene.handler?_setHandler name channel _).trans (if_neg other)
      | dispose a =>
        simp only [Session.launch, Session.perform, vacates, Moment.scene]
        by_cases alive : s.scene.isAlive a
        · rw [if_pos alive, Session.handler?_dispose]
          simp [alive]
        · rw [if_neg alive]
          simp [alive]
      | _ => exact absurd trivial still

theorem handler?_run {later : List Move} (others : ∀ move ∈ later, ¬ move.Assigns channel) :
    (later.foldl next m).scene.handler? channel =
      if vacated channel m later then none else m.scene.handler? channel := by
  induction later generalizing m with
  | nil => rfl
  | cons move later ih =>
    obtain ⟨other, others⟩ := List.forall_mem_cons.1 others
    rw [List.foldl_cons, ih _ others, handler?_next m other, vacated]
    cases m.vacates channel move <;> simp

/-- Whoever was built last with a keyboard channel, and is alive, tells the held keys there, unless
an arbiter with that channel was disposed of since. Then no one is asked. -/
theorem keyboard_answered_unless_vacated (before later : List Move) (settings : Settings)
    (scripted : Bool) (extra : List Session.ResponderSpec)
    (alive : (after (before ++ .command (.build settings scripted extra) :: later)).scene.isAlive
      (after before).scene.setups.length)
    (newest : ∀ move ∈ later, ¬ move.Assigns settings.keyboardChannel) :
    let a := (after before).scene.setups.length
    let built := (after before).next (.command (.build settings scripted extra))
    let m := after (before ++ .command (.build settings scripted extra) :: later)
    let lost := vacated settings.keyboardChannel built later
    (built.scene.setup a).settings = settings ∧
    m.scene.handler? settings.keyboardChannel = (if lost then none else some (.arbiter a)) ∧
    (∀ data, KeyboardChannel.Asks data →
      m.session.receive settings.keyboardChannel data =
        (m.session, if lost then none else some (Json.utf8
          (Envelope.success (KeyboardChannel.heldValue (m.book a).held.toList)).compact))) ∧
    ∃ members, KeyboardChannel.heldValue (m.book a).held.toList = .object members ∧
      ∀ x, x ∈ members ↔ ∃ p ∈ (m.book a).held.toList, x = KeyboardChannel.member p := by
  intro a built m lost
  have run : m = later.foldl next built := after_append _ _
  have installed : built.scene.handler? settings.keyboardChannel = some (.arbiter a) :=
    ((after before).session.handler?_build settings scripted extra _).trans (if_pos rfl)
  have handler : m.scene.handler? settings.keyboardChannel =
      if lost then none else some (.arbiter a) := by
    rw [run, handler?_run built newest, installed]
  refine ⟨?_, handler, ?_, KeyboardChannel.mem_heldValue (m.book a).held.ascending_toList⟩
  · exact congrArg Setup.settings
      (((after before).session.setup_build settings scripted extra a).trans (if_pos rfl))
  · intro data asks
    cases gone : lost with
    | true =>
      rw [gone] at handler
      exact m.session.receive_of_none handler
    | false =>
      rw [gone] at handler
      exact m.session.receive_of_asks handler alive asks

/-- A key goes down on the second arbiter, and then the first one is disposed of. -/
def firstDisposed : List Move :=
  .command (.event 1 aPress) :: List.replicate 12 .go ++ [.command (.dispose 0)]

def getKeyboardState : List UInt8 := Json.utf8 "\x7b\"method\":\"getKeyboardState\"\x7d"

/-- An arbiter with another channel is disposed of: that changes nothing. -/
theorem keyboard_answered_unless_vacated_distinct :
    let m := after ([.command (.build { keyboardChannel := "other" } false [])] ++
      .command (.build {} false []) :: firstDisposed)
    m.scene.isAlive 1 ∧ (∀ move ∈ firstDisposed, ¬ move.Assigns "flutter/keyboard") ∧
      (m.session.receive "flutter/keyboard" getKeyboardState).2 =
        some (Json.utf8 "[\x7b\"458756\":97\x7d]") := by
  intro m
  have alive : m.scene.isAlive 1 := by decide +kernel
  have newest : ∀ move ∈ firstDisposed, ¬ move.Assigns "flutter/keyboard" := by
    simp [firstDisposed, Move.Assigns]
  obtain ⟨-, -, answered, -⟩ :=
    keyboard_answered_unless_vacated [.command (.build { keyboardChannel := "other" } false [])]
      firstDisposed {} false [] alive newest
  refine ⟨alive, newest, ?_⟩
  rw [answered getKeyboardState (by decide +kernel)]
  decide +kernel

/-- An older arbiter with the same channel is disposed of. The newer one is alive, a key is down on
it, and no one is asked for it. -/
theorem keyboard_unanswered :
    let m := after ([.command (.build {} false [])] ++
      .command (.build {} false []) :: firstDisposed)
    m.scene.isAlive 1 ∧ m.scene.setups.length = 2 ∧
      (m.scene.setup 1).settings.keyboardChannel = "flutter/keyboard" ∧
      (m.book 1).held.toList = [(⟨0x70004⟩, ⟨0x61⟩)] ∧ KeyboardChannel.Asks getKeyboardState ∧
      m.scene.handler? "flutter/keyboard" = none ∧
      (m.session.receive "flutter/keyboard" getKeyboardState).2 = none := by
  decide +kernel

end Moment

end KeyArbiter
