import KeyArbiter.Proofs.Desk
import Mathlib

/-!
# The life of an event

An event is dispatched, offered and answered for, settled once, and perhaps handed back and then
replayed. `Stage` lists where it can stand, with its case, its history and what is owed for it, and
every change on a desk leads each event from one stage to another (`Sound.change`).
-/

namespace KeyArbiter

/-! ## The cases of an event -/

namespace Docket

variable (k : Docket) {id id' : Nat}

def casesOf (k : Docket) (id : Nat) : List Case := k.cases.filter (·.dispatch.id == id)

theorem find?_eq (id : Nat) : k.find? id = (k.casesOf id).head? :=
  (List.head?_filter ..).symm

theorem mem_casesOf {c : Case} : c ∈ k.casesOf id ↔ c ∈ k.cases ∧ c.dispatch.id = id := by
  simp [casesOf]

theorem casesOf_close_self : (k.close id).casesOf id = [] := by
  simp [casesOf, close]

theorem casesOf_close_of_ne (ne : id' ≠ id) : (k.close id).casesOf id' = k.casesOf id' := by
  unfold casesOf close
  rw [List.filter_filter]
  apply List.filter_congr
  intro c _
  by_cases eq : c.dispatch.id = id' <;> simp [eq, ne]

theorem casesOf_modify_self {f : Case → Case}
    (keeps : ∀ c, c.dispatch.id = id → (f c).dispatch.id = id) :
    (k.modify id f).casesOf id = (k.casesOf id).map f := by
  unfold casesOf modify
  induction k.cases with
  | nil => rfl
  | cons c cs ih =>
    by_cases eq : c.dispatch.id = id
    · simp [eq, keeps c eq, ih]
    · simp [eq, ih]

theorem casesOf_modify_of_ne {f : Case → Case}
    (keeps : ∀ c, c.dispatch.id = id → (f c).dispatch.id = id) (ne : id' ≠ id) :
    (k.modify id f).casesOf id' = k.casesOf id' := by
  unfold casesOf modify
  induction k.cases with
  | nil => rfl
  | cons c cs ih =>
    by_cases eq : c.dispatch.id = id
    · simp [eq, keeps c eq, ih, ne.symm]
    · simp [List.filter_cons, eq, ih]

theorem casesOf_enter (d : Dispatch) (n : Nat) (id : Nat) :
    (k.enter d n).casesOf id = k.casesOf id ++ if d.id = id then [{ dispatch := d, outstanding := n }] else [] := by
  by_cases eq : d.id = id <;> simp [casesOf, enter, eq]

def Ordered (k : Docket) : Prop := k.cases.Pairwise (·.dispatch.id < ·.dispatch.id)

theorem Ordered.enter {k : Docket} (h : k.Ordered) {d : Dispatch}
    (latest : ∀ c ∈ k.cases, c.dispatch.id < d.id) (n : Nat) : (k.enter d n).Ordered := by
  refine List.pairwise_append.2 ⟨h, List.pairwise_singleton _ _, ?_⟩
  intro c hc c' hc'
  obtain rfl := List.mem_singleton.1 hc'
  exact latest c hc

structure Replaces (k : Docket) (id : Nat) (cases : List Case) (after : Docket) : Prop where
  own : after.casesOf id = cases
  others : ∀ id' ≠ id, after.casesOf id' = k.casesOf id'
  ordered : k.Ordered → after.Ordered
  lastId : after.lastId = k.lastId

theorem replaces_close : k.Replaces id [] (k.close id) :=
  ⟨casesOf_close_self k, fun _ => casesOf_close_of_ne k, fun h => h.filter _, rfl⟩

theorem replaces_modify {f : Case → Case}
    (keeps : ∀ c, c.dispatch.id = id → (f c).dispatch.id = id) :
    k.Replaces id ((k.casesOf id).map f) (k.modify id f) := by
  refine ⟨casesOf_modify_self k keeps, fun _ => casesOf_modify_of_ne k keeps, ?_, rfl⟩
  have same (c : Case) : (if c.dispatch.id = id then f c else c).dispatch.id = c.dispatch.id := by
    split
    · next eq => rw [keeps c eq, eq]
    · rfl
  intro ordered
  refine List.pairwise_map.2 (List.Pairwise.imp ?_ ordered)
  intro c c' lt
  rwa [same, same]

variable {k} {c : Case}

theorem Replaces.trans {k' k'' : Docket} {cs cs' : List Case} (h : k.Replaces id cs k')
    (h' : k'.Replaces id cs' k'') : k.Replaces id cs' k'' :=
  ⟨h'.own, fun x ne => (h'.others x ne).trans (h.others x ne), fun o => h'.ordered (h.ordered o),
    h'.lastId.trans h.lastId⟩

theorem id_of_casesOf (only : k.casesOf id = [c]) : c.dispatch.id = id :=
  ((mem_casesOf k).1 (by rw [only]; exact List.mem_singleton_self c)).2

theorem answer_of_casesOf (only : k.casesOf id = [c]) (claimed : Bool) :
    ∃ after, k.Replaces id
        [{ c with claimed := c.claimed || claimed, outstanding := c.outstanding - 1 }] after ∧
      k.answer id claimed = (after, if c.outstanding - 1 = 0 then
        .complete (c.claimed || claimed) c.dispatch else .waiting (c.outstanding - 1)) := by
  have own := id_of_casesOf only
  have replaces := k.replaces_modify (f := fun _ =>
    { c with claimed := c.claimed || claimed, outstanding := c.outstanding - 1 }) fun _ _ => own
  rw [only] at replaces
  refine ⟨_, replaces, ?_⟩
  unfold answer
  rw [find?_eq, only]
  rfl

theorem giveBack_of_casesOf (only : k.casesOf id = [c]) (here : c.returned = false) :
    ∃ after, k.Replaces id [{ c with returned := true }] after ∧
      k.giveBack id = some (after, c.dispatch.event) := by
  have replaces := k.replaces_modify (f := fun c => { c with returned := true })
    fun _ (own : _ = id) => own
  rw [only] at replaces
  refine ⟨_, replaces, ?_⟩
  unfold giveBack
  rw [find?_eq, only]
  simp only [List.head?_cons, here, Bool.false_eq_true, if_false]

theorem takeReplay_spec {e : KeyEvent} {after : Docket} (h : k.takeReplay e = some (after, id)) :
    ∃ c ∈ k.casesOf id, Expects e c ∧ after = k.close id ∧
      ∀ c' ∈ k.cases, Expects e c' → k.Ordered → id ≤ c'.dispatch.id := by
  unfold takeReplay at h
  split at h
  · next c found =>
    cases h
    have expects := List.find?_some found
    refine ⟨c, (mem_casesOf k).2 ⟨List.mem_of_find?_eq_some found, rfl⟩, expects, rfl, ?_⟩
    intro c' hc' expects' ordered
    obtain ⟨before, later, split, none⟩ := (List.find?_eq_some_iff_append.1 found).2
    rw [split] at hc'
    rcases List.mem_append.1 hc' with hc' | hc'
    · have := none c' hc'
      simp [expects'] at this
    · rcases List.mem_cons.1 hc' with rfl | hc'
      · exact le_rfl
      · rw [Ordered, split] at ordered
        have := (List.pairwise_append.1 ordered).2.1
        exact le_of_lt ((List.pairwise_cons.1 this).1 c' hc')
  · cases h

end Docket

/-! ## What belongs to an event -/

theorem Responder.event?_told {r : Responder} {d : Dispatch} {x : Entry} (hx : x ∈ r.told d) :
    x.event? = some d.id := by
  unfold told at hx
  split at hx
  · split at hx <;> (obtain rfl := List.mem_singleton.1 hx; rfl)
  · obtain rfl := List.mem_singleton.1 hx
    rfl
  · exact absurd hx List.not_mem_nil

theorem Duty.id_of_mem_offers {d : Dispatch} {rs : List Responder} {x : Duty}
    (hx : x ∈ Duty.offers d rs) : x.id = d.id := by
  cases rs with
  | nil => exact absurd hx (Multiset.notMem_zero _)
  | cons r rs =>
    obtain rfl := Multiset.mem_singleton.1 hx
    rfl

/-! ## What the history of an event tells -/

namespace Entry

def dispatch? : Entry → Option (Dispatch × Nat)
  | .dispatched d n => some (d, n)
  | _ => none

def offer? : Entry → Option ResponderKind
  | .offered _ r => some r
  | _ => none

def answer? : Entry → Option Bool
  | .answered _ _ claimed => some claimed
  | .dropped .. => some false
  | _ => none

def consult? : Entry → Option KeyEvent
  | .filtered _ e _ => some e
  | _ => none

def handBack? : Entry → Option KeyEvent
  | .handedBack _ e => some e
  | _ => none

def replay? : Entry → Option KeyEvent
  | .replayed _ e => some e
  | _ => none

def refusal? : Entry → Option Nat
  | .refused id => some id
  | _ => none

/-- Nothing that settles an event, or comes after. -/
def Early (x : Entry) : Prop :=
  x.consult? = none ∧ x.handBack? = none ∧ x.replay? = none ∧ x.refusal? = none

end Entry

def Setup.asks (setup : Setup) (d : Dispatch) (claimed : Bool) : Bool :=
  !claimed && d.filterable setup.settings.textInputFiltersReleases

def settlement (setup : Setup) (d : Dispatch) (claimed consumes refuses : Bool) : List Entry :=
  let asks := setup.asks d claimed
  let verdict := if asks then consumes else claimed
  (if verdict then [] else (if refuses then [.refused d.id] else []) ++ [.handedBack d.id d.event]) ++
    .resolved d.id verdict :: if asks then [.filtered d.id d.event consumes] else []

/-- An event was dispatched. These responders are still to be offered it, and `left` answers are
still to come. -/
structure Underway (setup : Setup) (d : Dispatch) (rs : List Responder) (left : Nat)
    (claimed : Bool) (history : List Entry) : Prop where
  dispatched : history.filterMap Entry.dispatch? = [(d, setup.responders.length)]
  offered : (history.filterMap Entry.offer?).reverse ++ rs.map Responder.kind =
    setup.responders.map Responder.kind
  answered : (history.filterMap Entry.answer?).length + left = setup.responders.length
  claimed : claimed = (history.filterMap Entry.answer?).any id
  early : ∀ x ∈ history, x.Early

theorem Responder.silent_told {r : Responder} {d : Dispatch} {x : Entry} (hx : x ∈ r.told d) :
    x.dispatch? = none ∧ x.offer? = none ∧ x.answer? = none ∧ x.Early := by
  unfold told at hx
  split at hx
  · split at hx <;>
      (obtain rfl := List.mem_singleton.1 hx; exact ⟨rfl, rfl, rfl, rfl, rfl, rfl, rfl⟩)
  · obtain rfl := List.mem_singleton.1 hx
    exact ⟨rfl, rfl, rfl, rfl, rfl, rfl, rfl⟩
  · exact absurd hx List.not_mem_nil

namespace Underway

variable {setup : Setup} {d : Dispatch} {r : Responder} {rs : List Responder} {left : Nat}
  {claimed : Bool} {history : List Entry}

theorem first (setup : Setup) (d : Dispatch) :
    Underway setup d setup.responders setup.responders.length false
      [.dispatched d setup.responders.length] where
  dispatched := rfl
  offered := rfl
  answered := Nat.zero_add _
  claimed := rfl
  early x hx := by
    obtain rfl := List.mem_singleton.1 hx
    exact ⟨rfl, rfl, rfl, rfl⟩

theorem offer (h : Underway setup d (r :: rs) left claimed history) :
    Underway setup d rs left claimed (r.told d ++ .offered d.id r.kind :: history) := by
  have told : ∀ x ∈ r.told d, x.dispatch? = none ∧ x.offer? = none ∧ x.answer? = none ∧ x.Early :=
    fun _ => Responder.silent_told
  have nothing {β : Type} {f : Entry → Option β} (none : ∀ x ∈ r.told d, f x = none) :
      (r.told d).filterMap f = [] := List.filterMap_eq_nil_iff.2 none
  refine ⟨?_, ?_, ?_, ?_, ?_⟩
  · rw [List.filterMap_append, nothing fun x hx => (told x hx).1]
    exact h.dispatched
  · rw [List.filterMap_append, nothing fun x hx => (told x hx).2.1, ← h.offered]
    simp [Entry.offer?]
  · rw [List.filterMap_append, nothing fun x hx => (told x hx).2.2.1]
    exact h.answered
  · rw [List.filterMap_append, nothing fun x hx => (told x hx).2.2.1]
    exact h.claimed
  · intro x hx
    rcases List.mem_append.1 hx with hx | hx
    · exact (told x hx).2.2.2
    · rcases List.mem_cons.1 hx with rfl | hx
      · exact ⟨rfl, rfl, rfl, rfl⟩
      · exact h.early x hx

theorem answer (h : Underway setup d rs (left + 1) claimed history) (who : ResponderKind) (id : Nat)
    (answer : Delivery) :
    Underway setup d rs left (claimed || answer.claimed) (answer.entry who id :: history) := by
  obtain ⟨dispatched, offered, answered, rfl, early⟩ := h
  cases answer with
  | answered claimed | dropped =>
    refine ⟨dispatched, offered, ?_, ?_, ?_⟩
    · rw [← answered]
      simp [Delivery.entry, Entry.answer?]
      omega
    · simp [Delivery.entry, Entry.answer?, Delivery.claimed, Bool.or_comm]
    · intro x hx
      rcases List.mem_cons.1 hx with rfl | hx
      · exact ⟨rfl, rfl, rfl, rfl⟩
      · exact early x hx

theorem wait (h : Underway setup d rs left claimed history) (id n : Nat) :
    Underway setup d rs left claimed (.waiting id n :: history) := by
  obtain ⟨dispatched, offered, answered, claimed, early⟩ := h
  refine ⟨dispatched, offered, answered, claimed, ?_⟩
  intro x hx
  rcases List.mem_cons.1 hx with rfl | hx
  · exact ⟨rfl, rfl, rfl, rfl⟩
  · exact early x hx

end Underway

/-! ## Stages -/

structure Dossier where
  cases : List Case
  history : List Entry
  duties : Multiset Duty

def Desk.dossier (k : Desk) (id : Nat) : Dossier where
  cases := k.book.docket.casesOf id
  history := k.past.filter (·.event? = some id)
  duties := k.duties.filter (·.id = id)

/-- Where an event stands. -/
inductive Stage (setup : Setup) : Nat → Dossier → Prop
  | unborn {id : Nat} : Stage setup id ⟨[], [], 0⟩
  | waiting {d : Dispatch} {rs : List Responder} {k : Nat} {claimed : Bool} {history : List Entry}
    (underway : Underway setup d rs (k + rs.length) claimed history) (left : 0 < k + rs.length) :
    Stage setup d.id ⟨[⟨d, k + rs.length, claimed, false⟩], history,
      Multiset.replicate k (.ticket d.id) + Duty.offers d rs⟩
  | settling {d : Dispatch} {claimed : Bool} {history : List Entry}
    (underway : Underway setup d [] 0 claimed history) :
    Stage setup d.id ⟨[⟨d, 0, claimed, false⟩], history, {.settle d claimed}⟩
  | closed {d : Dispatch} {claimed consumes refuses : Bool} {history : List Entry}
    (underway : Underway setup d [] 0 claimed history)
    (ended : (if setup.asks d claimed then consumes else claimed) || refuses) :
    Stage setup d.id ⟨[], settlement setup d claimed consumes refuses ++ history, 0⟩
  | returned {d : Dispatch} {claimed consumes : Bool} {history : List Entry}
    (underway : Underway setup d [] 0 claimed history)
    (verdict : (if setup.asks d claimed then consumes else claimed) = false) :
    Stage setup d.id
      ⟨[⟨d, 0, claimed, true⟩], settlement setup d claimed consumes false ++ history, 0⟩
  | replayed {d : Dispatch} {claimed consumes : Bool} {history : List Entry}
    (underway : Underway setup d [] 0 claimed history)
    (verdict : (if setup.asks d claimed then consumes else claimed) = false) :
    Stage setup d.id
      ⟨[], .replayed d.id d.event :: settlement setup d claimed consumes false ++ history, 0⟩

/-- Every event stands at some stage, and those to come at the first. -/
structure Sound (setup : Setup) (k : Desk) : Prop where
  stage : ∀ id, Stage setup id (k.dossier id)
  unborn : ∀ id, k.book.docket.lastId < id → k.dossier id = ⟨[], [], 0⟩
  ordered : k.book.docket.Ordered

namespace Stage

theorem wait {setup : Setup} {d : Dispatch} {rs : List Responder} {k left : Nat} {claimed : Bool}
    {history : List Entry} (eq : left = k + rs.length) (pos : 0 < left)
    (underway : Underway setup d rs left claimed history) :
    Stage setup d.id ⟨[⟨d, left, claimed, false⟩], history,
      Multiset.replicate k (.ticket d.id) + Duty.offers d rs⟩ := by
  subst eq
  exact .waiting underway pos

theorem of_first {setup : Setup} {d : Dispatch} {rs : List Responder} {history : List Entry}
    (underway : Underway setup d rs rs.length false history) :
    Stage setup d.id ⟨[⟨d, rs.length, false, false⟩], history, {.first d rs}⟩ := by
  cases rs with
  | nil => exact .settling underway
  | cons r rs =>
    have stage := wait (k := 0) (Nat.zero_add _).symm (by simp) underway
    rwa [Multiset.replicate_zero, zero_add] at stage

variable {setup : Setup} {id : Nat} {D : Dossier} {rest : Multiset Duty}

theorem of_ticket (stage : Stage setup id D) (owed : D.duties = .ticket id ::ₘ rest) :
    ∃ d rs k claimed, d.id = id ∧ D.cases = [⟨d, k + rs.length + 1, claimed, false⟩] ∧
      Underway setup d rs (k + rs.length + 1) claimed D.history ∧
      rest = Multiset.replicate k (.ticket id) + Duty.offers d rs := by
  have mem : .ticket id ∈ D.duties := by
    rw [owed]
    exact Multiset.mem_cons_self ..
  cases stage with
  | unborn | closed | returned | replayed => exact absurd mem (Multiset.notMem_zero _)
  | settling => cases Multiset.mem_singleton.1 mem
  | @waiting d rs k claimed history underway left =>
    have some : k ≠ 0 := by
      rintro rfl
      cases rs <;> simp [Duty.offers] at mem
    obtain ⟨k, rfl⟩ := Nat.exists_eq_succ_of_ne_zero some
    rw [Nat.succ_add] at underway
    refine ⟨d, rs, k, claimed, rfl, by rw [Nat.succ_add], underway, ?_⟩
    rw [Multiset.replicate_succ, Multiset.cons_add] at owed
    exact ((Multiset.cons_inj_right _).1 owed).symm

theorem of_offer {d : Dispatch} {r : Responder} {rs : List Responder}
    (stage : Stage setup id D) (owed : D.duties = .offer d (r :: rs) ::ₘ rest) :
    ∃ k claimed, d.id = id ∧ D.cases = [⟨d, k + (rs.length + 1), claimed, false⟩] ∧
      Underway setup d (r :: rs) (k + (rs.length + 1)) claimed D.history ∧
      rest = Multiset.replicate k (.ticket id) := by
  have mem : .offer d (r :: rs) ∈ D.duties := by
    rw [owed]
    exact Multiset.mem_cons_self ..
  cases stage with
  | unborn | closed | returned | replayed => exact absurd mem (Multiset.notMem_zero _)
  | settling => cases Multiset.mem_singleton.1 mem
  | @waiting d' rs' k claimed history underway left =>
    cases rs' with
    | nil => simp [Duty.offers, Multiset.mem_replicate] at mem
    | cons r' rs' =>
      obtain ⟨rfl, rfl, rfl⟩ : d = d' ∧ r = r' ∧ rs = rs' := by
        simpa [Duty.offers, Multiset.mem_replicate] using mem
      refine ⟨k, claimed, rfl, rfl, underway, ?_⟩
      rw [Duty.offers, add_comm (Multiset.replicate _ _), Multiset.singleton_add] at owed
      exact ((Multiset.cons_inj_right _).1 owed).symm

theorem of_settle {d : Dispatch} {claimed : Bool} (stage : Stage setup id D)
    (owed : D.duties = .settle d claimed ::ₘ rest) :
    d.id = id ∧ D.cases = [⟨d, 0, claimed, false⟩] ∧ Underway setup d [] 0 claimed D.history ∧
      rest = 0 := by
  have mem : .settle d claimed ∈ D.duties := by
    rw [owed]
    exact Multiset.mem_cons_self ..
  cases stage with
  | unborn | closed | returned | replayed => exact absurd mem (Multiset.notMem_zero _)
  | @waiting d' rs =>
    cases rs <;> simp [Duty.offers, Multiset.mem_replicate] at mem
  | settling underway =>
    obtain ⟨same, rfl⟩ := (Multiset.singleton_eq_cons_iff _).1 owed
    cases same
    exact ⟨rfl, rfl, underway, rfl⟩

theorem of_returned {c : Case} (stage : Stage setup id D) (mem : c ∈ D.cases)
    (back : c.returned = true) :
    ∃ consumes history, c.dispatch.id = id ∧ Underway setup c.dispatch [] 0 c.claimed history ∧
      (if setup.asks c.dispatch c.claimed then consumes else c.claimed) = false ∧
      D = ⟨[c], settlement setup c.dispatch c.claimed consumes false ++ history, 0⟩ := by
  cases stage with
  | unborn | closed | replayed => exact absurd mem List.not_mem_nil
  | waiting | settling =>
    obtain rfl := List.mem_singleton.1 mem
    cases back
  | returned underway verdict =>
    obtain rfl := List.mem_singleton.1 mem
    exact ⟨_, _, rfl, underway, verdict, rfl⟩

end Stage

/-! ## Every change keeps events on their way -/

theorem Book.dispatch_spec (b : Book) (layout : Layout) (e : KeyEvent) :
    (b.dispatch layout e).1.docket = b.docket ∧
      (b.dispatch layout e).2.1.id = b.docket.lastId + 1 ∧ (b.dispatch layout e).2.1.event = e := by
  have docket (b : Book) : (b.resolve layout e).1.docket = b.docket := by
    unfold resolve
    split <;> rfl
  unfold dispatch
  simp only
  split
  · exact ⟨docket b, rfl, rfl⟩
  · split
    · exact ⟨rfl, rfl, rfl⟩
    · exact ⟨docket b, rfl, rfl⟩

/-! ## Settling -/

theorem event?_settlement {setup : Setup} {d : Dispatch} {claimed consumes refuses : Bool} :
    ∀ x ∈ settlement setup d claimed consumes refuses, x.event? = some d.id := by
  have resolved (verdict : Bool) : (Entry.resolved d.id verdict).event? = some d.id := rfl
  have filtered : (Entry.filtered d.id d.event consumes).event? = some d.id := rfl
  have handedBack : (Entry.handedBack d.id d.event).event? = some d.id := rfl
  have refused : (Entry.refused d.id).event? = some d.id := rfl
  simp only [settlement]
  generalize setup.asks d claimed = asks
  generalize (if asks then consumes else claimed) = verdict
  cases verdict <;> cases refuses <;> cases asks <;>
    simp [resolved, filtered, handedBack, refused]

namespace Desk

variable {setup : Setup} {k : Desk} {d : Dispatch} {claimed consumes : Bool}

theorem consult_eq : k.consult setup d claimed consumes =
    if setup.asks d claimed then (k.remark (.filtered d.id d.event consumes), consumes)
    else (k, claimed) := rfl

theorem settle_claimed (verdict : (if setup.asks d claimed then consumes else claimed) = true)
    (refuses : Bool) (others : Multiset Duty) :
    (k.settle setup d claimed consumes refuses others).book.docket = k.book.docket.close d.id ∧
      (k.settle setup d claimed consumes refuses others).past =
        settlement setup d claimed consumes refuses ++ k.past ∧
      (k.settle setup d claimed consumes refuses others).duties = others := by
  rw [settle, consult_eq]
  unfold conclude settlement
  cases asks : setup.asks d claimed with
  | true =>
    obtain rfl : consumes = true := by simpa [asks] using verdict
    simp [Book.settle, remark]
  | false =>
    obtain rfl : claimed = true := by simpa [asks] using verdict
    simp [Book.settle]

theorem settle_unclaimed (verdict : (if setup.asks d claimed then consumes else claimed) = false)
    {docket : Docket} (back : k.book.docket.giveBack d.id = some (docket, d.event)) (refuses : Bool)
    (others : Multiset Duty) :
    (k.settle setup d claimed consumes refuses others).book.docket =
        (if refuses then docket.close d.id else docket) ∧
      (k.settle setup d claimed consumes refuses others).past =
        settlement setup d claimed consumes refuses ++ k.past ∧
      (k.settle setup d claimed consumes refuses others).duties = others := by
  rw [settle, consult_eq]
  unfold conclude settlement
  cases asks : setup.asks d claimed with
  | true =>
    obtain rfl : consumes = false := by simpa [asks] using verdict
    cases refuses <;> simp [Book.settle, remark, back]
  | false =>
    obtain rfl : claimed = false := by simpa [asks] using verdict
    cases refuses <;> simp [Book.settle, back]

end Desk

namespace Sound

variable {setup : Setup} {k k' : Desk}

theorem congr (sound : Sound setup k) (same : ∀ id, k'.dossier id = k.dossier id)
    (docket : k'.book.docket = k.book.docket) : Sound setup k' := by
  refine ⟨?_, ?_, by rw [docket]; exact sound.ordered⟩
  · intro id
    rw [same]
    exact sound.stage id
  · intro id lt
    rw [docket] at lt
    rw [same]
    exact sound.unborn id lt

/-- A sound desk stays sound if one event that was dispatched comes to another stage. -/
theorem update (sound : Sound setup k) {id : Nat} {cases : List Case} (entries : List Entry)
    (old new : Multiset Duty) {others : Multiset Duty}
    (docket : k.book.docket.Replaces id cases k'.book.docket) (past : k'.past = entries ++ k.past)
    (about : ∀ x ∈ entries, x.event? = some id) (before : k.duties = old + others)
    (mine : ∀ x ∈ old, x.id = id) (after : k'.duties = new + others)
    (mine' : ∀ x ∈ new, x.id = id) (born : k.dossier id ≠ ⟨[], [], 0⟩)
    (stage : Stage setup id
      ⟨cases, entries ++ (k.dossier id).history, new + others.filter (·.id = id)⟩) :
    Sound setup k' := by
  have own : k'.dossier id =
      ⟨cases, entries ++ (k.dossier id).history, new + others.filter (·.id = id)⟩ := by
    have history : entries.filter (·.event? = some id) = entries := by
      apply List.filter_eq_self.2
      intro x hx
      rw [about x hx]
      simp
    simp only [Desk.dossier, docket.own, past, List.filter_append, history, after,
      Multiset.filter_add, Multiset.filter_eq_self.2 mine']
  have other (id' : Nat) (ne : id' ≠ id) : k'.dossier id' = k.dossier id' := by
    have history : entries.filter (·.event? = some id') = [] := by
      apply List.filter_eq_nil_iff.2
      intro x hx
      rw [about x hx]
      simpa using ne.symm
    have none {duties : Multiset Duty} (mine : ∀ x ∈ duties, x.id = id) :
        duties.filter (·.id = id') = 0 :=
      Multiset.filter_eq_nil.2 fun x hx => by rw [mine x hx]; exact ne.symm
    simp only [Desk.dossier, docket.others id' ne, past, List.filter_append, history,
      List.nil_append, before, after, Multiset.filter_add, none mine, none mine', zero_add]
  refine ⟨?_, ?_, docket.ordered sound.ordered⟩
  · intro id'
    by_cases eq : id' = id
    · subst eq
      rwa [own]
    · rw [other id' eq]
      exact sound.stage id'
  · intro id' lt
    rw [docket.lastId] at lt
    have ne : id' ≠ id := by
      rintro rfl
      exact born (sound.unborn id' lt)
    rw [other id' ne]
    exact sound.unborn id' lt

theorem remark (sound : Sound setup k) {x : Entry} (idle : x.event? = none) :
    Sound setup (k.remark x) := by
  refine sound.congr (fun id => ?_) rfl
  simp [Desk.dossier, Desk.remark, idle]

theorem le_lastId (sound : Sound setup k) {id : Nat} (born : k.dossier id ≠ ⟨[], [], 0⟩) :
    id ≤ k.book.docket.lastId := by
  by_contra lt
  exact born (sound.unborn id (not_le.1 lt))

theorem le_lastId_of_case (sound : Sound setup k) {c : Case} (hc : c ∈ k.book.docket.cases) :
    c.dispatch.id ≤ k.book.docket.lastId := by
  apply sound.le_lastId
  intro blank
  have mem : c ∈ (k.dossier c.dispatch.id).cases := (Docket.mem_casesOf _).2 ⟨hc, rfl⟩
  rw [blank] at mem
  exact List.not_mem_nil mem

theorem le_lastId_of_entry (sound : Sound setup k) {x : Entry} (hx : x ∈ k.past) {id : Nat}
    (about : x.event? = some id) : id ≤ k.book.docket.lastId := by
  apply sound.le_lastId
  intro blank
  have mem : x ∈ (k.dossier id).history := List.mem_filter.2 ⟨hx, decide_eq_true about⟩
  rw [blank] at mem
  exact List.not_mem_nil mem

theorem duties_dossier {x : Duty} {others : Multiset Duty} (owed : k.duties = x ::ₘ others) :
    (k.dossier x.id).duties = x ::ₘ others.filter (·.id = x.id) := by
  rw [Desk.dossier, owed]
  exact Multiset.filter_cons_of_pos _ rfl

theorem born_of_owed {x : Duty} {others : Multiset Duty} (owed : k.duties = x ::ₘ others) :
    k.dossier x.id ≠ ⟨[], [], 0⟩ := by
  intro blank
  have := duties_dossier owed
  rw [blank] at this
  exact Multiset.zero_ne_cons this

theorem replay (sound : Sound setup k) {e : KeyEvent} {docket : Docket} {id : Nat}
    (taken : k.book.docket.takeReplay e = some (docket, id)) :
    Sound setup { k with book := { k.book with docket }, past := .replayed id e :: k.past } := by
  obtain ⟨c, mem, expects, rfl, -⟩ := Docket.takeReplay_spec taken
  obtain ⟨back, rfl⟩ : c.returned = true ∧ c.dispatch.event = e := by
    simpa [Docket.Expects] using expects
  obtain ⟨consumes, history, rfl, underway, verdict, here⟩ := (sound.stage id).of_returned mem back
  refine sound.update [.replayed c.dispatch.id c.dispatch.event] 0 0
    k.book.docket.replaces_close rfl (by simp [Entry.event?]) (zero_add _).symm (by simp)
    (zero_add _).symm (by simp) ?_ ?_
  · rw [here]
    exact fun h => by cases h
  · have none : k.duties.filter (·.id = c.dispatch.id) = 0 := congrArg Dossier.duties here
    rw [here, none]
    exact .replayed underway verdict

theorem fresh (sound : Sound setup k) {b : Book} {d : Dispatch} (docket : b.docket = k.book.docket)
    (next : d.id = k.book.docket.lastId + 1) :
    Sound setup ⟨{ b with docket := b.docket.enter d setup.responders.length },
      .dispatched d setup.responders.length :: k.past,
      .first d setup.responders ::ₘ k.duties⟩ := by
  have unborn : k.dossier d.id = ⟨[], [], 0⟩ := sound.unborn d.id (by omega)
  have first : (Duty.first d setup.responders).id = d.id := by
    cases setup.responders <;> rfl
  have about : (Entry.dispatched d setup.responders.length).event? = some d.id := rfl
  generalize eq : Desk.mk { b with docket := b.docket.enter d setup.responders.length }
    (.dispatched d setup.responders.length :: k.past) (.first d setup.responders ::ₘ k.duties) = k'
  have own : k'.dossier d.id = ⟨[⟨d, setup.responders.length, false, false⟩],
      [.dispatched d setup.responders.length], {.first d setup.responders}⟩ := by
    have cases : k.book.docket.casesOf d.id = [] := congrArg Dossier.cases unborn
    have history : k.past.filter (·.event? = some d.id) = [] := congrArg Dossier.history unborn
    have duties : k.duties.filter (·.id = d.id) = 0 := congrArg Dossier.duties unborn
    subst eq
    simp [Desk.dossier, Docket.casesOf_enter, docket, cases, about, history, duties,
      Multiset.filter_cons_of_pos, first]
  have other (id : Nat) (ne : id ≠ d.id) : k'.dossier id = k.dossier id := by
    subst eq
    simp [Desk.dossier, Docket.casesOf_enter, docket, ne.symm, about,
      Multiset.filter_cons_of_neg, first]
  refine ⟨?_, ?_, ?_⟩
  · intro id
    by_cases eq : id = d.id
    · subst eq
      rw [own]
      exact .of_first (Underway.first setup d)
    · rw [other id eq]
      exact sound.stage id
  · subst eq
    intro id lt
    change d.id < id at lt
    rw [other id (by omega)]
    exact sound.unborn id (by omega)
  · subst eq
    change (b.docket.enter d setup.responders.length).Ordered
    rw [docket]
    refine Docket.Ordered.enter sound.ordered ?_ _
    intro c hc
    have := sound.le_lastId_of_case hc
    omega

theorem arrive (sound : Sound setup k) (layout : Layout) (e : KeyEvent) :
    Sound setup (k.arrive setup layout e) := by
  unfold Desk.arrive Book.arrive
  obtain ⟨docket, next, -⟩ := k.book.dispatch_spec layout e
  cases taken : k.book.docket.takeReplay e with
  | some p => exact sound.replay taken
  | none => exact sound.fresh docket next

theorem offer (sound : Sound setup k) {d : Dispatch} {r : Responder} {rs : List Responder}
    {others : Multiset Duty} (owed : k.duties = .offer d (r :: rs) ::ₘ others) :
    Sound setup (k.offer d r rs others) := by
  obtain ⟨n, claimed, -, cases, underway, rest⟩ :=
    (sound.stage d.id).of_offer (duties_dossier owed)
  have replaces : k.book.docket.Replaces d.id [⟨d, n + (rs.length + 1), claimed, false⟩]
      k.book.docket := ⟨cases, fun _ _ => rfl, id, rfl⟩
  refine sound.update (r.told d ++ [.offered d.id r.kind]) {.offer d (r :: rs)}
    (.ticket d.id ::ₘ Duty.offers d rs) replaces ?_ ?_ owed ?_ ?_ ?_ (born_of_owed owed) ?_
  · simp [Desk.offer]
  · intro x hx
    rcases List.mem_append.1 hx with hx | hx
    · exact Responder.event?_told hx
    · obtain rfl := List.mem_singleton.1 hx
      rfl
  · simp [Duty.id]
  · simp [Desk.offer]
  · intro x hx
    rcases Multiset.mem_cons.1 hx with rfl | hx
    · rfl
    · exact Duty.id_of_mem_offers hx
  · have rest : others.filter (·.id = d.id) = Multiset.replicate n (.ticket d.id) := rest
    have stage := Stage.wait (k := n + 1) (by omega) (by omega) underway.offer
    rw [rest, List.append_assoc, Multiset.cons_add, add_comm (Duty.offers d rs), ← Multiset.cons_add,
      ← Multiset.replicate_succ]
    exact stage

theorem deliver (sound : Sound setup k) (alive : setup.alive) {id : Nat} {others : Multiset Duty}
    (owed : k.duties = .ticket id ::ₘ others) (who : ResponderKind) (answer : Delivery) :
    Sound setup (k.deliver setup id who answer others) := by
  obtain ⟨d, rs, n, claimed, rfl, cases, underway, rest⟩ :=
    (sound.stage id).of_ticket (duties_dossier owed)
  obtain ⟨docket, replaces, eq⟩ := Docket.answer_of_casesOf cases answer.claimed
  have answered := underway.answer who d.id answer
  have about : (answer.entry who d.id).event? = some d.id := by
    cases answer <;> rfl
  have rest : others.filter (·.id = d.id) =
      Multiset.replicate n (.ticket d.id) + Duty.offers d rs := rest
  unfold Desk.deliver
  rw [if_pos alive, eq]
  by_cases last : n + rs.length = 0
  · obtain ⟨rfl, rfl⟩ : n = 0 ∧ rs = [] := by simpa using last
    refine sound.update [answer.entry who d.id] {.ticket d.id} {.settle d (claimed || answer.claimed)}
      replaces rfl (by simp [about]) owed (by simp [Duty.id]) rfl (by simp [Duty.id])
      (born_of_owed owed) ?_
    rw [rest]
    exact .settling answered
  · simp only [Nat.add_sub_cancel, if_neg last]
    refine sound.update [.waiting d.id (n + rs.length), answer.entry who d.id] {.ticket d.id} 0
      replaces rfl ?_ owed (by simp [Duty.id]) (zero_add _).symm (by simp) (born_of_owed owed) ?_
    · intro x hx
      rcases List.mem_cons.1 hx with rfl | hx
      · rfl
      · obtain rfl := List.mem_singleton.1 hx
        exact about
    · rw [rest, zero_add]
      exact .wait rfl (Nat.pos_of_ne_zero last) (answered.wait _ _)

theorem settle (sound : Sound setup k) {d : Dispatch} {claimed : Bool} {others : Multiset Duty}
    (owed : k.duties = .settle d claimed ::ₘ others) (consumes refuses : Bool) :
    Sound setup (k.settle setup d claimed consumes refuses others) := by
  obtain ⟨-, cases, underway, rest⟩ := (sound.stage d.id).of_settle (duties_dossier owed)
  have rest : others.filter (·.id = d.id) = 0 := rest
  have own : ∀ x ∈ ({.settle d claimed} : Multiset Duty), x.id = d.id := by simp [Duty.id]
  have none : ∀ x ∈ (0 : Multiset Duty), x.id = d.id := by simp
  cases verdict : (if setup.asks d claimed then consumes else claimed) with
  | true =>
    obtain ⟨docket, past, duties⟩ := Desk.settle_claimed (k := k) verdict refuses others
    have replaces := @Docket.replaces_close k.book.docket d.id
    rw [← docket] at replaces
    refine sound.update _ _ 0 replaces past event?_settlement owed own
      (duties.trans (zero_add _).symm) none (born_of_owed owed) ?_
    rw [rest, zero_add]
    exact .closed underway (by rw [verdict]; rfl)
  | false =>
    obtain ⟨given, replaces, back⟩ := Docket.giveBack_of_casesOf cases rfl
    obtain ⟨docket, past, duties⟩ := Desk.settle_unclaimed verdict back refuses others
    cases refuses with
    | true =>
      have replaces := replaces.trans given.replaces_close
      simp only [if_true] at docket
      rw [← docket] at replaces
      refine sound.update _ _ 0 replaces past event?_settlement owed own
        (duties.trans (zero_add _).symm) none (born_of_owed owed) ?_
      rw [rest, zero_add]
      exact .closed underway (Bool.or_true _)
    | false =>
      simp only [Bool.false_eq_true, if_false] at docket
      rw [← docket] at replaces
      refine sound.update _ _ 0 replaces past event?_settlement owed own
        (duties.trans (zero_add _).symm) none (born_of_owed owed) ?_
      rw [rest, zero_add]
      exact .returned underway verdict

/-- Every change of an arbiter that is alive keeps events on their way. -/
theorem change (alive : setup.alive) {layouts : Layout → Prop} (change : Change setup layouts k k')
    (sound : Sound setup k) : Sound setup k' := by
  cases change with
  | remark idle => exact sound.remark idle
  | forgetLayout => exact sound.congr (fun _ => rfl) rfl
  | arrive asked e => exact sound.arrive _ e
  | offer owed => exact sound.offer owed
  | deliver owed who answer => exact sound.deliver alive owed who answer
  | settle owed consumes refuses => exact sound.settle owed consumes refuses

theorem of_blank (blank : k.Blank) : Sound setup k := by
  have none (id : Nat) : k.dossier id = ⟨[], [], 0⟩ := by
    have history : k.past.filter (·.event? = some id) = [] := by
      apply List.filter_eq_nil_iff.2
      intro x hx
      simp [blank.past x hx]
    simp [Desk.dossier, history, blank.book, blank.duties, Docket.casesOf]
  refine ⟨?_, fun id _ => none id, ?_⟩
  · intro id
    rw [none]
    exact .unborn
  · rw [blank.book]
    exact List.Pairwise.nil

theorem of_course (alive : setup.alive) {layouts : Layout → Prop} (start : k.Blank)
    (course : Course setup layouts k k') : Sound setup k' :=
  course.preserves (fun step sound => sound.change alive step) (of_blank start)

end Sound

end KeyArbiter
