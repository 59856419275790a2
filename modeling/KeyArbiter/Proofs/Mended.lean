import KeyArbiter.Proofs.Calm
import KeyArbiter.Proofs.Course
import Mathlib

/-!
# States with failures mended

A responder fails if it drops a response, or if its message is not answered by a reply. Nothing that
follows tells such a failure from an answer that claims nothing: only the journal does, which nobody
reads. So states that are the same once failures are mended stay so in every step.
-/

namespace KeyArbiter

/-! ## Mending -/

def Delivery.mended (answer : Delivery) : Delivery := .answered answer.claimed

def Entry.mended : Entry → Option Entry
  | .dropped who id => some (.answered who id false)
  | .channelFailed .. => none
  | x => some x

def Journal.mended (j : Journal) : Journal :=
  j.filterMap fun x => x.entry.mended.map (⟨x.arbiter, ·⟩)

def Responder.mended : Responder → Responder
  | .extra .drop => .extra (.answer false)
  | r => r

def Setup.mended (setup : Setup) : Setup :=
  { setup with extra := setup.extra.map Responder.mended }

def Scene.mended (sc : Scene) : Scene := { sc with setups := sc.setups.map Setup.mended }

def State.mended (st : State) : State := { st with journal := st.journal.mended }

def Task.mended : Task → Task
  | .offer a d responders => .offer a d (responders.map Responder.mended)
  | .deliver t answer => .deliver t answer.mended
  | t => t

def Progress.mended (p : Progress) : Progress := (p.1.mended, p.2.map Task.mended)

theorem Progress.mended_eq_iff {p p' : Progress} : Progress.mended p' = Progress.mended p ↔
    p'.1.mended = p.1.mended ∧ p'.2.map Task.mended = p.2.map Task.mended :=
  Prod.ext_iff

theorem Delivery.mended_entry (answer : Delivery) (who : ResponderKind) (id : Nat) :
    (answer.entry who id).mended = some (.answered who id answer.claimed) := by
  cases answer <;> rfl

theorem Responder.mended_mended (r : Responder) : r.mended.mended = r.mended := by
  cases r with
  | extra rule => cases rule <;> rfl
  | _ => rfl

@[simp] theorem Responder.kind_mended (r : Responder) : r.mended.kind = r.kind := by
  cases r with
  | extra rule => cases rule <;> rfl
  | _ => rfl

theorem Setup.responders_mended (setup : Setup) :
    setup.mended.responders = setup.responders.map Responder.mended := by
  have embedder : setup.mended.settings = setup.settings := rfl
  have extra : setup.mended.extra = setup.extra.map Responder.mended := rfl
  simp only [responders, embedder, extra, List.map_append]
  congr 2
  · split <;> rfl
  · split <;> rfl

theorem Scene.setup_mended (sc : Scene) (a : ArbiterId) : sc.mended.setup a = (sc.setup a).mended := by
  exact List.getD_map sc.setups { alive := false } Setup.mended

/-! ## Scenes -/

namespace Scene

variable {sc sc' : Scene}

theorem like_setup (like : sc'.mended = sc.mended) (a : ArbiterId) :
    (sc'.setup a).mended = (sc.setup a).mended := by
  rw [← setup_mended, like, setup_mended]

theorem like_isAlive (like : sc'.mended = sc.mended) (a : ArbiterId) :
    sc'.isAlive a = sc.isAlive a :=
  (congrArg Setup.alive (like_setup like a) :)

theorem like_settings (like : sc'.mended = sc.mended) (a : ArbiterId) :
    (sc'.setup a).settings = (sc.setup a).settings :=
  (congrArg Setup.settings (like_setup like a) :)

theorem like_responders (like : sc'.mended = sc.mended) (a : ArbiterId) :
    (sc'.responders a).map Responder.mended = (sc.responders a).map Responder.mended := by
  unfold responders
  rw [← Setup.responders_mended, like_setup like, Setup.responders_mended]

theorem like_length (like : sc'.mended = sc.mended) : sc'.setups.length = sc.setups.length := by
  simpa [mended] using congrArg (fun sc => sc.setups.length) like

theorem like_layout (like : sc'.mended = sc.mended) (a : ArbiterId) : sc'.layout a = sc.layout a := by
  have choice : (sc'.setup a).layout = (sc.setup a).layout :=
    (congrArg Setup.layout (like_setup like a) :)
  have overrides : sc'.overrides = sc.overrides := congrArg (·.overrides) like
  unfold layout
  rw [choice, overrides]

theorem like_hook (like : sc'.mended = sc.mended) (h : HookId) : sc'.hook h = sc.hook h := by
  have hooks : sc'.hooks = sc.hooks := congrArg (·.hooks) like
  unfold hook
  rw [hooks, like_length like]

end Scene

/-! ## Steps -/

namespace State

variable {sc sc' : Scene} {st st' : State}

theorem exists_journal (like : st'.mended = st.mended) :
    ∃ j : Journal, st' = { st with journal := j } ∧ j.mended = st.journal.mended := by
  obtain ⟨⟩ := st
  obtain ⟨⟩ := st'
  simp only [mended, mk.injEq] at like
  obtain ⟨rfl, rfl, rfl, rfl, rfl, rfl, rfl, rfl, rfl, rfl, rfl, rfl, journal⟩ := like
  exact ⟨_, rfl, journal⟩

theorem like_change (like : st'.mended = st.mended) (f : State → State)
    (keeps : ∀ st, (f st).mended = f st.mended) : (f st').mended = (f st).mended := by
  rw [keeps, keeps, like]

theorem like_note_of (like : st'.mended = st.mended) (a : ArbiterId) {x x' : Entry}
    (entries : x'.mended = x.mended) : (st'.note a x').mended = (st.note a x).mended := by
  obtain ⟨j, rfl, journal⟩ := exists_journal like
  simp only [mended, note, Journal.mended, List.filterMap_cons] at journal ⊢
  rw [entries, journal]

theorem like_note (like : st'.mended = st.mended) (a : ArbiterId) (x : Entry) :
    (st'.note a x).mended = (st.note a x).mended :=
  like_note_of like a rfl

theorem mended_note_channelFailed (st : State) (a : ArbiterId) (id : Nat) (channel : String)
    (e : ChannelError) : (st.note a (.channelFailed id channel e)).mended = st.mended := by
  simp [mended, note, Journal.mended, Entry.mended]

theorem like_arrive (scenes : sc'.mended = sc.mended) (like : st'.mended = st.mended)
    (a : ArbiterId) (e : KeyEvent) :
    (st'.arrive sc' a e).1.mended = (st.arrive sc a e).1.mended ∧
      (st'.arrive sc' a e).2.1.map Task.mended = (st.arrive sc a e).2.1.map Task.mended ∧
      (st'.arrive sc' a e).2.2 = (st.arrive sc a e).2.2 := by
  have layout := Scene.like_layout scenes a
  have responders := Scene.like_responders scenes a
  have length : (sc'.responders a).length = (sc.responders a).length := by
    simpa using congrArg List.length responders
  have choice : (sc'.setup a).layout = (sc.setup a).layout :=
    (congrArg Setup.layout (Scene.like_setup scenes a) :)
  have turned (b : Book) (asked : Bool) :
      (st'.turn sc' a b asked).mended = (st.turn sc a b asked).mended := by
    obtain ⟨j, rfl, journal⟩ := exists_journal like
    simp only [mended, turn, setBook, queries, choice, journal]
  have book : st'.book a = st.book a := congrArg (·.book a) like
  rw [arrive_eq, arrive_eq, book, layout, length]
  generalize (st.book a).arrive (sc.layout a) (sc.responders a).length e = r
  obtain ⟨b, id | d, asked⟩ := r
  · exact ⟨like_note (turned b asked) a _, rfl, rfl⟩
  · refine ⟨like_note (turned b asked) a _, ?_, rfl⟩
    simp only [← List.length_eq_zero_iff, List.isEmpty_iff, length, List.map_singleton]
    split
    · rfl
    · simp only [Task.mended, responders]

theorem like_andThen (scenes : sc'.mended = sc.mended) (like : st'.mended = st.mended)
    (a : ArbiterId) (e : KeyEvent) (rest : Bool → List Task) :
    Progress.mended (andThen (st'.arrive sc' a e) rest) =
      Progress.mended (andThen (st.arrive sc a e) rest) := by
  obtain ⟨state, tasks, fresh⟩ := like_arrive scenes like a e
  simp only [Progress.mended, andThen, List.map_append, state, tasks, fresh]

theorem like_sync (like : st'.mended = st.mended) (a : ArbiterId) (modifiers : Modifiers)
    (time : UInt32) :
    Progress.mended (st'.sync a modifiers time) = Progress.mended (st.sync a modifiers time) := by
  have book : st'.book a = st.book a := congrArg (·.book a) like
  simp only [sync, book, Progress.mended]
  split
  · rw [like]
  · rw [like_note like]

theorem like_callHook (scenes : sc'.mended = sc.mended) (like : st'.mended = st.mended)
    (h : HookId) (e : KeyEvent) (outlet : Outlet) :
    Progress.mended (st'.callHook sc' h e outlet) = Progress.mended (st.callHook sc h e outlet) := by
  have budget : st'.budget h = st.budget h := congrArg (·.budget h) like
  simp only [callHook, Scene.like_hook scenes, Scene.like_isAlive scenes, budget]
  split
  · split
    · next n _ =>
      have spent := like_change like (fun st => { st with budgets := st.budgets.set h n }) fun _ => rfl
      simp only [Progress.mended, spent]
    · split
      · simp only [Progress.mended, like]
      · exact like_andThen scenes like _ e fun value => [.act h e [] value .inline]
  · simp only [Progress.mended, like]

theorem like_redispatch (scenes : sc'.mended = sc.mended) (like : st'.mended = st.mended)
    (e : KeyEvent) :
    (st'.redispatch sc' e).1.mended = (st.redispatch sc e).1.mended ∧
      (st'.redispatch sc' e).2.1.map Task.mended = (st.redispatch sc e).2.1.map Task.mended ∧
      (st'.redispatch sc' e).2.2 = (st.redispatch sc e).2.2 := by
  have mode : sc'.redispatch = sc.redispatch := congrArg (·.redispatch) scenes
  have queued := like_change like (fun st => { st with queue := st.queue ++ [e] }) fun _ => rfl
  have refused := like_change like (fun st => { st with refused := st.refused + 1 }) fun _ => rfl
  simp only [redispatch, mode]
  split
  · exact ⟨queued, rfl, rfl⟩
  · exact ⟨refused, rfl, rfl⟩
  · split
    · exact ⟨refused, rfl, rfl⟩
    · exact ⟨queued, rfl, rfl⟩
  · next h _ =>
    have called := like_callHook scenes like h e .inline
    exact ⟨congrArg Prod.fst called, congrArg Prod.snd called, rfl⟩

theorem like_setBook (like : st'.mended = st.mended) (a : ArbiterId) (b : Book) :
    (st'.setBook a b).mended = (st.setBook a b).mended :=
  like_change like (·.setBook a b) fun _ => rfl

theorem like_handBack (scenes : sc'.mended = sc.mended) (like : st'.mended = st.mended)
    (a : ArbiterId) (id : Nat) (e : KeyEvent) :
    Progress.mended (st'.handBack sc' a id e) = Progress.mended (st.handBack sc a id e) := by
  obtain ⟨state, tasks, taken⟩ := like_redispatch scenes like e
  have book : (st'.redispatch sc' e).1.book a = (st.redispatch sc e).1.book a :=
    congrArg (·.book a) state
  simp only [handBack, taken, book]
  split
  · simp only [Progress.mended, state, tasks]
  · simp only [Progress.mended, like_note (like_setBook state a _), tasks]

theorem like_conclude (scenes : sc'.mended = sc.mended) (like : st'.mended = st.mended)
    (a : ArbiterId) (d : Dispatch) (claimed : Bool) :
    Progress.mended (st'.conclude sc' a d claimed) = Progress.mended (st.conclude sc a d claimed) := by
  have book : st'.book a = st.book a := congrArg (·.book a) like
  have resolved : (st'.resolve a d claimed).mended = (st.resolve a d claimed).mended := by
    unfold resolve
    rw [book]
    exact like_note (like_setBook like a _) a _
  simp only [conclude_eq, book]
  split
  · simp only [Progress.mended, resolved]
  · exact like_handBack scenes (like_note resolved a _) a d.id _

theorem like_settle (scenes : sc'.mended = sc.mended) (like : st'.mended = st.mended)
    (a : ArbiterId) (d : Dispatch) (claimed : Bool) :
    Progress.mended (st'.settle sc' a d claimed) = Progress.mended (st.settle sc a d claimed) := by
  have filter : sc'.filter = sc.filter := congrArg (·.filter) scenes
  have asked := like_change like (fun st => { st with filterCalls := st.filterCalls + 1 }) fun _ => rfl
  simp only [settle, consult, Scene.like_settings scenes, filter]
  split
  · exact like_conclude scenes (like_note asked a _) a d _
  · exact like_conclude scenes like a d _

theorem like_deliver (scenes : sc'.mended = sc.mended) (like : st'.mended = st.mended) (t : Ticket)
    {answer answer' : Delivery} (same : answer'.mended = answer.mended) :
    Progress.mended (st'.deliver sc' t answer') = Progress.mended (st.deliver sc t answer) := by
  have claimed : answer'.claimed = answer.claimed := Delivery.answered.inj same
  have entries : (answer'.entry t.responder t.id).mended =
      (answer.entry t.responder t.id).mended := by
    rw [answer'.mended_entry, answer.mended_entry, claimed]
  have book : st'.book t.arbiter = st.book t.arbiter := congrArg (·.book t.arbiter) like
  have noted := like_note_of like t.arbiter entries
  simp only [deliver_eq, Scene.like_isAlive scenes, book_note, book, claimed]
  split
  · split
    · simp only [Progress.mended, like_setBook noted]
    · simp only [Progress.mended, like_note (like_setBook noted _ _)]
    · simp only [Progress.mended, like_setBook noted]
  · simp only [Progress.mended, like_note noted]

theorem Gives.like {owner : Option Ticket} {call : State → Progress} (gives : Gives owner call)
    (like : st'.mended = st.mended) : Progress.mended (call st') = Progress.mended (call st) := by
  obtain ⟨g, tasks, -, adds⟩ := gives
  obtain ⟨j, rfl, journal⟩ := exists_journal like
  simp only [Journal.mended] at journal
  simp only [adds, Progress.mended, mended, add, Journal.mended, List.filterMap_append, journal]

theorem like_offer (scenes : sc'.mended = sc.mended) (like : st'.mended = st.mended) (a : ArbiterId)
    (d : Dispatch) (r : Responder) :
    Progress.mended (st'.offer sc' a d r) = Progress.mended (st.offer sc a d r) := by
  by_cases calm : r.Calm
  · have embedder : sc'.embedder = sc.embedder := congrArg (·.embedder) scenes
    have channel : sc'.channel = sc.channel := congrArg (·.channel) scenes
    have same : st'.offer sc' a d r = st'.offer sc a d r := by
      cases r with
      | embedder => simp only [offer, sendToRuntime, embedder]
      | channel => simp only [offer, sendOnChannel, channel]
      | extra rule =>
        cases rule with
        | reenter => exact calm.elim
        | _ => rfl
    rw [same]
    exact (gives_offer sc a d calm).like like
  · obtain ⟨h, rfl⟩ := r.eq_reenter calm
    exact like_callHook scenes (like_change like (fun st => { st with seen := st.seen ++ [(a, d)] })
      fun _ => rfl) h _ _

theorem like_act (scenes : sc'.mended = sc.mended) (like : st'.mended = st.mended) (h : HookId)
    (e : KeyEvent) (value : Bool) (rest : Bool → List Task) (action : Action) :
    Progress.mended (st'.act sc' h e value rest action) =
      Progress.mended (st.act sc h e value rest action) := by
  have hook := Scene.like_hook scenes h
  cases action with
  | replay | restamp | event =>
    simp only [act, hook]
    exact like_andThen scenes like _ _ rest
  | answer value => simp only [act, Progress.mended, like]
  | sync modifiers time =>
    have synced := like_sync like (sc.hook h).target modifiers time
    obtain ⟨state, tasks⟩ := Progress.mended_eq_iff.1 synced
    simp only [act, hook, Progress.mended, List.map_append, state, tasks]

theorem like_step (scenes : sc'.mended = sc.mended) (like : st'.mended = st.mended) (t : Task) :
    Progress.mended (st'.step sc' t) = Progress.mended (st.step sc t) := by
  match t with
  | .offer _ _ [] => simp only [step, Progress.mended, like]
  | .offer a d (r :: rs) =>
    have offered := like_offer scenes (like_note like a (.offered d.id r.kind)) a d r
    obtain ⟨state, tasks⟩ := Progress.mended_eq_iff.1 offered
    simp only [step, Progress.mended, List.map_append, state, tasks]
  | .deliver t answer => exact like_deliver scenes like t rfl
  | .settle a d claimed => exact like_settle scenes like a d claimed
  | .act h e (action :: actions) value outlet => exact like_act scenes like h e value _ action
  | .act _ _ [] value (.answer t) => simp only [step, Progress.mended, like]
  | .act _ e [] value .inline =>
    exact congrArg (·, []) (like_change like
      (fun st => { st with inlineReplays := st.inlineReplays ++ [(e, value)] }) fun _ => rfl)
  | .feed _ [] => simp only [step, Progress.mended, like]
  | .feed a (e :: es) => exact like_andThen scenes like a e fun _ => [.feed a es]

theorem mended_offer_mended (sc : Scene) (st : State) (a : ArbiterId) (d : Dispatch)
    (r : Responder) :
    Progress.mended (st.offer sc a d r.mended) = Progress.mended (st.offer sc a d r) := by
  cases r with
  | extra rule => cases rule <;> rfl
  | _ => rfl

theorem mended_step_mended (sc : Scene) (st : State) (t : Task) :
    Progress.mended (st.step sc t.mended) = Progress.mended (st.step sc t) := by
  match t with
  | .offer _ _ [] => rfl
  | .offer a d (r :: rs) =>
    have offered := mended_offer_mended sc (st.note a (.offered d.id r.kind)) a d r
    obtain ⟨state, tasks⟩ := Progress.mended_eq_iff.1 offered
    have rest : (rs.map Responder.mended).map Responder.mended = rs.map Responder.mended := by
      rw [List.map_map]
      exact List.map_congr_left fun r _ => r.mended_mended
    simp only [Task.mended, List.map_cons, step, Responder.kind_mended, Progress.mended,
      List.map_append, List.map_nil, state, tasks, rest]
  | .deliver t answer => exact like_deliver rfl rfl t rfl
  | .settle a d claimed => rfl
  | .act .. => rfl
  | .feed .. => rfl

theorem like_tasks (scenes : sc'.mended = sc.mended) (like : st'.mended = st.mended) {t t' : Task}
    (tasks : t'.mended = t.mended) :
    Progress.mended (st'.step sc' t') = Progress.mended (st.step sc t) :=
  calc Progress.mended (st'.step sc' t')
      = Progress.mended (st.step sc t') := like_step scenes like t'
    _ = Progress.mended (st.step sc t'.mended) := (mended_step_mended sc st t').symm
    _ = Progress.mended (st.step sc t.mended) := by rw [tasks]
    _ = Progress.mended (st.step sc t) := mended_step_mended sc st t

theorem mended_giveReply_failed (st : State) (channel : String)
    {reply : Except TransportError (List UInt8)} (t : Ticket)
    (failed : ∃ e, (reply.mapError .transport >>= KeyReply.decode channel) = .error e) :
    Progress.mended (st.giveReply channel reply (some t)) =
      (st.mended, [.deliver t (.answered false)]) := by
  obtain ⟨e, failed⟩ := failed
  simp only [giveReply, failed, Progress.mended, mended_note_channelFailed]
  rfl

end State

end KeyArbiter
