import KeyArbiter.Agenda.Task

/-!
# One step

What each task does: to the state at once, and by the tasks that it leaves.
-/

namespace KeyArbiter

variable (sc : Scene)

namespace State

/-! ## Verdicts and replies -/

def giveVerdict (st : State) (claimed : Bool) : Option Ticket → Progress
  | some t => (st, [.deliver t (.answered claimed)])
  | none => ({ st with direct := st.direct ++ [.verdict claimed] }, [])

def replyData (claimed : Bool) : List UInt8 := Json.utf8 (KeyReply.codec.encode ⟨claimed⟩)

/-- A reply comes in on a channel, or none will. Whatever is no reply claims nothing. -/
def giveReply (st : State) (channel : String) (reply : Except TransportError (List UInt8)) :
    Option Ticket → Progress
  | some t =>
    match reply.mapError .transport >>= KeyReply.decode channel with
    | .ok r => (st, [.deliver t (.answered r.handled)])
    | .error e => (st.note t.arbiter (.channelFailed t.id channel e), [.deliver t (.answered false)])
  | none => ({ st with direct := st.direct ++ [.reply reply] }, [])

def complete (st : State) (claimed : Bool) : Completion → Progress
  | .verdict owner => st.giveVerdict claimed owner
  | .reply owner channel => st.giveReply channel (.ok (replyData claimed)) owner

def abandon (st : State) : Completion → Progress
  | .verdict (some t) | .reply (some t) _ => (st, [.deliver t .dropped])
  | .verdict none | .reply none _ => (st, [])

/-! ## Calls into the host -/

def keep (st : State) (call : Call) (completion : Option Completion) : State :=
  { st with records := st.records ++ [CallRecord.mk call completion] }

def sendToRuntime (st : State) (e : RuntimeEvent) (owner : Option Ticket) : Progress :=
  match sc.embedder with
  | .respond claimed => st.giveVerdict claimed owner
  | .record => (st.keep (.runtimeEvent e) (some (.verdict owner)), [])
  | .respondAndRecord claimed => (st.keep (.runtimeEvent e) none).giveVerdict claimed owner

/-- The JSON value of a message, null if it is none. -/
def messageValue (data : List UInt8) : Json.Value :=
  match Json.Value.codec.decode data with
  | .ok v => v
  | .error _ => .null

def sendOnChannel (st : State) (channel : String) (data : List UInt8) (owner : Option Ticket) :
    Progress :=
  let st := { st with sent := st.sent ++ [channel] }
  match sc.channel with
  | .respond claimed => st.giveReply channel (.ok (replyData claimed)) owner
  | .record => (st.keep (.message (messageValue data)) (some (.reply owner channel)), [])
  | .fail kind =>
    st.giveReply channel (.error ⟨kind, some ("mock transport failure on " ++ channel)⟩) owner
  | .raw data => st.giveReply channel (.ok data) owner

/-! ## Events -/

/-- What an arbiter that asked its layout, or did not, adds to the queries that are counted. -/
def queries (sc : Scene) (a : ArbiterId) (asked : Bool) : Nat :=
  match (sc.setup a).layout with
  | .fixed _ => 0
  | .scripted => asked.toNat

/-- An event is delivered to an arbiter, which tells whether it was fresh. -/
def arrive (st : State) (a : ArbiterId) (e : KeyEvent) : State × List Task × Bool :=
  let responders := sc.responders a
  let (after, arrival, asked) := (st.book a).arrive (sc.layout a) responders.length e
  let st := { st.setBook a after with lookups := st.lookups + queries sc a asked }
  match arrival with
  | .replay id => (st.note a (.replayed id e), [], false)
  | .fresh d =>
    (st.note a (.dispatched d responders.length),
      [if responders.isEmpty then .settle a d false else .offer a d responders], true)

/-- The modifier word is compared with the held keys of an arbiter. -/
def sync (st : State) (a : ArbiterId) (modifiers : Modifiers) (time : UInt32) : Progress :=
  let plan := modifiers.plan (st.book a).held.down time
  (if plan.isEmpty then st else st.note a (.synchronizing modifiers plan.length), [.feed a plan])

/-- A hook is called for an event. Once its budget is used up it runs no actions: an answer is then
negative, and an event that the host delivers at once is delivered as it is. -/
def callHook (st : State) (h : HookId) (e : KeyEvent) (outlet : Outlet) : Progress :=
  let hook := sc.hook h
  if sc.isAlive hook.target then
    match st.budget h with
    | n + 1 => ({ st with budgets := st.budgets.set h n }, [.act h e hook.actions false outlet])
    | 0 =>
      match outlet with
      | .answer _ => (st, [.act h e [] false outlet])
      | .inline =>
        let (st, tasks, value) := st.arrive sc hook.target e
        (st, tasks ++ [.act h e [] value outlet])
  else (st, [.act h e [] false outlet])

/-- The host is asked to deliver an event again, and tells whether it will. -/
def redispatch (st : State) (e : KeyEvent) : State × List Task × Bool :=
  let refuse := ({ st with refused := st.refused + 1 }, [], false)
  let queue := ({ st with queue := st.queue ++ [e] }, [], true)
  match sc.redispatch with
  | .queue => queue
  | .refuse => refuse
  | .refuseSynthesized => if e.synthesized then refuse else queue
  | .inline h =>
    let (st, tasks) := st.callHook sc h e .inline
    (st, tasks, true)

/-- An event is handed back to the host. If the host refuses it, no replay is expected. -/
def handBack (st : State) (a : ArbiterId) (id : Nat) (e : KeyEvent) : Progress :=
  let (st, tasks, taken) := st.redispatch sc e
  if taken then (st, tasks)
  else
    let b := st.book a
    ((st.setBook a { b with docket := b.docket.close id }).note a (.refused id), tasks)

/-! ## Responders -/

def offer (st : State) (a : ArbiterId) (d : Dispatch) (r : Responder) : Progress :=
  let t : Ticket := ⟨a, r.kind, d.id⟩
  match r with
  | .embedder =>
    -- The runtime never saw the press: a claim keeps the release from being handed back.
    if d.orphan then
      (st.note a (.orphanIgnored d.id d.physical), [.deliver t (.answered true)])
    else (st.note a (.sentToRuntime d.id d.runtimeEvent)).sendToRuntime sc d.runtimeEvent (some t)
  | .channel name keymap toolkit =>
    (st.note a (.sentOnChannel d.id name)).sendOnChannel sc name
      (Json.utf8 (KeyMessage.codec.encode (.ofEvent d.event keymap toolkit))) (some t)
  | .extra rule =>
    let st := { st with seen := st.seen ++ [(a, d)] }
    match rule with
    | .answer claimed => (st, [.deliver t (.answered claimed)])
    | .drop => (st, [.deliver t .dropped])
    | .hold => ({ st with held := st.held ++ [some t] }, [])
    | .claim transitions => (st, [.deliver t (.answered (transitions.contains d.transition))])
    | .reenter h => st.callHook sc h d.event (.answer t)

/-! ## Answers -/

def deliver (st : State) (t : Ticket) (answer : Delivery) : Progress :=
  let st := st.note t.arbiter <| match answer with
    | .answered claimed => .answered t.responder t.id claimed
    | .dropped => .dropped t.responder t.id
  if sc.isAlive t.arbiter then
    let b := st.book t.arbiter
    let (docket, verdict) := b.docket.answer t.id answer.claimed
    let st := st.setBook t.arbiter { b with docket }
    match verdict with
    | .untracked => (st, [])
    | .waiting remaining => (st.note t.arbiter (.waiting t.id remaining), [])
    | .complete claimed d => (st, [.settle t.arbiter d claimed])
  else (st.note t.arbiter (.late t.id answer.claimed), [])

/-- The text input filter is asked about an event that nobody claimed, if it wants such events.
Gives the final verdict. -/
def consult (st : State) (a : ArbiterId) (d : Dispatch) (claimed : Bool) : State × Bool :=
  if !claimed && d.filterable (sc.setup a).settings.textInputFiltersReleases then
    ({ st with filterCalls := st.filterCalls + 1 }.note a (.filtered d.id d.event sc.filter),
      sc.filter)
  else (st, claimed)

/-- The final verdict on an event is known: one that nobody claimed is handed back. -/
def conclude (st : State) (a : ArbiterId) (d : Dispatch) (claimed : Bool) : Progress :=
  let (b, back) := (st.book a).settle d claimed
  let st := (st.setBook a b).note a (.resolved d.id claimed)
  match back with
  | none => (st, [])
  | some e => (st.note a (.handedBack d.id e)).handBack sc a d.id e

def settle (st : State) (a : ArbiterId) (d : Dispatch) (claimed : Bool) : Progress :=
  let (st, claimed) := st.consult sc a d claimed
  st.conclude sc a d claimed

/-! ## Tasks -/

/-- Puts `rest` behind what an arrival leaves. -/
def andThen (p : State × List Task × Bool) (rest : Bool → List Task) : Progress :=
  (p.1, p.2.1 ++ rest p.2.2)

def act (st : State) (h : HookId) (e : KeyEvent) (value : Bool) (rest : Bool → List Task) :
    Action → Progress
  | .replay => andThen (st.arrive sc (sc.hook h).target e) rest
  | .restamp time => andThen (st.arrive sc (sc.hook h).target { e with time }) rest
  | .event e' => andThen (st.arrive sc (sc.hook h).target e') rest
  | .answer value => (st, rest value)
  | .sync modifiers time =>
    let (st, tasks) := st.sync (sc.hook h).target modifiers time
    (st, tasks ++ rest value)

def step (st : State) : Task → Progress
  | .offer _ _ [] => (st, [])
  | .offer a d (r :: rs) =>
    let (st, tasks) := (st.note a (.offered d.id r.kind)).offer sc a d r
    (st, tasks ++ [.offer a d rs])
  | .deliver t answer => st.deliver sc t answer
  | .settle a d claimed => st.settle sc a d claimed
  | .act h e (action :: actions) value outlet =>
    st.act sc h e value (fun value => [.act h e actions value outlet]) action
  | .act _ _ [] value (.answer t) => (st, [.deliver t (.answered value)])
  | .act _ e [] value .inline =>
    ({ st with inlineReplays := st.inlineReplays ++ [(e, value)] }, [])
  | .feed _ [] => (st, [])
  | .feed a (e :: es) => andThen (st.arrive sc a e) fun _ => [.feed a es]

end State

end KeyArbiter
