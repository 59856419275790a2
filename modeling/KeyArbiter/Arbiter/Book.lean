import KeyArbiter.Arbiter.Docket
import KeyArbiter.Arbiter.HeldKeys
import KeyArbiter.Layout

/-!
# The book of an arbiter

All that an arbiter keeps between two calls: its open cases, the held keys, and the logical keys
already looked up.
-/

namespace KeyArbiter

structure Book where
  docket : Docket := {}
  held : HeldKeys := {}
  /-- The answers of the layout since it last changed. -/
  known : List (LayoutQuery × LogicalKey) := []
  deriving DecidableEq, Repr, Inhabited

def KeyEvent.query (e : KeyEvent) : LayoutQuery := ⟨e.keycode, e.keyval, e.group⟩

namespace Book

/-- The logical key of an event, and whether the layout was asked for it. It is asked at most once
for each query. -/
def resolve (b : Book) (layout : Layout) (e : KeyEvent) : Book × LogicalKey × Bool :=
  match b.known.find? (·.1 == e.query) with
  | some (_, key) => (b, key, false)
  | none =>
    let key := layout.lookup e.query
    ({ b with known := (e.query, key) :: b.known }, key, true)

inductive Arrival
  /-- The replay of an event that was given back under this number. -/
  | replay (id : Nat)
  | fresh (d : Dispatch)
  deriving DecidableEq, Repr

/-- Turns a fresh event into a dispatch, and tells whether the layout was asked. The held keys change
at once, whatever the verdict. -/
def dispatch (b : Book) (layout : Layout) (e : KeyEvent) : Book × Dispatch × Bool :=
  let id := b.docket.lastId + 1
  let key := PhysicalKey.ofKeycode e.keycode
  if e.isPress then
    let (b, logical, asked) := b.resolve layout e
    let (held, transition, logical) := b.held.press key logical
    ({ b with held }, ⟨e, id, transition, key, logical, false⟩, asked)
  else
    match b.held.release key id with
    | some (held, logical) => ({ b with held }, ⟨e, id, .up, key, logical, false⟩, false)
    | none =>
      let (b, logical, asked) := b.resolve layout e
      (b, ⟨e, id, .up, key, logical, true⟩, asked)

/-- Takes an event in: as a replay, or as a fresh event that `responders` answers will settle. Tells
whether the layout was asked. -/
def arrive (b : Book) (layout : Layout) (responders : Nat) (e : KeyEvent) : Book × Arrival × Bool :=
  match b.docket.takeReplay e with
  | some (docket, id) => ({ b with docket }, .replay id, false)
  | none =>
    let (b, d, asked) := b.dispatch layout e
    ({ b with docket := b.docket.enter d responders }, .fresh d, asked)

/-- Settles the case of a dispatch. If nobody claimed it, gives the event to hand back. -/
def settle (b : Book) (d : Dispatch) (claimed : Bool) : Book × Option KeyEvent :=
  let held := if d.transition = .up then b.held.finishRelease d.physical d.id else b.held
  if claimed then ({ b with held, docket := b.docket.close d.id }, none)
  else
    match b.docket.giveBack d.id with
    | some (docket, e) => ({ b with held, docket }, some e)
    | none => ({ b with held }, none)

/-- An event that is handed back is taken for a replay if it arrives at once. -/
theorem replay_of_settle {b b' : Book} {d : Dispatch} {claimed : Bool} {e : KeyEvent}
    (h : b.settle d claimed = (b', some e)) (layout : Layout) (responders : Nat) :
    ∃ id, (b'.arrive layout responders e).2.1 = .replay id := by
  unfold settle at h
  simp only at h
  split at h
  · cases h
  · split at h
    · next k _ hk =>
      cases h
      have := Docket.isSome_takeReplay_giveBack hk
      unfold arrive
      split
      · exact ⟨_, rfl⟩
      · next hn => simp [hn] at this
    · cases h

def forgetLayout (b : Book) : Book := { b with known := [] }

end Book

end KeyArbiter
