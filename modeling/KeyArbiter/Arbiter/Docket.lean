import KeyArbiter.Arbiter.Dispatch

/-!
# The docket

A case for every fresh event, from its dispatch until it is claimed or its copy comes back from the
host. Cases stand in the order of their events.
-/

namespace KeyArbiter

structure Case where
  dispatch : Dispatch
  outstanding : Nat
  /-- Some answer so far claimed the event. -/
  claimed : Bool := false
  /-- Given back to the host: what comes next is its replay. -/
  returned : Bool := false
  deriving DecidableEq, Repr

structure Docket where
  /-- The number of the latest event. -/
  lastId : Nat := 0
  cases : List Case := []
  deriving DecidableEq, Repr, Inhabited

inductive Verdict
  | untracked
  | waiting (remaining : Nat)
  | complete (claimed : Bool) (d : Dispatch)
  deriving DecidableEq, Repr

namespace Docket

def find? (k : Docket) (id : Nat) : Option Case := k.cases.find? (·.dispatch.id == id)

def modify (k : Docket) (id : Nat) (f : Case → Case) : Docket :=
  { k with cases := k.cases.map fun c => if c.dispatch.id = id then f c else c }

def enter (k : Docket) (d : Dispatch) (outstanding : Nat) : Docket where
  lastId := d.id
  cases := k.cases ++ [{ dispatch := d, outstanding }]

def answer (k : Docket) (id : Nat) (claimed : Bool) : Docket × Verdict :=
  match k.find? id with
  | none => (k, .untracked)
  | some c =>
    let c := { c with claimed := c.claimed || claimed, outstanding := c.outstanding - 1 }
    (k.modify id fun _ => c,
      if c.outstanding = 0 then .complete c.claimed c.dispatch else .waiting c.outstanding)

/-- Marks the case as given back, unless it already is, and gives its event. -/
def giveBack (k : Docket) (id : Nat) : Option (Docket × KeyEvent) :=
  match k.find? id with
  | some c =>
    if c.returned then none
    else some (k.modify id fun c => { c with returned := true }, c.dispatch.event)
  | none => none

def close (k : Docket) (id : Nat) : Docket :=
  { k with cases := k.cases.filter (·.dispatch.id != id) }

/-- A copy of this event is expected back. -/
def Expects (e : KeyEvent) (c : Case) : Bool := c.returned && c.dispatch.event == e

/-- Closes the oldest case that expects this event back, and gives its number. -/
def takeReplay (k : Docket) (e : KeyEvent) : Option (Docket × Nat) :=
  match k.cases.find? (Expects e) with
  | some c => some (k.close c.dispatch.id, c.dispatch.id)
  | none => none

/-- Cases with answers still to come. -/
def awaiting (k : Docket) : Nat := k.cases.countP (!·.returned)

/-- Cases whose replay has not come back. -/
def returned (k : Docket) : Nat := k.cases.countP (·.returned)

def isClear (k : Docket) : Bool := k.cases.isEmpty

/-- What is given back is expected: its replay is recognised at once. -/
theorem isSome_takeReplay_giveBack {k k' : Docket} {id : Nat} {e : KeyEvent}
    (h : k.giveBack id = some (k', e)) : (k'.takeReplay e).isSome = true := by
  unfold giveBack at h
  split at h
  · next c hc =>
    split at h
    · cases h
    · cases h
      have mem := List.mem_of_find?_eq_some hc
      have eq : c.dispatch.id = id := by simpa using List.find?_some hc
      have found : ((k.modify id fun c => { c with returned := true }).cases.find?
          (Expects c.dispatch.event)).isSome := by
        rw [List.find?_isSome]
        exact ⟨{ c with returned := true },
          List.mem_map.2 ⟨c, mem, by simp [eq]⟩, by simp [Expects]⟩
      unfold takeReplay
      split
      · rfl
      · next hn => rw [hn] at found; cases found
  · cases h

end Docket

end KeyArbiter
