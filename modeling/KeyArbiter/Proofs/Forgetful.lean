import KeyArbiter.Proofs.Arrivals
import KeyArbiter.Proofs.Calm
import Mathlib

/-!
# Arbiters that remember no answers

What an arbiter remembers of its layout shows nowhere, as long as it is what the layout answers
still: the number of lookups and of answers forgotten aside, a session goes on as it would if the
arbiters forgot all of it right now.
-/

namespace KeyArbiter

open Session (Command Ending)

/-! ## Books -/

namespace Book

variable {b : Book} {layout : Layout}

end Book

/-! ## States -/

def Entry.forgotten : Entry → Entry
  | .layoutChanged _ => .layoutChanged 0
  | x => x

/-- The state, but for what the books know of layouts and for how often layouts were asked. -/
def State.forgotten (st : State) : State :=
  { st with
    books := st.books.map Book.forgetLayout
    lookups := 0
    journal := st.journal.map fun x => ⟨x.arbiter, x.entry.forgotten⟩ }

def Progress.forgotten (p : Progress) : Progress := (p.1.forgotten, p.2)

/-- If there was a dispatch, and that at last, its arbiter knew only what its layout answers still. -/
def State.Informed (sc : Scene) (st st' : State) : Prop :=
  ∀ a d n news, st'.journal = ⟨a, .dispatched d n⟩ :: (news ++ st.journal) →
    (st.book a).Knows (sc.layout a).lookup

namespace State

theorem Informed.idle {sc : Scene} {st before st' : State} (informed : Informed sc st st')
    (idle : Idle st before) : Informed sc before st' := by
  obtain ⟨more, journal, -⟩ := idle.journal
  intro a d n news last p hp
  rw [journal, ← List.append_assoc] at last
  rw [(idle.books a).known] at hp
  exact informed a d n _ last p hp

variable (sc : Scene) (st : State)

theorem forgotten_forgotten : st.forgotten.forgotten = st.forgotten := by
  have book : Book.forgetLayout ∘ Book.forgetLayout = Book.forgetLayout := rfl
  have entry (x : Entry) : x.forgotten.forgotten = x.forgotten := by
    cases x <;> rfl
  simp only [forgotten, List.map_map, book, Function.comp_def, entry]

theorem Gives.forgotten {owner : Option Ticket} {call : State → Progress}
    (gives : Gives owner call) (st : State) :
    Progress.forgotten (call st.forgotten) = Progress.forgotten (call st) := by
  obtain ⟨g, tasks, -, adds⟩ := gives
  have again := congrArg State.journal st.forgotten_forgotten
  have books := congrArg State.books st.forgotten_forgotten
  simp only [State.forgotten] at again books
  simp only [adds, Progress.forgotten, State.forgotten, add, List.map_append, again, books]

end State

/-! ## Sessions -/

namespace Session

def forgotten (s : Session) : Session := { s with state := s.state.forgotten }

variable (s : Session)

theorem forgotten_forgotten : s.forgotten.forgotten = s.forgotten := by
  unfold forgotten
  rw [State.forgotten_forgotten]

end Session

/-! ## Moments -/

namespace Moment

def forgotten (m : Moment) : Moment := ⟨m.session.forgotten, m.tasks⟩

end Moment

end KeyArbiter
