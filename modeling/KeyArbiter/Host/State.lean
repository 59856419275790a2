import KeyArbiter.Arbiter.Book
import KeyArbiter.Host.Scene
import KeyArbiter.Json.Value

/-!
# The state

All that calls change: the books of the arbiters, what the host counts and keeps, and the journal.
-/

namespace KeyArbiter

/-! ## Answers still open -/

/-- The right to answer for one responder and one event. -/
structure Ticket where
  arbiter : ArbiterId
  responder : ResponderKind
  id : Nat
  deriving DecidableEq, Repr

/-- What the host owes after a call that it keeps open. A call without a ticket was made by no
arbiter, and its result is only listed. -/
inductive Completion
  | verdict (owner : Option Ticket)
  | reply (owner : Option Ticket) (channel : String)
  deriving DecidableEq, Repr

inductive Call
  | runtimeEvent (e : RuntimeEvent)
  | message (v : Json.Value)

structure CallRecord where
  call : Call
  completion : Option Completion

/-- What came back from a call that no arbiter made. -/
inductive DirectResult
  | verdict (claimed : Bool)
  | reply (data : Except TransportError (List UInt8))

/-! ## The state -/

structure State where
  books : List Book := []
  /-- How often each hook may still run its actions. -/
  budgets : List Nat := []
  /-- The calls kept open, until they are taken. -/
  records : List CallRecord := []
  /-- The events handed back, until they are taken. -/
  queue : List KeyEvent := []
  refused : Nat := 0
  filterCalls : Nat := 0
  sent : List String := []
  /-- The events delivered at once, and the values of the hook for them. -/
  inlineReplays : List (KeyEvent × Bool) := []
  lookups : Nat := 0
  held : List (Option Ticket) := []
  /-- The dispatches that responders of a script saw. -/
  seen : List (ArbiterId × Dispatch) := []
  direct : List DirectResult := []
  journal : Journal := []
  deriving Inhabited

/-- The item at a place, and a default past the end. -/
def setAt {α : Type} (default : α) : List α → Nat → α → List α
  | [], 0, a => [a]
  | [], n + 1, a => default :: setAt default [] n a
  | _ :: as, 0, a => a :: as
  | b :: as, n + 1, a => b :: setAt default as n a

theorem getD_setAt {α : Type} (default : α) (as : List α) (n : Nat) (a : α) :
    (setAt default as n a).getD n default = a := by
  induction n generalizing as with
  | zero => cases as <;> rfl
  | succ n ih => cases as <;> exact ih _

theorem getD_setAt_of_ne {α : Type} (default : α) (as : List α) {m n : Nat} (h : m ≠ n) (a : α) :
    (setAt default as n a).getD m default = as.getD m default := by
  induction n generalizing as m with
  | zero => cases as <;> cases m <;> first | rfl | exact absurd rfl h
  | succ n ih =>
    cases as <;> cases m
    · rfl
    · exact ih _ (by omega)
    · rfl
    · exact ih _ (by omega)

namespace State

def book (st : State) (a : ArbiterId) : Book := st.books.getD a default

def setBook (st : State) (a : ArbiterId) (b : Book) : State :=
  { st with books := setAt default st.books a b }

def budget (st : State) (h : HookId) : Nat := st.budgets.getD h 0

def note (st : State) (a : ArbiterId) (e : Entry) : State :=
  { st with journal := ⟨a, e⟩ :: st.journal }

@[simp] theorem book_setBook (st : State) (a : ArbiterId) (b : Book) :
    (st.setBook a b).book a = b :=
  getD_setAt ..

theorem book_setBook_of_ne (st : State) {a a' : ArbiterId} (h : a' ≠ a) (b : Book) :
    (st.setBook a b).book a' = st.book a' :=
  getD_setAt_of_ne _ _ h _

@[simp] theorem book_note (st : State) (a a' : ArbiterId) (e : Entry) :
    (st.note a e).book a' = st.book a' :=
  rfl

end State

end KeyArbiter
