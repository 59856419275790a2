import KeyArbiter.Host.State
import KeyArbiter.Key.Sync

/-!
# Tasks

What is still to be done in a call. Each task is done at one stroke and may put others before those
that were there: the list of tasks is the stack of calls in progress.
-/

namespace KeyArbiter

inductive Delivery
  | answered (claimed : Bool)
  /-- Dropped without an answer: nobody claims the event. -/
  | dropped
  deriving DecidableEq, Repr

def Delivery.claimed : Delivery → Bool
  | .answered claimed => claimed
  | .dropped => false

/-- Where the value of a hook goes. -/
inductive Outlet
  /-- It answers for a responder. -/
  | answer (t : Ticket)
  /-- It is listed with the event that the host delivered at once. -/
  | inline
  deriving DecidableEq, Repr

inductive Task
  | offer (a : ArbiterId) (d : Dispatch) (responders : List Responder)
  | deliver (t : Ticket) (answer : Delivery)
  | settle (a : ArbiterId) (d : Dispatch) (claimed : Bool)
  /-- Runs the actions of a hook that was called for `e`; `value` is that of the last one done. -/
  | act (h : HookId) (e : KeyEvent) (actions : List Action) (value : Bool) (outlet : Outlet)
  | feed (a : ArbiterId) (events : List KeyEvent)
  deriving DecidableEq, Repr

abbrev Progress := State × List Task

end KeyArbiter
