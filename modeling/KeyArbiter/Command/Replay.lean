import KeyArbiter.Agenda.Run
import KeyArbiter.Command.Layout
import KeyArbiter.Text.Blank
import KeyArbiter.Wire.Trace

/-!
# Replaying a trace

A trace is fed to one arbiter on a host with fixed answers. What is handed back in a step is
delivered again before the next step, as a toolkit would do.
-/

namespace KeyArbiter.Command

open Text (decimal hex)

structure ReplayAnswers where
  embedder : Bool := false
  channel : Bool := false
  filter : Bool := false
  deriving DecidableEq, Repr

structure StepOutcome where
  index : Nat
  step : String
  /-- The event was fresh. -/
  accepted : Bool
  redispatched : List String
  deriving DecidableEq, Repr

structure Replay where
  steps : List StepOutcome
  pressed : List (PhysicalKey × LogicalKey)
  isClear : Bool
  deriving DecidableEq, Repr

/-! ## Running -/

/-- One arbiter, on a host that keeps what is handed back. -/
def replayScene (settings : Settings) (layout : Layout) (answers : ReplayAnswers) : Scene where
  setups := [{ settings, layout := .fixed layout }]
  embedder := .respond answers.embedder
  channel := .respond answers.channel
  filter := answers.filter

def stepText : TraceStep → String
  | .event e => e.text
  | .sync modifiers time =>
    "sync state=" ++ hex 0 modifiers.bits.toNat ++ " time=" ++ decimal time.toNat

/-- Delivers an event, and tells whether it was fresh. -/
def feed (sc : Scene) (st : State) (e : KeyEvent) : State × Bool :=
  let (st, tasks, fresh) := st.arrive sc 0 e
  (run sc st tasks, fresh)

def replayStep (sc : Scene) (st : State) : TraceStep → State × Bool
  | .event e => feed sc st e
  | .sync modifiers time =>
    let (st, tasks) := st.sync 0 modifiers time
    (run sc st tasks, true)

/-- Takes the events that were handed back and delivers them again. -/
def loopBack (sc : Scene) (st : State) : State × List KeyEvent :=
  let queue := st.queue
  (queue.foldl (fun st e => (feed sc st e).1) { st with queue := [] }, queue)

def replaySteps (sc : Scene) : (st : State) → (index : Nat) → Trace → State × List StepOutcome
  | st, _, [] => (st, [])
  | st, index, step :: rest =>
    let (st, accepted) := replayStep sc st step
    let (st, back) := loopBack sc st
    let (st, outcomes) := replaySteps sc st (index + 1) rest
    (st, ⟨index, stepText step, accepted, back.map (·.text)⟩ :: outcomes)

def replay (settings : Settings) (layout : Layout) (answers : ReplayAnswers) (trace : Trace) :
    Replay :=
  let (st, steps) := replaySteps (replayScene settings layout answers) {} 0 trace
  let b := st.book 0
  ⟨steps, b.held.toList, b.docket.isClear⟩

/-! ## Showing -/

namespace StepOutcome

def lines (o : StepOutcome) : List String :=
  ("[" ++ decimal o.index ++ "] " ++ o.step ++ " (accepted: " ++ yesNo o.accepted ++ ")") ::
    o.redispatched.map ("    redispatched: " ++ ·)

def value (o : StepOutcome) : Json.Value :=
  .object [
    ("index", .natural o.index),
    ("step", .text o.step),
    ("accepted", .flag o.accepted),
    ("redispatched", .list (o.redispatched.map .text))]

end StepOutcome

namespace Replay

def text (r : Replay) : String :=
  let pressed := if r.pressed.isEmpty then ["Pressed: none"] else
    "Pressed:" :: r.pressed.map fun (p, l) =>
      "  - " ++ hex 0 p.word.toNat ++ " -> " ++ hex 0 l.word.toNat
  Text.trimEnd <| String.intercalate "\n" <|
    r.steps.flatMap StepOutcome.lines ++ pressed ++ ["State clear: " ++ yesNo r.isClear]

def value (r : Replay) : Json.Value :=
  .object [
    ("steps", .list (r.steps.map StepOutcome.value)),
    ("pressed", .list (r.pressed.map fun (p, l) =>
      .object [("physical", .natural p.word.toNat), ("logical", .natural l.word.toNat)])),
    ("state_clear", .flag r.isClear)]

end Replay

end KeyArbiter.Command
