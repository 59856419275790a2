import KeyArbiter.Command.Number

/-!
# The command line

Options, flags and positional values, on the top level and on that of a command. A value is kept
back until something else is read, and only then looked at: of two faults, the later one may win.
-/

namespace KeyArbiter.Command

/-! ## Values -/

inductive OutputFormat
  | text
  | json
  deriving DecidableEq, Repr, Inhabited

inductive UsageError
  /-- None of the values that are possible, or none at all. -/
  | invalidValue
  | refusedValue (reason : String)
  | unknownArgument
  | unknownCommand
  | missingArgument
  | missingCommand
  | conflict
  | tooManyValues
  -- Not faults, but questions.
  | help
  | version
  | nothing
  deriving DecidableEq, Repr

inductive Argument
  | format
  | logLevel
  -- Looking up
  | keycode
  | keyval
  | group
  | layout
  -- Replaying
  | trace
  | embedder
  | channel
  | textInput
  | config
  deriving DecidableEq, Repr

structure Values where
  format : Option OutputFormat := none
  logLevel : Option String := none
  keycode : Option UInt16 := none
  keyval : Option UInt32 := none
  group : Option UInt8 := none
  layout : Option String := none
  trace : Option String := none
  embedder : Option Bool := none
  channel : Option Bool := none
  textInput : Option Bool := none
  config : Option String := none
  deriving DecidableEq, Repr, Inhabited

/-- The one of some values with this name. -/
def oneOf {α : Type} (known : List (String × α)) (text : String) : Except UsageError α :=
  match known.find? (·.1 == text) with
  | some (_, a) => .ok a
  | none => .error .invalidValue

def readFlag : String → Except UsageError Bool := oneOf [("true", true), ("false", false)]

def readPath (text : String) : Except UsageError String :=
  if text = "" then .error .invalidValue else .ok text

/-- A number up to `max`, as keys are numbered. -/
def readNumber (max : Nat) (text : String) : Except UsageError Nat :=
  (parseNumber max text).mapError fun e => .refusedValue (e.message text)

def readGroup (text : String) : Except UsageError UInt8 :=
  match Text.readInteger 64 text.toList with
  | .error e => .error (.refusedValue e.message)
  | .ok n =>
    if 0 ≤ n ∧ n ≤ 255 then .ok (.ofNat n.toNat)
    else .error (.refusedValue (Text.signedDecimal n ++ " is not in 0..=255"))

/-- A value that was not given before. -/
def fresh {α : Type} (before : Option α) (a : Except UsageError α) : Except UsageError (Option α) :=
  if before.isSome then .error .conflict else a.map some

def Values.add (v : Values) (a : Argument) (text : String) : Except UsageError Values :=
  match a with
  | .format => do
    return { v with format := ← fresh v.format (oneOf [("text", .text), ("json", .json)] text) }
  | .logLevel => do
    let levels := ["error", "warn", "info", "debug", "trace"].map fun l => (l, l)
    return { v with logLevel := ← fresh v.logLevel (oneOf levels text) }
  | .keycode => do
    let n := (readNumber (UInt16.size - 1) text).map UInt16.ofNat
    return { v with keycode := ← fresh v.keycode n }
  | .keyval => do
    let n := (readNumber (UInt32.size - 1) text).map UInt32.ofNat
    return { v with keyval := ← fresh v.keyval n }
  | .group => do return { v with group := ← fresh v.group (readGroup text) }
  | .layout => do return { v with layout := ← fresh v.layout (.ok text) }
  | .trace => do return { v with trace := ← fresh v.trace (readPath text) }
  | .embedder => do return { v with embedder := ← fresh v.embedder (readFlag text) }
  | .channel => do return { v with channel := ← fresh v.channel (readFlag text) }
  | .textInput => do return { v with textInput := ← fresh v.textInput (readFlag text) }
  | .config => do return { v with config := ← fresh v.config (readPath text) }

/-! ## Levels -/

structure Level where
  options : List (String × Argument)
  positionals : List Argument
  commands : List String
  hasVersion : Bool

def globalOptions : List (String × Argument) := [("format", .format), ("log-level", .logLevel)]

def topLevel : Level where
  options := globalOptions
  positionals := []
  commands := ["replay", "lookup", "layouts", "help"]
  hasVersion := true

def commandLevel : String → Level
  | "replay" =>
    ⟨globalOptions ++ [("embedder", .embedder), ("channel", .channel), ("text-input", .textInput),
      ("config", .config), ("layout", .layout)], [.trace], [], false⟩
  | "lookup" => ⟨globalOptions ++ [("group", .group), ("layout", .layout)], [.keycode, .keyval], [], false⟩
  | _ => ⟨globalOptions, [], [], false⟩

structure LevelState where
  values : Values := {}
  /-- The argument read last, and its value if it already has one. -/
  pending : Option (Argument × Option String) := none
  positionals : List Argument
  given : Bool := false

namespace LevelState

def resolve (s : LevelState) : Except UsageError LevelState :=
  match s.pending with
  | none => .ok s
  | some (_, none) => .error .invalidValue
  | some (a, some text) =>
    (s.values.add a text).map fun values => { s with values, pending := none, given := true }

def awaits (s : LevelState) : Bool :=
  match s.pending with
  | some (_, none) => true
  | _ => false

def give (s : LevelState) (text : String) : LevelState :=
  { s with pending := s.pending.map fun (a, _) => (a, some text) }

end LevelState

/-- An option or flag, with its dashes taken off: its name, and what follows an equals sign. -/
def splitOption (cs : List Char) : String × Option String :=
  let name := String.ofList (cs.takeWhile (· != '='))
  match cs.dropWhile (· != '=') with
  | [] => (name, none)
  | _ :: value => (name, some (String.ofList value))

namespace Level

/-- A question, asked once all before it is in order. -/
def ask (s : LevelState) (question : UsageError) : Except UsageError LevelState :=
  s.resolve >>= fun _ => .error question

def readLong (l : Level) (s : LevelState) (cs : List Char) : Except UsageError LevelState :=
  let (name, value) := splitOption cs
  match l.options.find? (·.1 == name), value with
  | some (_, a), some text => do
    let s ← s.resolve
    { s with pending := some (a, some text) }.resolve
  | some (_, a), none => do
    let s ← s.resolve
    return { s with pending := some (a, none) }
  | none, value =>
    let question := if name = "help" then some UsageError.help
      else if name = "version" ∧ l.hasVersion then some .version else none
    match question, value with
    | none, _ => .error .unknownArgument
    | some _, some _ => .error .tooManyValues
    | some q, none => ask s q

/-- Reads short flags. The first of them decides. -/
def readShort (l : Level) (s : LevelState) (c : Char) : Except UsageError LevelState :=
  if c = 'h' then ask s .help
  else if c = 'V' ∧ l.hasVersion then ask s .version
  else .error .unknownArgument

def readPositional (l : Level) (s : LevelState) (trailing : Bool) (text : String) :
    Except UsageError LevelState :=
  match s.positionals with
  | a :: rest => do
    let s ← s.resolve
    return { s with pending := some (a, some text), positionals := rest }
  | [] =>
    if l.commands.isEmpty ∨ (trailing ∧ text ∈ l.commands) then .error .unknownArgument
    else .error .unknownCommand

/-- Reads a level up to a command, or to the end. After two dashes all values are positional. -/
def read (l : Level) : (trailing : Bool) → LevelState → List String →
    Except UsageError (LevelState × Option (String × List String))
  | _, s, [] => .ok (s, none)
  | trailing, s, arg :: rest =>
    if trailing then do l.read true (← l.readPositional s true arg) rest
    else if !s.awaits && l.commands.contains arg then .ok (s, some (arg, rest))
    else
      match arg.toList with
      | ['-', '-'] => l.read true s rest
      | '-' :: '-' :: cs => do l.read false (← l.readLong s cs) rest
      | '-' :: c :: _ => do l.read false (← l.readShort s c) rest
      | _ =>
        if s.awaits then l.read false (s.give arg) rest
        else do l.read false (← l.readPositional s false arg) rest

def readAll (l : Level) (args : List String) :
    Except UsageError (LevelState × Option (String × List String)) :=
  l.read false { positionals := l.positionals } args

end Level

/-! ## Invocations -/

structure ReplayRequest where
  trace : String
  embedder : Bool
  channel : Bool
  filter : Bool
  config : Option String
  layout : Option String
  deriving DecidableEq, Repr

structure LookupRequest where
  keycode : UInt16
  keyval : UInt32
  group : UInt8
  layout : Option String
  deriving DecidableEq, Repr

inductive Request
  | replay (r : ReplayRequest)
  | lookup (r : LookupRequest)
  | layouts
  deriving DecidableEq, Repr

structure Invocation where
  format : OutputFormat
  request : Request
  deriving DecidableEq, Repr

def requestOf (command : String) (v : Values) : Except UsageError Request :=
  match command with
  | "replay" =>
    match v.trace with
    | some trace => .ok <| .replay {
        trace
        embedder := v.embedder.getD false
        channel := v.channel.getD false
        filter := v.textInput.getD false
        config := v.config
        layout := v.layout }
    | none => .error .missingArgument
  | "lookup" =>
    match v.keycode, v.keyval with
    | some keycode, some keyval =>
      .ok (.lookup ⟨keycode, keyval, v.group.getD 0, v.layout⟩)
    | _, _ => .error .missingArgument
  | _ => .ok .layouts

/-- Help on a command, or on a command of a command, of which there is none. -/
def helpOn : List String → UsageError
  | [] => .help
  | [command] => if topLevel.commands.contains command then .help else .unknownCommand
  | _ => .unknownCommand

/-- Reads a whole line. What was given for a command goes before what was given on the top level. -/
def Invocation.ofArguments (args : List String) : Except UsageError Invocation := do
  let (top, command) ← topLevel.readAll args
  match command with
  | none =>
    let top ← top.resolve
    .error (if top.given then .missingCommand else .nothing)
  | some ("help", rest) => .error (helpOn rest)
  | some (command, rest) =>
    let (sub, _) ← (commandLevel command).readAll rest
    let sub ← sub.resolve
    let request ← requestOf command sub.values
    let top ← top.resolve
    return ⟨(sub.values.format <|> top.values.format).getD .text, request⟩

end KeyArbiter.Command
