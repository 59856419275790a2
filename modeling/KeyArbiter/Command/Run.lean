import KeyArbiter.Command.Files
import KeyArbiter.Command.Line
import KeyArbiter.Command.Lookup
import KeyArbiter.Command.Replay

/-!
# Carrying out a command

The output of a command, or what went wrong. Files are read through a function, so that nothing here
touches the outside.
-/

namespace KeyArbiter.Command

/-! ## Failures -/

inductive CommandError
  | unreadableTrace (path : String) (e : FileError)
  | malformedTrace (path : String) (r : Json.Report)
  | unreadableSettings (path : String) (e : FileError)
  | malformedSettings (path : String) (r : Json.Report)
  | unknownLayout (message : String)
  deriving DecidableEq, Repr

/-- The failure and its causes, from the outside in. -/
def CommandError.chain : CommandError → List String
  | .unreadableTrace path e => ["reading trace " ++ path, e.message]
  | .malformedTrace path r => ["parsing trace " ++ path, r.message]
  | .unreadableSettings path e =>
    ["loading keyboard settings from " ++ path,
      "failed to read keyboard settings from " ++ path ++ ": " ++ e.message, e.message]
  | .malformedSettings path r =>
    ["loading keyboard settings from " ++ path, Settings.faultText r, r.message]
  | .unknownLayout message => [message]

def CommandError.message (e : CommandError) : String := String.intercalate ": " e.chain

/-! ## Commands -/

/-- The trace is read first, then the settings, and the layout is looked for last. -/
def ReplayRequest.run (r : ReplayRequest) (read : FileReader) : Except CommandError Replay := do
  let text ← (read r.trace).mapError (.unreadableTrace r.trace)
  let trace ← (Trace.codec.decode (Json.utf8 text)).mapError (.malformedTrace r.trace)
  let settings ← match r.config with
    | none => .ok {}
    | some path => do
      let text ← (read path).mapError (.unreadableSettings path)
      (Settings.codec.decode (Json.utf8 text)).mapError (.malformedSettings path)
  let layout ← (resolveLayout r.layout).mapError .unknownLayout
  return replay settings layout ⟨r.embedder, r.channel, r.filter⟩ trace

def LookupRequest.run (r : LookupRequest) : Except CommandError Lookup := do
  let layout ← (resolveLayout r.layout).mapError .unknownLayout
  return .ofQuery layout ⟨r.keycode, r.keyval, r.group⟩

def layoutsText : String := String.intercalate "\n" (Layout.names.map ("- " ++ ·))

def layoutsValue : Json.Value := .list (Layout.names.map fun n => .object [("name", .text n)])

def Request.paths : Request → List String
  | .replay r => r.trace :: r.config.toList
  | _ => []

/-- The output of a command, without the last new line. -/
def Invocation.run (i : Invocation) (read : FileReader) : Except CommandError String :=
  let render {α : Type} (text : α → String) (value : α → Json.Value) (a : α) : String :=
    match i.format with
    | .text => text a
    | .json => (value a).pretty
  match i.request with
  | .replay r => (r.run read).map (render Replay.text Replay.value)
  | .lookup r => r.run.map (render Lookup.text Lookup.value)
  | .layouts => .ok (render (fun () => layoutsText) (fun () => layoutsValue) ())

/-! ## As a process -/

def versionText : String := "keyrelay 0.3.0-dev.1"

/-- What a process writes, and the code it ends with. -/
structure Ending where
  output : String
  failure : String := ""
  code : Nat
  deriving DecidableEq, Repr

def UsageError.ending : UsageError → Ending
  | .help => ⟨"", "", 0⟩
  | .version => ⟨versionText ++ "\n", "", 0⟩
  | _ => ⟨"", "", 2⟩

def process (args : List String) (read : FileReader) : Ending :=
  match Invocation.ofArguments args with
  | .error e => e.ending
  | .ok i =>
    match i.run read with
    | .ok output => ⟨output ++ "\n", "", 0⟩
    | .error e => ⟨"", e.message, 1⟩

end KeyArbiter.Command
