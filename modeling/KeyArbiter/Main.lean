import KeyArbiter.Command.Run

/-!
# The program

Reads the files that the command line names, carries it out, and ends with its code.
-/

namespace KeyArbiter

open Command

/-- The fault that an operating system reports under this number. -/
def fileError (code : UInt32) : FileError :=
  if code = 20 then .notDirectory
  else if code = 21 then .isDirectory
  else if code = 36 then .nameTooLong
  else .missing

def readFile (path : String) : IO (Except FileError String) := do
  match checkPath path with
  | .error e => return .error e
  | .ok () =>
    try
      let data ← IO.FS.readBinFile path
      return textOf data.toList
    catch e =>
      return .error <| match e with
        | .inappropriateType _ code _ | .invalidArgument _ code _ => fileError code
        | _ => .missing

def readFiles (args : List String) : IO (List (String × Except FileError String)) :=
  match Invocation.ofArguments args with
  | .ok i => i.request.paths.mapM fun path => return (path, ← readFile path)
  | .error _ => return []

end KeyArbiter

open KeyArbiter in
def main (args : List String) : IO UInt32 := do
  let files ← readFiles args
  let read : Command.FileReader := fun path =>
    match files.find? (·.1 == path) with
    | some (_, text) => text
    | none => .error .missing
  let ending := Command.process args read
  IO.print ending.output
  unless ending.failure.isEmpty do IO.eprintln ending.failure
  return .ofNat ending.code
