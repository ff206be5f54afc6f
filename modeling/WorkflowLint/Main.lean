import Std.Time.DateTime.Timestamp
import WorkflowLint.Cli.Run

/-! The program: it reads arguments, environment, clock and file, and prints an outcome. -/

namespace WorkflowLint.Cli

/-- The cause with a number; the sign of the number does not count. -/
def causeOf (code : UInt32) (detail : String) : ReadError :=
  let number := min code (0 - code)
  if number = 2 then .notFound
  else if number = 20 then .notDirectory
  else if number = 21 then .isDirectory
  else if number = 36 then .nameTooLong
  else .other (detail ++ " (os error " ++ toString number ++ ")")

/-- The cause of a failed reading, by the number that the system gives. -/
def readError : IO.Error → ReadError
  | .noFileOrDirectory _ code detail => causeOf code detail
  | .inappropriateType _ code detail => causeOf code detail
  | .invalidArgument _ code detail => causeOf code detail
  | .permissionDenied _ code detail => causeOf code detail
  | e => .other (toString e)

/-- The content of a file, when it is text. -/
def readContent (path : String) : IO (Except ReadError String) := do
  if path.toList.contains '\x00' then
    return .error .zeroInPath
  try
    let bytes ← IO.FS.readBinFile path
    match String.fromUTF8? bytes with
    | some text => return .ok text
    | none => return .error .notText
  catch e => return .error (readError e)

/-- What to read for a request: the file that it names, if it names one. -/
def contentOf : Request → IO (Except ReadError String)
  | .validate path _ _ _ _ => readContent path
  | _ => return .error .notFound

/-- Headings are coloured when that is forced, or on a terminal that does not refuse it. -/
def wantsColour : IO Bool := do
  match ← IO.getEnv "CLICOLOR_FORCE" with
  | some value => if value ≠ "0" then return true
  | none => pure ()
  if (← IO.getEnv "NO_COLOR").isSome then
    return false
  (← IO.getStdout).isTty

def readEnvironment : IO Environment := do
  return ⟨← IO.getEnv "RUST_LOG", ← IO.getEnv "DSL_VALIDATOR_LOG", ← wantsColour⟩

def readClock : IO UInt64 := do
  let now ← Std.Time.Timestamp.now
  return UInt64.ofNat now.toMillisecondsSinceUnixEpoch.val.toNat

/-- Runs the program on its arguments and gives the exit status. -/
def run (arguments : List String) : IO UInt32 := do
  let request := Request.ofArguments arguments
  let env ← readEnvironment
  let now ← readClock
  let content ← contentOf request
  let o := outcome env (fun _ => content) (fun count => List.replicate count now) request
  (← IO.getStderr).putStr o.stderr
  (← IO.getStdout).putStr o.stdout
  return UInt32.ofNat o.exit

end WorkflowLint.Cli

def main (arguments : List String) : IO UInt32 :=
  WorkflowLint.Cli.run arguments
