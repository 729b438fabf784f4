import KeyGrid.CommandLine.Run

/-!
# The command line

Reads the file that a request is about, prints the answer and ends with 0, or with 1 if the
answer is incomplete.
-/

namespace KeyGrid.CommandLine

/-- The content of a file. -/
def fileContent (file : String) : IO Content := do
  match ← (IO.FS.readBinFile file).toBaseIO with
  | .ok bytes => return .ok bytes
  | .error error => return .error (toString error)

/-- Answers a command line and gives the exit code. The arguments are read by `read`, which
finds a request in them, or deals with them itself and tells the code to end with. -/
def execute (read : List String → IO (Except UInt32 Request)) (arguments : List String) :
    IO UInt32 := do
  match ← read arguments with
  | .error code => return code
  | .ok request =>
    let answer := request.answer (← fileContent request.file)
    IO.print answer.output
    if let some failure := answer.failure then
      IO.eprintln s!"Error: {failure.message}"
    return answer.exitCode

end KeyGrid.CommandLine
