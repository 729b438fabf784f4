import KeyGrid.CommandLine.Touch

/-!
# Requests

What the program can be asked for on a command line. How the arguments are read is left to
whoever starts it.
-/

namespace KeyGrid.CommandLine

/-- What a command line asks for. -/
inductive Request where
  /-- Whether a file describes a keyboard, and how large it is. -/
  | check (file : String)
  /-- The labels of a state. -/
  | dump (file : String) (state : Option String) (swipe : Swipe)
  /-- What a keyboard answers to touches. -/
  | press (file : String) (touches : List String)
deriving DecidableEq

/-- The file that has to be read for an answer. -/
def Request.file : Request → String
  | .check file | .dump file _ _ | .press file _ => file

end KeyGrid.CommandLine
