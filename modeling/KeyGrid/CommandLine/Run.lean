import KeyGrid.CommandLine.Report
import KeyGrid.CommandLine.Request
import KeyGrid.Engine.Host

/-!
# Answers

What a command line prints. A request about a layout file is answered from the
content of that file; touches are made one after the other, so that whatever was
printed before a word that is no touch stands.
-/

namespace KeyGrid.CommandLine

/-- Why a request about a file could not be answered to its end. -/
inductive Failure where
  | load (file : String) (error : LoadError)
  | engine (error : EngineError)
  | touch (word : String) (fault : TouchFault)
deriving DecidableEq

def Failure.message : Failure → String
  | .load file error => s!"failed to compile {file}: {error.message}"
  | .engine error => error.message
  | .touch word fault => fault.message word

/-- What is printed, and what went wrong in the end. -/
structure Answer where
  lines : List String
  failure : Option Failure
deriving DecidableEq

namespace Answer

def ofLines (lines : List String) : Answer := ⟨lines, none⟩

def ofFailure (failure : Failure) : Answer := ⟨[], some failure⟩

/-- The answer with a line in front. -/
def after (line : String) (answer : Answer) : Answer :=
  { answer with lines := line :: answer.lines }

/-- The text that is printed; every line is ended. -/
def output (answer : Answer) : String := String.join (answer.lines.map (· ++ "\n"))

/-- The exit code; an answer that is incomplete ends with 1. -/
def exitCode (answer : Answer) : UInt32 := if answer.failure.isSome then 1 else 0

end Answer

/-- The line about a file that describes a keyboard. -/
def checkLine (file : String) (keyboard : Keyboard) : String :=
  s!"{file}: {keyboard.grid.text} grid, {keyboard.layouts.length} layouts, " ++
    s!"{keyboard.states.length} states"

/-- The labels of a state, the main state if none is named. -/
def dumpAnswer (keyboard : Keyboard) (state : Option String) (swipe : Swipe) : Answer :=
  let engine := Engine.start keyboard
  match state with
  | none => .ofLines (gridLines engine swipe)
  | some name =>
    match engine.goTo name with
    | .ok (engine, _) => .ofLines (gridLines engine swipe)
    | .error error => .ofFailure (.engine error)

/-- The line about a touch and the events it brought about. -/
def touchLine (word : String) (events : List Event) : String :=
  s!"{word} -> [{eventsText events}]"

/-- The events of touches, one after the other, and the state they lead to. -/
def pressAnswer (engine : Engine) : List String → Answer
  | [] => .ofLines [s!"state: {engine.stateName}"]
  | word :: others =>
    match readTouch word with
    | .error fault => .ofFailure (.touch word fault)
    | .ok touch =>
      let (next, events) := engine.press touch.row touch.col touch.swipe
      (pressAnswer next others).after (touchLine word events)

/-- The content of a file, or the reason why it could not be read. -/
abbrev Content := Except String ByteArray

/-- The keyboard that the content of a file describes. -/
def keyboardOf (content : Content) : Except LoadError Keyboard :=
  match content with
  | .ok bytes => Keyboard.ofBytes bytes
  | .error reason => .error (.unreadable reason)

/-- The answer about a file, given what to do with its keyboard. -/
def withKeyboard (file : String) (content : Content) (answer : Keyboard → Answer) : Answer :=
  match keyboardOf content with
  | .ok keyboard => answer keyboard
  | .error error => .ofFailure (.load file error)

/-! ### Requests -/

/-- The answer to a request, given the content of its file. -/
def Request.answer (request : Request) (content : Content) : Answer :=
  match request with
  | .check file =>
    withKeyboard file content fun keyboard => .ofLines [checkLine file keyboard]
  | .dump file state swipe =>
    withKeyboard file content fun keyboard => dumpAnswer keyboard state swipe
  | .press file touches =>
    withKeyboard file content fun keyboard => pressAnswer (.start keyboard) touches

end KeyGrid.CommandLine
