import KeyGrid.Engine.Operation
import KeyGrid.Text.Quoted

/-!
# Reports

How engines and events are shown on a command line: the grid of a state with a mark
on every key that is not drawn plainly, and the events of a touch as a list.
-/

namespace KeyGrid.CommandLine

/-- What a cell without a label shows. -/
def blankLabel : String := "*"

/-- A label with the mark of its look. -/
def marked (look : Look) (label : String) : String :=
  match look with
  | .normal => label
  | .armed => s!"[{label}]"
  | .overlay => s!"<{label}>"
  | .swiped => s!"~{label}"

/-- What the key at a position shows. -/
def cellText (engine : Engine) (swipe : Swipe) (row col : Nat) : String :=
  let label := engine.label row col swipe
  marked (engine.look row col swipe) (if label.isEmpty then blankLabel else label)

/-- The lines that show an engine: its state and its grid under a swipe. -/
def gridLines (engine : Engine) (swipe : Swipe) : List String :=
  s!"state {engine.stateName} ({swipe.name})" ::
    (List.range engine.keyboard.rows).map fun row =>
      "\t".intercalate ((List.range engine.keyboard.cols).map (cellText engine swipe row))

/-- An event in words. -/
def eventText : Event → String
  | .text text => Text.quote text
  | .device action => action.name
  | .redraw => "redraw"
  | .external => "external"

/-- Events in words, with commas between them. -/
def eventsText (events : List Event) : String := ", ".intercalate (events.map eventText)

end KeyGrid.CommandLine
