import KeyGrid.Engine.Mode
import KeyGrid.Keyboard.Basic

/-!
# Engines

An engine is a keyboard together with its mode. This module answers what is seen at
a position: which key is in force there, what it is labelled and how it is drawn. An
overlay hides the active state altogether, gaps included, and a swipe never falls
back on the layers of a tap.
-/

namespace KeyGrid

/-- A keyboard and the mode it is in. -/
structure Engine where
  keyboard : Keyboard
  mode : Mode
deriving DecidableEq

/-- Which layers supplied a key. -/
inductive Origin where
  | overlay
  | swipe
  | preview
  | base
deriving DecidableEq

/-- How a key is drawn. -/
inductive Look where
  | normal
  /-- Its slot was pressed once. -/
  | armed
  /-- It belongs to the overlay. -/
  | overlay
  | swiped
deriving DecidableEq

/-- The origin of the keys that a swipe selects. -/
def Swipe.origin : Swipe → Origin
  | .tap => .base
  | .leftRight | .upDown => .swipe
  | .altLabel => .preview

def Origin.look : Origin → Look
  | .overlay => .overlay
  | .swipe => .swiped
  | .preview | .base => .normal

namespace Engine

/-- A keyboard in its main state. -/
def start (keyboard : Keyboard) : Engine := ⟨keyboard, .entering keyboard.main⟩

/-- The active state. -/
def state? (engine : Engine) : Option State := engine.keyboard.states[engine.mode.current]?

/-- The name of the active state. -/
def stateName (engine : Engine) : String := (engine.state?.map (·.name)).getD ""

/-- The mode change in a slot of the active state. -/
def metaKey? (engine : Engine) (slot : Nat) : Option MetaKey :=
  engine.state?.bind (·.metaKey? slot)

/-- The layers of the active state that a swipe selects. -/
def stateLayers (engine : Engine) (swipe : Swipe) : List Layer :=
  (engine.state?.map (·.layers swipe)).getD []

/-- The layers that are asked for a key, and what they are. -/
def source (engine : Engine) (swipe : Swipe) : List Layer × Origin :=
  match engine.mode.overlay with
  | some layers => (layers, .overlay)
  | none => (engine.stateLayers swipe, swipe.origin)

/-- The key in force at a position. -/
def key? (engine : Engine) (row col : Nat) (swipe : Swipe) : Option Key :=
  if row < engine.keyboard.rows ∧ col < engine.keyboard.cols then
    engine.keyboard.resolve (engine.source swipe).1 row col
  else none

/-- What a key shows; a placeholder shows the mode change in its slot. -/
def labelOf (engine : Engine) : Key → String
  | .placeholder slot => ((engine.metaKey? slot).map (·.label)).getD ""
  | key => key.label?.getD ""

/-- The label at a position, empty where there is no key. -/
def label (engine : Engine) (row col : Nat) (swipe : Swipe) : String :=
  ((engine.key? row col swipe).map engine.labelOf).getD ""

/-- The label previewed on the key at a position. -/
def altLabel (engine : Engine) (row col : Nat) : String := engine.label row col .altLabel

/-- Whether a key stands for the armed slot. -/
def isArmed (engine : Engine) : Key → Bool
  | .placeholder slot => engine.mode.armed == some slot
  | _ => false

/-- How the key at a position is drawn. -/
def look (engine : Engine) (row col : Nat) (swipe : Swipe) : Look :=
  match engine.key? row col swipe with
  | none => .normal
  | some key => if engine.isArmed key then .armed else (engine.source swipe).2.look

end Engine
end KeyGrid
