import KeyGrid.Layout
import KeyGrid.State

/-!
# Keyboards

A keyboard has a fixed grid, layouts and states. Layouts and states refer to one
another by their positions in the keyboard's lists; names are looked up once, when
a file is read or a host asks for a state.
-/

namespace KeyGrid

/-- The number of rows and columns of a grid. -/
structure Grid where
  rows : Nat
  cols : Nat
deriving DecidableEq

structure Keyboard where
  grid : Grid
  layouts : List Layout
  states : List State
  /-- The position of the state in which the keyboard starts. -/
  main : Nat
deriving DecidableEq

namespace Keyboard

/-- The name of the state in which every keyboard starts. -/
def mainName : String := "main"

def rows (keyboard : Keyboard) : Nat := keyboard.grid.rows

def cols (keyboard : Keyboard) : Nat := keyboard.grid.cols

/-! ### Names -/

/-- The position of the layout of a given name. -/
def layoutIndex? (keyboard : Keyboard) (name : String) : Option Nat :=
  keyboard.layouts.findIdx? (·.name == name)

/-- The position of the state of a given name. -/
def stateIndex? (keyboard : Keyboard) (name : String) : Option Nat :=
  keyboard.states.findIdx? (·.name == name)

/-- The layout of a given name. -/
def layoutNamed? (keyboard : Keyboard) (name : String) : Option Layout :=
  (keyboard.layoutIndex? name).bind (keyboard.layouts[·]?)

/-- The state of a given name. -/
def stateNamed? (keyboard : Keyboard) (name : String) : Option State :=
  (keyboard.stateIndex? name).bind (keyboard.states[·]?)

/-- The layouts' names in order. -/
def layoutNames (keyboard : Keyboard) : List String := keyboard.layouts.map (·.name)

/-- The states' names in order. -/
def stateNames (keyboard : Keyboard) : List String := keyboard.states.map (·.name)

/-! ### Keys -/

/-- The key that one layer has at a position. -/
def layerKey? (keyboard : Keyboard) (layer : Layer) (row col : Nat) : Option Key := do
  let layout ← keyboard.layouts[layer.layout]?
  let key ← layout.get? row col
  key.under layer.modifier

/-- The key that a list of layers has at a position: the first layer with one
supplies it. -/
def resolve (keyboard : Keyboard) (layers : List Layer) (row col : Nat) : Option Key :=
  layers.findSome? (keyboard.layerKey? · row col)

@[simp] theorem resolve_nil (keyboard : Keyboard) (row col : Nat) :
    keyboard.resolve [] row col = none := rfl

/-- Layers behind a list are asked only where the list has no key. -/
theorem resolve_append (keyboard : Keyboard) (front back : List Layer) (row col : Nat) :
    keyboard.resolve (front ++ back) row col =
      (keyboard.resolve front row col).or (keyboard.resolve back row col) := by
  simp [resolve, List.findSome?_append]

end Keyboard
end KeyGrid
