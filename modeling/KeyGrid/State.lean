import KeyGrid.Key.Basic
import KeyGrid.Swipe

/-!
# States

A state is a named mode of the keyboard: one list of layers for every swipe, and
the mode changes in its slots, for which the placeholders of the layouts stand.
-/

namespace KeyGrid

/-- A named mode of the keyboard. -/
structure State where
  name : String
  /-- The layers of a tap. -/
  primary : List Layer
  leftRight : List Layer
  upDown : List Layer
  /-- The layers of the previewed labels; they are never activated. -/
  altLabel : List Layer
  slots : Vector (Option MetaKey) slotCount
deriving DecidableEq

namespace State

/-- A state without layers and mode changes. -/
def blank (name : String) : State := ⟨name, [], [], [], [], Vector.replicate slotCount none⟩

/-- The layers that a swipe selects. -/
def layers (state : State) : Swipe → List Layer
  | .tap => state.primary
  | .leftRight => state.leftRight
  | .upDown => state.upDown
  | .altLabel => state.altLabel

/-- The state with the layers of one swipe replaced. -/
def setLayers (state : State) (swipe : Swipe) (layers : List Layer) : State :=
  match swipe with
  | .tap => { state with primary := layers }
  | .leftRight => { state with leftRight := layers }
  | .upDown => { state with upDown := layers }
  | .altLabel => { state with altLabel := layers }

/-- The mode change in a slot. -/
def metaKey? (state : State) (slot : Nat) : Option MetaKey := state.slots[slot]?.join

/-- The state with the mode change in a slot replaced; there is none beyond the last
slot. -/
def setMetaKey (state : State) (slot : Nat) (change : MetaKey) : State :=
  { state with slots := state.slots.setIfInBounds slot (some change) }

/-- The mode changes of all slots that have one, in order. -/
def metaKeys (state : State) : List MetaKey := state.slots.toList.filterMap id

@[simp] theorem layers_setLayers_self (state : State) (swipe : Swipe) (layers : List Layer) :
    (state.setLayers swipe layers).layers swipe = layers := by
  cases swipe <;> rfl

theorem layers_setLayers_ne (state : State) {swipe other : Swipe} (layers : List Layer)
    (h : other ≠ swipe) : (state.setLayers swipe layers).layers other = state.layers other := by
  cases swipe <;> cases other <;> first | rfl | exact absurd rfl h

@[simp] theorem layers_setMetaKey (state : State) (slot : Nat) (change : MetaKey)
    (swipe : Swipe) : (state.setMetaKey slot change).layers swipe = state.layers swipe := by
  cases swipe <;> rfl

@[simp] theorem metaKey?_setLayers (state : State) (swipe : Swipe) (layers : List Layer)
    (slot : Nat) : (state.setLayers swipe layers).metaKey? slot = state.metaKey? slot := by
  cases swipe <;> rfl

theorem metaKey?_setMetaKey (state : State) (slot other : Nat) (change : MetaKey) :
    (state.setMetaKey slot change).metaKey? other =
      if slot = other ∧ slot < slotCount then some change else state.metaKey? other := by
  simp only [metaKey?, setMetaKey, Vector.getElem?_setIfInBounds]
  grind

end State
end KeyGrid
