import KeyGrid.Key.Device
import KeyGrid.Key.Layer

/-!
# Mode

What an engine remembers between two touches: the active state, the layers that
shadow it until the next text key, and the slot that was pressed once. Beside it
stand the events by which an engine speaks to its host.
-/

namespace KeyGrid

/-- What an engine tells its host. -/
inductive Event where
  /-- A text to insert. -/
  | text (text : String)
  | device (action : Device)
  /-- A label or the look of a key may have changed. -/
  | redraw
  /-- The user asks to leave the keyboard. -/
  | external
deriving DecidableEq

/-- Whether every host has to act on an event; the rest may be passed over. -/
def Event.isEssential : Event → Bool
  | .text _ | .device _ => true
  | .redraw | .external => false

structure Mode where
  /-- The position of the active state. -/
  current : Nat
  /-- The layers that shadow the active state. -/
  overlay : Option (List Layer)
  /-- The slot of the active state that was pressed once. -/
  armed : Option Nat
deriving DecidableEq

namespace Mode

/-- A state just entered: nothing shadows it and nothing is armed. -/
def entering (state : Nat) : Mode := ⟨state, none, none⟩

/-- Whether something waits for the next key. -/
def isPending (mode : Mode) : Bool := mode.overlay.isSome || mode.armed.isSome

/-- The mode with nothing pending. -/
def settled (mode : Mode) : Mode := entering mode.current

def withOverlay (mode : Mode) (overlay : Option (List Layer)) : Mode :=
  { mode with overlay := overlay }

def withArmed (mode : Mode) (armed : Option Nat) : Mode := { mode with armed := armed }

theorem isPending_eq_false_iff (mode : Mode) : mode.isPending = false ↔ mode = mode.settled := by
  obtain ⟨current, overlay, armed⟩ := mode
  cases overlay <;> cases armed <;> simp [isPending, settled, entering]

end Mode
end KeyGrid
