import KeyGrid.Key.Device
import KeyGrid.Key.Layer
import KeyGrid.Text.Uppercase

/-!
# Keys

A key types a text, asks for a device action, changes the mode of the keyboard, or
stands in for whatever mode change the current state has put in one of its slots.
Modifiers act on text keys only: shift puts the text in upper case, and ctrl leaves
just the keys labelled with a single ASCII letter, as control characters.
-/

namespace KeyGrid

/-! ### Text keys -/

/-- A key that types `text` and shows `label`. -/
structure TextKey where
  label : String
  text : String
deriving DecidableEq

namespace TextKey

/-- The key that shows what it types. -/
def ofText (text : String) : TextKey := ⟨text, text⟩

/-- The single ASCII letter on the key, if that is its whole label. -/
def letter? (key : TextKey) : Option Char :=
  match key.label.toList with
  | [c] => if c.isAlpha then some c else none
  | _ => none

/-- The control character of an ASCII letter: A is 1, and so on, in either case. -/
def control (letter : Char) : Char := Char.ofNat (letter.toUpper.toNat - 'A'.toNat + 1)

/-- The key under a modifier; nothing if it does not exist there. -/
def under (key : TextKey) : Modifier → Option TextKey
  | .plain => some key
  | .shift => some (ofText (Text.uppercase key.text))
  | .ctrl => key.letter?.map fun letter =>
      ⟨String.ofList ['^', letter.toUpper], String.singleton (control letter)⟩

end TextKey

/-! ### Mode changes -/

/-- Where a switch key leads. -/
inductive Target where
  /-- The state at a position of the keyboard's list. -/
  | state (index : Nat)
  /-- Out of this keyboard: the host takes over. -/
  | external
deriving DecidableEq

/-- A key that changes the mode of the keyboard. -/
inductive MetaKey where
  /-- Lays `layers` over the current state until a text key is pressed. -/
  | dead (label : String) (layers : List Layer)
  /-- Leads to another state; a latched key first shows that state as an overlay and
  leads there when it is pressed again. -/
  | switch (label : String) (target : Target) (latched : Bool)
deriving DecidableEq

def MetaKey.label : MetaKey → String
  | .dead label _ => label
  | .switch label _ _ => label

/-! ### Keys -/

/-- The number of slots for mode changes that every state has. -/
def slotCount : Nat := 4

inductive Key where
  | text (key : TextKey)
  | device (action : Device)
  /-- A mode change put directly into a cell. -/
  | direct (change : MetaKey)
  /-- Stands in for the mode change in a slot of the current state. -/
  | placeholder (slot : Nat)
deriving DecidableEq

/-- What pressing a key can do. -/
inductive Capability where
  | typing
  | device
  | modal
deriving DecidableEq

namespace Key

/-- The key that types a text and shows it. -/
def ofText (text : String) : Key := .text (.ofText text)

def capability : Key → Capability
  | .text _ => .typing
  | .device _ => .device
  | .direct _ | .placeholder _ => .modal

/-- The label a key brings along. A placeholder has none: what it shows is up to the
current state. -/
def label? : Key → Option String
  | .text key => some key.label
  | .device action => some action.glyph
  | .direct change => some change.label
  | .placeholder _ => none

/-- The key under a modifier; nothing if it does not exist there, so that the next
layer is asked. -/
def under (key : Key) (modifier : Modifier) : Option Key :=
  match key with
  | .text key => (key.under modifier).map .text
  | other => some other

theorem under_plain (key : Key) : key.under .plain = some key := by
  cases key <;> rfl

/-- Shift never removes a key. -/
theorem isSome_under_shift (key : Key) : (key.under .shift).isSome := by
  cases key <;> rfl

/-- Ctrl removes the text keys without a letter and no other key. -/
theorem under_ctrl_eq_none_iff (key : Key) :
    key.under .ctrl = none ↔ ∃ text, key = .text text ∧ text.letter? = none := by
  cases key <;> simp [under, TextKey.under]

end Key
end KeyGrid
