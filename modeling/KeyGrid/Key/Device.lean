/-!
# Device actions

The eight actions a key can ask of the host instead of typing text, with the name
each has in a layout file, the glyph on its key face and its virtual-key code.
-/

namespace KeyGrid

/-- An action of the host that types no text. -/
inductive Device where
  | backspace
  | enter
  | left
  | right
  | up
  | down
  | tab
  | escape
deriving DecidableEq

namespace Device

/-- Every device action, in the order in which they are listed to a reader. -/
def all : List Device := [backspace, enter, left, right, up, down, tab, escape]

/-- The name in a layout file. -/
def name : Device → String
  | backspace => "BKSP"
  | enter => "RET"
  | left => "LEFT"
  | right => "RIGHT"
  | up => "UP"
  | down => "DOWN"
  | tab => "TAB"
  | escape => "ESC"

/-- The action of a given name; case matters. -/
def ofName? (name : String) : Option Device := all.find? (·.name == name)

/-- What is drawn on the key. -/
def glyph : Device → String
  | backspace => "↤"
  | enter => "↵"
  | left => "←"
  | right => "→"
  | up => "↑"
  | down => "↓"
  | tab => "↹"
  | escape => "Esc"

/-- The virtual-key code by which the host knows the action. -/
def virtualKey : Device → Nat
  | backspace => 0x08
  | tab => 0x09
  | enter => 0x0D
  | escape => 0x1B
  | left => 0x25
  | up => 0x26
  | right => 0x27
  | down => 0x28

theorem mem_all (device : Device) : device ∈ all := by
  cases device <;> decide

theorem ofName?_name (device : Device) : ofName? device.name = some device := by
  cases device <;> decide

theorem name_of_ofName? {name : String} {device : Device} (h : ofName? name = some device) :
    device.name = name := by
  simpa using List.find?_some h

end Device
end KeyGrid
