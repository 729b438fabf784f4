import KeyGrid.Keyboard.Basic
import KeyGrid.Layout.Strict

/-!
# Keyboards in a machine

Every look-up of a key is made the way a machine makes it: a layout, a state or a cell that
does not exist, or a byte that is too small to be subtracted from, stops the program.
-/

namespace KeyGrid

/-- There is a number for every position. -/
def Grid.Fits (grid : Grid) : Prop := grid.rows * grid.cols < UInt64.size

instance (grid : Grid) : Decidable grid.Fits := inferInstanceAs (Decidable (_ < _))

/-- The control character of a label, reckoned from the label's first byte. -/
def TextKey.strictControl (label : String) : Except Trap Char :=
  match ((label.toList.map Char.toUpper).flatMap String.utf8EncodeChar)[0]? with
  | none => .error .noByte
  | some byte =>
    if byte.toNat < 'A'.toNat then .error (.underflow byte)
    else .ok (Char.ofNat (byte.toNat - 'A'.toNat + 1))

def TextKey.strictUnder (key : TextKey) : Modifier → Except Trap (Option TextKey)
  | .plain => .ok (some key)
  | .shift => .ok (some (ofText (Text.uppercase key.text)))
  | .ctrl =>
    match key.letter? with
    | none => .ok none
    | some letter => do
      let code ← strictControl key.label
      return some ⟨String.ofList ['^', letter.toUpper], String.singleton code⟩

def Key.strictUnder (key : Key) (modifier : Modifier) : Except Trap (Option Key) :=
  match key with
  | .text key => do
    let shifted ← key.strictUnder modifier
    return shifted.map .text
  | other => .ok (some other)

namespace Keyboard

def strictLayout (keyboard : Keyboard) (index : Nat) : Except Trap Layout :=
  match keyboard.layouts[index]? with
  | some layout => .ok layout
  | none => .error (.layout index)

def strictState (keyboard : Keyboard) (index : Nat) : Except Trap State :=
  match keyboard.states[index]? with
  | some state => .ok state
  | none => .error (.state index)

def strictLayerKey (keyboard : Keyboard) (layer : Layer) (row col : Nat) :
    Except Trap (Option Key) := do
  let layout ← keyboard.strictLayout layer.layout
  match ← layout.strictGet row col with
  | none => return none
  | some key => key.strictUnder layer.modifier

def strictResolve (keyboard : Keyboard) (row col : Nat) : List Layer → Except Trap (Option Key)
  | [] => .ok none
  | layer :: others => do
    match ← keyboard.strictLayerKey layer row col with
    | some key => return some key
    | none => keyboard.strictResolve row col others

end Keyboard
end KeyGrid
