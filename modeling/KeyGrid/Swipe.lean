/-!
# Swipes

The gesture that comes with a touch. A swipe selects which of a state's layer lists
supplies the key: a tap uses the primary list, two swipes have a list each, and the
fourth direction only previews a label and never activates a key.
-/

namespace KeyGrid

inductive Swipe where
  | tap
  | leftRight
  | upDown
  | altLabel
deriving DecidableEq

namespace Swipe

def all : List Swipe := [tap, leftRight, upDown, altLabel]

/-- The number by which a host names the direction. -/
def code : Swipe → Nat
  | tap => 0
  | leftRight => 1
  | upDown => 2
  | altLabel => 3

/-- The direction of a number, if it is one of the four. -/
def ofCode? (code : Nat) : Option Swipe := all.find? (·.code == code)

/-- The direction's name. -/
def name : Swipe → String
  | tap => "None"
  | leftRight => "LeftRight"
  | upDown => "UpDown"
  | altLabel => "AltLabel"

/-- Whether the swipe selects a key of a list of its own to be activated. -/
def isActivating : Swipe → Bool
  | leftRight | upDown => true
  | tap | altLabel => false

theorem ofCode?_code (swipe : Swipe) : ofCode? swipe.code = some swipe := by
  cases swipe <;> decide

theorem code_of_ofCode? {code : Nat} {swipe : Swipe} (h : ofCode? code = some swipe) :
    swipe.code = code := by
  simpa using List.find?_some h

end Swipe
end KeyGrid
