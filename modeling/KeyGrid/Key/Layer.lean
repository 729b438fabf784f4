/-!
# Layers

A layer is one layout seen through a modifier. Lists of layers are searched from
the front, so an earlier layer hides a later one.
-/

namespace KeyGrid

/-- How the keys of a layout are altered when it is used as a layer. -/
inductive Modifier where
  | plain
  | shift
  | ctrl
deriving DecidableEq

/-- The modifier that a word names in front of a layout's name. -/
def Modifier.ofWord? : String → Option Modifier
  | "shift" => some .shift
  | "ctrl" => some .ctrl
  | _ => none

/-- The layout at a position of the keyboard's list, seen through a modifier. -/
structure Layer where
  layout : Nat
  modifier : Modifier
deriving DecidableEq

end KeyGrid
