import KeyGrid.Source.Fault

/-!
# Load errors

Everything that can keep a layout file from becoming a keyboard, with the line of
the file to which it belongs and the wording of its message.
-/

namespace KeyGrid

/-- Why a file does not become a keyboard. -/
inductive LoadError where
  /-- The file could not be read as text. -/
  | unreadable (reason : String)
  | parse (line : Nat) (fault : Source.Fault)
  | unknownKeyCode (line : Nat) (code : String)
  | undefinedLayout (line : Nat) (name : String)
  | undefinedState (line : Nat) (name : String)
  | invalidSlot (line : Nat) (digits : String)
  | duplicateLayout (line : Nat) (name : String)
  | duplicateState (line : Nat) (name : String)
  | missingSize (line : Nat)
  | invalidSize (line : Nat) (fault : Source.SizeFault)
  /-- The declarations are fine one by one but do not make up a keyboard. -/
  | assembly (fault : AssemblyFault)
deriving DecidableEq

namespace LoadError

/-- The line of the file to which an error belongs, if it belongs to one. -/
def line? : LoadError → Option Nat
  | .parse line _ | .unknownKeyCode line _ | .undefinedLayout line _ | .undefinedState line _
  | .invalidSlot line _ | .duplicateLayout line _ | .duplicateState line _ | .missingSize line
  | .invalidSize line _ => some line
  | .unreadable _ | .assembly _ => none

def message : LoadError → String
  | .unreadable reason => s!"IO error: {reason}"
  | .parse line fault => s!"Parse error at line {line}: {fault.message}"
  | .unknownKeyCode line code => s!"Unknown key code at line {line}: {code}"
  | .undefinedLayout line name => s!"Undefined layout at line {line}: {name}"
  | .undefinedState line name => s!"Undefined state at line {line}: {name}"
  | .invalidSlot line digits =>
    s!"Invalid meta key slot at line {line}: S{digits} (slots are S0-S{slotCount - 1})"
  | .duplicateLayout line name => s!"Duplicate layout at line {line}: {name}"
  | .duplicateState line name => s!"Duplicate state at line {line}: {name}"
  | .missingSize line => s!"Layout declared before size at line {line}"
  | .invalidSize line fault => s!"Invalid size at line {line}: {fault.message}"
  | .assembly fault => fault.message

end LoadError
end KeyGrid
