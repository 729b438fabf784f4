import KeyGrid.Keyboard.Basic

/-!
# Assembly

A keyboard is put together from its grid, its layouts and its states. The parts
are accepted only if they fit: every layout has the keyboard's shape, no name is
used twice, there is a state to start in, and every reference by position is in
range.
-/

namespace KeyGrid

/-- Why parts do not make up a keyboard. -/
inductive AssemblyFault where
  /-- A layout has not the shape of the keyboard's grid. -/
  | shape (layout : String) (found grid : Grid)
  | duplicateLayout (name : String)
  | duplicateState (name : String)
  | missingMain
  /-- A key of the layout refers to a layout, state or slot that does not exist. -/
  | layoutReference (layout : String)
  /-- A layer or mode change of the state refers to a layout or state that does not
  exist. -/
  | stateReference (state : String)
deriving DecidableEq

def Grid.text (grid : Grid) : String := s!"{grid.rows}x{grid.cols}"

def AssemblyFault.message : AssemblyFault → String
  | .shape layout found grid =>
    s!"Invalid keyboard: layout '{layout}' is {found.text}, keyboard is {grid.text}"
  | .duplicateLayout name => s!"Invalid keyboard: duplicate layout '{name}'"
  | .duplicateState name => s!"Invalid keyboard: duplicate state '{name}'"
  | .missingMain => s!"No state named '{Keyboard.mainName}'"
  | .layoutReference layout =>
    s!"Invalid keyboard: layout '{layout}' references an unknown state or slot"
  | .stateReference state =>
    s!"Invalid keyboard: state '{state}' references an unknown layout or state"

/-! ### References -/

/-- How many layouts and states there are to refer to. -/
structure Extent where
  layouts : Nat
  states : Nat

namespace Extent

/-- Whether a layer refers to an existing layout. -/
def admitsLayer (extent : Extent) (layer : Layer) : Bool := layer.layout < extent.layouts

/-- Whether a mode change refers to existing layouts and states. Only a switch inside
the keyboard can be latched. -/
def admitsMetaKey (extent : Extent) : MetaKey → Bool
  | .dead _ layers => layers.all extent.admitsLayer
  | .switch _ (.state index) _ => index < extent.states
  | .switch _ .external latched => !latched

def admitsKey (extent : Extent) : Key → Bool
  | .text _ | .device _ => true
  | .direct change => extent.admitsMetaKey change
  | .placeholder slot => slot < slotCount

def admitsLayout (extent : Extent) (layout : Layout) : Bool :=
  layout.keys.all extent.admitsKey

def admitsState (extent : Extent) (state : State) : Bool :=
  Swipe.all.all (fun swipe => (state.layers swipe).all extent.admitsLayer) &&
    state.metaKeys.all extent.admitsMetaKey

end Extent

/-! ### Putting a keyboard together -/

namespace Keyboard

/-- The first layout that has the wrong shape or the name of one before it. -/
def layoutFault? (grid : Grid) (earlier : List String) : List Layout → Option AssemblyFault
  | [] => none
  | layout :: others =>
    if layout.rows ≠ grid.rows ∨ layout.cols ≠ grid.cols then
      some (.shape layout.name ⟨layout.rows, layout.cols⟩ grid)
    else if layout.name ∈ earlier then some (.duplicateLayout layout.name)
    else layoutFault? grid (layout.name :: earlier) others

/-- The first state that has the name of one before it. -/
def stateFault? (earlier : List String) : List State → Option AssemblyFault
  | [] => none
  | state :: others =>
    if state.name ∈ earlier then some (.duplicateState state.name)
    else stateFault? (state.name :: earlier) others

/-- The first layout, and failing that the first state, with a reference to
something that does not exist. -/
def referenceFault? (layouts : List Layout) (states : List State) : Option AssemblyFault :=
  let extent : Extent := ⟨layouts.length, states.length⟩
  match layouts.find? (!extent.admitsLayout ·) with
  | some layout => some (.layoutReference layout.name)
  | none =>
    match states.find? (!extent.admitsState ·) with
    | some state => some (.stateReference state.name)
    | none => none

/-- The keyboard of the given parts, if they fit. -/
def assemble (grid : Grid) (layouts : List Layout) (states : List State) :
    Except AssemblyFault Keyboard :=
  match layoutFault? grid [] layouts with
  | some fault => .error fault
  | none =>
    match stateFault? [] states with
    | some fault => .error fault
    | none =>
      match states.findIdx? (·.name == mainName) with
      | none => .error .missingMain
      | some main =>
        match referenceFault? layouts states with
        | some fault => .error fault
        | none => .ok ⟨grid, layouts, states, main⟩

end Keyboard
end KeyGrid
