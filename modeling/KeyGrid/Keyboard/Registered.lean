import KeyGrid.Keyboard.Declared
import KeyGrid.Keyboard.Strict

/-!
# Declarations in a machine

Declarations are gone through once, and every name is entered in a register with its number
when its part comes up, so that a reference is looked up there and not searched for. States
are entered before the first declaration, layouts behind their own. The cells are written the
way a machine writes them.
-/

namespace KeyGrid

open Source

/-- Why no keyboard comes about: a declaration is refused, or the machine stops. -/
inductive Stop where
  | refused (error : LoadError)
  | trapped (trap : Trap)
deriving DecidableEq

/-! ### Registers -/

/-- Names and the numbers they stand for, the latest in front. -/
structure Register where
  entries : List (String × Nat)

namespace Register

def empty : Register := ⟨[]⟩

def size (register : Register) : Nat := register.entries.length

def number? (register : Register) (name : String) : Option Nat := register.entries.lookup name

def enter (register : Register) (name : String) (number : Nat) : Register :=
  ⟨(name, number) :: register.entries⟩

end Register

/-! ### Layouts -/

namespace Layout

/-- The layout with the cells of a row written from a column on. -/
def strictFillRow (layout : Layout) (row col : Nat) : List CellDecl → Except Stop Layout
  | [] => .ok layout
  | decl :: others => do
    let key ← decl.key?.mapError .refused
    match ← (layout.strictSet row col key).mapError .trapped with
    | some layout => layout.strictFillRow row (col + 1) others
    | none =>
      .error (.refused (.parse decl.line (.outsideGrid row col ⟨layout.rows, layout.cols⟩)))

/-- The layout with rows written from a row on. -/
def strictFill (layout : Layout) (row : Nat) : List (List CellDecl) → Except Stop Layout
  | [] => .ok layout
  | cells :: others => do
    let layout ← layout.strictFillRow row 0 cells
    layout.strictFill (row + 1) others

end Layout

/-! ### Declarations one by one -/

/-- The parts that are declared so far, and the numbers of their names. -/
structure Registered extends Parts where
  layoutNumbers : Register
  stateNumbers : Register

namespace Registered

def empty : Registered := ⟨.empty, .empty, .empty⟩

/-- A name stands for the number it has been entered with. -/
def names (registered : Registered) : Names where
  layout? := registered.layoutNumbers.number?
  state? := registered.stateNumbers.number?

/-- The name of a state is entered with the number of the names before it. -/
def enterState (registered : Registered) (decl : StateDecl) : Except Stop Registered :=
  if decl.name = externalName then .error (.refused (.parse decl.line .reservedState))
  else if (registered.stateNumbers.number? decl.name).isSome then
    .error (.refused (.duplicateState decl.line decl.name))
  else
    .ok { registered with
      stateNumbers := registered.stateNumbers.enter decl.name registered.stateNumbers.size }

/-- The layout that a declaration describes, in the shape in force. -/
def layout (registered : Registered) (decl : LayoutDecl) : Except Stop Layout :=
  if (registered.layoutNumbers.number? decl.name).isSome then
    .error (.refused (.duplicateLayout decl.line decl.name))
  else
    match registered.grid with
    | none => .error (.refused (.missingSize decl.line))
    | some grid => (Layout.allocate decl.name grid.rows grid.cols).strictFill 0 decl.rows

/-- The parts with one more declaration. -/
def add (registered : Registered) : Item → Except Stop Registered
  | .size decl => .ok { registered with grid := some decl.grid }
  | .layout decl => do
    let layout ← registered.layout decl
    return { registered with
      layouts := registered.layouts ++ [layout]
      layoutNumbers := registered.layoutNumbers.enter layout.name registered.layouts.length }
  | .state decl => do
    let state ← (registered.names.state decl).mapError .refused
    return { registered with states := registered.states ++ [state] }

end Registered

/-- The keyboard that a machine makes of declarations. -/
def Keyboard.strictOfItems (items : List Item) : Except Stop Keyboard := do
  let entered ← (Source.states items).foldlM Registered.enterState .empty
  let registered ← items.foldlM Registered.add entered
  registered.keyboard.mapError .refused

end KeyGrid
