import KeyGrid.Source.Reader

/-!
# Keyboards from declarations

Declarations become a keyboard when every name in them is looked up. States may be
named before they are declared; a layer sees only the layouts declared above its
state. A later list or slot entry of a state replaces an earlier one.
-/

namespace KeyGrid
namespace Source

/-! ### Keys -/

/-- The label of the key that leaves the keyboard. -/
def externalGlyph : String := "⌨"

/-- The key that leaves the keyboard. -/
def externalKey : MetaKey := .switch externalGlyph .external false

/-- The slot that a text denotes. -/
def slotOf (digits : String) (line : Nat) : Except LoadError Nat :=
  match Decimal.read slotCount digits.toList with
  | .ok slot => .ok slot
  | .error _ => .error (.invalidSlot line digits)

/-- The key of a code in a cell. -/
def keyOfCode (code : String) (line : Nat) : Except LoadError Key :=
  match Device.ofName? code with
  | some action => .ok (.device action)
  | none =>
    if code = externalName then .ok (.direct externalKey)
    else
      match slotDigits? code with
      | some digits => (slotOf digits line).map .placeholder
      | none => .error (.unknownKeyCode line code)

/-- The key that a cell declares, if it is not left out. -/
def CellDecl.key? (decl : CellDecl) : Except LoadError (Option Key) :=
  match decl.cell with
  | .absent => .ok none
  | .text text => .ok (some (.ofText text))
  | .code code => (keyOfCode code decl.line).map some

end Source

open Source

/-! ### Layouts -/

namespace Layout

/-- The layout with the cells of a row written from a column on. -/
def fillRow (layout : Layout) (row col : Nat) : List CellDecl → Except LoadError Layout
  | [] => .ok layout
  | decl :: others => do
    let key ← decl.key?
    match layout.set? row col key with
    | some layout => layout.fillRow row (col + 1) others
    | none => .error (.parse decl.line (.outsideGrid row col ⟨layout.rows, layout.cols⟩))

/-- The layout with rows written from a row on. -/
def fill (layout : Layout) (row : Nat) : List (List CellDecl) → Except LoadError Layout
  | [] => .ok layout
  | cells :: others => do
    let layout ← layout.fillRow row 0 cells
    layout.fill (row + 1) others

end Layout

/-! ### Names and states -/

/-- The numbers that names stand for. -/
structure Names where
  layout? : String → Option Nat
  state? : String → Option Nat

namespace Names

/-- The layer that a reference names. -/
def layer (names : Names) (ref : LayerRef) : Except LoadError Layer :=
  match names.layout? ref.name with
  | some index => .ok ⟨index, ref.modifier⟩
  | none => .error (.undefinedLayout ref.line ref.name)

/-- The layers that references name. -/
def layers (names : Names) (refs : List LayerRef) : Except LoadError (List Layer) :=
  refs.mapM names.layer

/-- The target that a name denotes. -/
def target (names : Names) (name : String) (line : Nat) : Except LoadError Target :=
  if name = externalName then .ok .external
  else
    match names.state? name with
    | some index => .ok (.state index)
    | none => .error (.undefinedState line name)

/-- The mode change that a slot entry declares. -/
def metaKey (names : Names) (label : String) (change : MetaDecl) (line : Nat) :
    Except LoadError MetaKey :=
  match change with
  | .dead refs => (names.layers refs).map (.dead label)
  | .state name => (names.target name line).map (.switch label · false)
  | .deadLatch name =>
    if name = externalName then .error (.parse line .latchedExternal)
    else (names.target name line).map (.switch label · true)

/-- A state with one more entry. -/
def addEntry (names : Names) (state : State) : Entry → Except LoadError State
  | .layers swipe refs _ => (names.layers refs).map (state.setLayers swipe)
  | .slot digits label change line => do
    let slot ← slotOf digits line
    let key ← names.metaKey label change line
    return state.setMetaKey slot key

/-- The state that a declaration describes. -/
def state (names : Names) (decl : StateDecl) : Except LoadError State :=
  decl.entries.foldlM names.addEntry (.blank decl.name)

end Names

/-- The names that a state may use: those of all states of the file, and those of
the layouts declared so far. -/
structure Scope where
  states : List String
  layouts : List Layout

namespace Scope

/-- A name stands for the first part that has it. -/
def names (scope : Scope) : Names where
  layout? name := scope.layouts.findIdx? (·.name == name)
  state? name := scope.states.findIdx? (· == name)

def layer (scope : Scope) : LayerRef → Except LoadError Layer := scope.names.layer

def layers (scope : Scope) : List LayerRef → Except LoadError (List Layer) := scope.names.layers

def target (scope : Scope) : String → Nat → Except LoadError Target := scope.names.target

def metaKey (scope : Scope) : String → MetaDecl → Nat → Except LoadError MetaKey :=
  scope.names.metaKey

def addEntry (scope : Scope) : State → Entry → Except LoadError State := scope.names.addEntry

def state (scope : Scope) : StateDecl → Except LoadError State := scope.names.state

variable (scope : Scope)

theorem layer_eq (ref : LayerRef) : scope.layer ref =
    match scope.layouts.findIdx? (·.name == ref.name) with
    | some index => .ok ⟨index, ref.modifier⟩
    | none => .error (.undefinedLayout ref.line ref.name) := rfl

theorem layers_eq (refs : List LayerRef) : scope.layers refs = refs.mapM scope.layer := rfl

theorem target_eq (name : String) (line : Nat) : scope.target name line =
    if name = externalName then .ok .external
    else
      match scope.states.findIdx? (· == name) with
      | some index => .ok (.state index)
      | none => .error (.undefinedState line name) := rfl

theorem metaKey_dead (label : String) (refs : List LayerRef) (line : Nat) :
    scope.metaKey label (.dead refs) line = (scope.layers refs).map (.dead label) := rfl

theorem metaKey_state (label name : String) (line : Nat) :
    scope.metaKey label (.state name) line =
      (scope.target name line).map (.switch label · false) := rfl

theorem metaKey_deadLatch (label name : String) (line : Nat) :
    scope.metaKey label (.deadLatch name) line =
      if name = externalName then .error (.parse line .latchedExternal)
      else (scope.target name line).map (.switch label · true) := rfl

theorem addEntry_layers (state : State) (swipe : Swipe) (refs : List LayerRef) (line : Nat) :
    scope.addEntry state (.layers swipe refs line) =
      (scope.layers refs).map (state.setLayers swipe) := rfl

theorem addEntry_slot (state : State) (digits label : String) (change : MetaDecl) (line : Nat) :
    scope.addEntry state (.slot digits label change line) = (do
      let slot ← slotOf digits line
      let key ← scope.metaKey label change line
      return state.setMetaKey slot key) := rfl

theorem state_eq (decl : StateDecl) :
    scope.state decl = decl.entries.foldlM scope.addEntry (.blank decl.name) := rfl

end Scope

/-- The names of states with one more; each may be used once. -/
def addStateName (names : List String) (decl : StateDecl) : Except LoadError (List String) :=
  if decl.name = externalName then .error (.parse decl.line .reservedState)
  else if decl.name ∈ names then .error (.duplicateState decl.line decl.name)
  else .ok (names ++ [decl.name])

/-- The names of all states, in order. -/
def stateNamesOf (decls : List StateDecl) : Except LoadError (List String) :=
  decls.foldlM addStateName []

/-! ### Declarations one by one -/

/-- The parts of a keyboard that are declared so far, in order. -/
structure Parts where
  grid : Option Grid
  layouts : List Layout
  states : List State

namespace Parts

def empty : Parts := ⟨none, [], []⟩

/-- The layout that a declaration describes, in the shape in force. -/
def layout (parts : Parts) (decl : LayoutDecl) : Except LoadError Layout :=
  if parts.layouts.any (·.name == decl.name) then
    .error (.duplicateLayout decl.line decl.name)
  else
    match parts.grid with
    | none => .error (.missingSize decl.line)
    | some grid => (Layout.blank decl.name grid.rows grid.cols).fill 0 decl.rows

/-- The parts with one more declaration, given the names of all states. -/
def add (stateNames : List String) (parts : Parts) : Item → Except LoadError Parts
  | .size decl => .ok { parts with grid := some decl.grid }
  | .layout decl => do
    let layout ← parts.layout decl
    return { parts with layouts := parts.layouts ++ [layout] }
  | .state decl => do
    let state ← Scope.state ⟨stateNames, parts.layouts⟩ decl
    return { parts with states := parts.states ++ [state] }

/-- The keyboard made up of the parts. -/
def keyboard (parts : Parts) : Except LoadError Keyboard :=
  match parts.grid with
  | none => .error (.missingSize 1)
  | some grid =>
    match Keyboard.assemble grid parts.layouts parts.states with
    | .ok keyboard => .ok keyboard
    | .error fault => .error (.assembly fault)

end Parts

namespace Keyboard

/-- The keyboard that declarations describe. -/
def ofItems (items : List Item) : Except LoadError Keyboard := do
  let stateNames ← stateNamesOf (Source.states items)
  let parts ← items.foldlM (Parts.add stateNames) .empty
  parts.keyboard

/-- The mark that may stand in front of a text to tell its encoding. -/
def byteOrderMark : Char := '\ufeff'

/-- A text without the mark of its encoding. -/
def withoutMark (text : String) : String :=
  match text.toList with
  | c :: rest => if c = byteOrderMark then String.ofList rest else text
  | [] => text

/-- The keyboard that a layout file describes. -/
def ofSource (text : String) : Except LoadError Keyboard := do
  let items ← declarations (withoutMark text)
  ofItems items

/-- The keyboard that the bytes of a layout file describe. -/
def ofBytes (bytes : ByteArray) : Except LoadError Keyboard :=
  match String.fromUTF8? bytes with
  | some text => ofSource text
  | none => .error (.unreadable "stream did not contain valid UTF-8")

end Keyboard
end KeyGrid
