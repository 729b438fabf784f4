import KeyGrid.Keyboard.Basic
import KeyGrid.Number.Decimal

/-!
# Declarations

A layout file as it is written: sizes, layouts and states in order, with names not
yet looked up and lines remembered for messages.
-/

namespace KeyGrid

/-- The word that opens the layer list of a swipe in a state. -/
def Swipe.keyword : Swipe → String
  | .tap => "layout"
  | .leftRight => "swipe_lr"
  | .upDown => "swipe_ud"
  | .altLabel => "alt_label"

/-- The swipe whose layer list a word opens. -/
def Swipe.ofKeyword? (word : String) : Option Swipe := Swipe.all.find? (·.keyword == word)

namespace Source

/-- The code of the key that leaves the keyboard, and the name of the state it leads
to. No state of a file can have this name. -/
def externalName : String := "CHANGE"

/-- A cell of a row. -/
inductive Cell where
  | absent
  /-- A text to be typed. -/
  | text (text : String)
  /-- The name of a device action, of a slot or of the key that leaves the keyboard. -/
  | code (code : String)
deriving DecidableEq

structure CellDecl where
  cell : Cell
  line : Nat
deriving DecidableEq

/-- The shape of every layout declared after it. -/
structure SizeDecl where
  grid : Grid
  line : Nat
deriving DecidableEq

/-- A layout as far as its rows and cells are written. -/
structure LayoutDecl where
  name : String
  line : Nat
  rows : List (List CellDecl)
deriving DecidableEq

/-- A layer of a list, by the name of its layout. -/
structure LayerRef where
  modifier : Modifier
  name : String
  line : Nat
deriving DecidableEq

/-- What the key in a slot does. -/
inductive MetaDecl where
  | dead (layers : List LayerRef)
  | state (target : String)
  | deadLatch (target : String)
deriving DecidableEq

/-- A line of a state. -/
inductive Entry where
  /-- The layers of one swipe. -/
  | layers (swipe : Swipe) (layers : List LayerRef) (line : Nat)
  /-- The mode change in a slot; the slot is kept as written. -/
  | slot (digits : String) (label : String) (change : MetaDecl) (line : Nat)
deriving DecidableEq

structure StateDecl where
  name : String
  line : Nat
  entries : List Entry
deriving DecidableEq

/-- A declaration of a file. -/
inductive Item where
  | size (decl : SizeDecl)
  | layout (decl : LayoutDecl)
  | state (decl : StateDecl)
deriving DecidableEq

namespace Item

def grid? : Item → Option Grid
  | .size decl => some decl.grid
  | _ => none

def layout? : Item → Option LayoutDecl
  | .layout decl => some decl
  | _ => none

def state? : Item → Option StateDecl
  | .state decl => some decl
  | _ => none

end Item

/-- The layouts among declarations, in order. -/
def layouts (items : List Item) : List LayoutDecl := items.filterMap Item.layout?

/-- The states among declarations, in order. -/
def states (items : List Item) : List StateDecl := items.filterMap Item.state?

/-- The digits of a slot word: a capital S and at least one digit. -/
def slotDigits? (word : String) : Option String :=
  match word.toList with
  | 'S' :: digits => if Decimal.isDigits digits then some (String.ofList digits) else none
  | _ => none

end Source
end KeyGrid
