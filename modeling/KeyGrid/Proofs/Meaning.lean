import KeyGrid.Keyboard.Declared
import KeyGrid.Proofs.Numeral

/-!
# What declarations mean

A reading of declarations that knows names only: no layout or state has a position, and
nothing is looked up before it is asked for. The last list of a swipe and the last entry
of a slot count; a reference means the layout of that name; a cell holds what is written
in it, and nothing where nothing is written.
-/

namespace KeyGrid.Source

/-! ### Cells -/

def codeMeaning? (code : String) : Option Key :=
  match Device.ofName? code with
  | some action => some (.device action)
  | none =>
    if code = externalName then some (.direct externalKey)
    else ((slotDigits? code).bind (Decimal.numeral? ·.toList)).map .placeholder

def Cell.meaning? : Cell → Option Key
  | .absent => none
  | .text typed => some (.ofText typed)
  | .code name => codeMeaning? name

/-- The key written at a position. -/
def LayoutDecl.meaning? (decl : LayoutDecl) (row col : Nat) : Option Key := do
  let cells ← decl.rows[row]?
  let written ← cells[col]?
  written.cell.meaning?

theorem LayoutDecl.exists_cell {decl : LayoutDecl} {row col : Nat} {key : Key}
    (h : decl.meaning? row col = some key) :
    ∃ cells ∈ decl.rows, ∃ written ∈ cells, written.cell.meaning? = some key := by
  simp only [meaning?, bind, Option.bind_eq_some_iff] at h
  obtain ⟨cells, hcells, written, hwritten, hcell⟩ := h
  exact ⟨cells, List.mem_of_getElem? hcells, written, List.mem_of_getElem? hwritten, hcell⟩

/-! ### Layer lists -/

def layoutNamed? (items : List Item) (name : String) : Option LayoutDecl :=
  (layouts items).find? (·.name == name)

def LayerRef.meaning? (items : List Item) (ref : LayerRef) (row col : Nat) : Option Key := do
  let decl ← layoutNamed? items ref.name
  let key ← decl.meaning? row col
  key.under ref.modifier

/-- The first layer with a key at the position supplies it. -/
def listMeaning? (items : List Item) (refs : List LayerRef) (row col : Nat) : Option Key :=
  refs.findSome? (·.meaning? items row col)

/-! ### Entries -/

def Entry.list? (swipe : Swipe) : Entry → Option (List LayerRef)
  | .layers other refs _ => if other = swipe then some refs else none
  | .slot _ _ _ _ => none

def Entry.change? (slot : Nat) : Entry → Option (String × MetaDecl)
  | .layers _ _ _ => none
  | .slot digits label change _ =>
    if Decimal.numeral? digits.toList = some slot then some (label, change) else none

/-- The last list of a swipe. -/
def StateDecl.list (decl : StateDecl) (swipe : Swipe) : List LayerRef :=
  (decl.entries.filterMap (·.list? swipe)).getLast?.getD []

/-- The last mode change of a slot, with its label. -/
def StateDecl.change? (decl : StateDecl) (slot : Nat) : Option (String × MetaDecl) :=
  (decl.entries.filterMap (·.change? slot)).getLast?

/-! ### Names and positions -/

/-- The layer lies on the layout of the name that the reference gives. -/
structure LayerRef.Denotes (keyboard : Keyboard) (ref : LayerRef) (layer : Layer) : Prop where
  modifier : layer.modifier = ref.modifier
  layout : ∃ layout, keyboard.layouts[layer.layout]? = some layout ∧ layout.name = ref.name

inductive TargetDenotes (keyboard : Keyboard) : String → Target → Prop
  | external : TargetDenotes keyboard externalName .external
  | state {index : Nat} {state : State} (hs : keyboard.states[index]? = some state)
      (hn : state.name ≠ externalName) : TargetDenotes keyboard state.name (.state index)

/-- The key does in the keyboard what the declaration says, under the same label. -/
inductive MetaDecl.Denotes (keyboard : Keyboard) : String × MetaDecl → MetaKey → Prop
  | dead {label : String} {refs : List LayerRef} {layers : List Layer}
      (h : List.Forall₂ (LayerRef.Denotes keyboard) refs layers) :
      Denotes keyboard (label, .dead refs) (.dead label layers)
  | state {label name : String} {target : Target} (h : TargetDenotes keyboard name target) :
      Denotes keyboard (label, .state name) (.switch label target false)
  | deadLatch {label name : String} {index : Nat}
      (h : TargetDenotes keyboard name (.state index)) :
      Denotes keyboard (label, .deadLatch name) (.switch label (.state index) true)

end KeyGrid.Source
