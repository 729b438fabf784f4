import KeyGrid.LoadError

/-!
# Reading declarations

A layout file is read one token at a time. A reader keeps the declarations that are
complete and its position inside the one that is not; a token either moves it on or
shows a fault, so that a fault never depends on anything behind it. The position
also tells whether digits are numbers or keys: they are keys from the first row of
a layout up to its closing brace.
-/

namespace KeyGrid.Source

/-! ### Positions -/

/-- A layout up to the current cell; rows and cells in reverse order. -/
structure LayoutDraft where
  grid : Grid
  name : String
  line : Nat
  rows : List (List CellDecl)
  cells : List CellDecl
deriving DecidableEq

/-- A state up to the current entry; entries in reverse order. -/
structure StateDraft where
  name : String
  line : Nat
  entries : List Entry
deriving DecidableEq

/-- What a layer list is read for. -/
inductive ListUse where
  | swipe (swipe : Swipe)
  | dead (digits label : String)
deriving DecidableEq

/-- A layer list up to the current layer; layers in reverse order. -/
structure ListDraft where
  use : ListUse
  line : Nat
  layers : List LayerRef
deriving DecidableEq

/-- The slot entry being read: its line, its digits and its label. -/
structure SlotDraft where
  line : Nat
  digits : String
  label : String
deriving DecidableEq

/-- Where a reader stands: what the next token has to be. -/
inductive Position where
  /-- Between declarations. -/
  | top
  /-- Behind a declaration, on the same line. -/
  | afterItem
  | sizeRows (line : Nat)
  | sizeCols (line rows : Nat)
  | layoutName (grid : Grid) (line : Nat)
  | layoutBrace (draft : LayoutDraft)
  | layoutHeadEnd (draft : LayoutDraft)
  /-- In a row of keys. -/
  | row (draft : LayoutDraft)
  /-- Behind the last row a layout can have. -/
  | afterRows (draft : LayoutDraft)
  | stateName (line : Nat)
  | stateBrace (draft : StateDraft)
  | stateHeadEnd (draft : StateDraft)
  /-- Between the entries of a state. -/
  | entries (draft : StateDraft)
  /-- Behind an entry, on the same line. -/
  | afterEntry (draft : StateDraft)
  | layers (draft : StateDraft) (list : ListDraft)
  | layerColon (draft : StateDraft) (list : ListDraft) (modifier : Modifier) (line : Nat)
  | layerName (draft : StateDraft) (list : ListDraft) (modifier : Modifier) (line : Nat)
  | metaLabel (draft : StateDraft) (line : Nat) (digits : String)
  | metaKind (draft : StateDraft) (slot : SlotDraft)
  | metaTarget (draft : StateDraft) (slot : SlotDraft) (latched : Bool)
deriving DecidableEq

/-- How the next word is understood. -/
def Position.place : Position → Place
  | .row _ | .afterRows _ => .row
  | _ => .directive

/-- The complete declarations, the last one first, and where to go on. -/
structure Reader where
  items : List Item
  position : Position
deriving DecidableEq

namespace LayoutDraft

def start (grid : Grid) (name : String) (line : Nat) : LayoutDraft := ⟨grid, name, line, [], []⟩

/-- The draft with a cell added to its current row. -/
def addCell (draft : LayoutDraft) (cell : CellDecl) : LayoutDraft :=
  { draft with cells := cell :: draft.cells }

/-- The draft with its current row complete. -/
def endRow (draft : LayoutDraft) : LayoutDraft :=
  { draft with rows := draft.cells.reverse :: draft.rows, cells := [] }

/-- The declaration made up of the complete rows. -/
def decl (draft : LayoutDraft) : LayoutDecl := ⟨draft.name, draft.line, draft.rows.reverse⟩

end LayoutDraft

namespace StateDraft

def start (name : String) (line : Nat) : StateDraft := ⟨name, line, []⟩

def add (draft : StateDraft) (entry : Entry) : StateDraft :=
  { draft with entries := entry :: draft.entries }

def decl (draft : StateDraft) : StateDecl := ⟨draft.name, draft.line, draft.entries.reverse⟩

end StateDraft

namespace ListDraft

def add (list : ListDraft) (layer : LayerRef) : ListDraft :=
  { list with layers := layer :: list.layers }

/-- The entry that a complete list makes up. -/
def entry (list : ListDraft) : Entry :=
  match list.use with
  | .swipe swipe => .layers swipe list.layers.reverse list.line
  | .dead digits label => .slot digits label (.dead list.layers.reverse) list.line

end ListDraft

/-- The entry of a slot whose key leads to a state. -/
def SlotDraft.entry (slot : SlotDraft) (target : String) (latched : Bool) : Entry :=
  .slot slot.digits slot.label (if latched then .deadLatch target else .state target) slot.line

/-! ### Tokens one by one -/

/-- The key that a token of a row stands for. -/
def cellOf : Token → Except Fault Cell
  | .symbol '*' => .ok .absent
  | .symbol c => .ok (.text (String.singleton c))
  | .quoted text => if text.isEmpty then .error .emptyKeyText else .ok (.text text)
  | .word text => .ok (if text.length = 1 then .text text else .code text)
  | other => .error (.noKey other)

/-- The number of rows or columns that a token gives. -/
def dimensionOf (dimension : Dimension) : Token → Except SizeFault Nat
  | .number (.finite value) =>
    if 1 ≤ value ∧ value ≤ maxDimension then .ok value
    else .error (.outOfRange dimension (.finite value))
  | .number .infinite => .error (.outOfRange dimension .infinite)
  | other => .error (.noNumber dimension other)

/-- The label that a token gives to a slot. -/
def labelOf : Token → Except Fault String
  | .word text | .quoted text => .ok text
  | .number value => .ok value.text
  | .symbol c =>
    if c = '\x7d' then .error (.expected .metaLabel (.symbol c)) else .ok (String.singleton c)
  | other => .error (.expected .metaLabel other)

/-- The word that is needed at some point. -/
def wordOf (what : Expected) : Token → Except Fault String
  | .word text => .ok text
  | other => .error (.expected what other)

namespace Reader

/-- Before the first token. -/
def start : Reader := ⟨[], .top⟩

def goTo (reader : Reader) (position : Position) : Reader := { reader with position := position }

/-- The reader behind a complete declaration. -/
def add (reader : Reader) (item : Item) : Reader := ⟨item :: reader.items, .afterItem⟩

/-- The size in force: the last one declared. -/
def grid? (reader : Reader) : Option Grid := reader.items.findSome? Item.grid?

/-- Whether a layout has been declared. -/
def hasLayout (reader : Reader) : Bool := reader.items.any (·.layout?.isSome)

/-- Where a declaration begins. -/
def readTop (reader : Reader) (line : Nat) : Token → Except LoadError Reader
  | .lineEnd | .fileEnd => .ok reader
  | .word "size" =>
    if reader.hasLayout then .error (.invalidSize line .afterLayout)
    else .ok (reader.goTo (.sizeRows line))
  | .word "layout" =>
    match reader.grid? with
    | none => .error (.missingSize line)
    | some grid => .ok (reader.goTo (.layoutName grid line))
  | .word "state" => .ok (reader.goTo (.stateName line))
  | .word other => .error (.parse line (.unknownDirective other))
  | other => .error (.parse line (.unexpected other))

/-- The end of a line, which a declaration needs at some point. -/
def readLineEnd (reader : Reader) (position : Position) (line : Nat) (token : Token) :
    Except LoadError Reader :=
  if token.endsLine then .ok (reader.goTo position)
  else .error (.parse line (.expected .lineEnd token))

/-- A symbol, which a declaration needs at some point. -/
def readSymbol (reader : Reader) (c : Char) (position : Position) (line : Nat) (token : Token) :
    Except LoadError Reader :=
  if token = .symbol c then .ok (reader.goTo position)
  else .error (.parse line (.expected (.symbol c) token))

/-- A word, which a declaration needs at some point. -/
def readWord (reader : Reader) (what : Expected) (position : String → Position) (line : Nat)
    (token : Token) : Except LoadError Reader :=
  match wordOf what token with
  | .ok text => .ok (reader.goTo (position text))
  | .error fault => .error (.parse line fault)

/-- A token of a row. A brace ends the layout together with the row it stands on. -/
def readRow (reader : Reader) (draft : LayoutDraft) (line : Nat) (token : Token) :
    Except LoadError Reader :=
  match token with
  | .lineEnd =>
    let draft := draft.endRow
    .ok (reader.goTo (if draft.rows.length = draft.grid.rows then .afterRows draft
      else .row draft))
  | .fileEnd => .error (.parse line (.unexpectedInside .fileEnd .layout draft.name))
  | token =>
    if token = .symbol '\x7d' then .ok (reader.add (.layout draft.endRow.decl))
    else if draft.cells.length = draft.grid.cols then
      .error (.parse line (.tooManyKeys (draft.rows.length + 1) draft.name draft.grid.cols))
    else
      match cellOf token with
      | .ok cell => .ok (reader.goTo (.row (draft.addCell ⟨cell, line⟩)))
      | .error fault => .error (.parse line fault)

/-- A token behind the last row a layout can have. -/
def readAfterRows (reader : Reader) (draft : LayoutDraft) (line : Nat) (token : Token) :
    Except LoadError Reader :=
  match token with
  | .lineEnd => .ok reader
  | token =>
    if token = .symbol '\x7d' then .ok (reader.add (.layout draft.decl))
    else .error (.parse line (.expected (.closingBrace draft.grid.rows draft.name) token))

/-- A token between the entries of a state. -/
def readEntries (reader : Reader) (draft : StateDraft) (line : Nat) (token : Token) :
    Except LoadError Reader :=
  match token with
  | .lineEnd => .ok (reader.goTo (.entries draft))
  | .word word =>
    match Swipe.ofKeyword? word with
    | some swipe => .ok (reader.goTo (.layers draft ⟨.swipe swipe, line, []⟩))
    | none =>
      match slotDigits? word with
      | some digits => .ok (reader.goTo (.metaLabel draft line digits))
      | none => .error (.parse line (.unknownEntry word))
  | token =>
    if token = .symbol '\x7d' then .ok (reader.add (.state draft.decl))
    else .error (.parse line (.unexpectedInside token .state draft.name))

/-- A token behind a complete entry: the end of the line or of the state. -/
def readAfterEntry (reader : Reader) (draft : StateDraft) (line : Nat) (token : Token) :
    Except LoadError Reader :=
  if token.endsLine ∨ token = .symbol '\x7d' then reader.readEntries draft line token
  else .error (.parse line (.expected .lineEnd token))

/-- A token of a layer list; the first one that is no word ends the list. -/
def readLayers (reader : Reader) (draft : StateDraft) (list : ListDraft) (line : Nat)
    (token : Token) : Except LoadError Reader :=
  match token with
  | .word word =>
    match Modifier.ofWord? word with
    | some modifier => .ok (reader.goTo (.layerColon draft list modifier line))
    | none => .ok (reader.goTo (.layers draft (list.add ⟨.plain, word, line⟩)))
  | token => reader.readAfterEntry (draft.add list.entry) line token

/-- The word that says what the key in a slot does. -/
def readMetaKind (reader : Reader) (draft : StateDraft) (slot : SlotDraft) (line : Nat)
    (token : Token) : Except LoadError Reader :=
  match token with
  | .word "dead" =>
    .ok (reader.goTo (.layers draft ⟨.dead slot.digits slot.label, slot.line, []⟩))
  | .word "state" => .ok (reader.goTo (.metaTarget draft slot false))
  | .word "deadlatch" => .ok (reader.goTo (.metaTarget draft slot true))
  | .word other => .error (.parse slot.line (.unknownMetaKind other))
  | token => .error (.parse line (.expected .metaKind token))

/-- The number of rows or columns of a size. -/
def readDimension (dimension : Dimension) (next : Nat → Reader) (line : Nat) (token : Token) :
    Except LoadError Reader :=
  match dimensionOf dimension token with
  | .ok value => .ok (next value)
  | .error fault => .error (.invalidSize line fault)

/-- One token on a line. -/
def step (reader : Reader) (line : Nat) (token : Token) : Except LoadError Reader :=
  match reader.position with
  | .top => reader.readTop line token
  | .afterItem => reader.readLineEnd .top line token
  | .sizeRows head =>
    readDimension .rows (fun rows => reader.goTo (.sizeCols head rows)) line token
  | .sizeCols head rows =>
    readDimension .columns (fun cols => reader.add (.size ⟨⟨rows, cols⟩, head⟩)) line token
  | .layoutName grid head =>
    reader.readWord .layoutName (fun name => .layoutBrace (.start grid name head)) line token
  | .layoutBrace draft => reader.readSymbol '\x7b' (.layoutHeadEnd draft) line token
  | .layoutHeadEnd draft =>
    if token = .fileEnd then reader.readRow draft line token
    else reader.readLineEnd (.row draft) line token
  | .row draft => reader.readRow draft line token
  | .afterRows draft => reader.readAfterRows draft line token
  | .stateName head =>
    reader.readWord .stateName (fun name => .stateBrace (.start name head)) line token
  | .stateBrace draft => reader.readSymbol '\x7b' (.stateHeadEnd draft) line token
  | .stateHeadEnd draft =>
    if token = .fileEnd then reader.readEntries draft line token
    else reader.readLineEnd (.entries draft) line token
  | .entries draft => reader.readEntries draft line token
  | .afterEntry draft => reader.readAfterEntry draft line token
  | .layers draft list => reader.readLayers draft list line token
  | .layerColon draft list modifier head =>
    reader.readSymbol ':' (.layerName draft list modifier head) line token
  | .layerName draft list modifier head =>
    reader.readWord .layoutName
      (fun name => .layers draft (list.add ⟨modifier, name, head⟩)) line token
  | .metaLabel draft head digits =>
    match labelOf token with
    | .ok label => .ok (reader.goTo (.metaKind draft ⟨head, digits, label⟩))
    | .error fault => .error (.parse line fault)
  | .metaKind draft slot => reader.readMetaKind draft slot line token
  | .metaTarget draft slot latched =>
    reader.readWord .targetState
      (fun target => .afterEntry (draft.add (slot.entry target latched))) line token

/-- One lexeme, understood as its place demands. -/
def read (reader : Reader) (lexeme : Located Lexeme) : Except LoadError Reader :=
  reader.step lexeme.line (.ofLexeme reader.position.place lexeme.item)

end Reader

/-! ### Whole texts -/

/-- The reader after all lexemes of a text, before the end of the file. -/
def readLexemes (lexemes : List (Located Lexeme)) : Except LoadError Reader :=
  lexemes.foldlM Reader.read .start

/-- The declarations of a text, in order. -/
def declarations (text : String) : Except LoadError (List Item) := do
  let scanner := scan text.toList
  let reader ← readLexemes scanner.lexemes
  let reader ← reader.step scanner.line .fileEnd
  return reader.items.reverse

end KeyGrid.Source
