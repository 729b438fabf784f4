import KeyGrid.Proofs.Accepted

/-!
# Reading with a token in hand

The other way to read a layout file: one function for each declaration and each part of one,
which call each other as the parts stand in each other, with one token in hand at any time.
Whether digits are numbers or keys is a mode, which is in force for the next token that is
taken. It is switched behind the head of a layout, before the first token of its rows is taken,
and at the closing brace, before the token behind it is.
-/

namespace KeyGrid.Source

/-! ### The token in hand -/

/-- The token in hand and what lies behind it. -/
structure Lookahead where
  current : Located Token
  rest : List (Located Lexeme)
  /-- The line of the end of the file. -/
  last : Nat
  /-- How the next lexeme is to be understood. -/
  mode : Place
  /-- The lexemes taken so far, each with the mode it was understood in. -/
  taken : List (Located Lexeme × Place)

namespace Lookahead

/-- The next token is taken. Behind the last lexeme it is the end of the file, ever again. -/
def advance (look : Lookahead) : Lookahead :=
  match look.rest with
  | [] => { look with current := ⟨look.last, .fileEnd⟩ }
  | lexeme :: rest =>
    { look with
      current := ⟨lexeme.line, .ofLexeme look.mode lexeme.item⟩
      rest
      taken := look.taken ++ [(lexeme, look.mode)] }

def setMode (look : Lookahead) (mode : Place) : Lookahead := { look with mode }

/-- The first token of a text is in hand. -/
def start (text : String) : Lookahead :=
  let scanner := scan text.toList
  advance ⟨⟨scanner.line, .fileEnd⟩, scanner.lexemes, scanner.line, .directive, []⟩

/-- The number of tokens up to the end of the file. -/
def left (look : Lookahead) : Nat :=
  look.rest.length + if look.current.item = .fileEnd then 0 else 1

theorem left_advance (look : Lookahead) : look.advance.left = look.rest.length := by
  obtain ⟨current, rest, last, mode, taken⟩ := look
  cases rest with
  | nil => rfl
  | cons lexeme rest => simp [advance, left, ofLexeme_ne_fileEnd]

theorem left_advance_le (look : Lookahead) : look.advance.left ≤ look.left := by
  rw [left_advance]
  exact Nat.le_add_right _ _

theorem left_advance_lt {look : Lookahead} (h : look.current.item ≠ .fileEnd) :
    look.advance.left < look.left := by
  rw [left_advance, left, if_neg h]
  exact Nat.lt_succ_self _

end Lookahead

/-! ### Parts of a file -/

/-- What reading a part of a file has come to. No more is left of the file than before. -/
inductive Outcome (look : Lookahead) (α : Type) where
  | ok (value : α) (after : Lookahead) (h : after.left ≤ look.left)
  | error (e : LoadError) (after : Lookahead)

namespace Outcome

variable {look before : Lookahead} {α : Type}

def result : Outcome look α → Except LoadError α
  | .ok value _ _ => .ok value
  | .error e _ => .error e

/-- Where reading has ended. -/
def after : Outcome look α → Lookahead
  | .ok _ after _ => after
  | .error _ after => after

/-- The same, for a part that begins further in front. -/
def since (h : look.left ≤ before.left) : Outcome look α → Outcome before α
  | .ok value after hafter => .ok value after (Nat.le_trans hafter h)
  | .error e after => .error e after

end Outcome

/-- A function that reads a part of a file. -/
def Parse (α : Type) : Type := (look : Lookahead) → Outcome look α

instance : Monad Parse where
  pure value look := .ok value look (Nat.le_refl _)
  bind parse next look :=
    match parse look with
    | .ok value after h => (next value after).since h
    | .error e after => .error e after

namespace Parse

def advance : Parse Unit := fun look => .ok () look.advance look.left_advance_le

def setMode (mode : Place) : Parse Unit := fun look =>
  .ok () (look.setMode mode) (Nat.le_refl _)

def token : Parse Token := fun look => .ok look.current.item look (Nat.le_refl _)

/-- The line of the token in hand. -/
def line : Parse Nat := fun look => .ok look.current.line look (Nat.le_refl _)

def refuse {α : Type} (e : LoadError) : Parse α := fun look => .error e look

def fail {α : Type} (fault : Fault) : Parse α := fun look =>
  .error (.parse look.current.line fault) look

/-- The end of a line, which stays in hand. -/
def lineEnd : Parse Unit := do
  let found ← token
  if found.endsLine then pure () else fail (.expected .lineEnd found)

def symbol (c : Char) : Parse Unit := do
  let found ← token
  if found = .symbol c then advance else fail (.expected (.symbol c) found)

def word (what : Expected) : Parse String := do
  let found ← token
  match wordOf what found with
  | .ok text =>
    advance
    return text
  | .error fault => fail fault

/-! #### Sizes -/

def dimension (dimension : Dimension) : Parse Nat := do
  let found ← token
  match dimensionOf dimension found with
  | .ok value =>
    advance
    return value
  | .error fault =>
    let line ← line
    refuse (.invalidSize line fault)

/-- A size behind its first word. -/
def size (head : Nat) (hasLayout : Bool) : Parse SizeDecl := do
  if hasLayout then refuse (.invalidSize head .afterLayout)
  else
    let rows ← dimension .rows
    let cols ← dimension .columns
    return ⟨⟨rows, cols⟩, head⟩

/-! #### Layouts -/

/-- The cells of a row, and whether the row ends the layout. A line end behind them is taken, a
closing brace stays in hand. -/
def cells (draft : LayoutDraft) (look : Lookahead) : Outcome look (LayoutDraft × Bool) :=
  if look.current.item = .lineEnd then .ok (draft, false) look.advance look.left_advance_le
  else if _ : look.current.item = .fileEnd then
    fail (.unexpectedInside .fileEnd .layout draft.name) look
  else if look.current.item = .symbol '\x7d' then .ok (draft, true) look (Nat.le_refl _)
  else if draft.cells.length = draft.grid.cols then
    fail (.tooManyKeys (draft.rows.length + 1) draft.name draft.grid.cols) look
  else
    match cellOf look.current.item with
    | .ok cell =>
      (cells (draft.addCell ⟨cell, look.current.line⟩) look.advance).since look.left_advance_le
    | .error fault => fail fault look
termination_by look.left
decreasing_by exact Lookahead.left_advance_lt ‹_›

/-- As many rows as are wanted, or fewer if one of them ends the layout. -/
def rows : Nat → LayoutDraft → Parse (LayoutDraft × Bool)
  | 0, draft => return (draft, false)
  | wanted + 1, draft => do
    let (draft, closed) ← cells draft
    if closed then return (draft.endRow, true) else rows wanted draft.endRow

def emptyLines (look : Lookahead) : Outcome look Unit :=
  if _ : look.current.item = .lineEnd then
    (emptyLines look.advance).since look.left_advance_le
  else .ok () look (Nat.le_refl _)
termination_by look.left
decreasing_by exact Lookahead.left_advance_lt (by simp [*])

/-- The closing brace of a layout, which stays in hand. If no row has ended the layout, it has
all its rows. -/
def closing (closed : Bool) (draft : LayoutDraft) : Parse Unit :=
  if closed then pure ()
  else do
    emptyLines
    let found ← token
    if found = .symbol '\x7d' then pure ()
    else fail (.expected (.closingBrace draft.grid.rows draft.name) found)

/-- A layout behind its first word. -/
def layout (head : Nat) (grid : Grid) : Parse LayoutDecl := do
  let name ← word .layoutName
  symbol '\x7b'
  lineEnd
  setMode .row
  advance
  let (draft, closed) ← rows grid.rows (.start grid name head)
  closing closed draft
  setMode .directive
  advance
  return draft.decl

/-! #### States -/

/-- The name of a layout behind a modifier. -/
def modified : Parse String := do
  symbol ':'
  word .layoutName

/-- The rest of a list of layers, up to the first token that is no word. -/
def layers (list : List LayerRef) (look : Lookahead) : Outcome look (List LayerRef) :=
  match _ : look.current.item with
  | .word text =>
    match Modifier.ofWord? text with
    | none =>
      (layers (⟨.plain, text, look.current.line⟩ :: list) look.advance).since
        look.left_advance_le
    | some modifier =>
      match modified look.advance with
      | .ok name after hafter =>
        (layers (⟨modifier, name, look.current.line⟩ :: list) after).since
          (Nat.le_trans hafter look.left_advance_le)
      | .error e after => .error e after
  | _ => .ok list.reverse look (Nat.le_refl _)
termination_by look.left
decreasing_by
  · exact Lookahead.left_advance_lt (by simp [*])
  · exact Nat.lt_of_le_of_lt hafter (Lookahead.left_advance_lt (by simp [*]))

def label : Parse String := do
  let found ← token
  match labelOf found with
  | .ok label =>
    advance
    return label
  | .error fault => fail fault

/-- What the key in a slot does; its entry stands on the given line. -/
def change (head : Nat) : Parse MetaDecl := do
  let kind ← word .metaKind
  match kind with
  | "dead" => return .dead (← layers [])
  | "state" => return .state (← word .targetState)
  | "deadlatch" => return .deadLatch (← word .targetState)
  | other => refuse (.parse head (.unknownMetaKind other))

/-- An entry behind its first word. -/
def entry (head : Nat) (keyword : String) : Parse Entry :=
  match Swipe.ofKeyword? keyword with
  | some swipe => do
    return .layers swipe (← layers []) head
  | none =>
    match slotDigits? keyword with
    | none => refuse (.parse head (.unknownEntry keyword))
    | some digits => do
      let label ← label
      let change ← change head
      return .slot digits label change head

/-- The end of the line of an entry or of the state, which stays in hand. -/
def entryEnd : Parse Unit := do
  let found ← token
  if found = .symbol '\x7d' then pure () else lineEnd

def entryLine (head : Nat) (keyword : String) : Parse Entry := do
  let entry ← entry head keyword
  entryEnd
  return entry

/-- The rest of a state. -/
def entries (draft : StateDraft) (look : Lookahead) : Outcome look StateDecl :=
  match _ : look.current.item with
  | .lineEnd => (entries draft look.advance).since look.left_advance_le
  | .word keyword =>
    match entryLine look.current.line keyword look.advance with
    | .ok entry after hafter =>
      (entries (draft.add entry) after).since (Nat.le_trans hafter look.left_advance_le)
    | .error e after => .error e after
  | found =>
    if found = .symbol '\x7d' then .ok draft.decl look.advance look.left_advance_le
    else fail (.unexpectedInside found .state draft.name) look
termination_by look.left
decreasing_by
  · exact Lookahead.left_advance_lt (by simp [*])
  · exact Nat.lt_of_le_of_lt hafter (Lookahead.left_advance_lt (by simp [*]))

/-- A state behind its first word. -/
def state (head : Nat) : Parse StateDecl := do
  let name ← word .stateName
  symbol '\x7b'
  lineEnd
  advance
  entries (.start name head)

/-! #### Files -/

/-- What stands behind the first word of a declaration. -/
def behind (head : Nat) (grid? : Option Grid) (hasLayout : Bool) :
    String → Except LoadError (Parse Item)
  | "size" => .ok (.size <$> size head hasLayout)
  | "layout" =>
    match grid? with
    | none => .error (.missingSize head)
    | some grid => .ok (.layout <$> layout head grid)
  | "state" => .ok (.state <$> state head)
  | other => .error (.parse head (.unknownDirective other))

def itemLine (item : Parse Item) : Parse Item := do
  let item ← item
  lineEnd
  return item

/-- The rest of a file, behind some declarations, the last one first. -/
def items (grid? : Option Grid) (hasLayout : Bool) (list : List Item) (look : Lookahead) :
    Outcome look (List Item) :=
  match _ : look.current.item with
  | .lineEnd => (items grid? hasLayout list look.advance).since look.left_advance_le
  | .fileEnd => .ok list.reverse look (Nat.le_refl _)
  | .word text =>
    match behind look.current.line grid? hasLayout text with
    | .error e => .error e look
    | .ok item =>
      match itemLine item look.advance with
      | .ok item after hafter =>
        (items (item.grid?.or grid?) (item.layout?.isSome || hasLayout) (item :: list)
          after).since (Nat.le_trans hafter look.left_advance_le)
      | .error e after => .error e after
  | found => fail (.unexpected found) look
termination_by look.left
decreasing_by
  · exact Lookahead.left_advance_lt (by simp [*])
  · exact Nat.lt_of_le_of_lt hafter (Lookahead.left_advance_lt (by simp [*]))

end Parse

/-- The declarations of a text, read with a token in hand. -/
def parse (text : String) : Outcome (.start text) (List Item) := Parse.items none false [] _

end KeyGrid.Source
