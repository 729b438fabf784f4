import KeyGrid.Proofs.Arranged
import KeyGrid.Source.Reader

/-!
# Declarations of a text

Whatever is declared stands in the text on the line that is remembered with it: every name,
code and slot word is written there, and the lines of rows and entries follow each other.
The same is said of a declaration that is complete only up to some token.
-/

namespace KeyGrid.Source

/-! ### Declarations -/

structure NameFound (text : List Char) (line : Nat) (name : String) : Prop where
  isName : IsName name
  stands : Stands text line name.toList

structure CellDecl.Found (text : List Char) (line : Nat) (decl : CellDecl) : Prop where
  line_eq : decl.line = line
  hasLine : HasLine text line
  proper : decl.cell.Proper
  stands : ∀ name, decl.cell = .code name → Stands text line name.toList

structure LayerRef.Found (text : List Char) (line : Nat) (ref : LayerRef) : Prop where
  line_eq : ref.line = line
  proper : ref.Proper
  stands : Stands text line ref.name.toList

def MetaDecl.Found (text : List Char) (line : Nat) : MetaDecl → Prop
  | .dead refs => ∀ ref ∈ refs, ref.Found text line
  | .state target | .deadLatch target => NameFound text line target

structure SlotFound (text : List Char) (line : Nat) (digits label : String) : Prop where
  isDigits : Decimal.isDigits digits.toList
  quotable : Quotable label
  stands : Stands text line ('S' :: digits.toList)

def Entry.Found (text : List Char) : Entry → Prop
  | .layers _ refs line => ∀ ref ∈ refs, ref.Found text line
  | .slot digits label change line => SlotFound text line digits label ∧ change.Found text line

/-- Cells of one row. -/
structure RowFound (text : List Char) (grid : Grid) (line : Nat) (cells : List CellDecl) :
    Prop where
  width : cells.length ≤ grid.cols
  found : ∀ written ∈ cells, written.Found text line

structure LayoutDecl.Found (text : List Char) (grid : Grid) (decl : LayoutDecl) : Prop where
  name : NameFound text decl.line decl.name
  height : 1 ≤ decl.rows.length ∧ decl.rows.length ≤ grid.rows
  rows : ∀ row cells, decl.rows[row]? = some cells →
    RowFound text grid (decl.line + 1 + row) cells

structure StateDecl.Found (text : List Char) (decl : StateDecl) : Prop where
  name : NameFound text decl.line decl.name
  entries : ∀ entry ∈ decl.entries, decl.line < entry.line ∧ entry.Found text
  increasing : decl.entries.Pairwise (·.line < ·.line)

/-- A declaration of a text behind others. -/
def Item.Found (text : List Char) (front : List Item) : Item → Prop
  | .size decl => decl.Allowed ∧ layouts front = []
  | .layout decl => ∃ grid, gridBehind? front = some grid ∧ decl.Found text grid
  | .state decl => decl.Found text

/-- All declarations stand above a line. -/
def Above (items : List Item) (line : Nat) : Prop := ∀ item ∈ items, item.line < line

def ItemsFound (text : List Char) (items : List Item) : Prop :=
  InTurn (fun front item => Above front item.line ∧ item.Found text front) items

theorem Above.mono {items : List Item} {line later : Nat} (h : Above items line)
    (hle : line ≤ later) : Above items later := by
  intro item hitem
  have hlt := h item hitem
  omega

theorem Above.concat {items : List Item} {item : Item} {line : Nat} (h : Above items item.line)
    (hline : item.line < line) : Above (items ++ [item]) line := by
  intro other hother
  rcases List.mem_append.mp hother with hother | hother
  · have hlt := h other hother
    omega
  · rw [List.mem_singleton.mp hother]
    exact hline

theorem refs_found {text : List Char} {entry : Entry} (h : entry.Found text) :
    ∀ ref ∈ entry.refs, ref.Found text entry.line := by
  cases entry with
  | layers swipe refs line => exact h
  | slot digits label change line =>
    cases change with
    | dead refs => exact h.2
    | state target => exact fun _ he => absurd he List.not_mem_nil
    | deadLatch target => exact fun _ he => absurd he List.not_mem_nil

theorem LayoutDecl.Found.row_of_mem {text : List Char} {grid : Grid} {decl : LayoutDecl}
    (h : decl.Found text grid) {cells : List CellDecl} (hcells : cells ∈ decl.rows) :
    cells.length ≤ grid.cols ∧ ∀ written ∈ cells, written.cell.Proper := by
  obtain ⟨row, hrow⟩ := List.mem_iff_getElem?.mp hcells
  have hfound := h.rows row cells hrow
  exact ⟨hfound.width, fun written hwritten => (hfound.found written hwritten).proper⟩

theorem LayoutDecl.Found.fits {text : List Char} {grid : Grid} {decl : LayoutDecl}
    (h : decl.Found text grid) : decl.Fits grid where
  name := h.name.isName
  height := h.height
  width := fun _ hcells => (LayoutDecl.Found.row_of_mem h hcells).1
  cells := fun _ hcells => (LayoutDecl.Found.row_of_mem h hcells).2

theorem LayoutDecl.Found.numbered {text : List Char} {grid : Grid} {decl : LayoutDecl}
    (h : decl.Found text grid) : decl.Numbered :=
  fun row cells hrow written hwritten => ((h.rows row cells hrow).found written hwritten).line_eq

theorem Entry.Found.proper {text : List Char} {entry : Entry} (h : entry.Found text) :
    entry.Proper := by
  cases entry with
  | layers swipe refs line => exact fun ref href => (h ref href).proper
  | slot digits label change line =>
    obtain ⟨hslot, hchange⟩ := h
    refine ⟨hslot.isDigits, hslot.quotable, ?_⟩
    cases change with
    | dead refs => exact fun ref href => (hchange ref href).proper
    | state target => exact hchange.1
    | deadLatch target => exact hchange.1

theorem StateDecl.Found.proper {text : List Char} {decl : StateDecl} (h : decl.Found text) :
    decl.Proper :=
  ⟨h.name.isName, fun entry hentry => (h.entries entry hentry).2.proper⟩

theorem StateDecl.Found.numbered {text : List Char} {decl : StateDecl} (h : decl.Found text) :
    decl.Numbered where
  below := fun entry hentry => (h.entries entry hentry).1
  increasing := h.increasing
  refs := fun entry hentry ref href =>
    (refs_found (h.entries entry hentry).2 ref href).line_eq

theorem Item.Found.arranged {text : List Char} {front : List Item} {item : Item}
    (h : item.Found text front) : item.Arranged front := by
  cases item with
  | size decl => exact h
  | layout decl =>
    obtain ⟨grid, hgrid, hdecl⟩ := h
    exact ⟨grid, hgrid, hdecl.fits⟩
  | state decl => exact StateDecl.Found.proper h

namespace ItemsFound

variable {text : List Char} {items : List Item} (h : ItemsFound text items)
include h

theorem item {item : Item} (hitem : item ∈ items) :
    ∃ front back, items = front ++ item :: back ∧ item.Found text front := by
  obtain ⟨front, back, heq⟩ := List.append_of_mem hitem
  exact ⟨front, back, heq, (h front item back heq).2⟩

theorem arranged : Arranged items := h.imp fun _ _ hitem => hitem.2.arranged

theorem increasing : items.Pairwise (·.line < ·.line) :=
  InTurn.pairwise (h.imp fun _ _ hitem => hitem.1)

theorem states_increasing : (states items).Pairwise (·.line < ·.line) := by
  apply h.increasing.filterMap
  intro first second hlt decl hfirst other hsecond
  cases first <;> cases hfirst
  cases second <;> cases hsecond
  exact hlt

theorem layout {decl : LayoutDecl} (hdecl : .layout decl ∈ items) :
    ∃ grid, decl.Found text grid := by
  obtain ⟨front, back, _, grid, _, hfound⟩ := h.item hdecl
  exact ⟨grid, hfound⟩

theorem state {decl : StateDecl} (hdecl : .state decl ∈ items) : decl.Found text := by
  obtain ⟨front, back, _, hfound⟩ := h.item hdecl
  exact hfound

/-- The size in force is one that has been declared. -/
theorem rows_pos {grid : Grid} (hg : gridBehind? items = some grid) : 1 ≤ grid.rows := by
  have hmem := List.mem_of_getLast? hg
  obtain ⟨item, hitem, hgrid⟩ := List.mem_filterMap.mp hmem
  obtain ⟨front, back, heq⟩ := List.append_of_mem hitem
  have hfound := (h front item back heq).2
  cases item with
  | size decl =>
    cases hgrid
    exact hfound.1.1.1
  | layout decl => cases hgrid
  | state decl => cases hgrid

end ItemsFound

/-! ### Layouts up to the current cell -/

structure LayoutDraft.Found (text : List Char) (draft : LayoutDraft) : Prop where
  name : NameFound text draft.line draft.name
  rows : ∀ row cells, draft.rows.reverse[row]? = some cells →
    RowFound text draft.grid (draft.line + 1 + row) cells
  current : RowFound text draft.grid (draft.line + 1 + draft.rows.length) draft.cells

namespace LayoutDraft

variable {text : List Char} {draft : LayoutDraft}

theorem Found.addCell (h : draft.Found text) {written : CellDecl}
    (hc : written.Found text (draft.line + 1 + draft.rows.length))
    (hlt : draft.cells.length < draft.grid.cols) : (draft.addCell written).Found text := by
  refine ⟨h.name, h.rows, ?_, ?_⟩
  · show (written :: draft.cells).length ≤ draft.grid.cols
    rw [List.length_cons]
    omega
  · intro other hother
    rcases List.mem_cons.mp hother with rfl | hother
    · exact hc
    · exact h.current.found other hother

/-- The current row is one more row of the layout. -/
theorem Found.endRow (h : draft.Found text) : draft.endRow.Found text := by
  refine ⟨h.name, ?_, Nat.zero_le _, fun _ he => absurd he List.not_mem_nil⟩
  intro row cells hrow
  have hrow : (draft.rows.reverse ++ [draft.cells.reverse])[row]? = some cells := by
    rw [← List.reverse_cons]
    exact hrow
  rw [List.getElem?_append, List.length_reverse] at hrow
  split at hrow
  · exact h.rows row cells hrow
  · rename_i hlast
    have hindex : row = draft.rows.length := by
      have hlt := (List.getElem?_eq_some_iff.mp hrow).1
      rw [List.length_singleton] at hlt
      omega
    rw [hindex, Nat.sub_self, List.getElem?_cons_zero] at hrow
    cases hrow
    rw [hindex]
    refine ⟨?_, ?_⟩
    · rw [List.length_reverse]
      exact h.current.width
    · intro written hwritten
      exact h.current.found written (List.mem_reverse.mp hwritten)

theorem Found.decl (h : draft.Found text)
    (hrows : 1 ≤ draft.rows.length ∧ draft.rows.length ≤ draft.grid.rows) :
    draft.decl.Found text draft.grid := by
  refine ⟨h.name, ?_, h.rows⟩
  show 1 ≤ draft.rows.reverse.length ∧ draft.rows.reverse.length ≤ draft.grid.rows
  rw [List.length_reverse]
  exact hrows

theorem found_start {grid : Grid} {name : String} {line : Nat}
    (h : NameFound text line name) : (start grid name line).Found text := by
  refine ⟨h, ?_, Nat.zero_le _, fun _ he => absurd he List.not_mem_nil⟩
  intro row cells hrow
  cases hrow

end LayoutDraft

/-! ### States up to the current entry -/

/-- The entries stand above a line. -/
structure StateDraft.Found (text : List Char) (line : Nat) (draft : StateDraft) : Prop where
  name : NameFound text draft.line draft.name
  line_lt : draft.line < line
  entries : ∀ entry ∈ draft.entries,
    (draft.line < entry.line ∧ entry.line < line) ∧ entry.Found text
  increasing : draft.entries.reverse.Pairwise (·.line < ·.line)

def ListUse.Found (text : List Char) (line : Nat) : ListUse → Prop
  | .swipe _ => True
  | .dead digits label => SlotFound text line digits label

structure ListDraft.Found (text : List Char) (line : Nat) (list : ListDraft) : Prop where
  line_eq : list.line = line
  use : list.use.Found text line
  layers : ∀ ref ∈ list.layers, ref.Found text line

structure SlotDraft.Found (text : List Char) (line : Nat) (slot : SlotDraft) : Prop where
  line_eq : slot.line = line
  slot : SlotFound text line slot.digits slot.label

namespace StateDraft.Found

variable {text : List Char} {line : Nat} {draft : StateDraft} (h : draft.Found text line)
include h

theorem mono {later : Nat} (hle : line ≤ later) : draft.Found text later := by
  have hline := h.line_lt
  refine ⟨h.name, by omega, ?_, h.increasing⟩
  intro entry hentry
  obtain ⟨⟨hlow, hhigh⟩, hfound⟩ := h.entries entry hentry
  exact ⟨⟨hlow, by omega⟩, hfound⟩

/-- An entry on the line that all others are above. -/
theorem add {entry : Entry} (he : entry.line = line) (hf : entry.Found text) :
    (draft.add entry).Found text (line + 1) := by
  have hline := h.line_lt
  refine ⟨h.name, ?_, ?_, ?_⟩
  · show draft.line < line + 1
    omega
  · intro other hother
    rcases List.mem_cons.mp hother with rfl | hother
    · refine ⟨?_, hf⟩
      show draft.line < other.line ∧ other.line < line + 1
      omega
    · obtain ⟨⟨hlow, hhigh⟩, hfound⟩ := h.entries other hother
      refine ⟨?_, hfound⟩
      show draft.line < other.line ∧ other.line < line + 1
      omega
  · show (entry :: draft.entries).reverse.Pairwise _
    rw [List.reverse_cons, List.pairwise_append]
    refine ⟨h.increasing, List.pairwise_singleton _ entry, ?_⟩
    intro other hother last hlast
    rw [List.mem_singleton.mp hlast, he]
    exact (h.entries other (List.mem_reverse.mp hother)).1.2

theorem decl : draft.decl.Found text := by
  refine ⟨h.name, ?_, h.increasing⟩
  intro entry hentry
  obtain ⟨⟨hlow, _⟩, hfound⟩ := h.entries entry (List.mem_reverse.mp hentry)
  exact ⟨hlow, hfound⟩

end StateDraft.Found

theorem StateDraft.found_start {text : List Char} {line : Nat} {name : String}
    (h : NameFound text line name) : (start name line).Found text (line + 1) :=
  ⟨h, Nat.lt_succ_self line, fun _ he => absurd he List.not_mem_nil, .nil⟩

theorem ListDraft.Found.add {text : List Char} {line : Nat} {list : ListDraft}
    (h : list.Found text line) {ref : LayerRef} (hr : ref.Found text line) :
    (list.add ref).Found text line := by
  refine ⟨h.line_eq, h.use, ?_⟩
  intro other hother
  rcases List.mem_cons.mp hother with rfl | hother
  · exact hr
  · exact h.layers other hother

theorem ListDraft.Found.entry {text : List Char} {line : Nat} {list : ListDraft}
    (h : list.Found text line) : list.entry.line = line ∧ list.entry.Found text := by
  obtain ⟨use, head, layers⟩ := list
  obtain ⟨rfl, huse, hlayers⟩ := h
  have hrefs : ∀ ref ∈ layers.reverse, ref.Found text head :=
    fun ref hm => hlayers ref (List.mem_reverse.mp hm)
  cases use with
  | swipe swipe => exact ⟨rfl, hrefs⟩
  | dead digits label => exact ⟨rfl, huse, hrefs⟩

theorem SlotDraft.Found.entry {text : List Char} {line : Nat} {slot : SlotDraft}
    (h : slot.Found text line) {target : String} (ht : NameFound text line target)
    (latched : Bool) :
    (slot.entry target latched).line = line ∧ (slot.entry target latched).Found text := by
  obtain ⟨head, digits, label⟩ := slot
  obtain ⟨rfl, hslot⟩ := h
  cases latched with
  | true => exact ⟨rfl, hslot, ht⟩
  | false => exact ⟨rfl, hslot, ht⟩

end KeyGrid.Source
