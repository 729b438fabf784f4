import KeyGrid.Key.Basic

/-!
# Layouts

A named grid of cells, each with at most one key. The cells are kept row after
row; reading or writing outside the grid finds nothing and changes nothing. Positions
are counted without a limit here, and with the numbers of a machine in `Layout.Strict`.
A layout can have fewer cells than positions, if a machine has no number for all of
them; a full one has a cell for each.
-/

namespace KeyGrid

/-- A grid of `rows` rows and `cols` columns whose cells may hold a key. -/
structure Layout where
  name : String
  rows : Nat
  cols : Nat
  cells : Array (Option Key)
  size_le : cells.size ≤ rows * cols
deriving DecidableEq

namespace Layout

/-- A layout without any key. -/
def blank (name : String) (rows cols : Nat) : Layout where
  name := name
  rows := rows
  cols := cols
  cells := Array.replicate (rows * cols) none
  size_le := Nat.le_of_eq Array.size_replicate

/-- Every position inside the grid has its cell. -/
def Full (layout : Layout) : Prop := layout.cells.size = layout.rows * layout.cols

theorem full_blank (name : String) (rows cols : Nat) : (blank name rows cols).Full :=
  Array.size_replicate

/-- Where the cell at `row` and `col` is kept, if it lies inside the grid. -/
def index? (layout : Layout) (row col : Nat) : Option Nat :=
  if row < layout.rows ∧ col < layout.cols then some (row * layout.cols + col) else none

/-- The key at a position. -/
def get? (layout : Layout) (row col : Nat) : Option Key :=
  match layout.index? row col with
  | some index => layout.cells[index]?.join
  | none => none

/-- The layout with one cell changed, if that cell lies inside the grid. -/
def set? (layout : Layout) (row col : Nat) (key : Option Key) : Option Layout :=
  (layout.index? row col).map fun index =>
    { layout with
      cells := layout.cells.setIfInBounds index key
      size_le := by rw [Array.size_setIfInBounds]; exact layout.size_le }

/-- The keys that are present, row after row. -/
def keys (layout : Layout) : List Key := layout.cells.toList.filterMap id

/-! ### Reading after writing -/

theorem index_lt {rows cols row col : Nat} (hr : row < rows) (hc : col < cols) :
    row * cols + col < rows * cols := by
  calc row * cols + col < row * cols + cols := Nat.add_lt_add_left hc _
    _ = (row + 1) * cols := (Nat.succ_mul row cols).symm
    _ ≤ rows * cols := Nat.mul_le_mul_right cols hr

/-- No two positions inside the grid share a cell. -/
theorem index_inj {cols row col row' col' : Nat} (hc : col < cols) (hc' : col' < cols)
    (h : row * cols + col = row' * cols + col') : row = row' ∧ col = col' := by
  have hpos : 0 < cols := Nat.lt_of_le_of_lt (Nat.zero_le _) hc
  have hrow : row = row' := by
    have := congrArg (· / cols) h
    simpa [Nat.mul_comm _ cols, Nat.mul_add_div hpos, Nat.div_eq_of_lt hc,
      Nat.div_eq_of_lt hc'] using this
  subst hrow
  exact ⟨rfl, Nat.add_left_cancel h⟩

theorem isSome_set? (layout : Layout) (row col : Nat) (key : Option Key) :
    (layout.set? row col key).isSome ↔ row < layout.rows ∧ col < layout.cols := by
  simp [set?, index?]

/-- A cell that is written is read back, and no other cell changes. -/
theorem get?_set? {layout written : Layout} {row col : Nat} {key : Option Key}
    (hfull : layout.Full) (h : layout.set? row col key = some written) (row' col' : Nat) :
    written.get? row' col' =
      if row' = row ∧ col' = col then key else layout.get? row' col' := by
  simp only [set?, index?, Option.map_eq_some_iff, Option.ite_none_right_eq_some,
    Option.some.injEq] at h
  obtain ⟨index, ⟨⟨hr, hc⟩, rfl⟩, rfl⟩ := h
  simp only [get?, index?]
  by_cases hin : row' < layout.rows ∧ col' < layout.cols
  · simp only [if_pos hin, Array.getElem?_setIfInBounds]
    by_cases heq : row * layout.cols + col = row' * layout.cols + col'
    · have hsize : row' * layout.cols + col' < layout.cells.size :=
        hfull ▸ index_lt hin.1 hin.2
      obtain ⟨rfl, rfl⟩ := index_inj hc hin.2 heq
      simp [hsize]
    · have hne : ¬(row' = row ∧ col' = col) := by
        rintro ⟨rfl, rfl⟩
        exact heq rfl
      simp [heq, hne]
  · have hne : ¬(row' = row ∧ col' = col) := by
      rintro ⟨rfl, rfl⟩
      exact hin ⟨hr, hc⟩
    simp [hin, hne]

theorem get?_blank (name : String) (rows cols row col : Nat) :
    (blank name rows cols).get? row col = none := by
  simp only [get?, index?, blank]
  split
  · rename_i index _
    by_cases h : index < rows * cols <;> simp [h]
  · rfl

end Layout
end KeyGrid
