import KeyGrid.Layout

/-!
# Layouts in a machine

A machine reckons with numbers of 64 bits, which start again from zero behind the last one. It
sets aside as many cells for a layout as it finds positions, and it stops where a cell does not
exist that it looks for. As long as there is a number for every position nothing of this is
ever seen.
-/

namespace KeyGrid

/-- What stops a program. -/
inductive Trap where
  | layout (index : Nat)
  | state (index : Nat)
  | cell (index : Nat)
  | noByte
  | underflow (byte : UInt8)
deriving DecidableEq

namespace Layout

/-- A layout without any key, with the cells that a machine sets aside for it. -/
def allocate (name : String) (rows cols : Nat) : Layout where
  name := name
  rows := rows
  cols := cols
  cells := Array.replicate (rows * cols % UInt64.size) none
  size_le := by
    rw [Array.size_replicate]
    exact Nat.mod_le _ _

/-- The number that a machine finds for a position. -/
def address (layout : Layout) (row col : Nat) : Nat :=
  (row * layout.cols + col) % UInt64.size

/-- The key at a position. -/
def strictGet (layout : Layout) (row col : Nat) : Except Trap (Option Key) :=
  if layout.rows ≤ row ∨ layout.cols ≤ col then .ok none
  else
    match layout.cells[layout.address row col]? with
    | some key => .ok key
    | none => .error (.cell (layout.address row col))

/-- The layout with one cell changed, if that cell lies inside the grid. -/
def strictSet (layout : Layout) (row col : Nat) (key : Option Key) :
    Except Trap (Option Layout) :=
  if layout.rows ≤ row ∨ layout.cols ≤ col then .ok none
  else if layout.address row col < layout.cells.size then
    .ok (some
      { layout with
        cells := layout.cells.setIfInBounds (layout.address row col) key
        size_le := by
          rw [Array.size_setIfInBounds]
          exact layout.size_le })
  else .error (.cell (layout.address row col))

/-- The layouts that there can be in a machine. -/
inductive Made : Layout → Prop
  | allocated (name : String) (rows cols : Nat) : Made (allocate name rows cols)
  | written {layout next : Layout} {row col : Nat} {key : Option Key} (h : Made layout)
      (hset : layout.strictSet row col key = .ok (some next)) : Made next

/-! ### Layouts whose positions have a number each -/

theorem allocate_eq_blank (name : String) {rows cols : Nat} (h : rows * cols < UInt64.size) :
    allocate name rows cols = blank name rows cols := by
  simp only [allocate, blank, Nat.mod_eq_of_lt h]

theorem Made.size_cells {layout : Layout} (h : layout.Made) :
    layout.cells.size = layout.rows * layout.cols % UInt64.size := by
  induction h with
  | allocated name rows cols => exact Array.size_replicate
  | @written layout next row col key _ hset ih =>
    unfold strictSet at hset
    split at hset
    · cases hset
    · split at hset
      · cases hset
        exact Array.size_setIfInBounds.trans ih
      · cases hset

theorem Made.full {layout : Layout} (h : layout.Made)
    (hm : layout.rows * layout.cols < UInt64.size) : layout.Full :=
  h.size_cells.trans (Nat.mod_eq_of_lt hm)

section

variable {layout : Layout} (hm : layout.rows * layout.cols < UInt64.size)
include hm

theorem address_eq {row col : Nat} (hr : row < layout.rows) (hc : col < layout.cols) :
    layout.address row col = row * layout.cols + col :=
  Nat.mod_eq_of_lt (Nat.lt_trans (index_lt hr hc) hm)

variable (hfull : layout.Full)
include hfull

theorem strictGet_eq (row col : Nat) : layout.strictGet row col = .ok (layout.get? row col) := by
  by_cases hin : row < layout.rows ∧ col < layout.cols
  · have hout : ¬(layout.rows ≤ row ∨ layout.cols ≤ col) := by omega
    have hsize : row * layout.cols + col < layout.cells.size := hfull ▸ index_lt hin.1 hin.2
    simp only [strictGet, get?, index?, if_neg hout, if_pos hin, address_eq hm hin.1 hin.2,
      Array.getElem?_eq_getElem hsize, Option.join_some]
  · have hout : layout.rows ≤ row ∨ layout.cols ≤ col := by omega
    simp only [strictGet, get?, index?, if_pos hout, if_neg hin]

theorem strictSet_eq (row col : Nat) (key : Option Key) :
    layout.strictSet row col key = .ok (layout.set? row col key) := by
  by_cases hin : row < layout.rows ∧ col < layout.cols
  · have hout : ¬(layout.rows ≤ row ∨ layout.cols ≤ col) := by omega
    have hsize : row * layout.cols + col < layout.cells.size := hfull ▸ index_lt hin.1 hin.2
    simp only [strictSet, set?, index?, if_neg hout, if_pos hin, address_eq hm hin.1 hin.2,
      if_pos hsize, Option.map_some]
  · have hout : layout.rows ≤ row ∨ layout.cols ≤ col := by omega
    simp only [strictSet, set?, index?, if_pos hout, if_neg hin, Option.map_none]

end

end Layout
end KeyGrid
