import KeyGrid.Proofs.Meaning

/-!
# Layouts as they are written

Writing rows into a layout puts every written cell where it belongs and leaves the rest
as it was. So a layout built from a declaration shows at every position, inside the
grid or outside, what the declaration means there.
-/

namespace KeyGrid

open Source

namespace Source

theorem slotOf_eq_ok_iff {digits : String} {line slot : Nat} :
    slotOf digits line = .ok slot ↔
      Decimal.numeral? digits.toList = some slot ∧ slot < slotCount := by
  rw [← Decimal.read_eq_ok_iff (show 0 < slotCount by decide)]
  unfold slotOf
  split
  · rename_i found h
    rw [h]
    constructor <;> intro he <;> cases he <;> rfl
  · rename_i fault h
    rw [h]
    constructor <;> intro he <;> cases he

theorem keyOfCode_ok {code : String} {line : Nat} {key : Key}
    (h : keyOfCode code line = .ok key) : codeMeaning? code = some key := by
  cases hd : Device.ofName? code with
  | some action =>
    simp only [keyOfCode, hd] at h
    cases h
    simp only [codeMeaning?, hd]
  | none =>
    simp only [keyOfCode, hd] at h
    by_cases he : code = externalName
    · rw [if_pos he] at h
      cases h
      simp only [codeMeaning?, hd, if_pos he]
    · rw [if_neg he] at h
      cases hs : slotDigits? code with
      | none =>
        simp only [hs] at h
        cases h
      | some digits =>
        simp only [hs] at h
        obtain ⟨slot, hslot, rfl⟩ := map_eq_ok_iff.mp h
        have hdigits := (slotOf_eq_ok_iff.mp hslot).1
        simp only [codeMeaning?, hd, if_neg he, hs, Option.bind_some, hdigits, Option.map_some]

theorem CellDecl.key?_ok {decl : CellDecl} {key : Option Key} (h : decl.key? = .ok key) :
    key = decl.cell.meaning? := by
  cases hc : decl.cell with
  | absent =>
    simp only [key?, hc] at h
    cases h
    rfl
  | text typed =>
    simp only [key?, hc] at h
    cases h
    rfl
  | code name =>
    simp only [key?, hc] at h
    obtain ⟨found, hf, rfl⟩ := map_eq_ok_iff.mp h
    exact (keyOfCode_ok hf).symm

end Source

namespace Layout

theorem shape_of_set? {layout written : Layout} {row col : Nat} {key : Option Key}
    (h : layout.set? row col key = some written) :
    written.name = layout.name ∧ written.rows = layout.rows ∧ written.cols = layout.cols := by
  obtain ⟨index, _, rfl⟩ := Option.map_eq_some_iff.mp h
  exact ⟨rfl, rfl, rfl⟩

theorem Full.of_set? {layout written : Layout} {row col : Nat} {key : Option Key}
    (hfull : layout.Full) (h : layout.set? row col key = some written) : written.Full := by
  obtain ⟨index, _, rfl⟩ := Option.map_eq_some_iff.mp h
  exact Array.size_setIfInBounds.trans hfull

/-- The cell of a row that is written from a column on. -/
theorem fillRow_ok {cells : List CellDecl} {layout written : Layout} {row col : Nat}
    (h : layout.fillRow row col cells = .ok written) :
    (written.name = layout.name ∧ written.rows = layout.rows ∧ written.cols = layout.cols) ∧
      (layout.Full → written.Full ∧ ∀ r c, written.get? r c =
        match (if r = row ∧ col ≤ c then cells[c - col]? else none) with
        | some decl => decl.cell.meaning?
        | none => layout.get? r c) := by
  induction cells generalizing layout col with
  | nil =>
    cases h
    refine ⟨⟨rfl, rfl, rfl⟩, fun hfull => ⟨hfull, ?_⟩⟩
    intro r c
    simp
  | cons decl others ih =>
    obtain ⟨key, hkey, h⟩ := bind_eq_ok_iff.mp h
    cases hset : layout.set? row col key with
    | none =>
      simp only [hset] at h
      cases h
    | some next =>
      simp only [hset] at h
      obtain ⟨hshape, hcells⟩ := ih h
      have hnext := shape_of_set? hset
      refine ⟨⟨hshape.1.trans hnext.1, hshape.2.1.trans hnext.2.1,
        hshape.2.2.trans hnext.2.2⟩, ?_⟩
      intro hfull
      obtain ⟨hwritten, hget⟩ := hcells (hfull.of_set? hset)
      refine ⟨hwritten, ?_⟩
      intro r c
      rw [hget r c, get?_set? hfull hset, CellDecl.key?_ok hkey]
      -- the cells before the column, the one at it and those behind it
      by_cases hr : r = row
      · subst hr
        rcases Nat.lt_trichotomy c col with hc | rfl | hc
        · have hnot : ¬col ≤ c := by omega
          have hnot' : ¬col + 1 ≤ c := by omega
          have hne : c ≠ col := by omega
          simp only [hnot, hnot', hne, and_false, if_false]
        · have hnot : ¬c + 1 ≤ c := by omega
          simp only [hnot, and_false, if_false, and_self, if_true, Nat.le_refl, Nat.sub_self,
            List.getElem?_cons_zero]
        · have hle : col ≤ c := by omega
          have hle' : col + 1 ≤ c := by omega
          have hne : c ≠ col := by omega
          have hindex : c - col = (c - (col + 1)) + 1 := by omega
          simp only [hle, hle', hne, and_true, and_false, if_true, if_false, hindex,
            List.getElem?_cons_succ]
      · simp only [hr, false_and, if_false]

/-- The written cell at a position, if there is one. -/
def cellAt? (rows : List (List CellDecl)) (row col : Nat) : Option CellDecl :=
  rows[row]?.bind (·[col]?)

theorem fill_ok {rows : List (List CellDecl)} {layout written : Layout} {row : Nat}
    (h : layout.fill row rows = .ok written) :
    (written.name = layout.name ∧ written.rows = layout.rows ∧ written.cols = layout.cols) ∧
      (layout.Full → written.Full ∧ ∀ r c, written.get? r c =
        match (if row ≤ r then cellAt? rows (r - row) c else none) with
        | some decl => decl.cell.meaning?
        | none => layout.get? r c) := by
  induction rows generalizing layout row with
  | nil =>
    cases h
    refine ⟨⟨rfl, rfl, rfl⟩, fun hfull => ⟨hfull, ?_⟩⟩
    intro r c
    simp [cellAt?]
  | cons cells others ih =>
    obtain ⟨next, hrow, h⟩ := bind_eq_ok_iff.mp h
    obtain ⟨hnext, hcells⟩ := fillRow_ok hrow
    obtain ⟨hshape, hothers⟩ := ih h
    refine ⟨⟨hshape.1.trans hnext.1, hshape.2.1.trans hnext.2.1,
      hshape.2.2.trans hnext.2.2⟩, ?_⟩
    intro hfull
    obtain ⟨hfilled, hcell⟩ := hcells hfull
    obtain ⟨hwritten, hget⟩ := hothers hfilled
    refine ⟨hwritten, ?_⟩
    intro r c
    rw [hget r c, hcell r c]
    rcases Nat.lt_trichotomy r row with hr | rfl | hr
    · have hnot : ¬row ≤ r := by omega
      have hnot' : ¬row + 1 ≤ r := by omega
      have hne : r ≠ row := by omega
      simp only [hnot, hnot', hne, false_and, if_false]
    · have hnot : ¬r + 1 ≤ r := by omega
      simp only [hnot, if_false, true_and, Nat.zero_le, if_true, Nat.le_refl, Nat.sub_self,
        Nat.sub_zero, cellAt?, List.getElem?_cons_zero, Option.bind_some]
    · have hle : row ≤ r := by omega
      have hle' : row + 1 ≤ r := by omega
      have hne : r ≠ row := by omega
      have hindex : r - row = (r - (row + 1)) + 1 := by omega
      simp only [hle, hle', hne, false_and, if_true, if_false, hindex, cellAt?,
        List.getElem?_cons_succ]

/-- The layout is the one that a declaration describes, in some shape. -/
def BuiltFrom (layout : Layout) (decl : LayoutDecl) : Prop :=
  ∃ grid : Grid, (blank decl.name grid.rows grid.cols).fill 0 decl.rows = .ok layout

namespace BuiltFrom

variable {layout : Layout} {decl : LayoutDecl}

theorem name (h : layout.BuiltFrom decl) : layout.name = decl.name := by
  obtain ⟨grid, hf⟩ := h
  exact (fill_ok hf).1.1

/-- Beyond the grid and in the cells left out there is nothing on either side. -/
theorem get? (h : layout.BuiltFrom decl) (row col : Nat) :
    layout.get? row col = decl.meaning? row col := by
  obtain ⟨grid, hf⟩ := h
  rw [((fill_ok hf).2 (full_blank ..)).2 row col, get?_blank]
  simp only [Nat.zero_le, if_true, Nat.sub_zero, cellAt?, LayoutDecl.meaning?, bind]
  cases decl.rows[row]? with
  | none => rfl
  | some cells =>
    simp only [Option.bind_some]
    cases cells[col]? with
    | none => rfl
    | some written => rfl

end BuiltFrom
end Layout
end KeyGrid
