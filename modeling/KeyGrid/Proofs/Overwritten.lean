import Mathlib.Data.List.Induction
import KeyGrid.Proofs.Filled
import KeyGrid.Proofs.StrictAccess

/-!
# Layouts under any writes

A layout keeps its cells in one row, so a position becomes a number before a cell is read or
written. Whatever is written, inside the grid or outside and in whichever order, a position shows
what was written there last, and the keys are those of the positions in their order. This holds
of a machine as well whose numbers are words of 64 bits and whose look-ups can fail.
-/

namespace KeyGrid.Layout

/-! ### Numbers of a machine -/

/-- The number that a machine finds for a position; its products and sums start again from zero
behind 64 bits. -/
def wordIndex (layout : Layout) (row col : UInt64) : Nat :=
  (row * UInt64.ofNat layout.cols + col).toNat

def wordGet (layout : Layout) (row col : UInt64) : Except Trap (Option Key) :=
  if layout.rows ≤ row.toNat ∨ layout.cols ≤ col.toNat then .ok none
  else
    match layout.cells[layout.wordIndex row col]? with
    | some key => .ok key
    | none => .error (.cell (layout.wordIndex row col))

/-- Something to be put at a position. -/
structure Write where
  row : UInt64
  col : UInt64
  key : Option Key
deriving DecidableEq

/-- Whether the write was made, and the layout behind it. -/
def wordSet (layout : Layout) (write : Write) : Except Trap (Bool × Layout) :=
  if layout.rows ≤ write.row.toNat ∨ layout.cols ≤ write.col.toNat then .ok (false, layout)
  else if layout.wordIndex write.row write.col < layout.cells.size then
    .ok (true,
      { layout with
        cells := layout.cells.setIfInBounds (layout.wordIndex write.row write.col) write.key
        size_le := by rw [Array.size_setIfInBounds]; exact layout.size_le })
  else .error (.cell (layout.wordIndex write.row write.col))

/-- Writes one after the other, with the answer to each. -/
def wordRun (layout : Layout) : List Write → Except Trap (List Bool × Layout)
  | [] => .ok ([], layout)
  | write :: others => do
    let (done, next) ← layout.wordSet write
    let (answers, last) ← next.wordRun others
    return (done :: answers, last)

namespace Write

def IsAt (write : Write) (row col : Nat) : Prop := write.row.toNat = row ∧ write.col.toNat = col

instance (write : Write) (row col : Nat) : Decidable (write.IsAt row col) :=
  inferInstanceAs (Decidable (_ ∧ _))

def IsInside (write : Write) (rows cols : Nat) : Prop :=
  write.row.toNat < rows ∧ write.col.toNat < cols

instance (write : Write) (rows cols : Nat) : Decidable (write.IsInside rows cols) :=
  inferInstanceAs (Decidable (_ ∧ _))

end Write

/-- The key that the last write at a position has put there. -/
def lastAt (writes : List Write) (row col : Nat) : Option Key :=
  (writes.filter (·.IsAt row col)).getLast?.bind (·.key)

/-- Words start again from zero where other numbers are reduced. -/
theorem wordIndex_eq (layout : Layout) (row col : UInt64) :
    layout.wordIndex row col = layout.address row.toNat col.toNat := by
  have hcols : (UInt64.ofNat layout.cols).toNat = layout.cols % UInt64.size := UInt64.toNat_ofNat
  rw [wordIndex, address, UInt64.toNat_add, UInt64.toNat_mul, hcols]
  show (row.toNat * (layout.cols % UInt64.size) % UInt64.size + col.toNat) % UInt64.size = _
  rw [Nat.mul_mod_mod, Nat.mod_add_mod]

section

variable {layout : Layout} (hm : layout.rows * layout.cols < UInt64.size) (hfull : layout.Full)
include hm hfull

theorem wordGet_eq (row col : UInt64) :
    layout.wordGet row col = .ok (layout.get? row.toNat col.toNat) := by
  rw [← strictGet_eq hm hfull, wordGet, wordIndex_eq]
  rfl

theorem wordSet_eq (write : Write) :
    layout.wordSet write =
      .ok (match layout.set? write.row.toNat write.col.toNat write.key with
        | some written => (true, written)
        | none => (false, layout)) := by
  by_cases hin : write.row.toNat < layout.rows ∧ write.col.toNat < layout.cols
  · have hout : ¬(layout.rows ≤ write.row.toNat ∨ layout.cols ≤ write.col.toNat) := by omega
    have hsize : write.row.toNat * layout.cols + write.col.toNat < layout.cells.size :=
      hfull ▸ index_lt hin.1 hin.2
    simp only [wordSet, if_neg hout, wordIndex_eq, address_eq hm hin.1 hin.2, if_pos hsize, set?,
      index?, if_pos hin, Option.map_some]
  · have hout : layout.rows ≤ write.row.toNat ∨ layout.cols ≤ write.col.toNat := by omega
    simp only [wordSet, if_pos hout, set?, index?, if_neg hin, Option.map_none]

end

/-! ### One write -/

/-- What a write leaves behind: the grid, and every position but its own. -/
theorem wordSet_ok {layout next : Layout} {write : Write} {done : Bool}
    (hm : layout.rows * layout.cols < UInt64.size) (hfull : layout.Full)
    (h : layout.wordSet write = .ok (done, next)) :
    (next.rows = layout.rows ∧ next.cols = layout.cols ∧ next.Full) ∧
      done = decide (write.IsInside layout.rows layout.cols) ∧
      ∀ row col, next.get? row col =
        if write.IsInside layout.rows layout.cols ∧ write.IsAt row col then write.key
        else layout.get? row col := by
  rw [wordSet_eq hm hfull, Except.ok.injEq] at h
  have hinside := isSome_set? layout write.row.toNat write.col.toNat write.key
  cases hset : layout.set? write.row.toNat write.col.toNat write.key with
  | none =>
    rw [hset] at h hinside
    cases h
    have hout : ¬write.IsInside layout.rows layout.cols := fun hin => nomatch hinside.mpr hin
    refine ⟨⟨rfl, rfl, hfull⟩, (decide_eq_false hout).symm, ?_⟩
    intro row col
    rw [if_neg (fun hboth => hout hboth.1)]
  | some written =>
    rw [hset] at h hinside
    cases h
    have hin : write.IsInside layout.rows layout.cols := hinside.mp rfl
    refine ⟨?_, (decide_eq_true hin).symm, ?_⟩
    · obtain ⟨_, hrows, hcols⟩ := shape_of_set? hset
      exact ⟨hrows, hcols, hfull.of_set? hset⟩
    · intro row col
      rw [get?_set? hfull hset]
      by_cases hat : write.IsAt row col
      · rw [if_pos ⟨hat.1.symm, hat.2.symm⟩, if_pos ⟨hin, hat⟩]
      · have hother : ¬(row = write.row.toNat ∧ col = write.col.toNat) := fun hsame =>
          hat ⟨hsame.1.symm, hsame.2.symm⟩
        rw [if_neg hother, if_neg (fun hboth => hat hboth.2)]

/-! ### Any number of writes -/

theorem wordRun_concat {layout last next : Layout} {writes : List Write} {write : Write}
    {answers : List Bool} {done : Bool} (hfront : layout.wordRun writes = .ok (answers, last))
    (hlast : last.wordSet write = .ok (done, next)) :
    layout.wordRun (writes ++ [write]) = .ok (answers ++ [done], next) := by
  induction writes generalizing layout answers with
  | nil =>
    cases hfront
    exact bind_eq_ok_iff.mpr ⟨_, hlast, rfl⟩
  | cons first others ih =>
    obtain ⟨⟨made, middle⟩, hfirst, hfront⟩ := bind_eq_ok_iff.mp hfront
    obtain ⟨⟨rest, behind⟩, hrest, hfront⟩ := bind_eq_ok_iff.mp hfront
    cases hfront
    exact bind_eq_ok_iff.mpr ⟨_, hfirst, bind_eq_ok_iff.mpr ⟨_, ih hrest, rfl⟩⟩

theorem lastAt_concat (writes : List Write) (write : Write) (row col : Nat) :
    lastAt (writes ++ [write]) row col =
      if write.IsAt row col then write.key else lastAt writes row col := by
  unfold lastAt
  rw [List.filter_append, List.filter_singleton]
  by_cases hat : write.IsAt row col
  · simp only [hat, decide_true, cond_true, List.getLast?_concat, Option.bind_some, if_true]
  · simp only [hat, decide_false, cond_false, List.append_nil, if_false]

/-- The layout in which nothing but some writes has been made. -/
structure Shows (rows cols : Nat) (writes : List Write) (layout : Layout) : Prop where
  rows_eq : layout.rows = rows
  cols_eq : layout.cols = cols
  full : layout.Full
  get?_eq : ∀ row col, layout.get? row col =
    if row < rows ∧ col < cols then lastAt writes row col else none

theorem Shows.wordSet {rows cols : Nat} {writes : List Write} {layout : Layout}
    (h : Shows rows cols writes layout) (hm : rows * cols < UInt64.size) (write : Write) :
    ∃ next, layout.wordSet write = .ok (decide (write.IsInside rows cols), next) ∧
      Shows rows cols (writes ++ [write]) next := by
  obtain ⟨rfl, rfl, hfull, hget⟩ := h
  obtain ⟨⟨done, next⟩, hset⟩ : ∃ outcome, layout.wordSet write = .ok outcome :=
    ⟨_, wordSet_eq hm hfull write⟩
  obtain ⟨⟨hrows, hcols, hwritten⟩, rfl, hnext⟩ := wordSet_ok hm hfull hset
  refine ⟨next, hset, hrows, hcols, hwritten, ?_⟩
  intro row col
  rw [hnext, hget, lastAt_concat]
  by_cases hat : write.IsAt row col
  · obtain ⟨rfl, rfl⟩ := hat
    by_cases hin : write.IsInside layout.rows layout.cols
    · have hinside : write.row.toNat < layout.rows ∧ write.col.toNat < layout.cols := hin
      simp only [hin, hinside, Write.IsAt, and_self, if_true]
    · have houtside : ¬(write.row.toNat < layout.rows ∧ write.col.toNat < layout.cols) := hin
      simp only [hin, houtside, false_and, if_false]
  · simp only [hat, and_false, if_false]

theorem exists_shows (name : String) {rows cols : Nat} (hm : rows * cols < UInt64.size)
    (writes : List Write) :
    ∃ layout, (blank name rows cols).wordRun writes =
        .ok (writes.map (fun write => decide (write.IsInside rows cols)), layout) ∧
      Shows rows cols writes layout := by
  induction writes using List.reverseRecOn with
  | nil =>
    refine ⟨_, rfl, rfl, rfl, full_blank name rows cols, ?_⟩
    intro row col
    rw [get?_blank]
    exact (ite_self none).symm
  | append_singleton writes write ih =>
    obtain ⟨layout, hrun, hshows⟩ := ih
    obtain ⟨next, hset, hnext⟩ := hshows.wordSet hm write
    refine ⟨next, ?_, hnext⟩
    rw [wordRun_concat hrun hset, List.map_append, List.map_singleton]

/-! ### The keys in their order -/

/-- Rows come one after the other, and in a row its columns. -/
def Before (place other : Nat × Nat) : Prop :=
  place.1 < other.1 ∨ place.1 = other.1 ∧ place.2 < other.2

/-- The position whose cell has a number. -/
def placeOf (layout : Layout) (index : Nat) : Nat × Nat :=
  (index / layout.cols, index % layout.cols)

/-- The positions that have a key, by the numbers of their cells. -/
def places (layout : Layout) : List (Nat × Nat) :=
  ((List.range (layout.rows * layout.cols)).filter
    (fun index => layout.cells[index]?.join.isSome)).map layout.placeOf

theorem index?_placeOf {layout : Layout} {index : Nat}
    (h : index < layout.rows * layout.cols) :
    layout.index? (layout.placeOf index).1 (layout.placeOf index).2 = some index := by
  have hpos : 0 < layout.cols := Nat.pos_of_mul_pos_left (Nat.lt_of_le_of_lt (Nat.zero_le _) h)
  have hrow : index / layout.cols < layout.rows := (Nat.div_lt_iff_lt_mul hpos).mpr h
  rw [placeOf, index?, if_pos ⟨hrow, Nat.mod_lt _ hpos⟩, Nat.div_add_mod']

theorem before_placeOf {layout : Layout} {index other : Nat} (h : index < other) :
    Before (layout.placeOf index) (layout.placeOf other) := by
  rcases Nat.lt_or_eq_of_le (Nat.div_le_div_right (c := layout.cols) (Nat.le_of_lt h)) with
    hrow | hrow
  · exact Or.inl hrow
  · refine Or.inr ⟨hrow, ?_⟩
    have hfirst := Nat.div_add_mod' index layout.cols
    have hsecond := Nat.div_add_mod' other layout.cols
    rw [hrow] at hfirst
    show index % layout.cols < other % layout.cols
    omega

theorem pairwise_places (layout : Layout) : layout.places.Pairwise Before := by
  have hrange := (List.pairwise_lt_range (n := layout.rows * layout.cols)).filter
    (fun index => layout.cells[index]?.join.isSome)
  exact hrange.map layout.placeOf fun _ _ => before_placeOf

theorem mem_places_iff (layout : Layout) (row col : Nat) :
    (row, col) ∈ layout.places ↔ (layout.get? row col).isSome := by
  simp only [places, List.mem_map, List.mem_filter, List.mem_range]
  constructor
  · intro h
    obtain ⟨index, ⟨hlt, hkey⟩, hplace⟩ := h
    have hindex := index?_placeOf hlt
    rw [hplace] at hindex
    simp only [get?, hindex, hkey]
  · intro h
    unfold get? index? at h
    by_cases hin : row < layout.rows ∧ col < layout.cols
    · rw [if_pos hin] at h
      refine ⟨row * layout.cols + col, ⟨index_lt hin.1 hin.2, h⟩, ?_⟩
      have hpos : 0 < layout.cols := by omega
      rw [placeOf, Nat.mul_comm, Nat.mul_add_div hpos, Nat.div_eq_of_lt hin.2, Nat.mul_add_mod,
        Nat.mod_eq_of_lt hin.2]
      rfl
    · rw [if_neg hin] at h
      cases h

theorem keys_eq {layout : Layout} (hfull : layout.Full) :
    layout.keys.map some = layout.places.map (fun place => layout.get? place.1 place.2) := by
  have hcells : layout.cells.toList =
      (List.range (layout.rows * layout.cols)).map (fun index => layout.cells[index]?.join) := by
    apply List.ext_getElem?
    intro index
    rw [List.getElem?_map, Array.getElem?_toList]
    by_cases hlt : index < layout.rows * layout.cols
    · have hsize : index < layout.cells.size := hfull ▸ hlt
      rw [List.getElem?_range hlt, Option.map_some, Array.getElem?_eq_getElem hsize,
        Option.join_some]
    · have hsize : layout.cells.size ≤ index := by
        rw [hfull]
        omega
      rw [Array.getElem?_eq_none hsize, List.getElem?_eq_none (by simpa using hlt)]
      rfl
  have hpresent : ∀ cells : List (Option Key),
      (cells.filterMap id).map some = cells.filter Option.isSome := by
    intro cells
    induction cells with
    | nil => rfl
    | cons cell others ih =>
      cases cell with
      | none => exact ih
      | some key => exact congrArg (some key :: ·) ih
  rw [keys, hpresent, hcells, List.filter_map, places, List.map_map]
  refine List.map_congr_left fun index hindex => ?_
  have hlt : index < layout.rows * layout.cols := List.mem_range.mp (List.mem_of_mem_filter hindex)
  simp only [Function.comp_apply, get?, index?_placeOf hlt]

/-- After any writes into an empty layout that a memory of 64-bit addresses has room for, none of
which fails, a write has been made exactly if its position is inside the grid, and a position
shows what the last write there has put, or nothing if it is outside. So writes elsewhere do not
matter to it. The keys are those of the positions that have one, each once, row after row. -/
theorem shows_last_write (name : String) {rows cols : Nat} (hm : rows * cols < UInt64.size)
    (writes : List Write) :
    ∃ layout, (blank name rows cols).wordRun writes =
        .ok (writes.map (fun write => decide (write.IsInside rows cols)), layout) ∧
      (∀ row col, layout.get? row col =
        if row < rows ∧ col < cols then lastAt writes row col else none) ∧
      (∀ row col : UInt64, layout.wordGet row col = .ok (layout.get? row.toNat col.toNat)) ∧
      (∀ write, ∃ next,
        layout.wordSet write = .ok (decide (write.IsInside rows cols), next) ∧
        ∀ row col, ¬(write.IsInside rows cols ∧ write.IsAt row col) →
          next.get? row col = layout.get? row col) ∧
      ∃ places : List (Nat × Nat), places.Pairwise Before ∧
        (∀ row col, (row, col) ∈ places ↔ (layout.get? row col).isSome) ∧
        layout.keys.map some = places.map (fun place => layout.get? place.1 place.2) := by
  obtain ⟨layout, hrun, hshows⟩ := exists_shows name hm writes
  refine ⟨layout, hrun, hshows.get?_eq, ?_, ?_, ?_⟩
  · obtain ⟨rfl, rfl, hfull, _⟩ := hshows
    exact wordGet_eq hm hfull
  · intro write
    obtain ⟨next, hset, _⟩ := hshows.wordSet hm write
    refine ⟨next, hset, ?_⟩
    intro row col helse
    obtain ⟨rfl, rfl, hfull, _⟩ := hshows
    obtain ⟨_, _, hget⟩ := wordSet_ok hm hfull hset
    rw [hget, if_neg helse]
  · exact ⟨layout.places, layout.pairwise_places, layout.mem_places_iff, keys_eq hshows.full⟩

/-- A column behind the last one is not the first one of the next row, and a key can be taken
away again. -/
def brimmingWrites : List Write :=
  [⟨0, 1, some (.ofText "a")⟩,
    ⟨0, 3, some (.ofText "b")⟩,
    ⟨1, 2, some (.ofText "c")⟩,
    ⟨18446744073709551615, 18446744073709551615, some (.ofText "d")⟩,
    ⟨0, 2, some (.ofText "e")⟩,
    ⟨0, 1, none⟩]

theorem brimming_shows_last_write : 2 * 3 < UInt64.size ∧
    ∃ layout, (blank "base" 2 3).wordRun brimmingWrites =
        .ok ([true, false, true, false, true, true], layout) ∧
      layout.get? 1 0 = none ∧ layout.get? 0 3 = none ∧ layout.get? 0 1 = none ∧
      layout.get? 0 2 = some (.ofText "e") ∧ layout.get? 1 2 = some (.ofText "c") := by
  have hm : 2 * 3 < UInt64.size := by decide
  obtain ⟨layout, hrun, hget, _⟩ := shows_last_write "base" hm brimmingWrites
  refine ⟨hm, layout, hrun, ?_⟩
  rw [hget, hget, hget, hget, hget]
  decide

end KeyGrid.Layout
