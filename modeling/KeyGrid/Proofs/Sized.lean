import KeyGrid.Proofs.Decided
import KeyGrid.Proofs.Rounded
import KeyGrid.Proofs.Usable

/-!
# Sizes

The two numbers of a size are rounded to magnitudes before they are looked at, and still a
grid has exactly as many rows and columns as are written. Rounding keeps the numbers up to 64,
and it never takes a larger one back among them, whatever the number of its digits.
-/

namespace KeyGrid

/-- A bound of 53 bits separates the same numbers before and after rounding. -/
theorem Magnitude.Closest.eq_or_lt {n m : Nat} (h : Closest n m) (bound : Nat)
    (hb : bound < 2 ^ 53 - 1) :
    m = n ∨ bound < n ∧ bound < m := by
  by_cases hn : n ≤ bound
  · exact Or.inl (h.eq_of_hasBits (.of_lt (by omega)))
  · have hm := h.le_of_le (.of_lt (n := bound + 1) (by omega)) (by omega)
    exact Or.inr ⟨by omega, hm⟩

namespace Source

/-- A number of rows or columns is looked at as it is written. -/
theorem dimensionOf_nearest (dimension : Dimension) (n : Nat) :
    dimensionOf dimension (.number (.nearest n)) =
      if 1 ≤ n ∧ n ≤ 64 then .ok n else .error (.outOfRange dimension (.nearest n)) := by
  show _ = if 1 ≤ n ∧ n ≤ maxDimension then _ else _
  have hrounds : Magnitude.RoundsTo n (.nearest n) := Magnitude.roundsTo_iff.mpr rfl
  generalize Magnitude.nearest n = magnitude at hrounds ⊢
  cases hrounds with
  | @finite m h hm =>
    simp only [dimensionOf]
    rcases h.eq_or_lt maxDimension (by decide) with rfl | ⟨hn, hlarge⟩
    · rfl
    · rw [if_neg (fun hle => Nat.not_le_of_lt hlarge hle.2),
        if_neg (fun hle => Nat.not_le_of_lt hn hle.2)]
  | @infinite m h hm =>
    have hlimit : ∀ places, 7 ≤ places → maxDimension < Nat.pow 2 places := fun _ hplaces =>
      Nat.lt_of_lt_of_le (by decide) (Nat.pow_le_pow_right Nat.two_pos hplaces)
    have hlarge : maxDimension < m := Nat.lt_of_lt_of_le (hlimit _ (by decide)) hm
    have hn : maxDimension < n := by
      rcases h.eq_or_lt maxDimension (by decide) with rfl | ⟨hn, _⟩
      · exact hlarge
      · exact hn
    rw [if_neg (fun hle => Nat.not_le_of_lt hn hle.2)]
    rfl

theorem Reader.readDimension_nearest (dimension : Dimension) (next : Nat → Reader)
    (line n : Nat) :
    readDimension dimension next line (.number (.nearest n)) =
      if 1 ≤ n ∧ n ≤ 64 then .ok (next n)
      else .error (.invalidSize line (.outOfRange dimension (.nearest n))) := by
  rw [readDimension, dimensionOf_nearest]
  by_cases hn : 1 ≤ n ∧ n ≤ 64
  · rw [if_pos hn, if_pos hn]
  · rw [if_neg hn, if_neg hn]

/-- The text of a size. -/
def sizeText (rows cols : String) : String := "size " ++ rows ++ " " ++ cols

section

variable {rows cols : String} (hr : Decimal.isDigits rows.toList)
  (hc : Decimal.isDigits cols.toList)
include hr hc

theorem scan_sizeText :
    (scan (sizeText rows cols).toList).lexemes =
        locate 1 [.word "size", .word rows, .word cols] ∧
      (scan (sizeText rows cols).toList).line = 1 := by
  have hspelled : ∀ line ∈ [[[Lexeme.word "size"], [.word rows], [.word cols]]],
      ∀ piece ∈ line, Piece.Spelled piece := by
    simp only [List.forall_mem_cons]
    exact ⟨⟨spelled_word (by decide), spelled_word (isWord_of_isDigits hr),
      spelled_word (isWord_of_isDigits hc), fun _ h => by cases h⟩, fun _ h => by cases h⟩
  have htext : [[[Lexeme.word "size"], [.word rows], [.word cols]]].flatMap Line.chars =
      (sizeText rows cols).toList ++ ['\n'] := by
    simp [sizeText, Line.chars, Piece.chars, Lexeme.chars]
  obtain ⟨hlexemes, hline⟩ := scan_lines hspelled
  obtain ⟨hmore, hnext⟩ := scan_line_end (sizeText rows cols).toList
  rw [htext, hmore] at hlexemes
  rw [htext, hnext] at hline
  have hone : (scan (sizeText rows cols).toList).line = 1 := Nat.succ.inj hline
  rw [hone] at hlexemes
  exact ⟨List.append_cancel_right hlexemes, hone⟩

/-- Rows are looked at before columns, and the first number that does not fit is reported. -/
theorem declarations_sizeText :
    declarations (sizeText rows cols) =
      if 1 ≤ Decimal.value rows.toList ∧ Decimal.value rows.toList ≤ 64 then
        if 1 ≤ Decimal.value cols.toList ∧ Decimal.value cols.toList ≤ 64 then
          .ok [.size ⟨⟨Decimal.value rows.toList, Decimal.value cols.toList⟩, 1⟩]
        else .error (.invalidSize 1
          (.outOfRange .columns (.nearest (Decimal.value cols.toList))))
      else .error (.invalidSize 1 (.outOfRange .rows (.nearest (Decimal.value rows.toList)))) := by
  obtain ⟨hlexemes, hline⟩ := scan_sizeText hr hc
  have hrows := ofLexeme_digits hr
  have hcols := ofLexeme_digits hc
  have hfirst := Reader.readDimension_nearest .rows (fun n => ⟨[], .sizeCols 1 n⟩) 1
    (Decimal.value rows.toList)
  have hsecond := Reader.readDimension_nearest .columns
    (fun n => ⟨[.size ⟨⟨Decimal.value rows.toList, n⟩, 1⟩], .afterItem⟩) 1
    (Decimal.value cols.toList)
  -- what the magnitudes are is settled, and comparing runs must not compute powers of two
  generalize Magnitude.nearest (Decimal.value rows.toList) = first at hrows hfirst ⊢
  generalize Magnitude.nearest (Decimal.value cols.toList) = second at hcols hsecond ⊢
  have hhead : Leads 1 .start [.word "size"] 1 ⟨[], .sizeRows 1⟩ := .word (by decide) rfl .nil
  simp only [declarations, hlexemes, hline]
  by_cases hn : 1 ≤ Decimal.value rows.toList ∧ Decimal.value rows.toList ≤ 64
  · rw [if_pos hn] at hfirst ⊢
    have hfront : Leads 1 .start [.word "size", .word rows] 1
        ⟨[], .sizeCols 1 (Decimal.value rows.toList)⟩ :=
      hhead.append (.cons hrows hfirst .nil)
    by_cases hm : 1 ≤ Decimal.value cols.toList ∧ Decimal.value cols.toList ≤ 64
    · rw [if_pos hm] at hsecond ⊢
      have hrun : readLexemes (locate 1 [.word "size", .word rows, .word cols]) = .ok _ :=
        (hfront.append (.cons hcols hsecond .nil)).run
      rw [hrun]
      rfl
    · rw [if_neg hm] at hsecond ⊢
      have hrun : readLexemes (locate 1 [.word "size", .word rows, .word cols]) = .error _ :=
        hfront.error (.word cols) [] hcols hsecond
      rw [hrun]
      rfl
  · rw [if_neg hn] at hfirst ⊢
    have hrun : readLexemes (locate 1 [.word "size", .word rows, .word cols]) = .error _ :=
      hhead.error (.word rows) [.word cols] hrows hfirst
    rw [hrun]
    rfl

end

/-- Each number of a size is a magnitude, the closest one to what is written. The size is
accepted exactly if both values, as they are written, are among 1 to 64, and then it has these
values; otherwise the first number that does not fit is reported on its line. -/
theorem size_read_exactly {rows cols : String} (hr : Decimal.isDigits rows.toList)
    (hc : Decimal.isDigits cols.toList) :
    (∀ digits ∈ [rows, cols], ∀ magnitude,
      Token.ofLexeme .directive (.word digits) = .number magnitude ↔
        Magnitude.RoundsTo (Decimal.value digits.toList) magnitude) ∧
    (∀ items, declarations (sizeText rows cols) = .ok items ↔
      (1 ≤ Decimal.value rows.toList ∧ Decimal.value rows.toList ≤ 64) ∧
      (1 ≤ Decimal.value cols.toList ∧ Decimal.value cols.toList ≤ 64) ∧
      items = [.size ⟨⟨Decimal.value rows.toList, Decimal.value cols.toList⟩, 1⟩]) ∧
    (¬(1 ≤ Decimal.value rows.toList ∧ Decimal.value rows.toList ≤ 64) →
      declarations (sizeText rows cols) =
        .error (.invalidSize 1 (.outOfRange .rows (.ofDigits rows.toList)))) ∧
    (1 ≤ Decimal.value rows.toList ∧ Decimal.value rows.toList ≤ 64 →
      ¬(1 ≤ Decimal.value cols.toList ∧ Decimal.value cols.toList ≤ 64) →
      declarations (sizeText rows cols) =
        .error (.invalidSize 1 (.outOfRange .columns (.ofDigits cols.toList)))) := by
  have hread := declarations_sizeText hr hc
  have htoken : ∀ digits ∈ [rows, cols], ∀ magnitude,
      Token.ofLexeme .directive (.word digits) = .number magnitude ↔
        Magnitude.RoundsTo (Decimal.value digits.toList) magnitude := by
    simp only [List.forall_mem_cons]
    refine ⟨?_, ?_, fun _ h => by cases h⟩
    all_goals intro magnitude
    · rw [ofLexeme_digits hr, Token.number.injEq, eq_comm, Magnitude.roundsTo_iff]
    · rw [ofLexeme_digits hc, Token.number.injEq, eq_comm, Magnitude.roundsTo_iff]
  refine ⟨htoken, ?_, ?_, ?_⟩
  · intro items
    rw [hread]
    by_cases hrows : 1 ≤ Decimal.value rows.toList ∧ Decimal.value rows.toList ≤ 64
    · rw [if_pos hrows]
      by_cases hcols : 1 ≤ Decimal.value cols.toList ∧ Decimal.value cols.toList ≤ 64
      · rw [if_pos hcols, Except.ok.injEq]
        exact ⟨fun h => ⟨hrows, hcols, h.symm⟩, fun h => h.2.2.symm⟩
      · rw [if_neg hcols]
        exact ⟨(fun h => nomatch h), fun h => absurd h.2.1 hcols⟩
    · rw [if_neg hrows]
      exact ⟨(fun h => nomatch h), fun h => absurd h.1 hrows⟩
  · intro hrows
    rw [hread, if_neg hrows, Magnitude.ofDigits]
  · intro hrows hcols
    rw [hread, if_pos hrows, if_neg hcols, Magnitude.ofDigits]

/-- Zeros in front do not count, and 2^53 + 1 is reported as the even number next to it. -/
theorem padded_size_read :
    declarations "size 00064 000000000000000000000009" = .ok [.size ⟨⟨64, 9⟩, 1⟩] ∧
    declarations "size 00064 9007199254740993" =
      .error (.invalidSize 1 (.outOfRange .columns (.finite 9007199254740992))) ∧
    Magnitude.RoundsTo 9007199254740993 (.finite 9007199254740992) := by
  have hrows : Decimal.isDigits "00064".toList := by decide
  have hshort : Decimal.isDigits "000000000000000000000009".toList := by decide
  have hlong : Decimal.isDigits "9007199254740993".toList := by decide
  have hvalue : Decimal.value "9007199254740993".toList = 9007199254740993 := by decide +kernel
  have hnearest : Magnitude.ofDigits "9007199254740993".toList = .finite 9007199254740992 := by
    decide +kernel
  obtain ⟨_, haccepted, _⟩ := size_read_exactly hrows hshort
  obtain ⟨htoken, _, _, hrefused⟩ := size_read_exactly hrows hlong
  refine ⟨(haccepted _).mpr (by decide +kernel), ?_, ?_⟩
  · rw [← hnearest]
    exact hrefused (by decide +kernel) (by decide +kernel)
  · rw [← hnearest, ← hvalue]
    exact (htoken _ (by decide) _).mp (ofLexeme_digits hlong)

end Source
end KeyGrid
