import KeyGrid.Number.Decimal
import KeyGrid.Proofs.Outcome

/-!
# The value of a numeral

A numeral is a run of digits, perhaps behind one plus, and denotes the value of the
digits. Reading under a limit finds exactly the numerals with a value below it: the
value only grows from digit to digit, so it passes the limit early or never.
-/

namespace KeyGrid.Decimal

/-- The number that a text denotes, if it is a numeral. -/
def numeral? (text : List Char) : Option Nat :=
  let digits :=
    match text with
    | '+' :: rest => rest
    | text => text
  if isDigits digits then some (value digits) else none

theorem le_ofDigitChars (digits : List Char) (n : Nat) : n ≤ Nat.ofDigitChars 10 digits n := by
  induction digits generalizing n with
  | nil => exact Nat.le_refl n
  | cons c digits ih =>
    have h := ih (10 * n + (c.toNat - '0'.toNat))
    rw [Nat.ofDigitChars_cons]
    omega

theorem foldlM_extend_iff {limit n m : Nat} (hn : n < limit) (digits : List Char) :
    digits.foldlM (extend limit) n = .ok m ↔
      digits.all Char.isDigit ∧ Nat.ofDigitChars 10 digits n = m ∧ m < limit := by
  induction digits generalizing n with
  | nil =>
    simp only [List.foldlM_nil, List.all_nil, true_and]
    constructor
    · intro h
      cases h
      exact ⟨rfl, hn⟩
    · rintro ⟨rfl, _⟩
      rfl
  | cons c digits ih =>
    rw [List.foldlM_cons, bind_eq_ok_iff, List.all_cons, Nat.ofDigitChars_cons, Bool.and_eq_true]
    have hgrow := le_ofDigitChars digits (10 * n + (c.toNat - '0'.toNat))
    constructor
    · rintro ⟨next, hnext, h⟩
      simp only [extend] at hnext
      split at hnext
      · rename_i hd
        split at hnext
        · rename_i hlt
          cases hnext
          obtain ⟨ha, hv, hm⟩ := (ih hlt).mp h
          exact ⟨⟨hd, ha⟩, hv, hm⟩
        · cases hnext
      · cases hnext
    · rintro ⟨⟨hd, ha⟩, hv, hm⟩
      have hlt : 10 * n + (c.toNat - '0'.toNat) < limit := by omega
      refine ⟨10 * n + (c.toNat - '0'.toNat), ?_, (ih hlt).mpr ⟨ha, hv, hm⟩⟩
      simp only [extend, hd, if_true, if_pos hlt]

/-- Only the empty run of digits is refused although nothing in it is wrong. -/
theorem digits_iff {limit n : Nat} {digits : List Char} (hne : digits ≠ [])
    (hl : 0 < limit) :
    digits.foldlM (extend limit) 0 = .ok n ↔
      (if isDigits digits then some (value digits) else none) = some n ∧ n < limit := by
  have hempty : digits.isEmpty = false := List.isEmpty_eq_false_iff.mpr hne
  rw [foldlM_extend_iff hl, Option.ite_none_right_eq_some]
  simp only [isDigits, hempty, Bool.not_false, Bool.true_and, value, Option.some.injEq, and_assoc]

theorem numeral?_cons_of_ne {c : Char} (hc : c ≠ '+') (rest : List Char) :
    numeral? (c :: rest) =
      if isDigits (c :: rest) then some (value (c :: rest)) else none := by
  unfold numeral?
  split
  · rename_i digits h
    exact absurd (List.cons.inj h).1 hc
  · rfl

theorem numeral?_of_isDigits {text : List Char} (h : isDigits text) :
    numeral? text = some (value text) := by
  cases text with
  | nil => cases h
  | cons c rest =>
    have hc : c ≠ '+' := by
      rintro rfl
      cases h
    rw [numeral?_cons_of_ne hc, if_pos h]

theorem isDigit_of_mem {text : List Char} (h : isDigits text) {c : Char} (hc : c ∈ text) :
    c.isDigit := by
  simp only [isDigits, Bool.and_eq_true, List.all_eq_true] at h
  exact h.2 c hc

theorem isDigits_toString (n : Nat) : isDigits (toString n).toList := by
  rw [Nat.toString_eq_ofList_toDigits, String.toList_ofList]
  simp only [isDigits, Bool.and_eq_true, List.all_eq_true]
  refine ⟨?_, fun c hc => Nat.isDigit_of_mem_toDigits (by decide) (by decide) hc⟩
  cases hdigits : Nat.toDigits 10 n with
  | nil => exact absurd hdigits Nat.toDigits_ne_nil
  | cons c others => rfl

theorem value_toString (n : Nat) : value (toString n).toList = n := by
  rw [Nat.toString_eq_ofList_toDigits, String.toList_ofList]
  exact Nat.ofDigitChars_ten_toDigits

theorem numeral?_toString (n : Nat) : numeral? (toString n).toList = some n := by
  rw [numeral?_of_isDigits (isDigits_toString n), value_toString]

theorem read_cons_of_ne (limit : Nat) {c : Char} (hc : c ≠ '+') (rest : List Char) :
    read limit (c :: rest) = (c :: rest).foldlM (extend limit) 0 := by
  unfold read
  split
  · rename_i h
    cases h
  · rename_i h
    exact absurd (List.cons.inj h).1 hc
  · rename_i digits _ h
    exact absurd (List.cons.inj h).1 hc
  · rfl

theorem read_eq_ok_iff {limit n : Nat} (hl : 0 < limit) (text : List Char) :
    read limit text = .ok n ↔ numeral? text = some n ∧ n < limit := by
  cases text with
  | nil => simp [read, numeral?, isDigits]
  | cons c rest =>
    by_cases hc : c = '+'
    · subst hc
      cases rest with
      | nil => simp [read, numeral?, isDigits]
      | cons d rest => exact digits_iff (List.cons_ne_nil d rest) hl
    · rw [read_cons_of_ne limit hc, numeral?_cons_of_ne hc]
      exact digits_iff (List.cons_ne_nil c rest) hl

end KeyGrid.Decimal
