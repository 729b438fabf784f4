import KeyGrid.Number.Decimal

/-!
# Magnitudes

A magnitude is a whole number held with 53 significant bits: the closest such
number to the one written, an even last bit deciding between two equally close
ones, and infinity from 2^1024 on. Its text has the fewest digits that are read
back as the same magnitude, filled up with zeros.
-/

namespace KeyGrid

/-- A whole number of 53 significant bits, or infinity. -/
inductive Magnitude where
  | finite (value : Nat)
  | infinite
deriving DecidableEq

namespace Magnitude

/-- The number of significant bits. -/
def precision : Nat := 53

/-- Magnitudes stay below 2 to this power. -/
def exponentLimit : Nat := 1024

/-- The distance between neighbouring magnitudes around `n`. -/
def spacing (n : Nat) : Nat := Nat.pow 2 (n.log2 + 1 - precision)

/-- The quotient of `n` by `unit`, rounded to the closest number; a half goes to the even
neighbour. -/
def roundedQuotient (n unit : Nat) : Nat :=
  let q := n / unit
  let r := n % unit
  if 2 * r < unit ∨ 2 * r = unit ∧ q % 2 = 0 then q else q + 1

/-- The magnitude closest to `n`. -/
def nearest (n : Nat) : Magnitude :=
  let value := roundedQuotient n (spacing n) * spacing n
  if value < Nat.pow 2 exponentLimit then finite value else infinite

/-- The magnitude that a run of digits denotes. -/
def ofDigits (digits : List Char) : Magnitude := nearest (Decimal.value digits)

/-! ### Text -/

/-- The multiple of `grid` next to `n` that is read back as `n`, the closer one if
both are. -/
def onGrid? (n grid : Nat) : Option Nat :=
  let below := n / grid * grid
  let above := below + grid
  let keeps := fun m => decide (nearest m = finite n)
  if keeps below ∧ (n - below ≤ above - n ∨ ¬ keeps above) then some below
  else if keeps above then some above
  else none

/-- The number with the fewest significant digits that is read back as `n`, looking
at multiples of 10^`places` and then at finer ones. -/
def shortest (n : Nat) : Nat → Nat
  | 0 => n
  | places + 1 => (onGrid? n (Nat.pow 10 (places + 1))).getD (shortest n places)

/-- A magnitude in decimal digits. -/
def text : Magnitude → String
  | finite n => toString (shortest n (Nat.toDigits 10 n).length)
  | infinite => "inf"

/-! ### Small numbers are exact -/

theorem spacing_of_lt {n : Nat} (h : n < Nat.pow 2 precision) : spacing n = 1 := by
  have hl : n.log2 + 1 ≤ precision := by
    by_cases h0 : n = 0
    · subst h0
      decide
    · exact (Nat.log2_lt h0).mpr h
  rw [spacing, Nat.sub_eq_zero_of_le hl]

theorem roundedQuotient_one (n : Nat) : roundedQuotient n 1 = n := by
  simp [roundedQuotient, Nat.mod_one]

/-- A number of at most `precision` bits is its own magnitude. -/
theorem nearest_of_lt {n : Nat} (h : n < Nat.pow 2 precision) : nearest n = finite n := by
  have hle : ∀ low high, low ≤ high → Nat.pow 2 low ≤ Nat.pow 2 high :=
    fun _ _ hl => Nat.pow_le_pow_right Nat.two_pos hl
  have hp := Nat.lt_of_lt_of_le h (hle precision exponentLimit (by decide))
  simp only [nearest, spacing_of_lt h, roundedQuotient_one, Nat.mul_one, if_pos hp]

end Magnitude
end KeyGrid
