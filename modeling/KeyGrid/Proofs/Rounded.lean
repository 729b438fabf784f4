import Mathlib.Data.Nat.Dist
import KeyGrid.Number.Magnitude

/-!
# Rounding to the closest magnitude

A whole number has a place between two neighbours of 53 significant bits. Its magnitude is the
closer one, and of two equally close ones the one whose last bit is even; from 2^1024 on it is
infinity. This says for every number what its magnitude is, whichever way it is found.
-/

namespace KeyGrid.Magnitude

/-- Whether a number can be written with so many bits and zeros behind them. -/
def HasBits (bits n : Nat) : Prop :=
  ∃ significand exponent, significand < 2 ^ bits ∧ n = significand * 2 ^ exponent

/-- `m` is as close to `n` as any number of 53 bits; if another one is just as close, the last
bit of `m` is even, so that it has one bit less. -/
structure Closest (n m : Nat) : Prop where
  bits : HasBits 53 m
  le : ∀ other, HasBits 53 other → Nat.dist n m ≤ Nat.dist n other
  even : ∀ other, HasBits 53 other → other ≠ m → Nat.dist n other = Nat.dist n m → HasBits 52 m

/-- Rounding a number: the closest one, or infinity if that is too large. -/
inductive RoundsTo (n : Nat) : Magnitude → Prop
  | finite {m : Nat} (h : Closest n m) (hm : m < Nat.pow 2 exponentLimit) : RoundsTo n (.finite m)
  | infinite {m : Nat} (h : Closest n m) (hm : Nat.pow 2 exponentLimit ≤ m) : RoundsTo n .infinite

/-! ### Few bits -/

theorem HasBits.of_lt {bits n : Nat} (h : n < 2 ^ bits) : HasBits bits n :=
  ⟨n, 0, h, by rw [Nat.pow_zero, Nat.mul_one]⟩

/-- A carry over the first bit leaves a single bit. -/
theorem HasBits.of_le {bits significand : Nat} (hb : 0 < bits) (h : significand ≤ 2 ^ bits)
    (exponent : Nat) : HasBits bits (significand * 2 ^ exponent) := by
  rcases Nat.lt_or_eq_of_le h with h | h
  · exact ⟨significand, exponent, h, rfl⟩
  · refine ⟨1, bits + exponent, Nat.one_lt_two_pow (Nat.ne_of_gt hb), ?_⟩
    rw [h, Nat.one_mul, Nat.pow_add]

/-- A large number of few bits has many zeros behind them. -/
theorem HasBits.dvd {bits exponent n : Nat} (h : HasBits bits n)
    (hn : 2 ^ (bits + exponent) ≤ 2 * n) : 2 ^ exponent ∣ n := by
  obtain ⟨significand, places, hs, rfl⟩ := h
  have hplaces : exponent ≤ places := by
    by_contra hfew
    have hsmall : 2 * 2 ^ places ≤ 2 ^ exponent := by
      rw [← Nat.pow_succ']
      exact Nat.pow_le_pow_right Nat.two_pos (by omega)
    have hlt : 2 * (significand * 2 ^ places) < 2 ^ (bits + exponent) := by
      calc 2 * (significand * 2 ^ places)
          = significand * (2 * 2 ^ places) := Nat.mul_left_comm ..
        _ ≤ significand * 2 ^ exponent := Nat.mul_le_mul_left _ hsmall
        _ < 2 ^ bits * 2 ^ exponent := Nat.mul_lt_mul_of_pos_right hs (Nat.two_pow_pos _)
        _ = 2 ^ (bits + exponent) := (Nat.pow_add ..).symm
    omega
  exact Nat.dvd_mul_left_of_dvd (Nat.pow_dvd_pow 2 hplaces) significand

/-! ### The two neighbours -/

/-- The number of bits of `n` that its magnitude has no room for. -/
def dropped (n : Nat) : Nat := n.log2 + 1 - precision

/-- The neighbour of a number that is not above it. -/
def below (n : Nat) : Nat := n / spacing n * spacing n

theorem spacing_eq (n : Nat) : spacing n = 2 ^ dropped n := rfl

theorem spacing_pos (n : Nat) : 0 < spacing n := Nat.two_pow_pos _

theorem below_add_mod (n : Nat) : below n + n % spacing n = n := Nat.div_add_mod' n _

theorem quotient_lt (n : Nat) : n / spacing n < 2 ^ 53 := by
  rw [Nat.div_lt_iff_lt_mul (spacing_pos n), spacing_eq, ← Nat.pow_add]
  refine Nat.lt_of_lt_of_le (Nat.lt_log2_self (n := n)) (Nat.pow_le_pow_right Nat.two_pos ?_)
  show n.log2 + 1 ≤ 53 + (n.log2 + 1 - 53)
  omega

/-- Where bits are dropped, the others are as many as a magnitude can have. -/
theorem le_below {n : Nat} (h : dropped n ≠ 0) : 2 ^ (52 + dropped n) ≤ below n := by
  have hlog : n.log2 = 52 + dropped n := by
    unfold dropped precision at h ⊢
    omega
  have hn : n ≠ 0 := by
    rintro rfl
    exact h (by decide)
  have hle : 2 ^ 52 * spacing n ≤ n := by
    rw [spacing_eq, ← Nat.pow_add, ← hlog]
    exact Nat.log2_self_le hn
  rw [Nat.pow_add, below, ← spacing_eq]
  exact Nat.mul_le_mul_right _ ((Nat.le_div_iff_mul_le (spacing_pos n)).mpr hle)

/-- Nothing of 53 bits lies between the neighbours. -/
theorem HasBits.le_or_le {n other : Nat} (h : HasBits 53 other) :
    other ≤ below n ∨ below n + spacing n ≤ other := by
  by_contra hbetween
  have hlow : below n < other := by omega
  have hhigh : other < below n + spacing n := by omega
  by_cases hdropped : dropped n = 0
  · rw [spacing_eq, hdropped, Nat.pow_zero] at hhigh
    omega
  · have hlarge : 2 ^ (53 + dropped n) ≤ 2 * other := by
      have hle := le_below hdropped
      have hpow : 2 ^ (53 + dropped n) = 2 * 2 ^ (52 + dropped n) := by
        rw [← Nat.pow_succ']
        congr 1
        omega
      omega
    obtain ⟨k, rfl⟩ := h.dvd hlarge
    rw [← spacing_eq, Nat.mul_comm, below] at hlow
    rw [← spacing_eq, Nat.mul_comm, below, ← Nat.succ_mul] at hhigh
    have hk := Nat.lt_of_mul_lt_mul_right hlow
    have hk' := Nat.lt_of_mul_lt_mul_right hhigh
    omega

theorem roundedQuotient_cases (n unit : Nat) :
    (roundedQuotient n unit = n / unit ∧
      (2 * (n % unit) < unit ∨ 2 * (n % unit) = unit ∧ n / unit % 2 = 0)) ∨
    (roundedQuotient n unit = n / unit + 1 ∧
      (unit < 2 * (n % unit) ∨ 2 * (n % unit) = unit ∧ n / unit % 2 = 1)) := by
  unfold roundedQuotient
  dsimp only
  split
  · rename_i h
    exact Or.inl ⟨rfl, h⟩
  · rename_i h
    refine Or.inr ⟨rfl, ?_⟩
    omega

/-- The value that a number is rounded to when there is no largest one. -/
def rounded (n : Nat) : Nat := roundedQuotient n (spacing n) * spacing n

theorem rounded_spec (n : Nat) :
    (rounded n = below n ∨ rounded n = below n + spacing n) ∧
      2 * Nat.dist n (rounded n) ≤ spacing n ∧
      (2 * Nat.dist n (rounded n) = spacing n → roundedQuotient n (spacing n) % 2 = 0) := by
  have hn := below_add_mod n
  have hmod := Nat.mod_lt n (spacing_pos n)
  unfold Nat.dist
  rcases roundedQuotient_cases n (spacing n) with ⟨hq, hr⟩ | ⟨hq, hr⟩
  · have hrounded : rounded n = below n := by rw [rounded, hq, below]
    omega
  · have hrounded : rounded n = below n + spacing n := by rw [rounded, hq, Nat.succ_mul, below]
    omega

theorem roundedQuotient_le (n : Nat) : roundedQuotient n (spacing n) ≤ 2 ^ 53 := by
  have hlt := quotient_lt n
  rcases roundedQuotient_cases n (spacing n) with ⟨hq, _⟩ | ⟨hq, _⟩ <;> omega

theorem hasBits_rounded (n : Nat) : HasBits 53 (rounded n) :=
  .of_le (by decide) (roundedQuotient_le n) (dropped n)

/-- An even quotient leaves room for one more zero. -/
theorem rounded_of_even {n : Nat} (h : roundedQuotient n (spacing n) % 2 = 0) :
    rounded n = roundedQuotient n (spacing n) / 2 * 2 ^ (dropped n + 1) := by
  rw [Nat.pow_succ', ← spacing_eq, ← Nat.mul_assoc, rounded]
  congr 1
  omega

/-- Another number is as close only halfway between the neighbours, and is the other one. -/
theorem halfway_of_dist_eq {n other : Nat} (h : HasBits 53 other) (hne : other ≠ rounded n)
    (hdist : Nat.dist n other = Nat.dist n (rounded n)) :
    2 * Nat.dist n (rounded n) = spacing n ∧ below n ≤ other ∧
      (other + spacing n = rounded n ∨ rounded n + spacing n = other) := by
  have hn := below_add_mod n
  have hmod := Nat.mod_lt n (spacing_pos n)
  have hside := h.le_or_le (n := n)
  obtain ⟨hneighbour, hhalf, _⟩ := rounded_spec n
  unfold Nat.dist at hdist hhalf ⊢
  omega

theorem closest_rounded (n : Nat) : Closest n (rounded n) := by
  have hn := below_add_mod n
  have hmod := Nat.mod_lt n (spacing_pos n)
  obtain ⟨hneighbour, hhalf, heven⟩ := rounded_spec n
  refine ⟨hasBits_rounded n, ?_, ?_⟩
  · intro other hother
    have hside := hother.le_or_le (n := n)
    unfold Nat.dist at hhalf ⊢
    omega
  · intro other hother hne hdist
    have hquotient := heven (halfway_of_dist_eq hother hne hdist).1
    have hle := roundedQuotient_le n
    rw [rounded_of_even hquotient]
    exact .of_le (by decide) (by omega) _

/-- Two neighbours do not both have an even last bit. -/
theorem Closest.eq_rounded {n m : Nat} (h : Closest n m) : m = rounded n := by
  by_contra hne
  have hdist : Nat.dist n m = Nat.dist n (rounded n) :=
    Nat.le_antisymm (h.le _ (hasBits_rounded n)) ((closest_rounded n).le m h.bits)
  obtain ⟨hhalf, hbelow, hapart⟩ := halfway_of_dist_eq h.bits hne hdist
  have hdropped : dropped n ≠ 0 := by
    intro hzero
    rw [spacing_eq, hzero, Nat.pow_zero] at hhalf
    omega
  have hlarge : 2 ^ (52 + (dropped n + 1)) ≤ 2 * m := by
    rw [← Nat.add_assoc, Nat.pow_succ']
    exact Nat.mul_le_mul_left 2 (Nat.le_trans (le_below hdropped) hbelow)
  obtain ⟨k, hk⟩ := (h.even _ (hasBits_rounded n) (Ne.symm hne) hdist.symm).dvd hlarge
  have heven := rounded_of_even ((rounded_spec n).2.2 hhalf)
  rw [Nat.pow_succ, ← spacing_eq, Nat.mul_assoc] at hk
  rw [Nat.pow_succ, ← spacing_eq, Nat.mul_comm, Nat.mul_assoc] at heven
  have hpos := spacing_pos n
  rcases hapart with hapart | hapart
  · rw [hk, heven, ← Nat.mul_succ] at hapart
    have hsame := Nat.eq_of_mul_eq_mul_left hpos hapart
    omega
  · rw [hk, heven, ← Nat.mul_succ] at hapart
    have hsame := Nat.eq_of_mul_eq_mul_left hpos hapart
    omega

/-- The magnitude of a number is what it rounds to, and nothing else. -/
theorem roundsTo_iff {n : Nat} {magnitude : Magnitude} :
    RoundsTo n magnitude ↔ magnitude = nearest n := by
  have hnearest : nearest n =
      if rounded n < Nat.pow 2 exponentLimit then finite (rounded n) else infinite := rfl
  constructor
  · intro h
    cases h with
    | finite h hm => rw [hnearest, ← h.eq_rounded, if_pos hm]
    | infinite h hm => rw [hnearest, ← h.eq_rounded, if_neg (Nat.not_lt.mpr hm)]
  · intro h
    rw [h, hnearest]
    split
    · rename_i hlt
      exact .finite (closest_rounded n) hlt
    · rename_i hge
      exact .infinite (closest_rounded n) (Nat.not_lt.mp hge)

/-! ### Numbers that are kept -/

theorem Closest.eq_of_hasBits {n m : Nat} (h : Closest n m) (hn : HasBits 53 n) : m = n := by
  have hle := h.le n hn
  unfold Nat.dist at hle
  omega

/-- Rounding does not take a number below one of 53 bits. -/
theorem Closest.le_of_le {n m bound : Nat} (h : Closest n m) (hb : HasBits 53 bound)
    (hn : bound ≤ n) : bound ≤ m := by
  have hle := h.le bound hb
  unfold Nat.dist at hle
  omega

end KeyGrid.Magnitude
