import Z80Cost.Text.Integer

/-!
How well a statement fits an instruction: a binary64 number from 0, a rejection, to 1, a fit without
doubt. Each doubt leaves three quarters of it. Products are rounded to the nearest such number and ties to
the even one, so that past some thirty doubts a score is no longer a power of 3/4.
-/

namespace Z80Cost

namespace Score

/-- The least positive binary64 number is 2^-1074. -/
@[irreducible] def places : Nat := 1074

/-- One in units of the least positive number. -/
def one : Nat := Nat.pow 2 places

/-- How far apart binary64 numbers stand at `n` units: 53 bits are significant. -/
def spacing (n : Nat) : Nat := Nat.pow 2 (n.log2 - 52)

/-- The quotient rounded to the nearest integer, a tie to the even one. -/
def roundedQuotient (n d : Nat) : Nat :=
  let q := n / d
  let twice := 2 * (n % d)
  if d < twice || (twice == d && q % 2 == 1) then q + 1 else q

/-- The binary64 number nearest to `p / one` units. -/
def rounded (p : Nat) : Nat :=
  spacing (p / one) * roundedQuotient p (spacing (p / one) * one)

theorem places_eq : places = 1074 := by rw [places]

theorem one_pos : 0 < one := Nat.two_pow_pos places

theorem one_split (j : Nat) (inside : j ≤ places) : Nat.pow 2 (places - j) * Nat.pow 2 j = one := by
  have joined : Nat.pow 2 (places - j) * Nat.pow 2 j = Nat.pow 2 (places - j + j) := (Nat.pow_add 2 _ j).symm
  rw [joined, Nat.sub_add_cancel inside, one]

theorem spacing_pos (n : Nat) : 0 < spacing n := Nat.two_pow_pos _

theorem lt_spacing (n : Nat) : n < spacing n * 0x20000000000000 := by
  have bits : n < Nat.pow 2 (n.log2 + 1) := Nat.lt_log2_self
  have joined : spacing n * 0x20000000000000 = Nat.pow 2 (n.log2 - 52 + 53) := (Nat.pow_add 2 _ 53).symm
  rw [joined]
  exact Nat.lt_of_lt_of_le bits (Nat.pow_le_pow_right (by decide) (by omega))

theorem roundedQuotient_le (n d m : Nat) (positive : 0 < d) (below : n ≤ m * d) : roundedQuotient n d ≤ m := by
  have quotient : n / d ≤ m := Nat.div_le_of_le_mul (by rwa [Nat.mul_comm])
  have whole := Nat.div_add_mod n d
  simp only [roundedQuotient]
  split
  · next up =>
      simp only [Bool.or_eq_true, decide_eq_true_eq, Bool.and_eq_true, beq_iff_eq] at up
      -- Something is left over, so the quotient is not `m` yet.
      have short : n / d ≠ m := by
        intro full
        rw [full, Nat.mul_comm] at whole
        omega
      omega
  · exact quotient

theorem log2_mono (m n : Nat) (less : m ≤ n) : m.log2 ≤ n.log2 := by
  by_cases zero : m = 0
  · rw [zero]
    exact Nat.zero_le _
  · exact (Nat.le_log2 (by omega)).mpr (Nat.le_trans (Nat.log2_self_le zero) less)

/-- Up to 53 bits before zeros. -/
theorem spacing_dvd (j r : Nat) (few : r ≤ 0x20000000000000) : spacing (Nat.pow 2 j * r) ∣ Nat.pow 2 j * r := by
  by_cases zero : r = 0
  · rw [zero]
    exact Nat.dvd_zero _
  have nonzero : Nat.pow 2 j * r ≠ 0 := Nat.mul_ne_zero (Nat.pos_iff_ne_zero.mp (Nat.two_pow_pos j)) zero
  have bits : (Nat.pow 2 j * r).log2 < j + (r.log2 + 1) := by
    rw [Nat.log2_lt nonzero, Nat.pow_add]
    exact Nat.mul_lt_mul_of_pos_left Nat.lt_log2_self (Nat.two_pow_pos j)
  have tail : spacing r ∣ r := by
    by_cases full : r = 0x20000000000000
    · rw [full]
      decide
    · have short : r.log2 < 53 := (Nat.log2_lt zero).mpr (by omega)
      have unit : r.log2 - 52 = 0 := by omega
      rw [spacing, unit]
      exact Nat.one_dvd r
  have split : spacing (Nat.pow 2 j * r) ∣ Nat.pow 2 j * spacing r := by
    have joined : Nat.pow 2 j * spacing r = Nat.pow 2 (j + (r.log2 - 52)) := (Nat.pow_add 2 j _).symm
    rw [joined]
    exact Nat.pow_dvd_pow 2 (by omega)
  exact Nat.dvd_trans split (Nat.mul_dvd_mul (Nat.dvd_refl _) tail)

theorem rounded_spaced (p : Nat) : spacing (rounded p) ∣ rounded p := by
  refine spacing_dvd _ _ (roundedQuotient_le p _ _ (Nat.mul_pos (spacing_pos _) one_pos) ?_)
  have above := (Nat.div_lt_iff_lt_mul one_pos).mp (lt_spacing (p / one))
  rw [← Nat.mul_assoc, Nat.mul_comm 0x20000000000000]
  exact Nat.le_of_lt above

theorem spacing_dvd_above (p n : Nat) (spaced : spacing n ∣ n) (below : p ≤ n * one) : spacing (p / one) ∣ n := by
  have smaller : p / one ≤ n := Nat.div_le_of_le_mul (by rwa [Nat.mul_comm])
  have finer : spacing (p / one) ∣ spacing n :=
    Nat.pow_dvd_pow 2 (Nat.sub_le_sub_right (log2_mono _ _ smaller) 52)
  exact Nat.dvd_trans finer spaced

/-- Rounding passes no binary64 number. -/
theorem rounded_le (p n : Nat) (spaced : spacing n ∣ n) (below : p ≤ n * one) : rounded p ≤ n := by
  obtain ⟨m, steps⟩ := spacing_dvd_above p n spaced below
  have within : p ≤ m * (spacing (p / one) * one) := by
    rwa [← Nat.mul_assoc, Nat.mul_comm m, ← steps]
  have least := roundedQuotient_le p _ m (Nat.mul_pos (spacing_pos _) one_pos) within
  calc rounded p ≤ spacing (p / one) * m := Nat.mul_le_mul_left _ least
    _ = n := steps.symm

end Score

structure Score where
  units : Nat
  spaced : Score.spacing units ∣ units
  atMostOne : units ≤ Score.one
  deriving DecidableEq

namespace Score

theorem quarters : Nat.pow 2 (places - 2) * 4 = one := one_split 2 (by rw [places_eq]; decide)

def exact : Score where
  units := one
  spaced := Nat.mul_one one ▸ spacing_dvd places 1 (by decide)
  atMostOne := Nat.le_refl one

def rejected : Score where
  units := 0
  spaced := Nat.dvd_zero _
  atMostOne := Nat.zero_le one

def doubtful : Score where
  units := Nat.pow 2 (places - 2) * 3
  spaced := spacing_dvd _ 3 (by decide)
  atMostOne := quarters ▸ Nat.mul_le_mul_left _ (by decide)

def ofBool (fits : Bool) : Score := if fits then exact else rejected

def times (first second : Score) : Score where
  units := rounded (first.units * second.units)
  spaced := rounded_spaced _
  atMostOne := rounded_le _ _ exact.spaced (Nat.mul_le_mul first.atMostOne second.atMostOne)

def exceeds (high low : Score) : Bool := low.units < high.units

/-! In decimal -/

/-- The number n / 10^decimals. -/
def fixedPoint (decimals n : Nat) : Text :=
  let digits := Text.ofNat n
  let padded := List.replicate (decimals + 1 - digits.length) ('0' : UInt8) ++ digits
  padded.take (padded.length - decimals) ++ "." ++ padded.drop (padded.length - decimals)

def text (decimals : Nat) (score : Score) : Text :=
  fixedPoint decimals (roundedQuotient (score.units * Nat.pow 10 decimals) one)

end Score

end Z80Cost
