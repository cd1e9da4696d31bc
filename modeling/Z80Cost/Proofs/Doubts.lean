import Mathlib.Algebra.Order.Field.Basic
import Mathlib.Algebra.Order.Field.Rat
import Mathlib.Data.Nat.Prime.Basic
import Mathlib.Tactic.FieldSimp
import Mathlib.Tactic.NormNum
import Mathlib.Tactic.Ring
import Z80Cost.Proofs.Score

/-!
Scores that doubts alone have lowered. Up to 33 doubts they are the powers of 3/4; past these no power of 3/4 is
a binary64 number, and scores are rounded. Rounding keeps two units of the last place, so doubts never amount to a rejection; once a score is down to
these two units, further doubts leave it as it is.
-/

namespace Z80Cost.Score

/-- The score left by some doubts. -/
def accepted : Nat → Score
  | 0 => exact
  | doubts + 1 => (accepted doubts).times doubtful

theorem units_accepted_next (k : Nat) :
    (accepted (k + 1)).units = rounded ((accepted k).units * (Nat.pow 2 (places - 2) * 3)) := rfl

def value (score : Score) : ℚ := score.units / one

theorem one_cast_pos : (0 : ℚ) < one := Nat.cast_pos.mpr one_pos

theorem value_exact : exact.value = 1 := div_self one_cast_pos.ne'

theorem value_rejected : rejected.value = 0 := by
  rw [value, rejected, Nat.cast_zero, zero_div]

theorem value_doubtful : doubtful.value = 3 / 4 := by
  have quarter : (0 : ℚ) < Nat.pow 2 (places - 2) := Nat.cast_pos.mpr (Nat.two_pow_pos _)
  rw [value, ← quarters, doubtful, Nat.cast_mul, Nat.cast_mul, mul_div_mul_left _ _ quarter.ne']
  norm_num

theorem value_le_iff (low high : Score) : low.value ≤ high.value ↔ low.units ≤ high.units := by
  rw [value, value, div_le_div_iff_of_pos_right one_cast_pos, Nat.cast_le]

theorem exceeds_iff (high low : Score) : high.exceeds low = true ↔ low.value < high.value := by
  rw [exceeds, decide_eq_true_eq, ← not_le, ← not_le, value_le_iff]

theorem not_exceeds_iff (high low : Score) : high.exceeds low = false ↔ high.value ≤ low.value := by
  rw [Bool.eq_false_iff, ne_eq, exceeds_iff, not_lt]

theorem exceeds_exact (score : Score) (doubtful : score ≠ exact) : exact.exceeds score = true := by
  have different : score.units ≠ one := fun same => doubtful (eq_of_units _ _ same)
  exact decide_eq_true (Nat.lt_of_le_of_ne score.atMostOne different)

theorem value_eq_zero (score : Score) : score.value = 0 ↔ score.exceeds rejected = false := by
  rw [not_exceeds_iff, value_rejected]
  have least : 0 ≤ score.value := div_nonneg (Nat.cast_nonneg _) one_cast_pos.le
  exact ⟨fun zero => zero.le, fun most => le_antisymm most least⟩

/-- The product of two scores is the score nearest to the product of their numbers. -/
theorem value_times_nearest (first second other : Score) :
    |(first.times second).value - first.value * second.value| ≤ |other.value - first.value * second.value| := by
  have scaled : ∀ n : Nat, (n / one - first.value * second.value : ℚ) =
      ((n * one : Nat) - (first.units * second.units : Nat) : Int) / (one * one : ℚ) := by
    intro n
    have positive := one_cast_pos.ne'
    rw [value, value]
    push_cast
    field_simp
  have square : (0 : ℚ) < one * one := mul_pos one_cast_pos one_cast_pos
  have near := rounded_nearest (first.units * second.units) other.units other.spaced
  rw [value, value.eq_1 other, scaled, scaled, abs_div, abs_div, div_le_div_iff_of_pos_right (abs_pos.mpr square.ne'),
    ← Int.cast_abs, ← Int.cast_abs, Int.cast_le, Int.abs_eq_natAbs, Int.abs_eq_natAbs, Int.ofNat_le]
  exact near

theorem units_of_power (score : Score) (k : Nat) (power : score.value = (3 / 4) ^ k) :
    score.units * 4 ^ k = 3 ^ k * one := by
  rw [value, div_pow, div_eq_div_iff one_cast_pos.ne' (by positivity)] at power
  exact_mod_cast power

/-- All of the threes are in the significand, and 53 bits have no room for more than 33. -/
theorem le_of_power (score : Score) (k : Nat) (power : score.value = (3 / 4) ^ k) : k ≤ 33 := by
  have cleared := units_of_power score k power
  obtain ⟨w, whole⟩ := score.spaced
  have short : w < 0x20000000000000 :=
    Nat.lt_of_mul_lt_mul_left (Nat.lt_of_le_of_lt (Nat.le_of_eq whole.symm) (lt_spacing score.units))
  have divides : 3 ^ k ∣ w := by
    have apart : ∀ j, Nat.Coprime (3 ^ k) (2 ^ j) := fun j => Nat.Coprime.pow k j (by decide)
    have product : 3 ^ k ∣ 2 ^ (score.units.log2 - 52 + 2 * k) * w := by
      refine ⟨one, ?_⟩
      have shift : spacing score.units = 2 ^ (score.units.log2 - 52) := rfl
      rw [← cleared, pow_add, pow_mul, ← shift]
      nth_rewrite 2 [whole]
      ring
    exact (apart _).dvd_of_dvd_mul_left product
  have nonzero : w ≠ 0 := by
    rintro rfl
    rw [whole, mul_zero, zero_mul] at cleared
    exact (Nat.mul_pos (by positivity) one_pos).ne cleared
  have bound : 3 ^ k ≤ w := Nat.le_of_dvd (Nat.pos_of_ne_zero nonzero) divides
  by_contra many
  have more : 3 ^ 34 ≤ 3 ^ k := Nat.pow_le_pow_right (by decide) (by omega)
  have past : 0x20000000000000 < 3 ^ 34 := by decide
  omega

theorem units_accepted (k : Nat) (few : k ≤ 33) :
    (accepted k).units = Nat.pow 2 (places - 2 * k) * Nat.pow 3 k := by
  induction k with
  | zero => exact (Nat.mul_one one).symm
  | succ k ih =>
      have deep := places_eq
      have small : Nat.pow 3 (k + 1) ≤ 0x20000000000000 :=
        (Nat.pow_le_pow_right (by decide) few : Nat.pow 3 (k + 1) ≤ Nat.pow 3 33).trans (by decide)
      have shift : Nat.pow 2 (places - 2 * k) = Nat.pow 2 (places - 2 * (k + 1)) * 4 := by
        rw [show places - 2 * k = places - 2 * (k + 1) + 2 by omega]
        exact Nat.pow_add 2 _ 2
      have product : (accepted k).units * (Nat.pow 2 (places - 2) * 3) =
          Nat.pow 2 (places - 2 * (k + 1)) * Nat.pow 3 (k + 1) * one := by
        rw [ih (by omega), ← quarters, shift, show Nat.pow 3 (k + 1) = Nat.pow 3 k * 3 from rfl]
        ring
      rw [units_accepted_next, product]
      exact rounded_fixed _ (spacing_dvd _ _ small)

theorem value_accepted (k : Nat) (few : k ≤ 33) : (accepted k).value = (3 / 4) ^ k := by
  have deep := places_eq
  have whole : one = Nat.pow 2 (places - 2 * k) * 4 ^ k := by
    rw [show (4 : Nat) ^ k = Nat.pow 2 (2 * k) from (Nat.pow_mul 2 2 k).symm, one_split (2 * k) (by omega)]
  have positive : (0 : ℚ) < Nat.pow 2 (places - 2 * k) := Nat.cast_pos.mpr (Nat.two_pow_pos _)
  rw [value, units_accepted k few, whole, Nat.cast_mul, Nat.cast_mul, mul_div_mul_left _ _ positive.ne', div_pow]
  exact_mod_cast rfl

/-! Two units -/

/-- Few units are whole numbers, rounded as such. -/
theorem units_accepted_few (k : Nat) (few : (accepted k).units ≤ 64) :
    (accepted (k + 1)).units = roundedQuotient ((accepted k).units * 3) 4 := by
  have product : (accepted k).units * (Nat.pow 2 (places - 2) * 3) =
      Nat.pow 2 (places - 2) * ((accepted k).units * 3) := Nat.mul_left_comm _ _ _
  have unit : spacing ((accepted k).units * (Nat.pow 2 (places - 2) * 3) / one) = 1 := by
    have below : (accepted k).units * (Nat.pow 2 (places - 2) * 3) / one ≤ 64 := by
      refine (Nat.div_le_of_le_mul ?_).trans few
      rw [Nat.mul_comm one, ← quarters]
      exact Nat.mul_le_mul_left _ (Nat.mul_le_mul_left _ (by decide))
    exact congrArg (Nat.pow 2) (Nat.sub_eq_zero_of_le ((log2_mono _ _ below).trans (by decide)))
  rw [units_accepted_next, rounded, unit, Nat.one_mul, Nat.one_mul, product, ← quarters]
  exact roundedQuotient_scaled _ _ _ (Nat.two_pow_pos _)

theorem two_le_units (k : Nat) : 2 ≤ (accepted k).units := by
  induction k with
  | zero =>
      have positive := Nat.two_pow_pos (places - 2)
      change 2 ≤ one
      rw [← quarters]
      exact Nat.mul_le_mul positive (by decide : 2 ≤ 4)
  | succ k ih =>
      by_cases least : (accepted k).units = 2
      · rw [units_accepted_few k (by omega), least]
        decide
      · refine le_rounded _ 2 (spacing_dvd 0 2 (by decide)) ?_
        have three : 3 ≤ (accepted k).units := by omega
        calc 2 * one = Nat.pow 2 (places - 2) * 8 := by rw [← quarters]; ring
          _ ≤ Nat.pow 2 (places - 2) * 9 := Nat.mul_le_mul_left _ (by decide)
          _ = 3 * (Nat.pow 2 (places - 2) * 3) := by ring
          _ ≤ (accepted k).units * (Nat.pow 2 (places - 2) * 3) := Nat.mul_le_mul_right _ three

theorem value_accepted_pos (k : Nat) : 0 < (accepted k).value :=
  div_pos (Nat.cast_pos.mpr (Nat.lt_of_lt_of_le (by decide) (two_le_units k))) one_cast_pos

theorem units_accepted_le (k n m : Nat) (bound : (accepted k).units ≤ n) (spaced : spacing m ∣ m)
    (quarter : 3 * n ≤ 4 * m) : (accepted (k + 1)).units ≤ m := by
  rw [units_accepted_next]
  refine rounded_le _ m spaced ?_
  calc (accepted k).units * (Nat.pow 2 (places - 2) * 3) ≤ n * (Nat.pow 2 (places - 2) * 3) :=
        Nat.mul_le_mul_right _ bound
    _ = Nat.pow 2 (places - 2) * (3 * n) := by ring
    _ ≤ Nat.pow 2 (places - 2) * (4 * m) := Nat.mul_le_mul_left _ quarter
    _ = m * one := by rw [← quarters]; ring

/-- Three doubts leave less than half. -/
theorem units_accepted_halved (k j : Nat) (bound : (accepted k).units ≤ Nat.pow 2 j * 64) :
    (accepted (k + 3)).units ≤ Nat.pow 2 j * 32 := by
  have first := units_accepted_le k _ (Nat.pow 2 j * 48) bound (spacing_dvd j 48 (by decide)) (by omega)
  have second := units_accepted_le _ _ (Nat.pow 2 j * 36) first (spacing_dvd j 36 (by decide)) (by omega)
  have third := units_accepted_le _ _ (Nat.pow 2 j * 27) second (spacing_dvd j 27 (by decide)) (by omega)
  exact third.trans (Nat.mul_le_mul_left _ (by decide))

theorem units_accepted_bound (i j : Nat) (split : i + j = places - 6) :
    (accepted (3 * i)).units ≤ Nat.pow 2 j * 64 := by
  induction i generalizing j with
  | zero =>
      have deep := places_eq
      have whole : Nat.pow 2 (places - 6) * 64 = one := one_split 6 (by omega)
      rw [show j = places - 6 by omega, whole]
      exact Nat.le_of_eq rfl
  | succ i ih =>
      have halved := units_accepted_halved (3 * i) (j + 1) (ih (j + 1) (by omega))
      have shift : Nat.pow 2 (j + 1) * 32 = Nat.pow 2 j * 64 := by
        rw [show Nat.pow 2 (j + 1) = Nat.pow 2 j * 2 from rfl]
        ring
      rwa [shift] at halved

theorem units_accepted_falls (i : Nat) : (accepted (3 * (places - 6) + i)).units ≤ max 2 (64 - i) := by
  induction i with
  | zero => exact units_accepted_bound (places - 6) 0 rfl
  | succ i ih =>
      have falls : ∀ u, roundedQuotient (u * 3) 4 ≤ max 2 (u - 1) := by
        intro u
        obtain ⟨down, up⟩ := roundedQuotient_near (u * 3) 4 (by decide)
        omega
      have step := falls (accepted (3 * (places - 6) + i)).units
      rw [← Nat.add_assoc, units_accepted_few _ (by omega)]
      omega

/-- From some thousands of doubts on, a score does not fall any more. -/
theorem units_settled (k : Nat) (many : 3266 ≤ k) : (accepted k).units = 2 := by
  have deep := places_eq
  have falls := units_accepted_falls (k - 3 * (places - 6))
  rw [show 3 * (places - 6) + (k - 3 * (places - 6)) = k by omega] at falls
  have least := two_le_units k
  omega

/-- A settled score is no power of 3/4. -/
theorem value_settled (k : Nat) (many : 3266 ≤ k) (j : Nat) : (accepted k).value ≠ (3 / 4) ^ j := by
  intro power
  have cleared := units_of_power _ j power
  rw [units_settled k many] at cleared
  cases j with
  | zero =>
      have positive := Nat.two_pow_pos (places - 2)
      have whole := quarters
      rw [pow_zero, pow_zero] at cleared
      omega
  | succ j =>
      have divides : 3 ∣ 2 * 4 ^ (j + 1) := cleared ▸ ⟨3 ^ j * one, by ring⟩
      have four : ¬ 3 ∣ 4 ^ (j + 1) := fun third => absurd (Nat.prime_three.dvd_of_dvd_pow third) (by decide)
      exact four ((Nat.Coprime.dvd_of_dvd_mul_left (by decide) divides))

end Z80Cost.Score
