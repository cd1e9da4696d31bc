import Z80Cost.Score

/-!
The arithmetic of scores. A product is rounded to the nearest binary64 number and passes none, so 1 changes
nothing, a product is 1 only if both factors are, and a product that is a binary64 number is not rounded at all.
-/

namespace Z80Cost.Score

section Rounding
variable (p n : Nat)

theorem multiple_below (step m : Nat) (positive : 0 < step) (below : step * m * one ≤ p) :
    step * m ≤ step * (p / (step * one)) := by
  refine Nat.mul_le_mul_left step ((Nat.le_div_iff_mul_le (Nat.mul_pos positive one_pos)).mpr ?_)
  rwa [← Nat.mul_assoc, Nat.mul_comm m]

/-- Of the binary64 numbers up to `p / one`, none is above the multiple of the spacing that is rounded from. -/
theorem spaced_below (spaced : spacing n ∣ n) (below : n * one ≤ p) :
    n ≤ spacing (p / one) * (p / (spacing (p / one) * one)) := by
  have smaller : n ≤ p / one := (Nat.le_div_iff_mul_le one_pos).mpr below
  by_cases zero : p / one = 0
  · omega
  by_cases large : Nat.pow 2 (p / one).log2 ≤ n
  · have nonzero : n ≠ 0 := Nat.pos_iff_ne_zero.mp (Nat.lt_of_lt_of_le (Nat.two_pow_pos _) large)
    have bits : n.log2 = (p / one).log2 := by
      have up : (p / one).log2 ≤ n.log2 := (Nat.le_log2 nonzero).mpr large
      have down := log2_mono n (p / one) smaller
      omega
    have same : spacing n = spacing (p / one) := by rw [spacing, bits, spacing]
    obtain ⟨m, steps⟩ := same ▸ spaced
    rw [steps] at below ⊢
    exact multiple_below p _ m (spacing_pos _) below
  -- A number of fewer bits is below the first of as many bits, and this is a multiple.
  · obtain ⟨m, steps⟩ : spacing (p / one) ∣ Nat.pow 2 (p / one).log2 := Nat.pow_dvd_pow 2 (Nat.sub_le _ 52)
    have first : Nat.pow 2 (p / one).log2 * one ≤ p :=
      (Nat.le_div_iff_mul_le one_pos).mp (Nat.log2_self_le zero)
    have reached := multiple_below p _ m (spacing_pos _) (steps ▸ first)
    omega

theorem le_rounded (spaced : spacing n ∣ n) (below : n * one ≤ p) : n ≤ rounded p := by
  refine Nat.le_trans (spaced_below p n spaced below) (Nat.mul_le_mul_left _ ?_)
  simp only [roundedQuotient]
  split <;> omega

theorem rounded_fixed (spaced : spacing n ∣ n) : rounded (n * one) = n :=
  Nat.le_antisymm (rounded_le _ n spaced (Nat.le_refl _)) (le_rounded _ n spaced (Nat.le_refl _))

theorem roundedQuotient_near (d : Nat) (positive : 0 < d) :
    ((roundedQuotient n d * d : Nat) - n : Int).natAbs ≤ n - n / d * d ∧
      ((roundedQuotient n d * d : Nat) - n : Int).natAbs ≤ (n / d + 1) * d - n := by
  have whole := Nat.div_add_mod' n d
  have rest := Nat.mod_lt n positive
  have next : (n / d + 1) * d = n / d * d + d := Nat.succ_mul _ d
  simp only [roundedQuotient]
  split
  · next up =>
      simp only [Bool.or_eq_true, decide_eq_true_eq, Bool.and_eq_true, beq_iff_eq] at up
      omega
  · next down =>
      simp only [Bool.or_eq_true, decide_eq_true_eq, Bool.and_eq_true, beq_iff_eq] at down
      omega

theorem roundedQuotient_scaled (c n d : Nat) (positive : 0 < c) :
    roundedQuotient (c * n) (c * d) = roundedQuotient n d := by
  have twice : 2 * (c * (n % d)) = c * (2 * (n % d)) := Nat.mul_left_comm _ _ _
  have tie : (c * (2 * (n % d)) == c * d) = (2 * (n % d) == d) := by
    rw [Bool.eq_iff_iff, beq_iff_eq, beq_iff_eq, Nat.mul_right_inj (Nat.pos_iff_ne_zero.mp positive)]
  simp only [roundedQuotient, Nat.mul_div_mul_left _ _ positive, Nat.mul_mod_mul_left, twice, tie,
    Nat.mul_lt_mul_left positive]

/-- No binary64 number is nearer to `p / one` than the rounded one. -/
theorem rounded_nearest (spaced : spacing n ∣ n) :
    ((rounded p * one : Nat) - p : Int).natAbs ≤ ((n * one : Nat) - p : Int).natAbs := by
  have positive := Nat.mul_pos (spacing_pos (p / one)) one_pos
  have steps : rounded p * one = roundedQuotient p (spacing (p / one) * one) * (spacing (p / one) * one) := by
    rw [rounded, Nat.mul_comm (spacing _), Nat.mul_assoc]
  obtain ⟨down, up⟩ := roundedQuotient_near p _ positive
  rw [steps]
  rcases Nat.le_total (n * one) p with below | above
  · have under := Nat.mul_le_mul_right one (spaced_below p n spaced below)
    rw [Nat.mul_comm (spacing _), Nat.mul_assoc] at under
    omega
  · by_cases hit : n * one = p
    · have fixed := rounded_fixed n spaced
      rw [hit] at fixed
      exact Nat.le_of_eq (by rw [← steps, fixed])
    obtain ⟨m, multiple⟩ := spacing_dvd_above p n spaced above
    have product : n * one = m * (spacing (p / one) * one) := by
      rw [← Nat.mul_assoc, Nat.mul_comm m, ← multiple]
    have next : p / (spacing (p / one) * one) + 1 ≤ m :=
      (Nat.div_lt_iff_lt_mul positive).mpr (by omega)
    have beyond := Nat.mul_le_mul_right (spacing (p / one) * one) next
    omega

end Rounding

theorem eq_of_units (first second : Score) (same : first.units = second.units) : first = second := by
  cases first
  cases second
  simpa using same

theorem rejected_ne_exact : rejected ≠ exact := by
  intro same
  exact Nat.ne_of_lt one_pos (congrArg units same)

theorem doubtful_ne_exact : doubtful ≠ exact := by
  intro same
  have units : Nat.pow 2 (places - 2) * 3 = one := congrArg units same
  have more := quarters
  have positive : 0 < Nat.pow 2 (places - 2) := Nat.two_pow_pos _
  omega

@[simp] theorem ofBool_eq_exact (fits : Bool) : ofBool fits = exact ↔ fits = true := by
  cases fits with
  | false => simp [ofBool, rejected_ne_exact]
  | true => simp [ofBool]

theorem times_comm (first second : Score) : first.times second = second.times first :=
  eq_of_units _ _ (congrArg rounded (Nat.mul_comm _ _))

@[simp] theorem times_exact (score : Score) : score.times exact = score :=
  eq_of_units _ _ (rounded_fixed score.units score.spaced)

@[simp] theorem exact_times (score : Score) : exact.times score = score := by
  rw [times_comm, times_exact]

theorem times_rejected (score : Score) : score.times rejected = rejected := by
  refine eq_of_units _ _ (Nat.le_zero.mp (rounded_le _ 0 (Nat.dvd_zero _) ?_))
  exact Nat.le_of_eq (Nat.mul_zero _ |>.trans (Nat.zero_mul _).symm)

theorem rejected_times (score : Score) : rejected.times score = rejected := by
  rw [times_comm, times_rejected]

/-- A factor leaves at most what was there. -/
theorem units_times_le (first second : Score) : (first.times second).units ≤ first.units :=
  rounded_le _ _ first.spaced (Nat.mul_le_mul_left _ second.atMostOne)

@[simp] theorem times_eq_exact (first second : Score) :
    first.times second = exact ↔ first = exact ∧ second = exact := by
  constructor
  · intro product
    have left := units_times_le first second
    have right := units_times_le second first
    rw [times_comm, product] at right
    rw [product] at left
    exact ⟨eq_of_units _ _ (Nat.le_antisymm first.atMostOne left),
      eq_of_units _ _ (Nat.le_antisymm second.atMostOne right)⟩
  · rintro ⟨rfl, rfl⟩
    exact times_exact exact

instance atMost : LE Score := ⟨fun low high => low.exceeds high = false⟩

theorem le_def (low high : Score) : low ≤ high ↔ low.exceeds high = false := Iff.rfl

instance decidableAtMost : DecidableRel (α := Score) (· ≤ ·) := fun low high =>
  inferInstanceAs (Decidable (low.exceeds high = false))

theorem le_iff_units (low high : Score) : low ≤ high ↔ low.units ≤ high.units := by
  simp [le_def, exceeds]

theorem rejected_le (score : Score) : rejected ≤ score := (le_iff_units _ _).mpr (Nat.zero_le _)

theorem le_refl (score : Score) : score ≤ score := (le_iff_units _ _).mpr (Nat.le_refl _)

theorem le_trans (low middle high : Score) (first : low ≤ middle) (second : middle ≤ high) : low ≤ high := by
  rw [le_iff_units] at first second ⊢
  exact Nat.le_trans first second

theorem le_exact (score : Score) : score ≤ exact := (le_iff_units _ _).mpr score.atMostOne

theorem le_of_exceeds (low high : Score) (higher : high.exceeds low = true) : low ≤ high :=
  (le_iff_units _ _).mpr (Nat.le_of_lt (of_decide_eq_true higher))

end Z80Cost.Score
