import Z80Cost.Proofs.Text.Trim
import Z80Cost.Text.Integer

/-!
Numbers and their digits. The digits of a number in any radix have it as their positional value, and
reading stops only where the value no longer fits. Decimal digits, with or without a sign, are read back
as the number they were written for.
-/

namespace Z80Cost

namespace Text

def digitsOf (radix n : Nat) : Text := (Nat.toDigits radix n).map Char.toUInt8

section Digits
variable (radix n : Nat)

theorem digitsOf_of_lt (small : n < radix) : digitsOf radix n = [(Nat.digitChar n).toUInt8] := by
  rw [digitsOf, Nat.toDigits_of_lt_base small]
  rfl

theorem digitsOf_of_le (valid : 1 < radix) (large : radix ≤ n) :
    digitsOf radix n = digitsOf radix (n / radix) ++ [(Nat.digitChar (n % radix)).toUInt8] := by
  rw [digitsOf, Nat.toDigits_of_base_le valid large, List.map_append]
  rfl

theorem digitsOf_ne_nil : digitsOf radix n ≠ [] := by
  simp [digitsOf, Nat.toDigits_ne_nil]

/-- What holds of the digits of a radix holds of every byte of a number. -/
theorem forall_mem_digitsOf (valid : 1 < radix) (P : UInt8 → Prop)
    (each : ∀ d < radix, P (Nat.digitChar d).toUInt8) : ∀ b ∈ digitsOf radix n, P b := by
  induction n using Nat.strongRecOn with
  | ind n ih =>
      by_cases small : n < radix
      · rw [digitsOf_of_lt radix n small]
        simpa using each n small
      · rw [digitsOf_of_le radix n valid (by omega)]
        intro b member
        rcases List.mem_append.mp member with front | last
        · exact ih (n / radix) (Nat.div_lt_self (by omega) valid) b front
        · rw [List.mem_singleton.mp last]
          exact each (n % radix) (Nat.mod_lt n (by omega))

end Digits

theorem ofNat_of_lt (n : Nat) (small : n < 10) : ofNat n = [(Nat.digitChar n).toUInt8] :=
  digitsOf_of_lt 10 n small

theorem ofNat_of_le (n : Nat) (large : 10 ≤ n) :
    ofNat n = ofNat (n / 10) ++ [(Nat.digitChar (n % 10)).toUInt8] :=
  digitsOf_of_le 10 n (by decide) large

theorem ofNat_ne_nil (n : Nat) : ofNat n ≠ [] := digitsOf_ne_nil 10 n

theorem forall_mem_ofNat (P : UInt8 → Prop) (each : ∀ d < 10, P (Nat.digitChar d).toUInt8) (n : Nat) :
    ∀ b ∈ ofNat n, P b :=
  forall_mem_digitsOf 10 n (by decide) P each

theorem head_ofNat (n : Nat) (positive : 0 < n) : (ofNat n).head? ≠ some ('0' : UInt8) := by
  have digit : ∀ d < 10, 0 < d → (Nat.digitChar d).toUInt8 ≠ ('0' : UInt8) := by decide
  induction n using Nat.strongRecOn with
  | ind n ih =>
      by_cases small : n < 10
      · rw [ofNat_of_lt n small]
        simpa using digit n small positive
      · have front := ih (n / 10) (by omega) (by omega)
        obtain ⟨b, rest, whole⟩ := List.exists_cons_of_ne_nil (ofNat_ne_nil (n / 10))
        rw [ofNat_of_le n (by omega), whole]
        rwa [whole] at front

theorem trim_ofNat (n : Nat) : (ofNat n).trim = ofNat n :=
  trim_solid _ (forall_mem_ofNat (isSolid · = true) (by decide) n)

theorem upper_ofNat (n : Nat) : (ofNat n).upper = ofNat n := by
  refine (List.map_congr_left ?_).trans (List.map_id _)
  exact forall_mem_ofNat (fun b => upperByte b = id b) (by decide) n

theorem decimal_bounds (b : UInt8) (digit : isDigit b = true) : 0x30 ≤ b.toNat ∧ b.toNat ≤ 0x39 := by
  simpa [isDigit, UInt8.le_iff_toNat_le] using digit

theorem digit_decimal (b : UInt8) (digit : isDigit b = true) : digit? b = some (b.toNat - 0x30) := by
  rw [digit?, if_pos digit]

theorem digit_letter (b : UInt8) (least : 0x41 ≤ b) (most : b ≤ 0x46) : digit? b = some (b.toNat - 0x37) := by
  have large : isDigit b = false := by
    simp only [isDigit, Bool.and_eq_false_iff, decide_eq_false_iff_not]
    right
    grind
  have letter : isUpper b = true := by
    simp only [isUpper, Bool.and_eq_true, decide_eq_true_eq]
    exact ⟨least, UInt8.le_trans most (by decide)⟩
  simp [digit?, large, letter]

end Text

namespace Integer

theorem magnitudeFrom_ofNat (n : Nat) (bounded : n < 0x10000000000000000) (rest : Text) :
    magnitudeFrom 10 0 (Text.ofNat n ++ rest) = magnitudeFrom 10 n rest := by
  have digit : ∀ d < 10, Text.digit? (Nat.digitChar d).toUInt8 = some d := by decide
  -- The last digit comes off the end, so what follows the digits is general.
  induction n using Nat.strongRecOn generalizing rest with
  | ind n ih =>
      by_cases small : n < 10
      · rw [Text.ofNat_of_lt n small, List.cons_append, magnitudeFrom, digit n small]
        have whole : 0 * 10 + n = n := by omega
        simp only [Nat.not_le.mpr small, whole, Nat.not_le.mpr bounded, ↓reduceIte, List.nil_append]
      · have last : n % 10 < 10 := Nat.mod_lt n (by decide)
        have whole : n / 10 * 10 + n % 10 = n := Nat.div_add_mod' n 10
        rw [Text.ofNat_of_le n (by omega), List.append_assoc, ih (n / 10) (by omega) (by omega),
          List.cons_append, magnitudeFrom, digit _ last]
        simp only [Nat.not_le.mpr last, whole, Nat.not_le.mpr bounded, ↓reduceIte, List.nil_append]

theorem magnitude_ofNat (n : Nat) (bounded : n < 0x10000000000000000) : magnitude 10 (Text.ofNat n) = .ok n := by
  have read := magnitudeFrom_ofNat n bounded []
  rw [List.append_nil] at read
  have nonempty : (Text.ofNat n).isEmpty = false := by simp [Text.ofNat_ne_nil n]
  rw [magnitude, nonempty, read]
  rfl

/-- The value of digits behind the value `n`, without a bound. -/
def valueFrom (radix : Nat) : (n : Nat) → Text → Nat
  | n, [] => n
  | n, b :: s => valueFrom radix (n * radix + (Text.digit? b).getD 0) s

theorem le_valueFrom (radix : Nat) (positive : 0 < radix) (n : Nat) (s : Text) : n ≤ valueFrom radix n s := by
  induction s generalizing n with
  | nil => exact Nat.le_refl n
  | cons b s ih =>
      have shifted : n ≤ n * radix := Nat.le_mul_of_pos_right n positive
      exact Nat.le_trans (Nat.le_trans shifted (Nat.le_add_right _ _)) (ih _)

/-- Digits are read up to their value, and refused where it does not fit. -/
theorem magnitudeFrom_eq (radix : Nat) (n : Nat) (s : Text) (bounded : n < 0x10000000000000000)
    (each : ∀ b ∈ s, ∃ d < radix, Text.digit? b = some d) :
    magnitudeFrom radix n s = if valueFrom radix n s < 0x10000000000000000 then .ok (valueFrom radix n s)
      else .error .outOfRange := by
  induction s generalizing n with
  | nil => simp only [magnitudeFrom, valueFrom, bounded, ↓reduceIte]
  | cons b s ih =>
      obtain ⟨⟨d, small, read⟩, others⟩ := List.forall_mem_cons.mp each
      simp only [magnitudeFrom, valueFrom, read, Nat.not_le.mpr small, ↓reduceIte, Option.getD_some]
      by_cases fits : n * radix + d < 0x10000000000000000
      · rw [if_neg (Nat.not_le.mpr fits), ih _ fits others]
      · have grows := le_valueFrom radix (by omega) (n * radix + d) s
        rw [if_pos (Nat.not_lt.mp fits), if_neg (by omega)]

/-- The digits of a number have its value, whatever digits follow; letters may be in upper case. -/
theorem valueFrom_digitsOf (radix : Nat) (valid : 1 < radix) (letters : radix ≤ 16) (n : Nat) (rest : Text) :
    valueFrom radix 0 ((Text.digitsOf radix n).upper ++ rest) = valueFrom radix n rest := by
  have digit : ∀ d < 16, Text.digit? (Text.upperByte (Nat.digitChar d).toUInt8) = some d := by decide
  induction n using Nat.strongRecOn generalizing rest with
  | ind n ih =>
      by_cases small : n < radix
      · rw [Text.digitsOf_of_lt radix n small]
        simp [Text.upper, valueFrom, digit n (by omega)]
      · have last : n % radix < radix := Nat.mod_lt n (by omega)
        rw [Text.digitsOf_of_le radix n valid (by omega), Text.upper, List.map_append, List.append_assoc]
        rw [← Text.upper, ih (n / radix) (Nat.div_lt_self (by omega) valid)]
        simp [valueFrom, digit _ (show n % radix < 16 by omega), Nat.div_add_mod']

theorem valueFrom_zeros (radix zeros : Nat) (rest : Text) :
    valueFrom radix 0 (List.replicate zeros ('0' : UInt8) ++ rest) = valueFrom radix 0 rest := by
  have zero : Text.digit? '0' = some 0 := by decide
  induction zeros with
  | zero => rfl
  | succ zeros ih => simpa [List.replicate_succ, valueFrom, zero] using ih

theorem read_ofInt64 (v : Int64) : read (Text.ofInt64 v) = .ok v := by
  have least : -0x8000000000000000 ≤ v.toInt := v.minValue_le_toInt
  have most : v.toInt ≤ 0x7FFFFFFFFFFFFFFF := v.toInt_le
  rw [read, Text.ofInt64, Text.ofInt]
  split
  · next negative =>
      have bounded : v.toInt.natAbs ≤ 0x8000000000000000 := by omega
      have value : Int64.ofInt (-(v.toInt.natAbs : Int)) = v := by
        rw [show -(v.toInt.natAbs : Int) = v.toInt by omega, Int64.ofInt_toInt]
      rw [readSigned, if_pos rfl, magnitude_ofNat _ (by omega)]
      change signed true _ = _
      rw [signed, if_pos rfl, if_pos bounded, value]
  · next positive =>
      have bounded : v.toInt.natAbs < 0x8000000000000000 := by omega
      have value : Int64.ofNat v.toInt.natAbs = v := by
        rw [← Int64.ofInt_eq_ofNat, show (v.toInt.natAbs : Int) = v.toInt by omega, Int64.ofInt_toInt]
      have digit : ∀ b ∈ Text.ofNat v.toInt.natAbs, b ≠ '-' ∧ b ≠ '+' := Text.forall_mem_ofNat _ (by decide) _
      obtain ⟨d, digits, split⟩ := List.exists_cons_of_ne_nil (Text.ofNat_ne_nil v.toInt.natAbs)
      have unsigned := digit d (by simp [split])
      have magnitude := magnitude_ofNat v.toInt.natAbs (by omega)
      rw [split] at magnitude ⊢
      rw [readSigned, if_neg unsigned.1, if_neg unsigned.2, magnitude]
      change signed false _ = _
      rw [signed, if_neg (by decide), if_pos bounded, value]

end Integer

end Z80Cost
