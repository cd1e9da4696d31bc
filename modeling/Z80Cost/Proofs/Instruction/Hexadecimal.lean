import Z80Cost.Instruction.Pattern
import Z80Cost.Proofs.Text.Digits

/-!
Two hexadecimal digits. A byte is written as the pair of upper-case digits that has its value, and the
byte of a pair is the one that it is written for.
-/

namespace Z80Cost

namespace Text

/-- The hexadecimal digits in the order of their values. -/
def hexAlphabet : Text := "0123456789ABCDEF"

/-- Two upper-case digits and the number they stand for. -/
def IsHexPair (n : Nat) (s : Text) : Prop :=
  ∃ high low, s = [high, low] ∧ hexAlphabet[n / 16]? = some high ∧ hexAlphabet[n % 16]? = some low

theorem IsHexPair.length {n : Nat} {s : Text} (pair : IsHexPair n s) : List.length s = 2 := by
  obtain ⟨high, low, rfl, _⟩ := pair
  rfl

theorem hexAlphabet_digit : ∀ d < 16, hexAlphabet[d]? = some (upperDigit d) := by decide

theorem isHexPair_iff (n : Nat) (s : Text) :
    IsHexPair n s ↔ n < 256 ∧ s = [upperDigit (n / 16), upperDigit (n % 16)] := by
  have low := hexAlphabet_digit (n % 16) (Nat.mod_lt n (by decide))
  constructor
  · rintro ⟨h, l, rfl, first, second⟩
    have small : n / 16 < 16 := (List.getElem?_eq_some_iff.mp first).1
    rw [hexAlphabet_digit _ small] at first
    rw [low] at second
    rw [Option.some.inj first, Option.some.inj second]
    exact ⟨by omega, rfl⟩
  · rintro ⟨small, rfl⟩
    exact ⟨_, _, rfl, hexAlphabet_digit _ (by omega), low⟩

end Text

namespace Pattern

theorem hexText_digits (b : UInt8) :
    hexText b = [Text.upperDigit (b.toNat / 16), Text.upperDigit (b.toNat % 16)] := by
  have small : b.toNat / 16 < 16 := Nat.div_lt_of_lt_mul b.toNat_lt
  have digits : hexText b = [Text.upperDigit (b.toNat / 16 % 16), Text.upperDigit (b.toNat % 16)] := rfl
  rw [digits, Nat.mod_eq_of_lt small]

theorem isHexPair_hexText (b : UInt8) : Text.IsHexPair b.toNat (hexText b) :=
  (Text.isHexPair_iff _ _).mpr ⟨b.toNat_lt, hexText_digits b⟩

theorem exists_digit (b : UInt8) (digit : isHexDigit b = true) :
    ∃ d < 16, b = Text.upperDigit d ∧ Text.digit? b = some d := by
  rw [isHexDigit, Bool.or_eq_true] at digit
  rcases digit with decimal | letter
  · obtain ⟨least, most⟩ := Text.decimal_bounds b decimal
    refine ⟨b.toNat - 0x30, by omega, ?_, Text.digit_decimal b decimal⟩
    rw [Text.upperDigit, if_pos (by omega), ← UInt8.toNat_inj, UInt8.toNat_add, Nat.toUInt8, UInt8.toNat_ofNat']
    have size : (0x30 : UInt8).toNat = 48 := rfl
    omega
  · rw [Bool.and_eq_true, decide_eq_true_eq, decide_eq_true_eq] at letter
    obtain ⟨least, most⟩ := letter
    have below : 0x41 ≤ b.toNat := UInt8.le_iff_toNat_le.mp least
    have above : b.toNat ≤ 0x46 := UInt8.le_iff_toNat_le.mp most
    refine ⟨b.toNat - 0x37, by omega, ?_, Text.digit_letter b least most⟩
    rw [Text.upperDigit, if_neg (by omega), ← UInt8.toNat_inj, UInt8.toNat_add, Nat.toUInt8, UInt8.toNat_ofNat']
    have size : (0x37 : UInt8).toNat = 55 := rfl
    omega

theorem hexByte_eq_some_iff (high low b : UInt8) :
    hexByte? high low = some b ↔ Text.IsHexPair b.toNat [high, low] := by
  have digit : ∀ d < 16, isHexDigit (Text.upperDigit d) = true ∧ Text.digit? (Text.upperDigit d) = some d := by
    decide
  rw [Text.isHexPair_iff, hexByte?, Option.ite_none_right_eq_some, Bool.and_eq_true]
  constructor
  · rintro ⟨⟨first, second⟩, value⟩
    obtain ⟨h, smallHigh, rfl, readHigh⟩ := exists_digit high first
    obtain ⟨l, smallLow, rfl, readLow⟩ := exists_digit low second
    rw [readHigh, readLow] at value
    obtain rfl := Option.some.inj value
    have whole : ((h * 16 + l).toUInt8).toNat = h * 16 + l := by
      rw [Nat.toUInt8, UInt8.toNat_ofNat']
      exact Nat.mod_eq_of_lt (by omega)
    refine ⟨UInt8.toNat_lt _, ?_⟩
    simp only [Option.getD_some, whole]
    rw [show (h * 16 + l) / 16 = h by omega, show (h * 16 + l) % 16 = l by omega]
  · rintro ⟨small, same⟩
    obtain ⟨rfl, rest⟩ := List.cons.inj same
    obtain ⟨rfl, _⟩ := List.cons.inj rest
    obtain ⟨first, readHigh⟩ := digit (b.toNat / 16) (by omega)
    obtain ⟨second, readLow⟩ := digit (b.toNat % 16) (by omega)
    refine ⟨⟨first, second⟩, ?_⟩
    rw [readHigh, readLow, Option.getD_some, Option.getD_some, Nat.div_add_mod', Nat.toUInt8, UInt8.ofNat_toNat]

theorem hexText_injective (a b : UInt8) (same : hexText a = hexText b) : a = b := by
  have first := isHexPair_hexText a
  have second := isHexPair_hexText b
  rw [same] at first
  rw [hexText_digits b, ← hexByte_eq_some_iff] at first second
  exact Option.some.inj (first.symm.trans second)

end Pattern

end Z80Cost
