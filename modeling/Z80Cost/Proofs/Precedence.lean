import Z80Cost.Proofs.Numeral

/-!
Which forms of numbers overlap, and what their order decides. Octal digits behind a zero are decimal digits
as well; no other text is in two forms. The forms may thus be tried in any order that keeps octal before
decimal, and in no other.
-/

namespace Z80Cost.Numeral

/-- A zero before one octal digit or more. -/
def IsZeroOctal (s : Text) : Prop :=
  ∃ digits : Text, s = ('0' : UInt8) :: digits ∧ digits ≠ [] ∧ ∀ b ∈ digits, '0' ≤ b ∧ b ≤ '7'

theorem octalMarked_isDigit_iff (b : UInt8) : octalMarked.isDigit b = true ↔ '0' ≤ b ∧ b ≤ '7' := by
  simp only [isDigit, radix, Bool.and_eq_true, decide_eq_true_eq]
  rfl

theorem octalMarked_of_zero (digits : Text) (nonempty : digits ≠ []) (each : ∀ b ∈ digits, '0' ≤ b ∧ b ≤ '7') :
    octalMarked.digits? (('0' : UInt8) :: digits) = some digits := by
  have taken : octalMarked.TakesDigits digits :=
    ⟨nonempty, fun b member => (octalMarked_isDigit_iff b).mpr (each b member), by simp⟩
  exact (digits_eq_some_iff ..).mpr ⟨taken, (['0'], []), by decide, by simp⟩

theorem decimal_of_zero (digits : Text) (each : ∀ b ∈ digits, '0' ≤ b ∧ b ≤ '7') :
    decimal.digits? (('0' : UInt8) :: digits) = some (('0' : UInt8) :: digits) := by
  have narrow : ∀ b ∈ digits, decimal.isDigit b = true := fun b member =>
    isDigit_mono octalMarked (by decide) b ((octalMarked_isDigit_iff b).mpr (each b member))
  have taken : decimal.TakesDigits (('0' : UInt8) :: digits) :=
    ⟨by simp, List.forall_mem_cons.mpr ⟨by decide, narrow⟩, by simp⟩
  exact (digits_eq_some_iff ..).mpr ⟨taken, ([], []), by decide, by simp⟩

theorem isZeroOctal_iff (s : Text) :
    IsZeroOctal s ↔ (octalMarked.digits? s).isSome ∧ (decimal.digits? s).isSome := by
  constructor
  · rintro ⟨digits, rfl, nonempty, each⟩
    rw [octalMarked_of_zero digits nonempty each, decimal_of_zero digits each]
    exact ⟨rfl, rfl⟩
  · rintro ⟨octal, ten⟩
    obtain ⟨digits, found⟩ := Option.isSome_iff_exists.mp octal
    obtain ⟨more, also⟩ := Option.isSome_iff_exists.mp ten
    have taken := ((digits_eq_some_iff ..).mp found).1
    rcases digits_unique _ _ s digits more found also with impossible | ⟨_, _, zero⟩ | ⟨impossible, _⟩
    · contradiction
    · exact ⟨digits, zero, taken.nonempty, fun b member => (octalMarked_isDigit_iff b).mp (taken.each b member)⟩
    · contradiction

instance decidableIsZeroOctal (s : Text) : Decidable (IsZeroOctal s) :=
  decidable_of_iff _ (isZeroOctal_iff s).symm

theorem overlap_cases (s : Text) (form other : Numeral) (found : (form.digits? s).isSome)
    (also : (other.digits? s).isSome) :
    form = other ∨ IsZeroOctal s ∧ (form = octalMarked ∧ other = decimal ∨ form = decimal ∧ other = octalMarked) := by
  obtain ⟨digits, read⟩ := Option.isSome_iff_exists.mp found
  obtain ⟨more, reread⟩ := Option.isSome_iff_exists.mp also
  rcases digits_unique form other s digits more read reread with same | ⟨rfl, rfl, _⟩ | ⟨rfl, rfl, _⟩
  · exact .inl same
  · exact .inr ⟨(isZeroOctal_iff s).mpr ⟨found, also⟩, .inl ⟨rfl, rfl⟩⟩
  · exact .inr ⟨(isZeroOctal_iff s).mpr ⟨also, found⟩, .inr ⟨rfl, rfl⟩⟩

theorem digits_zeroOctal_iff (s : Text) (zero : IsZeroOctal s) (form : Numeral) :
    (form.digits? s).isSome ↔ form = octalMarked ∨ form = decimal := by
  obtain ⟨octal, ten⟩ := (isZeroOctal_iff s).mp zero
  constructor
  · intro found
    rcases overlap_cases s form octalMarked found octal with same | ⟨_, ⟨same, _⟩ | ⟨same, _⟩⟩
    · exact .inl same
    · exact .inl same
    · exact .inr same
  · rintro (rfl | rfl)
    · exact octal
    · exact ten

/-- Of the forms a text has, the one it is read in. -/
theorem exists_leading_form (s : Text) (form : Numeral) (found : (form.digits? s).isSome) :
    ∃ leading digits, leading.digits? s = some digits ∧ (leading = decimal → octalMarked.digits? s = none) := by
  cases octal : octalMarked.digits? s with
  | some digits => exact ⟨octalMarked, digits, octal, by simp⟩
  | none =>
      obtain ⟨digits, read⟩ := Option.isSome_iff_exists.mp found
      exact ⟨form, digits, read, fun _ => rfl⟩

theorem readIn_reordered (forms : List Numeral) (complete : ∀ form, form ∈ forms)
    (ordered : forms.idxOf octalMarked < forms.idxOf decimal) (s : Text) : readIn? forms s = readIn? all s := by
  by_cases formed : ∃ form : Numeral, (form.digits? s).isSome
  · obtain ⟨form, found⟩ := formed
    obtain ⟨leading, digits, read, first⟩ := exists_leading_form s form found
    rw [readIn_ordered forms ordered leading s digits read (complete leading) first,
      readIn_all leading s digits read first]
  · have unread : ∀ order : List Numeral, readIn? order s = none := by
      intro order
      refine Option.eq_none_iff_forall_ne_some.mpr fun v read => ?_
      obtain ⟨form, _, digits, found⟩ := digits_of_readIn order s v read
      exact formed ⟨form, Option.isSome_iff_exists.mpr ⟨digits, found⟩⟩
    rw [unread forms, unread all]

/-- Where decimal comes first, a zero does not make digits octal. -/
theorem readIn_decimal_first (forms : List Numeral) (listed : decimal ∈ forms)
    (early : forms.idxOf decimal < forms.idxOf octalMarked) (s digits : Text) (zero : IsZeroOctal s)
    (found : decimal.digits? s = some digits) : readIn? forms s = decimal.value? digits := by
  refine readIn_of_digits forms decimal s digits found listed fun other more also different => ?_
  have formed : (other.digits? s).isSome := Option.isSome_iff_exists.mpr ⟨more, also⟩
  rcases (digits_zeroOctal_iff s zero other).mp formed with rfl | ten
  · exact early
  · exact absurd ten different

/-- With decimal in front, `010` would be ten instead of eight. -/
theorem ordered_of_read (forms : List Numeral) (complete : ∀ form, form ∈ forms)
    (same : ∀ s : Text, readIn? forms s.trim.upper = read? s) :
    forms.idxOf octalMarked < forms.idxOf decimal := by
  by_contra unordered
  have distinct : forms.idxOf decimal ≠ forms.idxOf octalMarked := fun equal =>
    absurd ((List.idxOf_inj (complete decimal)).mp equal) (by decide)
  have zero : IsZeroOctal (Text.trim "010").upper := by decide
  have ten := readIn_decimal_first forms (complete decimal) (by omega) _ "010" zero (by decide)
  rw [same] at ten
  exact absurd ten (by decide)

/-- Octal digits behind a zero are octal and decimal; any other text is in one form or in none. So the orders
that read every text alike are those that keep octal before decimal. -/
theorem read_any_order :
    (∀ s, IsZeroOctal s → ∀ form : Numeral, (form.digits? s).isSome ↔ form = octalMarked ∨ form = decimal) ∧
    (∀ s, ¬ IsZeroOctal s → ∀ form other : Numeral,
      (form.digits? s).isSome → (other.digits? s).isSome → form = other) ∧
    ∀ forms : List Numeral, forms.Perm all →
      ((∀ s : Text, readIn? forms s.trim.upper = read? s) ↔ forms.idxOf octalMarked < forms.idxOf decimal) := by
  refine ⟨digits_zeroOctal_iff, ?_, ?_⟩
  · intro s apart form other found also
    rcases overlap_cases s form other found also with same | ⟨zero, _⟩
    · exact same
    · exact absurd zero apart
  · intro forms reordered
    have complete : ∀ form, form ∈ forms := fun form => reordered.mem_iff.mpr (mem_all form)
    refine ⟨ordered_of_read forms complete, fun ordered s => ?_⟩
    exact readIn_reordered forms complete ordered s.trim.upper

/-- The forms from the last to the first, but for octal before decimal. -/
def turned : List Numeral :=
  [octalMarked, decimal, binarySuffixed, binaryMarked, octalSuffixed, hexSuffixed, hexMarked, hexPrefixed]

theorem read_any_order_turned :
    IsZeroOctal "010" ∧ (octalMarked.digits? "010").isSome ∧ (decimal.digits? "010").isSome ∧
    ¬ IsZeroOctal "10B" ∧ (binarySuffixed.digits? "10B").isSome ∧ ¬ (hexSuffixed.digits? "10B").isSome ∧
    turned.Perm all ∧ readIn? turned (Text.trim " 0x1b").upper = read? " 0x1b" ∧
    ¬ turned.reverse.idxOf octalMarked < turned.reverse.idxOf decimal := by
  obtain ⟨zero, apart, order⟩ := read_any_order
  have octal := (zero "010" (by decide) octalMarked).mpr (.inl rfl)
  have ten := (zero "010" (by decide) decimal).mpr (.inr rfl)
  have binary : (binarySuffixed.digits? "10B").isSome := by decide
  have alone : ¬ (hexSuffixed.digits? "10B").isSome := fun found =>
    absurd (apart "10B" (by decide) hexSuffixed binarySuffixed found binary) (by decide)
  have reordered : turned.Perm all := by decide
  exact ⟨by decide, octal, ten, by decide, binary, alone, reordered,
    (order turned reordered).mpr (by decide) " 0x1b", by decide⟩

end Z80Cost.Numeral
