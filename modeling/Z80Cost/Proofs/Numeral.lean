import Mathlib.Data.List.Basic
import Z80Cost.Proofs.Expression.Reading
import Z80Cost.Proofs.Operand
import Z80Cost.Proofs.Text.Digits

/-!
The forms of numbers. A form is its marks and the digits it takes. Beside hexadecimal digits its marks
are all that a text in it holds, so the bytes of a text tell the form; only a zero before octal digits
looks decimal as well. A number is thus read in the one form it has, to its positional value. Decimal
numbers are read back from their digits, as numerals and as expressions.
-/

namespace Z80Cost

theorem Text.before_eq_some_iff (b : UInt8) (s rest : Text) : before? b s = some rest ↔ s = rest ++ [b] := by
  rw [before?]
  split
  · next last =>
      obtain ⟨front, rfl⟩ := List.getLast?_eq_some_iff.mp last
      simp
  · next other =>
      refine ⟨fun impossible => by contradiction, ?_⟩
      rintro rfl
      simp at other

namespace Numeral

/-- The marks of a form before its digits and behind them, in upper case. -/
def affixes : Numeral → List (Text × Text)
  | hexPrefixed => [(['0', 'X'], [])]
  | hexMarked => [(['#'], []), (['$'], []), (['&'], [])]
  | hexSuffixed => [([], ['H'])]
  | octalMarked => [(['0'], []), (['@'], [])]
  | octalSuffixed => [([], ['O'])]
  | binaryMarked => [(['%'], [])]
  | binarySuffixed => [([], ['B'])]
  | decimal => [([], [])]

structure TakesDigits (form : Numeral) (digits : Text) : Prop where
  nonempty : digits ≠ []
  each : ∀ b ∈ digits, form.isDigit b = true
  leading : form = hexSuffixed → digits.head?.any Text.isDigit = true

theorem unmarked_eq_some_iff (form : Numeral) (s digits : Text) :
    form.unmarked? s = some digits ↔ (form = hexSuffixed → s.head?.any Text.isDigit = true) ∧
      ∃ affix ∈ form.affixes, s = affix.1 ++ (digits ++ affix.2) := by
  have zeroX : Text.ofString "0X" = [('0' : UInt8), ('X' : UInt8)] := by decide
  have percent : Text.ofString "%" = [('%' : UInt8)] := by decide
  cases form with
  | hexPrefixed => simp [unmarked?, affixes, Text.after_eq_some_iff, zeroX]
  | hexMarked =>
      cases s with
      | nil => simp [unmarked?, affixes]
      | cons b s => simp [unmarked?, affixes, ← or_and_right]
  | hexSuffixed => simp [unmarked?, affixes, Text.before_eq_some_iff]
  | octalMarked =>
      cases s with
      | nil => simp [unmarked?, affixes]
      | cons b s => simp [unmarked?, affixes, ← or_and_right]
  | octalSuffixed => simp [unmarked?, affixes, Text.before_eq_some_iff]
  | binaryMarked => simp [unmarked?, affixes, Text.after_eq_some_iff, percent]
  | binarySuffixed => simp [unmarked?, affixes, Text.before_eq_some_iff]
  | decimal =>
      simp [unmarked?, affixes]

/-- The digits of a text in a form are what its marks leave, if the form takes them. -/
theorem digits_eq_some_iff (form : Numeral) (s digits : Text) :
    form.digits? s = some digits ↔
      form.TakesDigits digits ∧ ∃ affix ∈ form.affixes, s = affix.1 ++ (digits ++ affix.2) := by
  rw [digits?, Option.filter_eq_some_iff, unmarked_eq_some_iff, Bool.and_eq_true, Bool.not_eq_true',
    List.isEmpty_eq_false_iff, List.all_eq_true]
  constructor
  · rintro ⟨⟨leading, affix, marked, rfl⟩, nonempty, each⟩
    refine ⟨⟨nonempty, each, ?_⟩, affix, marked, rfl⟩
    rintro rfl
    obtain rfl := List.mem_singleton.mp marked
    obtain ⟨first, others, rfl⟩ := List.exists_cons_of_ne_nil nonempty
    exact leading rfl
  · rintro ⟨taken, affix, marked, rfl⟩
    refine ⟨⟨?_, affix, marked, rfl⟩, taken.nonempty, taken.each⟩
    rintro rfl
    obtain rfl := List.mem_singleton.mp marked
    obtain ⟨first, others, rfl⟩ := List.exists_cons_of_ne_nil taken.nonempty
    exact taken.leading rfl

theorem isDigit_mono (form : Numeral) (narrow : form.radix ≤ 10) (b : UInt8) (digit : form.isDigit b = true) :
    decimal.isDigit b = true := by
  cases form with
  | hexPrefixed | hexMarked | hexSuffixed => contradiction
  | octalMarked | octalSuffixed =>
      simp only [isDigit, radix, Bool.and_eq_true, decide_eq_true_eq] at digit
      simp only [isDigit, radix, Text.isDigit, Bool.and_eq_true, decide_eq_true_eq]
      exact ⟨digit.1, UInt8.le_trans digit.2 (by decide)⟩
  | binaryMarked | binarySuffixed =>
      simp only [isDigit, radix, Bool.or_eq_true, beq_iff_eq] at digit
      rcases digit with rfl | rfl <;> decide
  | decimal => exact digit

/-- Every digit is a hexadecimal one. -/
theorem isDigit_hex (form : Numeral) (b : UInt8) (digit : form.isDigit b = true) : hexMarked.isDigit b = true := by
  cases form with
  | hexPrefixed | hexMarked | hexSuffixed => exact digit
  | octalMarked | octalSuffixed | binaryMarked | binarySuffixed | decimal =>
      have narrow : Text.isDigit b = true := isDigit_mono _ (by decide) b digit
      simp [isDigit, radix, narrow]

/-- The form that a byte tells that is no hexadecimal digit. -/
def ofMark (b : UInt8) : Numeral :=
  if b = 'X' then hexPrefixed
  else if b = 'H' then hexSuffixed
  else if b = '@' then octalMarked
  else if b = 'O' then octalSuffixed
  else if b = '%' then binaryMarked
  else hexMarked

/-- The only form that a text can have, but for octal digits behind a zero. -/
def told (s : Text) : Numeral :=
  match s.find? (!hexMarked.isDigit ·) with
  | some b => ofMark b
  | none => if s.contains 'B' then binarySuffixed else decimal

/-- Digits are passed over, so the marks alone tell the form. -/
theorem find_mark (form : Numeral) (digits : Text) (taken : form.TakesDigits digits) (front back : Text) :
    (front ++ (digits ++ back)).find? (!hexMarked.isDigit ·) = (front ++ back).find? (!hexMarked.isDigit ·) := by
  have passed : digits.find? (!hexMarked.isDigit ·) = none := by
    rw [List.find?_eq_none]
    intro b member
    simp [isDigit_hex form b (taken.each b member)]
  rw [List.find?_append, List.find?_append, List.find?_append, passed, Option.none_or]

theorem letter_not_mem (form : Numeral) (narrow : form.radix ≤ 10) (digits : Text)
    (taken : form.TakesDigits digits) : ('B' : UInt8) ∉ digits := by
  intro member
  have digit := isDigit_mono form narrow 'B' (taken.each 'B' member)
  contradiction

theorem told_unmarked (s : Text) (none : s.find? (!hexMarked.isDigit ·) = none) :
    told s = if ('B' : UInt8) ∈ s then binarySuffixed else decimal := by
  rw [told, none]
  simp only [List.contains_eq_mem, decide_eq_true_eq]

theorem told_of_digits (form : Numeral) (s digits : Text) (found : form.digits? s = some digits) :
    told s = form ∨ form = octalMarked ∧ told s = decimal ∧ s = ('0' : UInt8) :: digits := by
  obtain ⟨taken, affix, marked, rfl⟩ := (digits_eq_some_iff form s digits).mp found
  have first := find_mark form digits taken affix.1 affix.2
  cases form with
  | hexPrefixed | hexSuffixed | octalSuffixed | binaryMarked =>
      obtain rfl := List.mem_singleton.mp marked
      left
      rw [told, first]
      rfl
  | hexMarked =>
      left
      rw [told, first]
      simp only [affixes, List.mem_cons, List.not_mem_nil, or_false] at marked
      rcases marked with rfl | rfl | rfl <;> rfl
  | octalMarked =>
      simp only [affixes, List.mem_cons, List.not_mem_nil, or_false] at marked
      rcases marked with rfl | rfl
      · have free := letter_not_mem octalMarked (by decide) digits taken
        have other : ('B' : UInt8) ≠ '0' := by decide
        refine .inr ⟨rfl, ?_, by simp⟩
        rw [told_unmarked _ first]
        simp [free, other]
      · left
        rw [told, first]
        rfl
  | binarySuffixed =>
      obtain rfl := List.mem_singleton.mp marked
      left
      rw [told_unmarked _ first]
      simp
  | decimal =>
      obtain rfl := List.mem_singleton.mp marked
      have free := letter_not_mem decimal (by decide) digits taken
      left
      rw [told_unmarked _ first]
      simp [free]

/-- A text has one form, or two: octal and decimal, as a zero before octal digits. -/
theorem digits_unique (form other : Numeral) (s digits more : Text) (found : form.digits? s = some digits)
    (also : other.digits? s = some more) :
    form = other ∨ form = octalMarked ∧ other = decimal ∧ s = ('0' : UInt8) :: digits ∨
      form = decimal ∧ other = octalMarked ∧ s = ('0' : UInt8) :: more := by
  rcases told_of_digits form s digits found with same | ⟨octal, decimal, zero⟩
  · rcases told_of_digits other s more also with same' | ⟨octal, decimal, zero⟩
    · exact .inl (same.symm.trans same')
    · exact .inr (.inr ⟨same.symm.trans decimal, octal, zero⟩)
  · rcases told_of_digits other s more also with same | ⟨octal', _, _⟩
    · exact .inr (.inl ⟨octal, same.symm.trans decimal, zero⟩)
    · exact .inl (octal.trans octal'.symm)

/-- A text is read in a form it has, if this comes before every other form it has. -/
theorem readIn_of_digits (forms : List Numeral) (form : Numeral) (s digits : Text)
    (found : form.digits? s = some digits) (listed : form ∈ forms)
    (first : ∀ other more, other.digits? s = some more → other ≠ form → forms.idxOf form < forms.idxOf other) :
    readIn? forms s = form.value? digits := by
  induction forms with
  | nil => contradiction
  | cons head forms ih =>
      by_cases same : head = form
      · rw [readIn?, same, found]
      have passed : head.digits? s = none := by
        refine Option.eq_none_iff_forall_ne_some.mpr fun more also => ?_
        have before := first head more also same
        rw [List.idxOf_cons_self] at before
        exact Nat.not_lt_zero _ before
      rw [readIn?, passed]
      refine ih (List.mem_of_ne_of_mem (Ne.symm same) listed) fun other more also different => ?_
      have unlike : head ≠ other := by
        rintro rfl
        rw [passed] at also
        contradiction
      have before := first other more also different
      rw [List.idxOf_cons_ne forms same, List.idxOf_cons_ne forms unlike] at before
      exact Nat.lt_of_succ_lt_succ before

/-- Where octal comes before decimal, a number is read in the form it has; octal digits behind a zero are
not read as decimal ones. -/
theorem readIn_ordered (forms : List Numeral) (ordered : forms.idxOf octalMarked < forms.idxOf decimal)
    (form : Numeral) (s digits : Text) (found : form.digits? s = some digits) (listed : form ∈ forms)
    (first : form = decimal → octalMarked.digits? s = none) : readIn? forms s = form.value? digits := by
  refine readIn_of_digits forms form s digits found listed fun other more also different => ?_
  rcases digits_unique form other s digits more found also with same | ⟨rfl, rfl, _⟩ | ⟨ten, rfl, _⟩
  · exact absurd same.symm different
  · exact ordered
  · rw [first ten] at also
    contradiction

theorem mem_all (form : Numeral) : form ∈ all := by
  cases form <;> decide

theorem readIn_all (form : Numeral) (s digits : Text) (found : form.digits? s = some digits)
    (first : form = decimal → octalMarked.digits? s = none) : readIn? all s = form.value? digits :=
  readIn_ordered all (by decide) form s digits found (mem_all form) first

/-- What a numeral may begin with: a decimal digit, or a mark in front of one. -/
def isFront (b : UInt8) : Bool := Text.isDigit b || (['#', '$', '&', '@', '%'] : List UInt8).contains b

/-- Where no mark stands before them, the first of the digits is decimal. -/
theorem TakesDigits.decimal_leading {form : Numeral} {first : UInt8} {others : Text}
    (taken : form.TakesDigits (first :: others)) (bare : form.radix ≤ 10 ∨ form = hexSuffixed) :
    Text.isDigit first = true := by
  rcases bare with narrow | suffixed
  · exact isDigit_mono form narrow first (taken.each first List.mem_cons_self)
  · exact taken.leading suffixed

theorem front_of_digits (form : Numeral) (b : UInt8) (s digits : Text)
    (found : form.digits? (b :: s) = some digits) : isFront b = true := by
  obtain ⟨taken, affix, marked, whole⟩ := (digits_eq_some_iff form _ digits).mp found
  obtain ⟨first, others, rfl⟩ := List.exists_cons_of_ne_nil taken.nonempty
  cases form with
  | hexPrefixed | binaryMarked =>
      obtain rfl := List.mem_singleton.mp marked
      obtain ⟨rfl, _⟩ := List.cons.inj whole
      rfl
  | hexMarked =>
      simp only [affixes, List.mem_cons, List.not_mem_nil, or_false] at marked
      rcases marked with rfl | rfl | rfl <;> obtain ⟨rfl, _⟩ := List.cons.inj whole <;> rfl
  | octalMarked =>
      simp only [affixes, List.mem_cons, List.not_mem_nil, or_false] at marked
      rcases marked with rfl | rfl <;> obtain ⟨rfl, _⟩ := List.cons.inj whole <;> rfl
  | hexSuffixed | octalSuffixed | binarySuffixed | decimal =>
      obtain rfl := List.mem_singleton.mp marked
      obtain ⟨rfl, _⟩ := List.cons.inj whole
      have digit := taken.decimal_leading (by decide)
      simp [isFront, digit]

theorem digits_of_readIn (forms : List Numeral) (s : Text) (v : Int64) (read : readIn? forms s = some v) :
    ∃ form ∈ forms, ∃ digits, form.digits? s = some digits := by
  induction forms with
  | nil => contradiction
  | cons form others ih =>
      cases found : form.digits? s with
      | some digits => exact ⟨form, List.mem_cons_self, digits, found⟩
      | none =>
          rw [readIn?, found] at read
          obtain ⟨other, listed, digits, later⟩ := ih read
          exact ⟨other, List.mem_cons_of_mem form listed, digits, later⟩

theorem front_of_read (b : UInt8) (s : Text) (v : Int64) (solid : Text.isSolid b)
    (read : read? (b :: s) = some v) : isFront (Text.upperByte b) = true := by
  rw [read?, Text.trim_cons s b solid, Text.upper, List.map_cons] at read
  obtain ⟨form, _, digits, found⟩ := digits_of_readIn all _ v read
  exact front_of_digits form _ _ digits found

/-! The bytes of a number -/

/-- What a number may hold in either case: digits, letters, and the marks in front of them. -/
def isByte (b : UInt8) : Bool := Text.isWord b || isFront b

theorem isByte_solid (b : UInt8) (byte : isByte b = true) : Text.isSolid b = true := by
  have marks : (['#', '$', '&', '@', '%'] : Text).all Text.isSolid = true := by decide
  have decimal (digit : Text.isDigit b = true) : Text.isWord b = true := by simp [Text.isWord, digit]
  simp only [isByte, isFront, Bool.or_eq_true, List.contains_iff_mem] at byte
  rcases byte with word | digit | mark
  · exact Text.isWord_solid b word
  · exact Text.isWord_solid b (decimal digit)
  · exact List.all_eq_true.mp marks b mark

theorem isByte_upperByte (b : UInt8) (byte : isByte (Text.upperByte b) = true) : isByte b = true := by
  rw [Text.upperByte] at byte
  split at byte
  · next lower => simp [isByte, Text.isWord, lower]
  · exact byte

theorem byte_of_digits (form : Numeral) (s digits : Text) (found : form.digits? s.upper = some digits) :
    ∀ b ∈ s, isByte b = true := by
  have marks : ∀ affix ∈ form.affixes, (affix.1 ++ affix.2).all isByte = true := by cases form <;> decide
  obtain ⟨taken, affix, marked, whole⟩ := (digits_eq_some_iff form _ digits).mp found
  have each : ∀ b ∈ digits, isByte b = true := by
    intro b member
    have digit := isDigit_hex form b (taken.each b member)
    simp only [isDigit, radix, Bool.or_eq_true] at digit
    rcases digit with ten | letter
    · simp [isByte, isFront, ten]
    · simp only [Bool.and_eq_true, decide_eq_true_eq] at letter
      have upper : Text.isUpper b = true := by
        simp only [Text.isUpper, Bool.and_eq_true, decide_eq_true_eq]
        exact ⟨letter.1, UInt8.le_trans letter.2 (by decide)⟩
      simp [isByte, Text.isWord, upper]
  obtain ⟨before, behind⟩ := List.forall_mem_append.mp (List.all_eq_true.mp (marks affix marked))
  have all : ∀ b ∈ s.upper, isByte b = true := by
    rw [whole]
    exact List.forall_mem_append.mpr ⟨before, List.forall_mem_append.mpr ⟨each, behind⟩⟩
  exact fun b member => isByte_upperByte b (all _ (List.mem_map_of_mem member))

theorem read_trim (s : Text) : read? s.trim = read? s := by
  rw [read?, read?, Text.trim_trim]

theorem byte_of_read (s : Text) (v : Int64) (read : read? s = some v) : ∀ b ∈ s.trim, isByte b = true := by
  obtain ⟨form, _, digits, found⟩ := digits_of_readIn all _ v read
  exact byte_of_digits form s.trim digits found

theorem digit_of_isDigit (form : Numeral) (b : UInt8) (digit : form.isDigit b = true) :
    ∃ d < form.radix, Text.digit? b = some d := by
  cases form with
  | hexPrefixed | hexMarked | hexSuffixed =>
      simp only [isDigit, radix, Bool.or_eq_true] at digit
      rcases digit with ten | letter
      · refine ⟨_, ?_, Text.digit_decimal b ten⟩
        have bounds := Text.decimal_bounds b ten
        simp only [radix]
        omega
      · simp only [Bool.and_eq_true, decide_eq_true_eq] at letter
        refine ⟨_, ?_, Text.digit_letter b letter.1 letter.2⟩
        have bound := UInt8.le_iff_toNat_le.mp letter.2
        simp only [radix, UInt8.reduceToNat] at bound ⊢
        omega
  | octalMarked | octalSuffixed =>
      refine ⟨_, ?_, Text.digit_decimal b (isDigit_mono _ (by decide) b digit)⟩
      simp only [isDigit, radix, Bool.and_eq_true, decide_eq_true_eq] at digit
      have bound := UInt8.le_iff_toNat_le.mp digit.2
      simp only [radix, UInt8.reduceToNat] at bound ⊢
      omega
  | binaryMarked | binarySuffixed =>
      simp only [isDigit, radix, Bool.or_eq_true, beq_iff_eq] at digit
      rcases digit with rfl | rfl
      · exact ⟨0, by decide, by decide⟩
      · exact ⟨1, by decide, by decide⟩
  | decimal =>
      have bounds := Text.decimal_bounds b digit
      refine ⟨_, ?_, Text.digit_decimal b digit⟩
      simp only [radix]
      omega

/-- Digits have their positional value, if it is below 2^63. -/
theorem value_eq (form : Numeral) (digits : Text) (taken : form.TakesDigits digits) :
    form.value? digits = if Integer.valueFrom form.radix 0 digits < 0x8000000000000000 then
      some (Int64.ofNat (Integer.valueFrom form.radix 0 digits)) else none := by
  have nonempty : digits.isEmpty = false := List.isEmpty_eq_false_iff.mpr taken.nonempty
  have read := Integer.magnitudeFrom_eq form.radix 0 digits (by decide)
    fun b member => digit_of_isDigit form b (taken.each b member)
  rw [value?, Integer.magnitude, nonempty, if_neg (by decide), read]
  by_cases fits : Integer.valueFrom form.radix 0 digits < 0x10000000000000000
  · simp only [fits, ↓reduceIte]
  · have large : ¬ Integer.valueFrom form.radix 0 digits < 0x8000000000000000 := by omega
    simp only [fits, large, ↓reduceIte]

theorem decimal_ofNat (n : Nat) : decimal.digits? (Text.ofNat n) = some (Text.ofNat n) := by
  have all : ∀ b ∈ Text.ofNat n, decimal.isDigit b = true := Text.forall_mem_ofNat _ (by decide) n
  rw [digits_eq_some_iff]
  refine ⟨⟨Text.ofNat_ne_nil n, all, by simp⟩, ([], []), by decide, by simp⟩

/-- Written without a zero in front, a number is not octal. -/
theorem octal_ofNat (n : Nat) : octalMarked.digits? (Text.ofNat n) = none := by
  by_cases zero : n = 0
  · subst zero
    decide
  refine Option.eq_none_iff_forall_ne_some.mpr fun digits found => ?_
  rcases digits_unique _ _ _ digits _ found (decimal_ofNat n) with impossible | ⟨_, _, whole⟩ | ⟨impossible, _⟩
  · contradiction
  · exact Text.head_ofNat n (Nat.pos_of_ne_zero zero) (by rw [whole]; rfl)
  · contradiction

theorem value_ofNat (n : Nat) (bounded : n < 0x8000000000000000) :
    decimal.value? (Text.ofNat n) = some (Int64.ofNat n) := by
  have taken := ((digits_eq_some_iff _ _ _).mp (decimal_ofNat n)).1
  have value := Integer.valueFrom_digitsOf 10 (by decide) (by decide) n []
  rw [List.append_nil] at value
  change Integer.valueFrom 10 0 (Text.ofNat n).upper = n at value
  rw [Text.upper_ofNat] at value
  rw [value_eq decimal _ taken]
  simp only [radix, value, bounded, ↓reduceIte]

theorem read_ofNat (n : Nat) (bounded : n < 0x8000000000000000) :
    read? (Text.ofNat n) = some (Int64.ofNat n) := by
  rw [read?, Text.trim_ofNat, Text.upper_ofNat, readIn_all decimal _ _ (decimal_ofNat n) fun _ => octal_ofNat n]
  exact value_ofNat n bounded

end Numeral

theorem Expression.eval_ofNat (n : Nat) (bounded : n < 0x8000000000000000) :
    eval? (Text.ofNat n) = some (Int64.ofNat n) := by
  have run : IsRun (Text.ofNat n) :=
    .inl (Text.forall_mem_ofNat InRun (fun d digit => .inl (by revert d; decide)) n)
  have number : Derives 8 (Text.ofNat n) (Int64.ofNat n) :=
    .number run (Numeral.read_ofNat n bounded)
  refine eval_of_derives _ _ ?_
  rw [Text.trim_ofNat]
  exact derives_mono number 1 (by decide)

end Z80Cost
