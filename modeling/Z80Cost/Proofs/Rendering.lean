import Z80Cost.Proofs.Numeral

/-!
Numbers in every form. A number is rendered by its digits, with zeros before them, between the marks of
a form; letters may be in either case. White space around it is no part of it. Every rendering is read
back below 2^63, and refused from there on.
-/

namespace Z80Cost.Numeral

/-- The digits of a number behind zeros, in upper case. -/
def padded (radix zeros n : Nat) : Text := List.replicate zeros ('0' : UInt8) ++ (Text.digitsOf radix n).upper

/-- A decimal number has no zeros in front, which would make it octal, and hexadecimal digits with no
mark before them begin with a decimal one. -/
def Renders (form : Numeral) (n : Nat) (s : Text) : Prop :=
  ∃ affix ∈ form.affixes, ∃ zeros,
    (form = decimal → zeros = 0) ∧
    (form = hexSuffixed → (padded form.radix zeros n).head?.any Text.isDigit = true) ∧
    s.upper = affix.1 ++ (padded form.radix zeros n ++ affix.2)

section Padded
variable (form : Numeral) (zeros n : Nat)

theorem radix_bounds : 1 < form.radix ∧ form.radix ≤ 16 := by
  cases form <;> decide

theorem forall_mem_padded : ∀ b ∈ padded form.radix zeros n, form.isDigit b = true := by
  have digit : ∀ d < form.radix, form.isDigit (Text.upperByte (Nat.digitChar d).toUInt8) = true := by
    cases form <;> decide
  have zero : form.isDigit '0' = true := by cases form <;> decide
  have digits := Text.forall_mem_digitsOf form.radix n form.radix_bounds.1
    (fun b => form.isDigit (Text.upperByte b) = true) digit
  intro b member
  rcases List.mem_append.mp member with front | back
  · rwa [List.eq_of_mem_replicate front]
  · obtain ⟨c, inside, rfl⟩ := List.mem_map.mp back
    exact digits c inside

theorem padded_ne_nil : padded form.radix zeros n ≠ [] := by
  simp [padded, Text.upper, Text.digitsOf_ne_nil]

/-- Neither zeros in front nor the case of letters change the value. -/
theorem valueFrom_padded : Integer.valueFrom form.radix 0 (padded form.radix zeros n) = n := by
  have digits := Integer.valueFrom_digitsOf form.radix form.radix_bounds.1 form.radix_bounds.2 n []
  rw [List.append_nil] at digits
  rw [padded, Integer.valueFrom_zeros, digits]
  rfl

end Padded

theorem Renders.digits {form : Numeral} {n : Nat} {s : Text} (rendered : form.Renders n s) :
    ∃ digits, form.digits? s.upper = some digits ∧ Integer.valueFrom form.radix 0 digits = n ∧
      (form = decimal → s.upper = Text.ofNat n) := by
  obtain ⟨affix, marked, zeros, plain, leading, whole⟩ := rendered
  have taken : form.TakesDigits (padded form.radix zeros n) :=
    ⟨padded_ne_nil form zeros n, forall_mem_padded form zeros n, leading⟩
  refine ⟨padded form.radix zeros n, (digits_eq_some_iff form _ _).mpr ⟨taken, affix, marked, whole⟩,
    valueFrom_padded form zeros n, ?_⟩
  rintro rfl
  obtain rfl := plain rfl
  obtain rfl := List.mem_singleton.mp marked
  rw [whole, List.nil_append, List.append_nil]
  exact Text.upper_ofNat n

/-- A rendering has one value, whichever form it is in. -/
theorem Renders.readIn_all {form : Numeral} {n : Nat} {s : Text} (rendered : form.Renders n s) :
    readIn? all s.upper = if n < 0x8000000000000000 then some (Int64.ofNat n) else none := by
  obtain ⟨digits, found, value, plain⟩ := rendered.digits
  have taken := ((digits_eq_some_iff form _ digits).mp found).1
  have first : form = decimal → octalMarked.digits? s.upper = none := by
    intro ten
    rw [plain ten]
    exact octal_ofNat n
  rw [Numeral.readIn_all form _ digits found first, value_eq form digits taken, value]

theorem Renders.solid {form : Numeral} {n : Nat} {s : Text} (rendered : form.Renders n s) :
    ∀ b ∈ s, Text.isSolid b = true := by
  obtain ⟨digits, found, _⟩ := rendered.digits
  exact fun b member => isByte_solid b (byte_of_digits form s digits found b member)

/-- The number is read back exactly as long as it is below 2^63. -/
theorem read_rendered (form : Numeral) (n : Nat) (s : Text) (rendered : form.Renders n s)
    (before after : List Text) (blank : ∀ character ∈ before ++ after, character ∈ Text.blanks) :
    (n < 0x8000000000000000 →
      ∃ v, read? (before.flatten ++ s ++ after.flatten) = some v ∧ v.toInt = n) ∧
    (0x8000000000000000 ≤ n → read? (before.flatten ++ s ++ after.flatten) = none) := by
  rw [read?, Text.trim_surrounded before after blank s rendered.solid, rendered.readIn_all]
  constructor
  · intro small
    refine ⟨Int64.ofNat n, if_pos small, ?_⟩
    exact Int64.toInt_ofNat_of_lt small
  · intro large
    exact if_neg (Nat.not_lt.mpr large)

/-- The last number that is read, with one zero before its digits, and the first that is not. -/
theorem read_rendered_limit :
    (∃ v, read? "\t07fffFFFFffffFFFFh \r\n" = some v ∧ v.toInt = 0x7FFFFFFFFFFFFFFF) ∧
      read? "0001000000000000000000000" = none := by
  have last : hexSuffixed.Renders 0x7FFFFFFFFFFFFFFF "07fffFFFFffffFFFFh" :=
    ⟨([], ['H']), by decide, 1, by decide, by decide +kernel, by decide +kernel⟩
  have beyond : octalMarked.Renders 0x8000000000000000 "0001000000000000000000000" :=
    ⟨(['0'], []), by decide, 2, by decide, by decide, by decide +kernel⟩
  have inside := read_rendered _ _ _ last [("\t" : Text)] [(" " : Text), ("\r" : Text), ("\n" : Text)] (by decide)
  have outside := read_rendered _ _ _ beyond [] [] (by decide)
  exact ⟨inside.1 (by decide), outside.2 (by decide)⟩

end Z80Cost.Numeral
