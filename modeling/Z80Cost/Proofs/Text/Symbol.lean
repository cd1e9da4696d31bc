import Z80Cost.Text.Symbol

/-!
Characters are read back from their UTF-8 bytes, whatever follows them, so the symbols of a text that
characters make up are those characters.
-/

namespace Z80Cost.Text

theorem following_cons (count code bits : Nat) (small : bits < 64) (s : Text) :
    following? (count + 1) code (UInt8.ofNat (bits + 0x80) :: s) = following? count (code * 64 + bits) s := by
  have inside : ∀ bits < 64, (0x80 ≤ UInt8.ofNat (bits + 0x80) && UInt8.ofNat (bits + 0x80) < 0xC0) = true ∧
      (UInt8.ofNat (bits + 0x80)).toNat - 0x80 = bits := by decide
  obtain ⟨follows, value⟩ := inside bits small
  rw [following?, if_pos follows, value]

theorem leadByte_one : ∀ bits < 0x80, leadByte? (UInt8.ofNat bits) = some (bits, 0, 0) := by decide

theorem leadByte_two : ∀ bits < 32, leadByte? (UInt8.ofNat (bits + 0xC0)) = some (bits, 1, 0x80) := by decide

theorem leadByte_three : ∀ bits < 16, leadByte? (UInt8.ofNat (bits + 0xE0)) = some (bits, 2, 0x800) := by decide

theorem leadByte_four : ∀ bits < 8, leadByte? (UInt8.ofNat (bits + 0xF0)) = some (bits, 3, 0x10000) := by decide

/-- A character from the parts of its first byte and the code that the bytes after it complete. -/
theorem character_of_code (c : Char) (b : UInt8) (s : Text) (bits count least : Nat)
    (lead : leadByte? b = some (bits, count, least)) (code : following? count bits s = some c.toNat)
    (shortest : least ≤ c.toNat) : character? b s = some (c, count) := by
  have valid : c.toNat.isValidChar := c.valid
  have same : Char.ofNatAux c.toNat valid = c := Char.ext rfl
  rw [character?, lead]
  dsimp only
  rw [code]
  dsimp only
  rw [dif_pos valid, if_pos shortest, same]

theorem toNat_lt (c : Char) : c.toNat < 0x110000 := by
  have valid : c.toNat.isValidChar := c.valid
  unfold Nat.isValidChar at valid
  omega

/-- The bytes of a character, read in front of any text. -/
theorem character_ofChar (c : Char) : ∃ b more, ofChar c = b :: more ∧
    ∀ rest, character? b (more ++ rest) = some (c, more.length) := by
  have bounded := toNat_lt c
  have value : c.val.toNat = c.toNat := rfl
  simp only [ofChar, String.utf8EncodeChar, value]
  split
  · refine ⟨_, [], rfl, fun rest => ?_⟩
    exact character_of_code c _ _ c.toNat 0 0 (leadByte_one _ (by omega)) rfl (by omega)
  · split
    · refine ⟨_, [_], rfl, fun rest => ?_⟩
      apply character_of_code c _ _ _ 1 0x80 (leadByte_two (c.toNat / 64 % 32) (by omega)) _ (by omega)
      rw [List.cons_append, following_cons 0 _ _ (by omega), following?]
      congr 1
      omega
    · split
      · refine ⟨_, [_, _], rfl, fun rest => ?_⟩
        apply character_of_code c _ _ _ 2 0x800 (leadByte_three (c.toNat / 4096 % 16) (by omega)) _ (by omega)
        rw [List.cons_append, following_cons 1 _ _ (by omega), List.cons_append,
          following_cons 0 _ _ (by omega), following?]
        congr 1
        omega
      · refine ⟨_, [_, _, _], rfl, fun rest => ?_⟩
        apply character_of_code c _ _ _ 3 0x10000 (leadByte_four (c.toNat / 262144 % 8) (by omega)) _ (by omega)
        rw [List.cons_append, following_cons 2 _ _ (by omega), List.cons_append,
          following_cons 1 _ _ (by omega), List.cons_append, following_cons 0 _ _ (by omega), following?]
        congr 1
        omega

theorem ofChar_ascii (c : Char) (small : c.toNat < 0x80) : ofChar c = [UInt8.ofNat c.toNat] := by
  have value : c.val.toNat = c.toNat := rfl
  rw [ofChar, String.utf8EncodeChar, value, if_pos (by omega)]

/-- Outside ASCII every byte of a character is. -/
theorem ofChar_other (c : Char) (large : 0x80 ≤ c.toNat) : ∀ b ∈ ofChar c, 0x80 ≤ b := by
  have high : ∀ bits < 0x80, (0x80 : UInt8) ≤ UInt8.ofNat (bits + 0x80) := by decide
  have value : c.val.toNat = c.toNat := rfl
  have each : ∀ bits, 0x80 ≤ bits → bits < 0x100 → (0x80 : UInt8) ≤ UInt8.ofNat bits := by
    intro bits from_high below
    have shifted := high (bits - 0x80) (by omega)
    rwa [Nat.sub_add_cancel from_high] at shifted
  intro b member
  rw [ofChar, String.utf8EncodeChar, value, if_neg (by omega)] at member
  split at member
  · simp only [List.mem_cons, List.not_mem_nil, or_false] at member
    rcases member with rfl | rfl <;> exact each _ (by omega) (by omega)
  · split at member
    · simp only [List.mem_cons, List.not_mem_nil, or_false] at member
      rcases member with rfl | rfl | rfl <;> exact each _ (by omega) (by omega)
    · simp only [List.mem_cons, List.not_mem_nil, or_false] at member
      rcases member with rfl | rfl | rfl | rfl <;> exact each _ (by omega) (by omega)

/-- Well-formed UTF-8. -/
def IsUtf8 (s : Text) : Prop := ∃ chars : List Char, s = chars.flatMap ofChar

theorem symbolsOnto_drop (found : List Symbol) (skip : Nat) (s : Text) :
    symbolsOnto found skip s = symbolsOnto found 0 (s.drop skip) := by
  induction s generalizing skip with
  | nil => simp [symbolsOnto]
  | cons b s ih =>
      cases skip with
      | zero => rfl
      | succ skip => exact ih skip

theorem symbolsOnto_ofChar (found : List Symbol) (c : Char) (rest : Text) :
    symbolsOnto found 0 (ofChar c ++ rest) = symbolsOnto (.character c :: found) 0 rest := by
  obtain ⟨b, more, bytes, decoded⟩ := character_ofChar c
  rw [bytes, List.cons_append, symbolsOnto, decoded]
  simp only [symbolsOnto_drop _ more.length, List.drop_left]

theorem symbolsOnto_chars (found : List Symbol) (chars : List Char) :
    symbolsOnto found 0 (chars.flatMap ofChar) = (chars.map Symbol.character).reverse ++ found := by
  induction chars generalizing found with
  | nil => rfl
  | cons c chars ih =>
      rw [List.flatMap_cons, symbolsOnto_ofChar, ih, List.map_cons, List.reverse_cons, List.append_assoc]
      rfl

theorem symbols_chars (chars : List Char) : symbols (chars.flatMap ofChar) = chars.map Symbol.character := by
  rw [symbols, symbolsOnto_chars, List.append_nil, List.reverse_reverse]

theorem isUtf8_ofString (s : String) : IsUtf8 s := by
  refine ⟨s.toList, ?_⟩
  have bytes : s.toByteArray = s.toList.utf8Encode := by
    rw [← String.toByteArray_ofList, String.ofList_toList]
  rw [ofString, bytes, List.utf8Encode, List.data_toByteArray]
  rfl

end Z80Cost.Text
