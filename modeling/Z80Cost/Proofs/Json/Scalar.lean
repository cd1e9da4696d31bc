import Z80Cost.Json
import Z80Cost.Proofs.Numeral
import Z80Cost.Proofs.Text.Symbol

/-!
Strings and numbers are read back as they were written. Each character of a string is read in front of
whatever follows it, in all three ways in which it may be written; a number ends where a comma or a line
does.
-/

namespace Z80Cost

open Text (ofChar IsUtf8)

namespace Json

/-- The characters with a letter behind a backslash. -/
def lettered : List Char := ['"', '\\', '\x08', '\x0c', '\n', '\r', '\t']

theorem escapeChar_lettered (c : Char) (member : c ∈ lettered) :
    ∃ letter b, escapeChar c = [('\\' : UInt8), letter] ∧ letter ≠ 'u' ∧ escaped? letter = some b ∧
      ofChar c = [b] := by
  simp only [lettered, List.mem_cons, List.not_mem_nil, or_false] at member
  rcases member with rfl | rfl | rfl | rfl | rfl | rfl | rfl
  · exact ⟨'"', '"', by decide⟩
  · exact ⟨'\\', '\\', by decide⟩
  · exact ⟨'b', 0x08, by decide⟩
  · exact ⟨'f', 0x0C, by decide⟩
  · exact ⟨'n', 0x0A, by decide⟩
  · exact ⟨'r', 0x0D, by decide⟩
  · exact ⟨'t', 0x09, by decide⟩

theorem escapeChar_other (c : Char) (other : c ∉ lettered) :
    escapeChar c =
      if byCode c then ('\\' : UInt8) :: ('u' : UInt8) :: Text.hexDigits Text.lowerDigit 4 c.toNat
      else ofChar c := by
  simp only [lettered, List.mem_cons, List.not_mem_nil, or_false, not_or] at other
  obtain ⟨quote, backslash, b, f, n, r, t⟩ := other
  have letterless : letter? c = none := by simp only [letter?, b, f, n, r, t, ↓reduceIte]
  have escape : Text.ofString "\\u" = [('\\' : UInt8), ('u' : UInt8)] := by decide
  simp only [escapeChar, quote, backslash, or_self, ↓reduceIte, letterless, escape, List.cons_append,
    List.nil_append]

/-- Below the surrogates, a code is a character of its own. -/
theorem byCode_lt (c : Char) (coded : byCode c = true) : c.toNat < 0xD800 := by
  simp only [byCode, Bool.or_eq_true, decide_eq_true_eq, beq_iff_eq, or_assoc] at coded
  rcases coded with small | rfl | rfl | rfl | line | paragraph
  · omega
  · decide
  · decide
  · decide
  · omega
  · omega

/-- A byte that stands for itself between the quotes. -/
def IsPlain (b : UInt8) : Prop := b ≠ '"' ∧ b ≠ '\\' ∧ 0x20 ≤ b

theorem ofChar_plain (c : Char) (other : c ∉ lettered) (uncoded : byCode c = false) :
    ∀ b ∈ ofChar c, IsPlain b := by
  by_cases small : c.toNat < 0x80
  · have printed : 0x20 ≤ c.toNat := by
      simp only [byCode, Bool.or_eq_false_iff, decide_eq_false_iff_not] at uncoded
      omega
    have apart : ∀ d : Char, d.toNat < 0x80 → c ≠ d → UInt8.ofNat c.toNat ≠ UInt8.ofNat d.toNat := by
      intro d ascii different same
      have values := congrArg UInt8.toNat same
      rw [UInt8.toNat_ofNat', UInt8.toNat_ofNat', Nat.mod_eq_of_lt (by omega), Nat.mod_eq_of_lt (by omega)]
        at values
      exact different (Char.toNat_inj.mp values)
    intro b member
    rw [Text.ofChar_ascii c small, List.mem_singleton] at member
    subst member
    refine ⟨apart '"' (by decide) ?_, apart '\\' (by decide) ?_, ?_⟩
    · rintro rfl
      exact other (by decide)
    · rintro rfl
      exact other (by decide)
    · rw [UInt8.le_iff_toNat_le, UInt8.toNat_ofNat', Nat.mod_eq_of_lt (by omega)]
      exact printed
  · have high : ∀ b : UInt8, 0x80 ≤ b → IsPlain b := by
      intro b large
      refine ⟨?_, ?_, UInt8.le_trans (by decide) large⟩ <;>
      · rintro rfl
        revert large
        decide
    intro b member
    exact high b (Text.ofChar_other c (by omega) b member)

theorem hexDigit_lowerDigit : ∀ d < 16, hexDigit? (Text.lowerDigit d) = some d := by decide

theorem hexDigits_four (v : Nat) : Text.hexDigits Text.lowerDigit 4 v =
    [Text.lowerDigit (v / 16 / 16 / 16 % 16), Text.lowerDigit (v / 16 / 16 % 16),
      Text.lowerDigit (v / 16 % 16), Text.lowerDigit (v % 16)] := rfl

theorem code_hexDigits (v : Nat) (bounded : v < 0x10000) (rest : Text) :
    code? (Text.hexDigits Text.lowerDigit 4 v ++ rest) = some v := by
  have digit : ∀ n, hexDigit? (Text.lowerDigit (n % 16)) = some (n % 16) := fun n =>
    hexDigit_lowerDigit (n % 16) (Nat.mod_lt n (by decide))
  simp only [hexDigits_four, List.cons_append, code?, digit, Option.bind_eq_bind, Option.bind_some, Option.pure_def]
  congr 1
  omega

theorem stringLength_cons (n : Nat) (mode next : StringMode) (b : UInt8) (s : Text)
    (inside : ¬ (mode = .plain ∧ b = '"')) (step : mode.next b = .ok next) :
    stringLength n mode (b :: s) = stringLength (n + 1) next s := by
  rw [stringLength, if_neg inside, step]

theorem stringLength_plain (n : Nat) (s rest : Text) (plain : ∀ b ∈ s, IsPlain b) :
    stringLength n .plain (s ++ rest) = stringLength (n + s.length) .plain rest := by
  induction s generalizing n with
  | nil => rfl
  | cons b s ih =>
      obtain ⟨⟨quote, backslash, printed⟩, others⟩ := List.forall_mem_cons.mp plain
      have step : StringMode.next .plain b = .ok .plain := by
        rw [StringMode.next, if_neg backslash, if_neg (UInt8.not_lt.mpr printed)]
      rw [List.cons_append, stringLength_cons n _ _ b _ (fun both => quote both.2) step, ih (n + 1) others,
        List.length_cons]
      congr 1
      omega

theorem stringLength_digit (n due d : Nat) (small : d < 16) (s : Text) :
    stringLength n (.code due) (Text.lowerDigit d :: s) =
      stringLength (n + 1) (if due ≤ 1 then .plain else .code (due - 1)) s := by
  apply stringLength_cons
  · simp
  · simp only [StringMode.next, hexDigit_lowerDigit d small, Option.isNone_some, Bool.false_eq_true, ↓reduceIte]
    split <;> rfl

theorem stringLength_escapeChar (n : Nat) (c : Char) (rest : Text) :
    stringLength n .plain (escapeChar c ++ rest) = stringLength (n + (escapeChar c).length) .plain rest := by
  have backslash : StringMode.next .plain '\\' = .ok .escape := rfl
  by_cases member : c ∈ lettered
  · obtain ⟨letter, b, written, other, stands, _⟩ := escapeChar_lettered c member
    have step : StringMode.next .escape letter = .ok .plain := by
      rw [StringMode.next, if_neg other, stands]
      rfl
    rw [written, List.cons_append, stringLength_cons n _ _ _ _ (by decide) backslash, List.cons_append,
      stringLength_cons _ _ _ _ _ (by simp) step]
    rfl
  · rw [escapeChar_other c member]
    split
    · have code : StringMode.next .escape 'u' = .ok (.code 4) := rfl
      have digit : ∀ v, v % 16 < 16 := fun v => Nat.mod_lt v (by decide)
      rw [hexDigits_four, List.cons_append, stringLength_cons n _ _ _ _ (by decide) backslash, List.cons_append,
        stringLength_cons _ _ _ _ _ (by decide) code]
      simp [stringLength_digit _ _ _ (digit _)]
    · next uncoded => exact stringLength_plain n _ rest (ofChar_plain c member (by simpa using uncoded))

theorem unescapeOnto_drop (done : Text) (skip : Nat) (s : Text) :
    unescapeOnto done skip s = unescapeOnto done 0 (s.drop skip) := by
  induction s generalizing skip with
  | nil => simp [unescapeOnto]
  | cons b s ih =>
      cases skip with
      | zero => rfl
      | succ skip => exact ih skip

theorem unescapeOnto_symbol (done bytes : Text) (b : UInt8) (more rest : Text)
    (symbol : stringSymbol b (more ++ rest) = (bytes, more.length)) :
    unescapeOnto done 0 (b :: more ++ rest) = unescapeOnto (bytes.reverse ++ done) 0 rest := by
  rw [List.cons_append, unescapeOnto, symbol]
  simp only [unescapeOnto_drop _ more.length, List.drop_left]

theorem character_plain (c : Char) (small : c.toNat < 0xD800) (s : Text) : character c.toNat s = (c, 0) := by
  have high : isHighSurrogate c.toNat = false := by
    simp only [isHighSurrogate, Bool.and_eq_false_iff, decide_eq_false_iff_not]
    omega
  have low : isLowSurrogate c.toNat = false := by
    simp only [isLowSurrogate, Bool.and_eq_false_iff, decide_eq_false_iff_not]
    omega
  simp only [character, high, low, Bool.false_eq_true, ↓reduceIte, Char.ofNat_toNat]

theorem unescapeOnto_escapeChar (done : Text) (c : Char) (rest : Text) :
    unescapeOnto done 0 (escapeChar c ++ rest) = unescapeOnto ((ofChar c).reverse ++ done) 0 rest := by
  by_cases member : c ∈ lettered
  · obtain ⟨letter, b, written, _, stands, bytes⟩ := escapeChar_lettered c member
    rw [written, bytes]
    apply unescapeOnto_symbol done [b] '\\' [letter] rest
    simp [stringSymbol, stands]
  · rw [escapeChar_other c member]
    split
    · next coded =>
        have small := byCode_lt c coded
        have unlettered : escaped? 'u' = none := by decide
        apply unescapeOnto_symbol done (ofChar c) '\\' ('u' :: Text.hexDigits Text.lowerDigit 4 c.toNat) rest
        simp only [stringSymbol, ↓reduceIte, List.cons_append, unlettered, code_hexDigits c.toNat (by omega) rest,
          Option.getD_some, character_plain c small]
        rfl
    · next uncoded =>
        obtain ⟨b, more, bytes, decoded⟩ := Text.character_ofChar c
        have plain := ofChar_plain c member (by simpa using uncoded)
        rw [bytes] at plain
        have backslash := (plain b List.mem_cons_self).2.1
        rw [bytes]
        apply unescapeOnto_symbol done (b :: more) b more rest
        simp only [stringSymbol, backslash, ↓reduceIte, decoded, bytes]

theorem stringLength_escaped (n : Nat) (chars : List Char) (rest : Text) :
    stringLength n .plain (chars.flatMap escapeChar ++ ('"' : UInt8) :: rest) =
      .ok (n + (chars.flatMap escapeChar).length) := by
  induction chars generalizing n with
  | nil => rfl
  | cons c chars ih =>
      rw [List.flatMap_cons, List.append_assoc, stringLength_escapeChar, ih, List.length_append, Nat.add_assoc]

theorem unescapeOnto_escaped (done : Text) (chars : List Char) :
    unescapeOnto done 0 (chars.flatMap escapeChar) = (chars.flatMap ofChar).reverse ++ done := by
  induction chars generalizing done with
  | nil => rfl
  | cons c chars ih =>
      rw [List.flatMap_cons, unescapeOnto_escapeChar, ih, List.flatMap_cons, List.reverse_append,
        List.append_assoc]

/-- A string is written between quotes, and read back from behind the first to the second. -/
theorem readString_quote (s : Text) (valid : IsUtf8 s) :
    ∃ body, quote s = ('"' : UInt8) :: (body ++ [('"' : UInt8)]) ∧
      ∀ rest, readString (body ++ ('"' : UInt8) :: rest) = .ok (s, body.length + 1) := by
  obtain ⟨chars, rfl⟩ := valid
  have mark : Text.ofString "\"" = [('"' : UInt8)] := by decide
  have written : (chars.map Text.Symbol.character).flatMap escapeSymbol = chars.flatMap escapeChar := by
    rw [List.flatMap_map]
    rfl
  refine ⟨chars.flatMap escapeChar, ?_, fun rest => ?_⟩
  · rw [quote, Text.symbols_chars, written, mark, List.append_assoc]
    rfl
  · have length := stringLength_escaped 0 chars rest
    rw [Nat.zero_add] at length
    rw [readString, length]
    change Except.ok (unescape _, _) = _
    rw [List.take_left, unescape, unescapeOnto_escaped, List.append_nil, List.reverse_reverse]

/-- What follows a value: a comma or the end of a line. -/
def Ends (rest : Text) : Prop := rest.head? = some (',' : UInt8) ∨ rest.head? = some ('\n' : UInt8)

theorem ends_cases (rest : Text) (ends : Ends rest) : ∃ b more, rest = b :: more ∧
    Text.isDigit b = false ∧ b ≠ '.' ∧ b ≠ 'e' ∧ b ≠ 'E' := by
  rcases ends with comma | line
  · obtain ⟨more, rfl⟩ := List.head?_eq_some_iff.mp comma
    exact ⟨_, more, rfl, by decide⟩
  · obtain ⟨more, rfl⟩ := List.head?_eq_some_iff.mp line
    exact ⟨_, more, rfl, by decide⟩

theorem integerPart_ofNat (n : Nat) (rest : Text) (ends : Ends rest) :
    integerPart (Text.ofNat n ++ rest) = .ok (Text.ofNat n).length := by
  by_cases zero : n = 0
  · subst zero
    rfl
  · have digit : ∀ b ∈ Text.ofNat n, Text.isDigit b = true := Text.forall_mem_ofNat _ (by decide) n
    have first := Text.head_ofNat n (Nat.pos_of_ne_zero zero)
    obtain ⟨b, more, rfl, other, _⟩ := ends_cases rest ends
    have run : (Text.ofNat n ++ b :: more).takeWhile Text.isDigit = Text.ofNat n := by
      rw [List.takeWhile_append_of_pos digit, List.takeWhile_cons_of_neg (by simp [other]), List.append_nil]
    obtain ⟨d, digits, whole⟩ := List.exists_cons_of_ne_nil (Text.ofNat_ne_nil n)
    rw [whole] at digit first run ⊢
    rw [List.cons_append] at run ⊢
    rw [List.head?_cons] at first
    rw [integerPart, List.head?_cons, if_neg first, Json.digits, if_pos (digit d List.mem_cons_self), run]

theorem numberLength_ofInt64 (v : Int64) (rest : Text) (ends : Ends rest) :
    numberLength (Text.ofInt64 v ++ rest) = .ok (Text.ofInt64 v).length := by
  obtain ⟨b, more, same, _, point, lower, upper⟩ := ends_cases rest ends
  have fraction : fractionPart rest = .ok 0 := by rw [same, fractionPart, if_neg point]
  have exponent : exponentPart rest = .ok 0 := by
    simp only [same, exponentPart, lower, upper, or_self, ↓reduceIte]
  have whole := integerPart_ofNat v.toInt.natAbs rest ends
  have unsigned : (Text.ofNat v.toInt.natAbs ++ rest).head? ≠ some ('-' : UInt8) := by
    have digit : ∀ b ∈ Text.ofNat v.toInt.natAbs, b ≠ '-' := Text.forall_mem_ofNat _ (by decide) _
    obtain ⟨d, digits, split⟩ := List.exists_cons_of_ne_nil (Text.ofNat_ne_nil v.toInt.natAbs)
    rw [split] at digit ⊢
    simpa using digit d List.mem_cons_self
  rw [Text.ofInt64, Text.ofInt]
  split
  · simp only [numberLength, List.cons_append, List.head?_cons, ↓reduceIte, List.drop_succ_cons, List.drop_zero,
      whole, Nat.add_comm 1, List.drop_left, fraction, exponent, Nat.add_zero, List.length_cons, bind, pure,
      Except.bind, Except.pure]
  · simp only [numberLength, unsigned, ↓reduceIte, List.drop_zero, whole, Nat.zero_add, List.drop_left, fraction,
      exponent, Nat.add_zero, bind, pure, Except.bind, Except.pure]

end Json

end Z80Cost
