import Z80Cost.Proofs.Directive.Encoding
import Z80Cost.Proofs.Expression.Reading

/-!
Strings as values. A literal is an expression too if it holds one byte, and that byte is then its value;
longer ones and the empty one have none. So a list of bytes and a list of words read a single character
alike, though each decodes it on its own.
-/

namespace Z80Cost

open Source (Quote Literal)

namespace Expression

theorem quote_solid (quote : Quote) : ¬ (quote.byte = ' ' ∨ quote.byte = '\t') := by
  cases quote <;> decide

/-- The first byte of a literal, if it is closed behind it. -/
theorem readAll_closed (quote : Quote) (b : UInt8) (s : Text) :
    (State.due []).readAll 0 (quote.byte :: (Literal.doubled quote [b] ++ quote.byte :: s)) =
      (State.read (Int64.ofNat b.toNat) []).readAll 0 s := by
  have value : wrapped b.toNat = Int64.ofNat b.toNat := Int64.ofInt_eq_ofNat
  rw [← value, Literal.doubled_cons]
  by_cases same : b = quote.byte
  · rw [if_pos same, same]
    exact readAll_quote quote.byte quote.delimits [] s
  · rw [if_neg same]
    exact readAll_character quote.byte b quote.delimits same [] s

theorem operandToken_quote (quote : Quote) (s : Text) (undecoded : character? quote.byte s = none) :
    operandToken? quote.byte s = none := by
  cases quote with
  | single => exact Option.map_eq_none_iff.mpr undecoded
  | double => exact Option.map_eq_none_iff.mpr undecoded

/-- A second byte keeps the literal open. -/
theorem readAll_open (quote : Quote) (b c : UInt8) (s : Text) (other : c ≠ quote.byte) :
    (State.due []).readAll 0 (quote.byte :: (Literal.doubled quote [b] ++ c :: s)) = none := by
  have undecoded : character? quote.byte (Literal.doubled quote [b] ++ c :: s) = none := by
    rw [Literal.doubled_cons]
    by_cases same : b = quote.byte <;> simp [same, Literal.doubled, character?, other]
  exact readAll_stuck _ _ _ (quote_solid quote) (operandToken_quote quote _ undecoded)

/-- No operator begins with a quote. -/
theorem readAll_behind (quote : Quote) (v : Int64) (s : Text) :
    (State.read v []).readAll 0 (quote.byte :: s) = none :=
  readAll_stuck _ _ _ (quote_solid quote) (by cases quote <;> rfl)

theorem eval_single (quote : Quote) (b : UInt8) :
    eval? (Literal.written ⟨quote, [b]⟩) = some (Int64.ofNat b.toNat) := by
  rw [eval?, (Literal.isField_written _).trimmed, Literal.written, readAll_closed]
  rfl

theorem eval_string (literal : Literal) (several : literal.content.length ≠ 1) : eval? literal.written = none := by
  obtain ⟨quote, content⟩ := literal
  have unread : (State.due []).readAll 0 (Literal.written ⟨quote, content⟩) = none := by
    rw [Literal.written]
    cases content with
    | nil => cases quote <;> rfl
    | cons b more =>
        cases more with
        | nil => exact absurd rfl several
        | cons c rest =>
            have split : Literal.doubled quote (b :: c :: rest) =
                Literal.doubled quote [b] ++ Literal.doubled quote (c :: rest) := by
              simp only [Literal.doubled, List.flatMap_cons, List.flatMap_nil, List.append_nil]
            rw [split, List.append_assoc, Literal.doubled_cons quote c]
            -- Of a second byte that is a delimiter, one half closes the first and the other is left over.
            by_cases same : c = quote.byte
            · rw [if_pos same, same, List.cons_append, readAll_closed]
              exact readAll_behind quote _ _
            · rw [if_neg same, List.cons_append]
              exact readAll_open quote b c _ same
  rw [eval?, (Literal.isField_written _).trimmed, unread]

end Expression

namespace Directive

theorem toInt_ofByte (b : UInt8) : (Int64.ofNat b.toNat).toInt = b.toNat := by
  have small := b.toNat_lt
  exact Int64.toInt_ofNat_of_lt (by omega)

theorem lowByte_ofByte (b : UInt8) : lowByte (Int64.ofNat b.toNat) = Pattern.hexText b := by
  have small := b.toNat_lt
  have low : ((b.toNat : Int) % 256).toNat = b.toNat := by omega
  rw [lowByte, toInt_ofByte, low, Nat.toUInt8, UInt8.ofNat_toNat]

theorem highByte_ofByte (b : UInt8) : lowByte (Int64.ofNat b.toNat >>> 8) = "00" := by
  have small := b.toNat_lt
  have high : ((b.toNat : Int) / 256 % 256).toNat = 0 := by omega
  rw [lowByte, toInt_shiftRight_eight, toInt_ofByte, high]
  decide

/-- Exactly the written literals are unquoted, and to what they were written from. One that holds a single
byte has that byte as its value, so bytes and words list it alike; no other literal has a value. -/
theorem unquote_inverts (operand w : Text) :
    (unquote? operand = some w ↔
      ∃ quote : Quote, operand = quote.byte :: (Literal.doubled quote w ++ [quote.byte])) ∧
    (∀ b, unquote? operand = some [b] → Expression.eval? operand = some (Int64.ofNat b.toNat) ∧
      byteTokens operand = [Pattern.hexText b] ∧ wordTokens operand = [Pattern.hexText b, "00"]) ∧
    (unquote? operand = some w → w.length ≠ 1 → Expression.eval? operand = none) := by
  refine ⟨?_, ?_, ?_⟩
  · rw [unquote_eq_some_iff]
    constructor
    · rintro ⟨literal, rfl, rfl⟩
      exact ⟨literal.quote, rfl⟩
    · rintro ⟨quote, rfl⟩
      exact ⟨⟨quote, w⟩, rfl, rfl⟩
  · intro b found
    obtain ⟨⟨quote, content⟩, written, rfl⟩ := (unquote_eq_some_iff operand [b]).mp found
    have value : Expression.eval? operand = some (Int64.ofNat b.toNat) := by
      rw [written]
      exact Expression.eval_single quote b
    refine ⟨value, by simp [byteTokens, found], ?_⟩
    simp only [wordTokens, value, lowByte_ofByte, highByte_ofByte]
  · intro found several
    obtain ⟨literal, rfl, rfl⟩ := (unquote_eq_some_iff operand w).mp found
    exact Expression.eval_string literal several

/-- A quote between quotes, which takes four of them, and two characters. -/
theorem unquote_inverts_quote :
    unquote? "''''" = some ("'" : Text) ∧ Expression.eval? "''''" = some 39 ∧
    byteTokens "''''" = [("27" : Text)] ∧ wordTokens "''''" = [("27" : Text), "00"] ∧
    unquote? "\"it\"" = some ("it" : Text) ∧ Expression.eval? "\"it\"" = none := by
  have quote : unquote? "''''" = some ("'" : Text) := (unquote_inverts _ _).1.mpr ⟨.single, by decide⟩
  have pair : unquote? "\"it\"" = some ("it" : Text) := (unquote_inverts _ _).1.mpr ⟨.double, by decide⟩
  obtain ⟨value, bytes, words⟩ := (unquote_inverts "''''" "'").2.1 39 quote
  exact ⟨quote, value, bytes, words, pair, (unquote_inverts _ _).2.2 pair (by decide)⟩

end Directive

end Z80Cost
