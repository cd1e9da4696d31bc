import Z80Cost.Directive
import Z80Cost.Proofs.Source.Literal

/-!
Unquoting undoes how literals are written, and accepts nothing else: a delimiter inside stands twice, and
one alone is the last byte of the text.
-/

namespace Z80Cost.Directive

open Source (Quote Literal)

theorem unquoteOnto_other (quote b : UInt8) (done s : Text) (other : b ≠ quote) :
    unquoteOnto? quote done (b :: s) = unquoteOnto? quote (b :: done) s := by
  rw [unquoteOnto?.eq_def]
  exact if_neg other

theorem unquoteOnto_doubled (quote : Quote) (done content : Text) :
    unquoteOnto? quote.byte done (Literal.doubled quote content ++ [quote.byte]) =
      some (content.reverse ++ done) := by
  induction content generalizing done with
  | nil => simp [Literal.doubled, unquoteOnto?]
  | cons b content ih =>
      rw [Literal.doubled_cons]
      by_cases same : b = quote.byte
      · rw [if_pos same, same]
        simp [unquoteOnto?, ih]
      · rw [if_neg same, List.cons_append, unquoteOnto_other _ b done _ same, ih]
        simp

theorem unquote_written (literal : Literal) : unquote? literal.written = some literal.content := by
  rw [Literal.written, unquote?, if_pos literal.quote.delimits.symm, unquoteOnto_doubled]
  simp

/-- What was unquoted is the content that the text doubles the delimiters of. -/
theorem doubled_of_unquoteOnto (quote : Quote) (done s w : Text)
    (found : unquoteOnto? quote.byte done s = some w) :
    ∃ content, s = Literal.doubled quote content ++ [quote.byte] ∧ w = content.reverse ++ done := by
  induction done, s using unquoteOnto?.induct quote.byte with
  | case1 => contradiction
  | case2 done =>
      simp [unquoteOnto?] at found
      exact ⟨[], by simp [Literal.doubled], by simp [found]⟩
  | case3 done rest ih =>
      rw [unquoteOnto?.eq_def] at found
      obtain ⟨content, rfl, rfl⟩ := ih (by simpa using found)
      exact ⟨quote.byte :: content, by simp [Literal.doubled_cons], by simp⟩
  | case4 done c rest other => simp [unquoteOnto?, other] at found
  | case5 done b s other ih =>
      rw [unquoteOnto_other _ b done s other] at found
      obtain ⟨content, rfl, rfl⟩ := ih found
      exact ⟨b :: content, by simp [Literal.doubled_cons, other], by simp⟩

/-- Exactly the written literals are unquoted, and to their content. -/
theorem unquote_eq_some_iff (operand w : Text) :
    unquote? operand = some w ↔ ∃ literal : Literal, operand = literal.written ∧ literal.content = w := by
  constructor
  · intro found
    unfold unquote? at found
    split at found
    · contradiction
    · next delimiter s =>
        obtain ⟨delimits, rest⟩ := Option.ite_none_right_eq_some.mp found
        obtain ⟨quote, rfl⟩ : ∃ quote : Quote, delimiter = quote.byte := by
          rcases delimits with rfl | rfl
          · exact ⟨.double, rfl⟩
          · exact ⟨.single, rfl⟩
        obtain ⟨reversed, onto, rfl⟩ := Option.map_eq_some_iff.mp rest
        obtain ⟨content, rfl, rfl⟩ := doubled_of_unquoteOnto quote [] s reversed onto
        exact ⟨⟨quote, content⟩, rfl, by simp⟩
  · rintro ⟨literal, rfl, rfl⟩
    exact unquote_written literal

end Z80Cost.Directive
