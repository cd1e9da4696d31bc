import Z80Cost.Proofs.Text.Trim

/-!
Words with one space between neighbours are the words of the text they make.
-/

namespace Z80Cost.Text

structure IsToken (s : Text) : Prop where
  nonempty : s ≠ []
  solid : ∀ b ∈ s, isSolid b = true

theorem leading_solid (b : UInt8) (s : Text) (solid : isSolid b = true) : leading blanks (b :: s) = 0 := by
  have stops := leading_append_cons blanks b [] s fun blank member inside =>
    absurd inside (solid_foreign b solid blank member)
  rw [List.nil_append, leading_nil] at stops
  exact stops

theorem wordsOnto_solid (word : Text) (words : List Text) (token rest : Text)
    (solid : ∀ b ∈ token, isSolid b = true) :
    wordsOnto word words 0 (token ++ rest) = wordsOnto (token.reverse ++ word) words 0 rest := by
  induction token generalizing word with
  | nil => rfl
  | cons b token ih =>
      obtain ⟨first, others⟩ := List.forall_mem_cons.mp solid
      rw [List.cons_append, wordsOnto, leading_solid b _ first, List.reverse_cons, List.append_assoc]
      exact ih (b :: word) others

theorem wordsOnto_space (word : Text) (words : List Text) (s : Text) :
    wordsOnto word words 0 ((' ' : UInt8) :: s) = wordsOnto [] (pushWord word words) 0 s := by
  have space : leading blanks ((' ' : UInt8) :: s) = 1 := rfl
  rw [wordsOnto, space]

theorem wordsOnto_join (words : List Text) (first : Text) (tokens : List Text) (starts : IsToken first)
    (each : ∀ token ∈ tokens, IsToken token) :
    wordsOnto [] words 0 (join " " (first :: tokens)) = (first :: tokens).reverse ++ words := by
  have pushed : ∀ held token, IsToken token → pushWord token.reverse held = token :: held := by
    intro held token valid
    simp [pushWord, valid.nonempty]
  have separator : Text.ofString " " = [(' ' : UInt8)] := by decide
  induction tokens generalizing words first with
  | nil =>
      have whole := wordsOnto_solid [] words first [] starts.solid
      rw [List.append_nil, List.append_nil] at whole
      simp only [join, List.intercalate_singleton, whole, wordsOnto, pushed words first starts]
      rfl
  | cons second rest ih =>
      obtain ⟨next, others⟩ := List.forall_mem_cons.mp each
      rw [join, List.intercalate_cons_cons, separator, List.append_assoc, wordsOnto_solid _ _ _ _ starts.solid,
        List.append_nil, List.singleton_append, wordsOnto_space, pushed words first starts]
      have later := ih (first :: words) second next others
      rw [join, separator] at later
      rw [later]
      simp

theorem words_join (tokens : List Text) (each : ∀ token ∈ tokens, IsToken token) :
    words (join " " tokens) = tokens := by
  cases tokens with
  | nil => rfl
  | cons first rest =>
      obtain ⟨starts, others⟩ := List.forall_mem_cons.mp each
      rw [words, wordsOnto_join [] first rest starts others, List.append_nil, List.reverse_reverse]

theorem words_token (token : Text) (valid : IsToken token) : words token = [token] := by
  have single := words_join [token] (by simpa using valid)
  rwa [join, List.intercalate_singleton] at single

end Z80Cost.Text
