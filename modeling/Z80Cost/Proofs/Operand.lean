import Z80Cost.Operand
import Z80Cost.Proofs.Score
import Z80Cost.Proofs.Text.Trim

/-!
Operands in parentheses or brackets, and operands with an index register. What is between balanced
delimiters is found again, and an index register is told by its name and the byte after it.
-/

namespace Z80Cost

namespace Text

theorem after_eq_some_iff (head s rest : Text) : after? head s = some rest ↔ s = head ++ rest := by
  induction head generalizing s with
  | nil => simp [after?, eq_comm]
  | cons h head ih =>
      cases s with
      | nil => simp [after?]
      | cons b s =>
          by_cases same : h = b
          · simp [after?, same, ih]
          · simp [after?, same, Ne.symm same]

theorem endsWith_iff (tail s : Text) : endsWith tail s = true ↔ tail <:+ s := by
  rw [endsWith, List.isPrefixOf_iff_prefix, List.reverse_prefix]

end Text

namespace IndexRegister

/-- What may follow an index register in an operand: nothing, or a text that no word byte begins. -/
def IsOffset (s : Text) : Prop := ∀ b ∈ s.head?, Text.isWord b = false

theorem isOffset_iff (s : Text) : IsOffset s ↔ (!s.head?.any Text.isWord) = true := by
  cases s <;> simp [IsOffset]

instance : DecidablePred IsOffset := fun s => decidable_of_iff _ (isOffset_iff s).symm

theorem isBaseOf_iff (index : IndexRegister) (s : Text) :
    index.isBaseOf s = true ↔ ∃ rest, s = index.name ++ rest ∧ IsOffset rest := by
  unfold isBaseOf
  cases found : Text.after? index.name s with
  | none =>
      refine ⟨fun impossible => by contradiction, fun ⟨rest, same, _⟩ => ?_⟩
      rw [(Text.after_eq_some_iff index.name s rest).mpr same] at found
      contradiction
  | some tail =>
      have whole := (Text.after_eq_some_iff index.name s tail).mp found
      rw [← isOffset_iff]
      refine ⟨fun valid => ⟨tail, whole, valid⟩, fun ⟨rest, same, valid⟩ => ?_⟩
      rw [whole] at same
      rwa [List.append_cancel_left same]

end IndexRegister

namespace Operand

def delimiters : List (UInt8 × UInt8) := [('(', ')'), ('[', ']')]

theorem mem_delimiters (pair : UInt8 × UInt8) :
    pair ∈ delimiters ↔ pair = (('(' : UInt8), (')' : UInt8)) ∨ pair = (('[' : UInt8), (']' : UInt8)) := by
  simp [delimiters]

/-- Whether every `opening` of a text is closed in it and nothing else is; `depth` are open. -/
def balanced (opening closing : UInt8) : (depth : Nat) → Text → Bool
  | depth, [] => depth == 0
  | depth, b :: s =>
      if b = opening then balanced opening closing (depth + 1) s
      else if b = closing then 0 < depth && balanced opening closing (depth - 1) s
      else balanced opening closing depth s

theorem balanced_of_free (opening closing : UInt8) (s : Text) (noOpening : opening ∉ s)
    (noClosing : closing ∉ s) : balanced opening closing 0 s = true := by
  induction s with
  | nil => rfl
  | cons b s ih =>
      simp only [List.mem_cons, not_or] at noOpening noClosing
      simp only [balanced, Ne.symm noOpening.1, Ne.symm noClosing.1, ↓reduceIte]
      exact ih noOpening.2 noClosing.2

/-- The closing byte after a balanced text is the one for the opening byte before it. -/
theorem closesEarly_balanced (opening closing : UInt8) (distinct : opening ≠ closing) (depth : Nat)
    (s : Text) (even : balanced opening closing depth s = true) :
    closesEarly opening closing (depth + 1) (s ++ [closing]) = false := by
  induction s generalizing depth with
  | nil =>
      obtain rfl : depth = 0 := by simpa [balanced] using even
      simp [closesEarly, Ne.symm distinct]
  | cons b s ih =>
      simp only [List.cons_append, balanced, closesEarly] at even ⊢
      split at even
      · next opens =>
          simp only [opens, ↓reduceIte]
          exact ih (depth + 1) even
      · next notOpening =>
          split at even
          · next closes =>
              obtain ⟨positive, inner⟩ : 0 < depth ∧ balanced opening closing (depth - 1) s = true := by
                simpa using even
              have rest := ih (depth - 1) inner
              rw [Nat.sub_add_cancel positive] at rest
              have deeper : (depth + 1 == 1) = false := by simp; omega
              simp [closes, Ne.symm distinct, rest, deeper]
          · next notClosing =>
              simp only [notOpening, notClosing, ↓reduceIte]
              exact ih depth even

theorem enclosed_balanced (opening closing : UInt8) (distinct : opening ≠ closing) (s : Text)
    (even : balanced opening closing 0 s = true) :
    enclosed? opening closing (opening :: s ++ [closing]) = some s.trim := by
  have late : closesEarly opening closing 0 (opening :: (s ++ [closing])) = false := by
    simp only [closesEarly, ↓reduceIte]
    exact closesEarly_balanced opening closing distinct 0 s even
  simp [enclosed?, late]

theorem enclosed_other (opening closing b : UInt8) (s : Text) (other : b ≠ opening) :
    enclosed? opening closing (b :: s) = none := by
  simp [enclosed?, other]

/-- Balanced text between delimiters is found again, less white space around it. -/
theorem inner_delimited (opening closing : UInt8) (pair : (opening, closing) ∈ delimiters) (s : Text)
    (even : balanced opening closing 0 s = true) : inner? (opening :: s ++ [closing]) = some s.trim := by
  rw [mem_delimiters, Prod.mk.injEq, Prod.mk.injEq] at pair
  rcases pair with ⟨rfl, rfl⟩ | ⟨rfl, rfl⟩
  · simp only [inner?, enclosed_balanced '(' ')' (by decide) s even]
  · have first : enclosed? '(' ')' (('[' : UInt8) :: s ++ [(']' : UInt8)]) = none :=
      enclosed_other '(' ')' '[' _ (by decide)
    simp only [inner?, first, enclosed_balanced '[' ']' (by decide) s even]

theorem inner_undelimited (s : Text) (undelimited : ∀ b ∈ s.head?, b ≠ '(' ∧ b ≠ '[') :
    inner? s = none := by
  cases s with
  | nil => rfl
  | cons b s =>
      obtain ⟨parenthesis, bracket⟩ := undelimited b rfl
      simp only [inner?, enclosed_other _ _ b s parenthesis, enclosed_other _ _ b s bracket]

end Operand

end Z80Cost
