import Z80Cost.Proofs.Source.Statement
import Z80Cost.Source.Dialect

/-!
What becomes of a plain line. Outside its literals a name and its operands hold no comment mark, no
label and no statement separator, so the line is one statement of every dialect, in canonical spelling.
-/

namespace Z80Cost

namespace Text

theorem isWord_upperByte (b : UInt8) (word : isWord b = true) : isWord (upperByte b) = true := by
  unfold upperByte
  split
  · next lower =>
      have bounds : 0x61 ≤ b ∧ b ≤ 0x7A := by simpa [isLower] using lower
      have upper : 0x41 ≤ b - 0x20 ∧ b - 0x20 ≤ 0x5A := by grind
      simp [isWord, isUpper, upper]
  · exact word

/-- A text of letters, digits and underscores, not empty. -/
structure IsWordText (s : Text) : Prop where
  nonempty : s ≠ []
  word : ∀ b ∈ s, isWord b = true

theorem IsWordText.upper {s : Text} (valid : IsWordText s) : IsWordText s.upper := by
  refine ⟨by simpa [Text.upper] using valid.nonempty, fun b member => ?_⟩
  obtain ⟨c, inside, rfl⟩ := List.mem_map.mp member
  exact isWord_upperByte c (valid.word c inside)

/-- A byte that is no word byte is in no text of words. -/
theorem IsWordText.not_mem {s : Text} (valid : IsWordText s) (b : UInt8) (other : isWord b = false) :
    b ∉ s := by
  intro member
  rw [valid.word b member] at other
  contradiction

end Text

namespace Source

theorem codeOnto_free (markers : List Text) (code : Text) (marked : List Mark)
    (free : ∀ marker ∈ markers, ∃ b rest, marker = b :: rest ∧ Mark.outside b ∉ marked) :
    codeOnto markers code marked = (bytes marked).reverse ++ code := by
  induction marked generalizing code with
  | nil => rfl
  | cons mark marked ih =>
      have rest : ∀ marker ∈ markers, ∃ b rest, marker = b :: rest ∧ Mark.outside b ∉ marked := by
        intro marker member
        obtain ⟨b, tail, same, absent⟩ := free marker member
        exact ⟨b, tail, same, fun later => absent (List.mem_cons_of_mem _ later)⟩
      have uncommented : startsComment markers (mark :: marked) = false := by
        cases quoted : mark.quoted with
        | true => simp [startsComment, quoted]
        | false =>
            have none : markers.any (startsWith · (mark :: marked)) = false := by
              rw [List.any_eq_false]
              intro marker member
              obtain ⟨b, tail, rfl, absent⟩ := free marker member
              have other : b ≠ mark.byte := by
                rintro rfl
                apply absent
                rw [Mark.outside, ← quoted]
                exact List.mem_cons_self
              simp [startsWith, other]
            rw [startsComment, none, Bool.and_false]
      rw [codeOnto, uncommented]
      simp only [Bool.false_eq_true, ↓reduceIte, ih _ rest, bytes, List.map_cons, List.reverse_cons,
        List.append_assoc, List.singleton_append]

theorem withoutComment_free (markers : List Text) (s : Text)
    (free : ∀ marker ∈ markers, ∃ b rest, marker = b :: rest ∧ Mark.outside b ∉ marks s) :
    withoutComment markers s = s := by
  rw [withoutComment, codeOnto_free markers [] _ free, bytes_marks, List.append_nil, List.reverse_reverse]

/-- A blank, a name, a blank and its operands. -/
def indented (name operands : Text) : Text := (' ' : UInt8) :: (name ++ (' ' : UInt8) :: operands)

theorem isNameByte_word (b : UInt8) (word : Text.isWord b = true) : Label.isNameByte b = true := by
  refine Decidable.byContradiction fun other => ?_
  simp only [Label.isNameByte, Label.isBlank, Bool.not_eq_true', Bool.not_eq_false, Bool.or_eq_true,
    beq_iff_eq, or_assoc] at other
  rcases other with rfl | rfl | rfl | rfl | rfl | rfl | rfl | rfl | rfl | rfl | rfl | rfl <;>
    revert word <;> decide

/-- A name before a blank is no label. -/
theorem remove_indented (rule : LabelRule) (name operands : Text) (isName : Text.IsWordText name) :
    Label.remove rule (indented name operands) = indented name operands := by
  have named : ∀ b ∈ name, Label.isNameByte b = true := fun b member => isNameByte_word b (isName.word b member)
  have first : Label.afterName? (indented name operands) = none := rfl
  obtain ⟨b, rest, rfl⟩ := List.exists_cons_of_ne_nil isName.nonempty
  have starts := named b List.mem_cons_self
  have unblanked : (indented (b :: rest) operands).dropWhile Label.isBlank =
      b :: rest ++ (' ' : UInt8) :: operands := by
    have space : Label.isBlank ' ' = true := by decide
    have solid : Label.isBlank b = false := by
      simp only [Label.isNameByte, Bool.not_eq_true', Bool.or_eq_false_iff] at starts
      exact starts.1.1.1.1.1.1.1
    rw [indented, List.dropWhile_cons_of_pos space, List.cons_append, List.dropWhile_cons_of_neg (by simp [solid])]
  have later : Label.afterName? (b :: rest ++ (' ' : UInt8) :: operands) =
      some ((' ' : UInt8) :: operands) := by
    have space : Label.isNameByte ' ' = false := by decide
    have found : (b :: rest ++ (' ' : UInt8) :: operands).head?.any Label.isNameByte = true := starts
    rw [Label.afterName?, if_pos found, List.dropWhile_append_of_pos named,
      List.dropWhile_cons_of_neg (by simp [space])]
  have colonless : Label.afterColons? ((' ' : UInt8) :: operands) = none := rfl
  cases rule with
  | colon =>
      simp only [Label.remove, Label.after?, unblanked, later, Option.bind_some, colonless, Option.getD_none]
  | column =>
      simp only [Label.remove, Label.after?, first, unblanked, later, Option.bind_some, colonless,
        Option.bind_none, Option.getD_none]

/-- The text with letters outside its literals in upper case. -/
def spelled (s : Text) : Text := (marks s).map Mark.spelled

theorem spelled_literalless (s : Text) (plain : Literalless s) : spelled s = s.upper := by
  simp [spelled, marks_literalless s plain, Text.upper, Mark.spelled, Mark.outside]

theorem literalless_word (s : Text) (valid : Text.IsWordText s) : Literalless s := by
  apply literalless_of_no_quote
  intro b member
  constructor
  · rintro rfl
    exact valid.not_mem '"' (by decide) member
  · rintro rfl
    exact valid.not_mem '\'' (by decide) member

/-- The operands of a statement as they are written: literals are closed, and outside them there are
words and commas. -/
structure IsOperandText (s : Text) : Prop where
  nonempty : s ≠ []
  balanced : Balanced s
  outside : ∀ b, Mark.outside b ∈ marks s → Text.isWord b = true ∨ b = ','

theorem isOperandText_word (s : Text) (valid : Text.IsWordText s) : IsOperandText s := by
  have plain := literalless_word s valid
  refine ⟨valid.nonempty, balanced_literalless s plain, ?_⟩
  intro b member
  left
  rw [marks_literalless s plain] at member
  apply valid.word
  simpa [Mark.outside] using member

section Indented
variable {name operands : Text} (isName : Text.IsWordText name) (written : IsOperandText operands)
include isName written

theorem marks_indented : marks (indented name operands) =
    Mark.outside ' ' :: (name.map Mark.outside ++ Mark.outside ' ' :: marks operands) := by
  have space : isApart ' ' = true := by decide
  have plain := literalless_word name isName
  have named := balanced_literalless name plain
  have rest := balanced_separated name operands ' ' named written.balanced space
  have line := marks_separated [] _ ' ' (balanced_literalless [] literalless_nil) rest space
  rw [marks_separated name operands ' ' named written.balanced space, marks_literalless name plain] at line
  exact line

theorem outside_indented (b : UInt8) (member : Mark.outside b ∈ marks (indented name operands)) :
    Text.isWord b = true ∨ b = ',' ∨ b = ' ' := by
  rw [marks_indented isName written] at member
  simp only [Mark.outside, List.mem_cons, List.mem_append, List.mem_map, Mark.mk.injEq, and_true,
    exists_eq_right] at member
  rcases member with space | word | space | listed
  · exact .inr (.inr space)
  · exact .inl (isName.word b word)
  · exact .inr (.inr space)
  · rcases written.outside b listed with word | comma
    · exact .inl word
    · exact .inr (.inl comma)

theorem clean_indented :
    clean (indented name operands) = name.upper ++ (' ' : UInt8) :: spelled operands := by
  have gapless : ∀ b, Text.isWord b = true ∨ b = ',' → (Mark.outside b).isBlank = false := by
    intro b plain
    refine Bool.eq_false_iff.mpr fun gap => ?_
    simp only [Mark.isBlank, Mark.outside, Bool.not_false, Bool.true_and, Bool.or_eq_true,
      beq_iff_eq] at gap
    rcases gap with ((rfl | rfl) | rfl) | rfl <;> revert plain <;> decide
  have front : ∀ mark ∈ name.map Mark.outside, mark.isBlank = false := by
    intro mark member
    obtain ⟨b, inside, rfl⟩ := List.mem_map.mp member
    exact gapless b (.inl (isName.word b inside))
  have back : ∀ mark ∈ marks operands, mark.isBlank = false := by
    intro mark member
    obtain ⟨b, quoted⟩ := mark
    cases quoted with
    | true => rfl
    | false => exact gapless b (written.outside b member)
  have space : (Mark.outside ' ').isBlank = true := by decide
  have words : (marks (indented name operands)).splitOnP (·.isBlank) =
      [[], name.map Mark.outside, marks operands] := by
    rw [marks_indented isName written, List.splitOnP_cons_eq_if_modifyHead, if_pos space,
      List.splitOnP_append_cons_of_forall_mem front _ space, List.splitOnP_eq_singleton back]
  have some : marks operands ≠ [] := by
    intro none
    apply written.nonempty
    rw [← bytes_marks operands, none]
    rfl
  have kept : ([[], name.map Mark.outside, marks operands] : List (List Mark)).filter (!·.isEmpty) =
      [name.map Mark.outside, marks operands] := by
    simp [isName.nonempty, some]
  have separator : Text.ofString " " = [(' ' : UInt8)] := by decide
  have upper := spelled_literalless name (literalless_word name isName)
  rw [spelled, marks_literalless name (literalless_word name isName)] at upper
  -- The blank in front leaves an empty word, which is dropped.
  rw [clean, words, kept, List.map_cons, List.map_singleton, upper, separator]
  simp [Text.join, spelled]

end Indented

namespace Dialect

/-- What holds of the comment marks and separators of the known dialects. -/
theorem marks_foreign (dialect : Dialect) (known : dialect ∈ all) :
    (∀ marker ∈ dialect.comments, ∃ b rest, marker = b :: rest ∧
        ¬ (Text.isWord b = true ∨ b = ',' ∨ b = ' ')) ∧
      ∀ separator ∈ dialect.separator, ¬ (Text.isWord separator = true ∨ separator = ',' ∨ separator = ' ') := by
  have checked : ∀ dialect ∈ all,
      (∀ marker ∈ dialect.comments, ∃ b ∈ marker.head?, ¬ (Text.isWord b = true ∨ b = ',' ∨ b = ' ')) ∧
        ∀ separator ∈ dialect.separator,
          ¬ (Text.isWord separator = true ∨ separator = ',' ∨ separator = ' ') := by
    decide +kernel
  obtain ⟨comments, separators⟩ := checked dialect known
  refine ⟨fun marker member => ?_, separators⟩
  obtain ⟨b, first, foreign⟩ := comments marker member
  obtain ⟨rest, same⟩ := List.head?_eq_some_iff.mp first
  exact ⟨b, rest, same, foreign⟩

/-- Until shorthands are spelled out, a name and its operands are one statement. -/
theorem statements_spelled (dialect : Dialect) (known : dialect ∈ all) (name operands : Text)
    (isName : Text.IsWordText name) (written : IsOperandText operands) :
    dialect.statements (indented name operands) =
      dialect.spellOut (name.upper ++ (' ' : UInt8) :: spelled operands) := by
  obtain ⟨comments, separators⟩ := marks_foreign dialect known
  -- No pass before spelling finds a byte that it cuts at.
  have absent := outside_indented isName written
  have uncommented : withoutComment dialect.comments (indented name operands) = indented name operands := by
    apply withoutComment_free
    intro marker member
    obtain ⟨b, rest, same, foreign⟩ := comments marker member
    exact ⟨b, rest, same, fun inside => foreign (absent b inside)⟩
  have unlabelled := remove_indented dialect.label name operands isName
  have whole : dialect.parts (indented name operands) = [indented name operands] := by
    unfold parts
    cases found : dialect.separator with
    | none => rfl
    | some separator =>
        exact splitOutside_free separator _ fun inside => separators separator found (absent separator inside)
  have clean := clean_indented isName written
  have nonempty : (name.upper ++ (' ' : UInt8) :: spelled operands).isEmpty = false := by simp
  simp only [statements, uncommented, unlabelled, whole, List.map_cons, List.map_nil, clean,
    List.filter_cons, nonempty, Bool.not_false, ↓reduceIte, List.filter_nil, List.flatMap_cons,
    List.flatMap_nil, List.append_nil]

theorem ofText_single (name operand : Text) (isName : Text.IsWordText name)
    (isOperand : Text.IsWordText operand) :
    Statement.ofText (name ++ (' ' : UInt8) :: operand) = ⟨name, [operand]⟩ := by
  have solid : ∀ s : Text, Text.IsWordText s → ∀ b ∈ s, Text.isSolid b = true :=
    fun s valid b member => Text.isWord_solid b (valid.word b member)
  have unquoted : ∀ b ∈ operand, b ≠ '"' ∧ b ≠ '\'' := by
    intro b member
    refine ⟨?_, ?_⟩ <;> rintro rfl <;> exact isOperand.not_mem _ (by decide) member
  have written : Statement.IsOperand operand :=
    ⟨isOperand.nonempty, Text.trim_solid operand (solid operand isOperand),
      isOperand.not_mem ',' (by decide), literalless_of_no_quote operand unquoted⟩
  have join : Text.join "," [operand] = operand := by simp [Text.join]
  have read := Statement.ofText_join name [operand] ⟨isName.nonempty, solid name isName⟩
    (by simpa using written)
  rwa [join] at read

/-- Shorthands have two operands or more. -/
theorem spellOut_single (dialect : Dialect) (name operand : Text) (isName : Text.IsWordText name)
    (isOperand : Text.IsWordText operand) :
    dialect.spellOut (name ++ (' ' : UInt8) :: operand) = [name ++ (' ' : UInt8) :: operand] := by
  simp [spellOut, ofText_single name operand isName isOperand, Statement.registerList?, Statement.composed?]

/-- The mnemonics that shorthands have. -/
def shorthands : List Text := ["PUSH", "POP", "LD", "SUB"]

theorem spellOut_other (dialect : Dialect) (s : Text) (other : (Statement.ofText s).mnemonic ∉ shorthands) :
    dialect.spellOut s = [s] := by
  simp only [shorthands, List.mem_cons, List.not_mem_nil, or_false, not_or] at other
  obtain ⟨push, pop, load, subtract⟩ := other
  have list : (Statement.ofText s).registerList? = none := by
    unfold Statement.registerList?
    split
    · simp [push, pop]
    · rfl
  have composed : (Statement.ofText s).composed? = none := by
    unfold Statement.composed?
    split
    · simp [load, subtract]
    · rfl
  simp [spellOut, list, composed]

theorem statements_indented (dialect : Dialect) (known : dialect ∈ all) (name operand : Text)
    (isName : Text.IsWordText name) (isOperand : Text.IsWordText operand) :
    dialect.statements (indented name operand) = [name.upper ++ (' ' : UInt8) :: operand.upper] := by
  rw [statements_spelled dialect known name operand isName (isOperandText_word operand isOperand),
    spelled_literalless operand (literalless_word operand isOperand)]
  exact spellOut_single dialect _ _ isName.upper isOperand.upper

end Dialect

end Source

end Z80Cost
