import Mathlib.Data.List.Induction
import Z80Cost.Instruction.Pattern
import Z80Cost.Proofs.Source.Contents

/-!
Table texts and statements are cut alike. A table text is cut at every comma, and a tab ends its mnemonic
as a space does; a statement is cut outside literals only, and white space around all its operands goes
first. Without a tab, and where no literal opens, none of this makes a difference.
-/

namespace Z80Cost

namespace Text

theorem trim_trimLeft (s : Text) : s.trimLeft.trim = s.trim := by
  have done : s.trimLeft.trimLeft = s.trimLeft := dropLeading_of_leading _ _ (leading_dropLeading blanks 0 s)
  rw [trim, done]
  rfl

theorem trim_isInfix (s : Text) : s.trim <:+: s :=
  (trimRight_isPrefix s.trimLeft).isInfix.trans (dropLeading_isSuffix blanks 0 s).isInfix

/-- White space in front of a list is white space in front of its first part. -/
theorem splitOn_trimLeft (s : Text) :
    (s.trimLeft.splitOn (',' : UInt8)).map trim = (s.splitOn (',' : UInt8)).map trim := by
  have kept : ∀ part : Text, (',' : UInt8) ∉ part → (',' : UInt8) ∉ part.trimLeft :=
    fun part free member => free ((dropLeading_isSuffix blanks 0 part).subset member)
  by_cases listed : (',' : UInt8) ∈ s
  · -- Trimming stops in the first part, at the latest at the comma behind it.
    obtain ⟨first, rest, rfl, free⟩ := List.eq_append_cons_of_mem listed
    rw [trimLeft_append_cons _ _ _ Source.Statement.solid_comma,
      List.splitOn_append_cons_self_of_not_mem (kept first free),
      List.splitOn_append_cons_self_of_not_mem free, List.map_cons, List.map_cons, trim_trimLeft]
  · rw [List.splitOn_eq_singleton (kept s listed), List.splitOn_eq_singleton listed, List.map_singleton,
      List.map_singleton, trim_trimLeft]

end Text

namespace Source

/-- No double quote, and no apostrophe but behind `AF` in any case. -/
structure OpensNone (s : Text) : Prop where
  double : ('"' : UInt8) ∉ s
  single : ∀ i < s.length, s[i]? = some ('\'' : UInt8) → ("AF" : Text) <:+ Text.upper (s.take i)

theorem OpensNone.front {front rest : Text} (none : OpensNone (front ++ rest)) : OpensNone front where
  double := fun member => none.double (List.mem_append_left rest member)
  single := by
    intro i inside apostrophe
    have here := none.single i (by simp only [List.length_append]; omega)
    rw [List.getElem?_append_left inside, List.take_append_of_le_length (Nat.le_of_lt inside)] at here
    exact here apostrophe

/-- The scan remembers the last two bytes of what it has passed. -/
theorem afterPair_of_suffix (front : Text) (pair : ("AF" : Text) <:+ front.upper) :
    (scanAfter {} front).afterPair = true := by
  have letters : Text.ofString "AF" = [('A' : UInt8), ('F' : UInt8)] := by decide
  obtain ⟨before, whole⟩ := pair
  rw [letters] at whole
  obtain ⟨passed, last, rfl, _, spelled⟩ := List.map_eq_append_iff.mp whole.symm
  obtain ⟨a, rest, rfl, first, others⟩ := List.map_eq_cons_iff.mp spelled
  obtain ⟨f, none, rfl, second, empty⟩ := List.map_eq_cons_iff.mp others
  obtain rfl := List.map_eq_nil_iff.mp empty
  simp [scanAfter, Scan.afterPair, Scan.next, first, second]

theorem closed_of_outside (s : Text) (outside : ∀ mark ∈ marks s, mark.quoted = false) : isOpen s = false := by
  refine Bool.eq_false_iff.mpr fun opened => ?_
  obtain ⟨front, b, marked⟩ := marks_open s opened
  have last := outside ⟨b, true⟩ (by simp [marked])
  contradiction

theorem OpensNone.outside {s : Text} (none : OpensNone s) : ∀ mark ∈ marks s, mark.quoted = false := by
  -- From the right: what a byte means is decided by the text in front of it.
  induction s using List.reverseRecOn with
  | nil => exact fun mark member => absurd member List.not_mem_nil
  | append_singleton front b ih =>
      have before := ih none.front
      have closed := (isOpen_eq_false front).mp (closed_of_outside front before)
      have shut : (scanAfter {} front).opens b = false := by
        refine Bool.eq_false_iff.mpr fun opens => ?_
        rcases quote_cases b (Scan.isQuote_of_opens _ b opens) with rfl | rfl
        · exact none.double (by simp)
        · have pair := none.single front.length (by simp) (by simp)
          rw [List.take_left] at pair
          rw [Scan.opens, afterPair_of_suffix front pair] at opens
          revert opens
          decide
      rw [marks_concat, (Scan.quotes_eq_false _ b).mpr ⟨closed, shut⟩]
      intro mark member
      rcases List.mem_append.mp member with earlier | last
      · exact before mark earlier
      · rw [List.mem_singleton.mp last]

theorem splitOnP_outside (separator : UInt8) (s : Text) :
    ((s.map Mark.outside).splitOnP (·.isOutside separator)).map bytes = s.splitOn separator := by
  induction s with
  | nil => rfl
  | cons b s ih =>
      have same : (Mark.outside b).isOutside separator = (b == separator) := rfl
      rw [List.map_cons, List.splitOnP_cons_eq_if_modifyHead, List.splitOn_cons_eq_if_modifyHead, same, ← ih]
      cases b == separator with
      | true => rfl
      | false => cases (s.map Mark.outside).splitOnP (·.isOutside separator) <;> rfl

/-- Outside literals, every separator separates. -/
theorem splitOutside_outside (separator : UInt8) (s : Text) (outside : ∀ mark ∈ marks s, mark.quoted = false) :
    splitOutside separator s = s.splitOn separator := by
  have marked : marks s = s.map Mark.outside := by
    have kept : (marks s).map (fun mark => Mark.outside mark.byte) = (marks s).map id := by
      refine List.map_congr_left fun mark member => ?_
      rw [Mark.outside, ← outside mark member]
      rfl
    have spelled : s.map Mark.outside = (marks s).map fun mark => Mark.outside mark.byte :=
      (congrArg (List.map Mark.outside) (bytes_marks s)).symm.trans List.map_map
    rw [spelled, kept, List.map_id]
  rw [splitOutside, marked, splitOnP_outside]

end Source

namespace Pattern

theorem form_free (mnemonic : Text) (free : (' ' : UInt8) ∉ mnemonic ∧ ('\t' : UInt8) ∉ mnemonic) :
    ∀ b ∈ mnemonic, (b != (' ' : UInt8) && b != ('\t' : UInt8)) = true := by
  intro b member
  rw [Bool.and_eq_true, bne_iff_ne, bne_iff_ne]
  exact ⟨fun space => free.1 (space ▸ member), fun tab => free.2 (tab ▸ member)⟩

theorem form_bare (s : Text) (free : (' ' : UInt8) ∉ s.trim ∧ ('\t' : UInt8) ∉ s.trim) :
    form s = ⟨s.trim, []⟩ := by
  simp only [form, List.dropWhile_eq_nil_iff.mpr (form_free s.trim free)]

theorem form_ended (s mnemonic rest : Text) (b : UInt8) (ends : b = ' ' ∨ b = '\t')
    (whole : s.trim = mnemonic ++ b :: rest) (free : (' ' : UInt8) ∉ mnemonic ∧ ('\t' : UInt8) ∉ mnemonic) :
    form s = ⟨mnemonic, (rest.splitOn (',' : UInt8)).map Text.trim⟩ := by
  have word := form_free mnemonic free
  have stops : ¬ (b != (' ' : UInt8) && b != ('\t' : UInt8)) = true := by
    rcases ends with rfl | rfl <;> decide
  have first : (mnemonic ++ b :: rest).takeWhile (fun b => b != (' ' : UInt8) && b != ('\t' : UInt8)) =
      mnemonic := by
    rw [List.takeWhile_append_of_pos word, List.takeWhile_cons_of_neg (by exact stops), List.append_nil]
  have behind : (mnemonic ++ b :: rest).dropWhile (fun b => b != (' ' : UInt8) && b != ('\t' : UInt8)) =
      b :: rest := by
    rw [List.dropWhile_append_of_pos word, List.dropWhile_cons_of_neg (by exact stops)]
  simp only [form, whole, first, behind]

theorem form_cases (s : Text) :
    form s = ⟨s.trim, []⟩ ∨
      ∃ (mnemonic rest : Text) (b : UInt8), (b = ' ' ∨ b = '\t') ∧ s.trim = mnemonic ++ b :: rest ∧
        ((' ' : UInt8) ∉ mnemonic ∧ ('\t' : UInt8) ∉ mnemonic) ∧
        form s = ⟨mnemonic, (rest.splitOn (',' : UInt8)).map Text.trim⟩ := by
  cases found : s.trim.dropWhile (fun b => b != (' ' : UInt8) && b != ('\t' : UInt8)) with
  | nil =>
      left
      simp only [form, found]
  | cons b rest =>
      right
      have word := List.all_eq_true.mp
        (List.all_takeWhile (p := fun b => b != (' ' : UInt8) && b != ('\t' : UInt8)) (l := s.trim))
      refine ⟨s.trim.takeWhile (fun b => b != (' ' : UInt8) && b != ('\t' : UInt8)), rest, b, ?_, ?_, ⟨?_, ?_⟩, ?_⟩
      · have stops := List.head?_dropWhile_not (fun b => b != (' ' : UInt8) && b != ('\t' : UInt8)) s.trim
        rw [found] at stops
        simpa [Decidable.or_iff_not_imp_left] using stops
      · rw [← found, List.takeWhile_append_dropWhile]
      · exact fun member => by simpa using word _ member
      · exact fun member => by simpa using word _ member
      · simp only [form, found]

/-- A table text is the same to both readers, without a tab and where no literal opens. -/
theorem form_eq_ofText (s : Text) (tabless : ('\t' : UInt8) ∉ s) (none : Source.OpensNone s) :
    form s = Source.Statement.ofText s := by
  have trimmed : ('\t' : UInt8) ∉ s.trim := fun member => tabless ((Text.trim_isInfix s).subset member)
  rcases Source.Statement.ofText_cases s with ⟨free, read⟩ | ⟨mnemonic, rest, whole, free, read⟩
  · rw [read, form_bare s ⟨free, trimmed⟩]
  · have named : ('\t' : UInt8) ∉ mnemonic := by
      rw [whole] at trimmed
      exact fun member => trimmed (List.mem_append_left _ member)
    obtain ⟨nonempty, trimmed⟩ := Source.Statement.trim_behind s mnemonic rest ' ' (.inl rfl) whole
    have listed : (Text.trim rest).isEmpty = false := List.isEmpty_eq_false_iff.mpr nonempty
    -- Every piece of the text is as free of literals as the whole.
    have outside : ∀ mark ∈ Source.marks (Text.trim rest), mark.quoted = false := by
      intro mark member
      have line : ∀ mark ∈ Source.marks s.trim, mark.quoted = false :=
        fun mark member => none.outside mark ((Source.marks_trim s).subset member)
      have front : ∀ mark ∈ Source.marks mnemonic, mark.quoted = false := by
        intro mark member
        refine line mark ((Source.marks_isPrefix mnemonic s.trim ?_).subset member)
        exact whole ▸ List.prefix_append _ _
      have split := Source.marks_break mnemonic rest ' ' (Source.closed_of_outside mnemonic front) (by decide)
      rw [whole, split] at line
      refine line mark (List.mem_append_right _ (List.mem_cons_of_mem _ ?_))
      exact (Source.marks_trim rest).subset member
    rw [read, form_ended s mnemonic rest ' ' (.inl rfl) whole ⟨free, named⟩, Source.Statement.operandsOf, listed,
      Source.splitOutside_outside ',' _ outside, trimmed, Text.splitOn_trimLeft]
    rfl

/-- Blanks of several kinds, an empty operand, and the apostrophe of the register pair in both cases. -/
def shadowText : Text := "  ex  AF , ,af' , AF'"

theorem form_eq_ofText_shadow :
    Pattern.form shadowText = Source.Statement.ofText shadowText ∧
      Pattern.form shadowText = ⟨"ex", [("AF" : Text), "", "af'", "AF'"]⟩ := by
  have same := form_eq_ofText shadowText (by decide) ⟨by decide, by decide⟩
  exact ⟨same, same.trans (by decide +kernel)⟩

end Pattern

end Z80Cost
