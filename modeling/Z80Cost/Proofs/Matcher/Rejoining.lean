import Z80Cost.Instruction.Z80
import Z80Cost.Matcher
import Z80Cost.Proofs.Directive.Storage
import Z80Cost.Proofs.Source.Contents

/-!
What was read from a line is read again from its own text. Trimming an operand moves all bytes behind it,
but white space holds no quote and no part of the register pair `AF`, and the comma that takes its place
before the next operand is as good a break. Only the last operand can leave a literal open, and nothing is
written behind it.
-/

namespace Z80Cost

namespace Source

theorem Cut.ne_nil {separator : UInt8} {s : Text} {parts : List Text} (cut : Cut separator s parts) :
    parts ≠ [] := by
  cases cut <;> exact List.cons_ne_nil _ _

/-- Trimmed parts between commas are cut where they were. -/
theorem Cut.join_trim {s : Text} {parts : List Text} (cut : Cut ',' s parts) :
    Cut ',' (Text.join "," (parts.map Text.trim)) (parts.map Text.trim) := by
  induction cut with
  | last s free => simpa [Text.join] using Cut.last s.trim (free_trim ',' s free)
  | more s t parts closed free rest ih =>
      obtain ⟨next, others, rfl⟩ := List.exists_cons_of_ne_nil rest.ne_nil
      simp only [List.map_cons] at ih ⊢
      rw [join_cons_cons]
      exact .more _ _ _ (contents_trim s closed).1 (free_trim ',' s free) ih

theorem Cut.join_ne_nil {s : Text} {parts : List Text} (cut : Cut ',' s parts) (solid : s.trim ≠ []) :
    Text.join "," (parts.map Text.trim) ≠ [] := by
  cases cut with
  | last s free => simpa [Text.join] using solid
  | more s t parts closed free rest =>
      obtain ⟨next, others, rfl⟩ := List.exists_cons_of_ne_nil rest.ne_nil
      simp [join_cons_cons]

namespace Statement

theorem ofText_trim (s : Text) : ofText s.trim = ofText s := by
  rw [ofText, Text.trim_trim]
  rfl

/-- The operands of a text are read again from their text. -/
theorem operandsOf_rejoined (s : Text) (solid : s.trim ≠ []) :
    operandsOf s ≠ [] ∧ (Text.join "," (operandsOf s)).trim = Text.join "," (operandsOf s) ∧
      Text.join "," (operandsOf s) ≠ [] ∧ operandsOf (Text.join "," (operandsOf s)) = operandsOf s := by
  have comma : isBreak ',' = true := by decide
  have cut := cut_splitOutside ',' comma s
  have nonempty : s.isEmpty = false := by
    rw [List.isEmpty_eq_false_iff]
    rintro rfl
    exact solid rfl
  have read : operandsOf s = (splitOutside ',' s).map Text.trim := by simp [operandsOf, nonempty]
  have trimmed : ∀ operand ∈ operandsOf s, operand.trim = operand := by
    intro operand member
    rw [read] at member
    obtain ⟨part, _, rfl⟩ := List.mem_map.mp member
    exact Text.trim_trim part
  have some := cut.join_ne_nil solid
  have again := cut.join_trim.splitOutside ',' comma
  rw [← read] at some again
  refine ⟨?_, join_trimmed _ trimmed, some, ?_⟩
  · rw [read]
    exact fun none => cut.ne_nil (List.map_eq_nil_iff.mp none)
  · have kept : (operandsOf s).map Text.trim = operandsOf s :=
      (List.map_congr_left trimmed).trans (List.map_id _)
    rw [operandsOf, if_neg (by simpa using some), again, kept]

theorem ofText_text (line : Text) : ofText (ofText line).text = ofText line := by
  rcases ofText_cases line with ⟨_, read⟩ | ⟨mnemonic, rest, whole, free, read⟩
  · have text : (ofText line).text = line.trim := by
      rw [read]
      rfl
    rw [text, ofText_trim]
  · have solid : (Text.trim rest).trim ≠ [] := by
      rw [Text.trim_trim]
      exact (trim_behind line mnemonic rest ' ' (.inl rfl) whole).1
    obtain ⟨some, trimmed, joined, again⟩ := operandsOf_rejoined (Text.trim rest) solid
    generalize operandsOf (Text.trim rest) = operands at *
    have text := text_operands mnemonic operands some
    have same := trim_mnemonic line mnemonic rest ' ' (.inl rfl) whole _ trimmed joined
    rw [read, text, ofText_space _ mnemonic _ same free, trimmed, again]

end Statement

end Source

namespace Directive

theorem mem_storage_directive (catalog : Option Catalog) (policy : StoragePolicy) (text : Text) (count : Nat)
    (fill : Option Text) (d : Directive) (member : .directive d ∈ storage catalog policy text count fill) :
    d.text = text ∧ storage catalog policy text count fill = [.directive d] := by
  have kept : ∀ block : Directive, block.text = text → .directive d ∈ [Metered.directive block] →
      d.text = text ∧ [Metered.directive block] = [.directive d] := by
    rintro block rfl listed
    obtain rfl := Metered.directive.inj (List.mem_singleton.mp listed)
    exact ⟨rfl, rfl⟩
  cases policy with
  | keep => exact kept _ rfl member
  | expand =>
      simp only [storage] at member ⊢
      split at member
      · next none =>
          rw [if_pos none]
          exact kept _ rfl member
      · next some =>
          rw [if_neg some]
          cases found : fillInstruction? catalog fill with
          | none =>
              rw [found] at member
              exact kept _ rfl member
          | some i =>
              rw [found] at member
              exact absurd (List.eq_of_mem_replicate member) (by simp)

/-- A data definition that gives a directive gives no more, and the directive has its text. -/
theorem mem_meter_directive (catalog : Option Catalog) (policy : StoragePolicy) (statement : Source.Statement)
    (d : Directive) (member : .directive d ∈ (meter? catalog policy statement).getD []) :
    d.text = statement.text ∧ (meter? catalog policy statement).getD [] = [.directive d] := by
  cases metered : meter? catalog policy statement with
  | none =>
      rw [metered] at member
      contradiction
  | some results =>
      rw [metered] at member
      rcases meter_cases catalog policy statement results metered with ⟨kind, tokens, _, rfl⟩ | ⟨count, fill, rfl⟩
      · obtain rfl := Metered.directive.inj (List.mem_singleton.mp member)
        exact ⟨rfl, rfl⟩
      · exact mem_storage_directive catalog policy statement.text count fill d member

end Directive

namespace Matcher

theorem meter_directive (m : Matcher) (statement : Source.Statement) (d : Directive)
    (member : .directive d ∈ m.meter statement) :
    d.text = statement.text ∧ m.meter statement = [.directive d] := by
  unfold meter at member ⊢
  split at member
  · next foreign =>
      rw [if_pos foreign]
      exact Directive.mem_meter_directive _ _ statement d member
  · -- An instruction has the mnemonic, so nothing is metered as data.
    split at member <;> simp at member

/-- A line and the text of the statement read from it are the same to every matcher; so are a data
definition and the text of its directive. -/
theorem rejoined_line (line : Text) :
    Source.Statement.ofText (Source.Statement.ofText line).text = .ofText line ∧
    ∀ m : Matcher,
      m.meter (.ofText (Source.Statement.ofText line).text) = m.meter (.ofText line) ∧
      m.best? (.ofText (Source.Statement.ofText line).text) = m.best? (.ofText line) ∧
      m.rank (.ofText (Source.Statement.ofText line).text) = m.rank (.ofText line) ∧
      ∀ d, .directive d ∈ m.meter (.ofText line) → m.meter (.ofText d.text) = [.directive d] := by
  have again := Source.Statement.ofText_text line
  refine ⟨again, fun m => ⟨?_, ?_, ?_, ?_⟩⟩
  · rw [again]
  · rw [again]
  · rw [again]
  · intro d member
    obtain ⟨text, alone⟩ := m.meter_directive _ d member
    rw [text, again, alone]

def idleTable : Matcher where
  catalog := .ofPatterns [Catalog.steady "S" "NOP" 4 5 1 "00" 1]

/-- Blanks around a comma in quotes, the pair `AF'` and a literal that is left open. -/
def spacedLine : Text := "DB  'a, b' ,\u00A0AF' ,\t7 , 'x, "

def spacedBytes : Directive where
  kind := .byte
  text := "DB 'a, b',AF',7,'x,"
  data := ["61", "2C", "20", "62", "n", "07", "n"]

theorem rejoined_line_spaced :
    (Source.Statement.ofText spacedLine).operands = [("'a, b'" : Text), "AF'", "7", "'x,"] ∧
    Source.Statement.ofText spacedBytes.text = .ofText spacedLine ∧
    .directive spacedBytes ∈ idleTable.meter (.ofText spacedLine) ∧
    idleTable.meter (.ofText spacedBytes.text) = [.directive spacedBytes] := by
  have text : (Source.Statement.ofText spacedLine).text = spacedBytes.text := by decide +kernel
  have metered : .directive spacedBytes ∈ idleTable.meter (.ofText spacedLine) := by decide +kernel
  obtain ⟨again, same⟩ := rejoined_line spacedLine
  rw [text] at again
  obtain ⟨_, _, _, directive⟩ := same idleTable
  exact ⟨by decide +kernel, again, metered, directive spacedBytes metered⟩

end Matcher

end Z80Cost
