import Mathlib.Data.List.Chain
import Z80Cost.Proofs.Source.Contents

/-!
Statements in canonical spelling. Outside literals they are in upper case, with single spaces between
words and none at the ends, and such text is spelled as it is. The literals stay what they are. Operands
are pieces of their statement, so this holds of the statements that a register list stands for as well.
-/

namespace Z80Cost.Source

/-- The literals of a text with their delimiters, in order; `held` is what was read of the first. -/
def literalsFrom (scan : Scan) (held : Text) : Text → List Text
  | [] => if scan.delimiter.isSome then [held] else []
  | b :: s =>
      if scan.quotes b then
        if (scan.next b).delimiter.isSome then literalsFrom (scan.next b) (held ++ [b]) s
        else (held ++ [b]) :: literalsFrom (scan.next b) [] s
      else literalsFrom (scan.next b) held s

def literals (s : Text) : List Text := literalsFrom {} [] s

def runs : (delimiter : Option UInt8) → (held : Text) → Text → List Text
  | none, _, [] => []
  | some _, held, [] => [held]
  | none, held, q :: s => runs (some q) (held ++ [q]) s
  | some q, held, b :: s => if b = q then (held ++ [b]) :: runs none [] s else runs (some q) (held ++ [b]) s

theorem literalsFrom_eq (scan : Scan) (held s : Text) :
    literalsFrom scan held s = runs scan.delimiter held (literalBytes (marksFrom scan s)) := by
  induction s generalizing scan held with
  | nil =>
      rw [literalsFrom]
      cases scan.delimiter <;> rfl
  | cons b s ih =>
      rw [literalsFrom, marksFrom, ih, ih, ih]
      cases inside : scan.delimiter with
      | none =>
          cases opens : scan.opens b <;>
            simp [literalBytes, bytes, Scan.quotes, Scan.next, inside, opens, runs]
      | some q =>
          by_cases closing : b = q <;>
            simp [literalBytes, bytes, Scan.quotes, Scan.next, inside, closing, runs]

theorem literals_clean (s : Text) : literals (clean s) = literals s := by
  rw [literals, literals, literalsFrom_eq, literalsFrom_eq, ← marks_eq, ← marks_eq, (marks_clean s).1, tidy,
    literalBytes_tidyFrom]

/-- Marks as canonical spelling has them, but for the ends. -/
structure IsSpelled (marked : List Mark) : Prop where
  upper : ∀ mark ∈ marked, mark.quoted = false → Text.isLower mark.byte = false
  blank : ∀ mark ∈ marked, mark.quoted = false → mark.byte ≠ '\t' ∧ mark.byte ≠ '\r' ∧ mark.byte ≠ '\n'
  apart : marked.IsChain fun first second => first = Mark.outside ' ' → second ≠ Mark.outside ' '

structure IsCanonical (s : Text) : Prop where
  spelled : IsSpelled (marks s)
  first : (marks s).head? ≠ some (Mark.outside ' ')
  last : (marks s).getLast? ≠ some (Mark.outside ' ')

instance decidableIsSpelled (marked : List Mark) : Decidable (IsSpelled marked) :=
  decidable_of_iff
    ((∀ mark ∈ marked, mark.quoted = false → Text.isLower mark.byte = false) ∧
      (∀ mark ∈ marked, mark.quoted = false → mark.byte ≠ '\t' ∧ mark.byte ≠ '\r' ∧ mark.byte ≠ '\n') ∧
      marked.IsChain fun first second => first = Mark.outside ' ' → second ≠ Mark.outside ' ')
    ⟨fun ⟨upper, blank, apart⟩ => ⟨upper, blank, apart⟩, fun ⟨upper, blank, apart⟩ => ⟨upper, blank, apart⟩⟩

instance decidableIsCanonical (s : Text) : Decidable (IsCanonical s) :=
  decidable_of_iff
    (IsSpelled (marks s) ∧ (marks s).head? ≠ some (Mark.outside ' ') ∧
      (marks s).getLast? ≠ some (Mark.outside ' '))
    ⟨fun ⟨spelled, first, last⟩ => ⟨spelled, first, last⟩, fun ⟨spelled, first, last⟩ => ⟨spelled, first, last⟩⟩

namespace IsSpelled

theorem part {part marked : List Mark} (spelled : IsSpelled marked) (inside : part <:+: marked) :
    IsSpelled part where
  upper := fun mark member => spelled.upper mark (inside.subset member)
  blank := fun mark member => spelled.blank mark (inside.subset member)
  apart := by
    obtain ⟨front, back, rfl⟩ := inside
    exact spelled.apart.left_of_append.right_of_append

theorem append {first second : List Mark} (spelled : IsSpelled first) (spelled' : IsSpelled second)
    (word : first.getLast? ≠ some (Mark.outside ' ') ∨ second.head? ≠ some (Mark.outside ' ')) :
    IsSpelled (first ++ second) where
  upper := List.forall_mem_append.mpr ⟨spelled.upper, spelled'.upper⟩
  blank := List.forall_mem_append.mpr ⟨spelled.blank, spelled'.blank⟩
  apart := by
    refine List.isChain_append.mpr ⟨spelled.apart, spelled'.apart, ?_⟩
    rintro _ last _ head rfl rfl
    exact word.elim (· last) (· head)

end IsSpelled

theorem outside_of_isBlank (mark : Mark) (blank : mark.isBlank = true)
    (single : mark.quoted = false → mark.byte ≠ '\t' ∧ mark.byte ≠ '\r' ∧ mark.byte ≠ '\n') :
    mark = Mark.outside ' ' := by
  obtain ⟨b, quoted⟩ := mark
  simp only [Mark.isBlank, Bool.and_eq_true, Bool.not_eq_true', Bool.or_eq_true, beq_iff_eq] at blank
  obtain ⟨rfl, kind⟩ := blank
  obtain ⟨tab, ret, feed⟩ := single rfl
  simp only [tab, ret, feed, or_false] at kind
  rw [kind]
  rfl

theorem respelled_eq (mark : Mark) (upper : mark.quoted = false → Text.isLower mark.byte = false) :
    mark.respelled = mark := by
  obtain ⟨b, quoted⟩ := mark
  cases quoted with
  | true => rfl
  | false => simp [Mark.respelled, Mark.spelled, Text.upperByte, upper rfl]

/-- What is spelled canonically is left as it is, once a space that is due in front of it is written. -/
theorem tidyFrom_spelled (marked : List Mark) (spelled : IsSpelled marked)
    (last : marked.getLast? ≠ some (Mark.outside ' ')) :
    tidyFrom true false marked = marked ∧
      (marked ≠ [] → marked.head? ≠ some (Mark.outside ' ') →
        tidyFrom true true marked = Mark.outside ' ' :: marked) := by
  induction marked with
  | nil => exact ⟨rfl, fun some => absurd rfl some⟩
  | cons mark marked ih =>
      have rest := spelled.part (List.suffix_cons mark marked).isInfix
      cases blank : mark.isBlank with
      | true =>
          obtain rfl := outside_of_isBlank mark blank (spelled.blank mark List.mem_cons_self)
          refine ⟨?_, fun _ first => absurd rfl first⟩
          -- A word follows the space, at once.
          obtain ⟨next, more, rfl⟩ : ∃ next more, marked = next :: more := by
            refine List.exists_cons_of_ne_nil ?_
            rintro rfl
            exact last rfl
          have word : next ≠ Mark.outside ' ' := (List.isChain_cons_cons.mp spelled.apart).1 rfl
          rw [tidyFrom, if_pos blank]
          exact (ih rest (by simpa using last)).2 (by simp) (by simpa using word)
      | false =>
          have same := respelled_eq mark (spelled.upper mark List.mem_cons_self)
          have kept : tidyFrom true false marked = marked := by
            cases marked with
            | nil => rfl
            | cons next more => exact (ih rest (by simpa using last)).1
          constructor
          · simp [tidyFrom, blank, same, kept]
          · simp [tidyFrom, blank, same, kept]

theorem clean_of_canonical (s : Text) (canonical : IsCanonical s) : clean s = s := by
  have fixed : tidy (marks s) = marks s := by
    obtain ⟨spelled, first, last⟩ := canonical
    cases whole : marks s with
    | nil => rfl
    | cons mark marked =>
        rw [whole] at spelled first last
        have solid : mark.isBlank = false := by
          refine Bool.eq_false_iff.mpr fun blank => first ?_
          rw [outside_of_isBlank mark blank (spelled.blank mark List.mem_cons_self), List.head?_cons]
        have rest := (tidyFrom_spelled (mark :: marked) spelled last).1
        simpa [tidy, tidyFrom, solid] using rest
  rw [clean_eq, fixed, bytes_marks]

section Solid
variable (mark : Mark) (solid : mark.isBlank = false)
include solid

theorem respelled_ne_space : mark.respelled ≠ Mark.outside ' ' := by
  obtain ⟨b, quoted⟩ := mark
  intro same
  obtain ⟨spelled, rfl⟩ := Mark.mk.inj same
  obtain rfl := (Text.upperByte_eq_caseless b ' ' (by decide)).mp spelled
  exact absurd solid (by decide)

theorem isSpelled_respelled : IsSpelled [mark.respelled] := by
  obtain ⟨b, quoted⟩ := mark
  cases quoted with
  | true => exact ⟨by simp [Mark.respelled], by simp [Mark.respelled], .singleton _⟩
  | false =>
      have spelled : (Mark.respelled ⟨b, false⟩).byte = Text.upperByte b := rfl
      simp only [Mark.isBlank, Bool.not_false, Bool.true_and, Bool.or_eq_false_iff, beq_eq_false_iff_ne] at solid
      obtain ⟨⟨⟨_, tab⟩, ret⟩, feed⟩ := solid
      refine ⟨?_, ?_, .singleton _⟩
      · simp [spelled, isLower_upperByte]
      · have other : ∀ c : UInt8, Text.isCaseless c = true → b ≠ c → Text.upperByte b ≠ c :=
          fun c caseless ne same => ne ((Text.upperByte_eq_caseless b c caseless).mp same)
        rw [List.forall_mem_singleton, spelled]
        exact fun _ => ⟨other _ (by decide) tab, other _ (by decide) ret, other _ (by decide) feed⟩

end Solid

/-- Whatever the marks were, they are in canonical spelling once they are tidied. -/
theorem tidyFrom_canonical (started apart : Bool) (marked : List Mark) :
    IsSpelled (tidyFrom started apart marked) ∧
      (tidyFrom started apart marked).getLast? ≠ some (Mark.outside ' ') ∧
      (started = false → (tidyFrom started apart marked).head? ≠ some (Mark.outside ' ')) := by
  induction marked generalizing started apart with
  | nil => exact ⟨⟨by simp [tidyFrom], by simp [tidyFrom], .nil⟩, by simp [tidyFrom], by simp [tidyFrom]⟩
  | cons mark marked ih =>
      rw [tidyFrom]
      cases blank : mark.isBlank with
      | true => exact ih started true
      | false =>
          rw [if_neg Bool.false_ne_true]
          obtain ⟨rest, last, _⟩ := ih true false
          have solid := respelled_ne_space mark blank
          have word : IsSpelled (mark.respelled :: tidyFrom true false marked) :=
            (isSpelled_respelled mark blank).append rest (.inl (by simpa using solid))
          have ends : (mark.respelled :: tidyFrom true false marked).getLast? ≠ some (Mark.outside ' ') := by
            rw [List.getLast?_cons]
            cases final : (tidyFrom true false marked).getLast? with
            | none => simpa using solid
            | some mark => simpa [final] using last
          -- Only behind a first word is the space in front of another written.
          cases due : started && apart with
          | false => exact ⟨word, ends, fun _ => by simpa using solid⟩
          | true =>
              have space : IsSpelled [Mark.outside ' '] := by decide
              rw [if_pos rfl]
              refine ⟨space.append word (.inr (by simpa using solid)), ?_, ?_⟩
              · rwa [List.getLast?_append_of_ne_nil _ (List.cons_ne_nil _ _)]
              · rintro rfl
                contradiction

theorem isCanonical_clean (s : Text) : IsCanonical (clean s) := by
  obtain ⟨spelled, last, first⟩ := tidyFrom_canonical false false (marks s)
  rw [← tidy, ← (marks_clean s).1] at spelled last first
  exact ⟨spelled, first rfl, last⟩

theorem ends_of_trimmed (s : Text) (trimmed : s.trim = s) :
    (marks s).head? ≠ some (Mark.outside ' ') ∧ (marks s).getLast? ≠ some (Mark.outside ' ') := by
  have starts := Text.trim_not_starts s [' '] (by decide)
  have ends := Text.trim_not_ends s [' '] (by decide)
  rw [trimmed, ← bytes_marks s] at starts ends
  constructor
  · intro head
    obtain ⟨rest, whole⟩ := List.head?_eq_some_iff.mp head
    rw [whole] at starts
    exact starts ⟨bytes rest, rfl⟩
  · intro last
    obtain ⟨front, whole⟩ := List.getLast?_eq_some_iff.mp last
    rw [whole] at ends
    exact ends ⟨bytes front, by simp [bytes, Mark.outside]⟩

/-- The parts of a text are pieces of it. -/
theorem Cut.marks_isInfix (separator : UInt8) (separates : isBreak separator = true) (s : Text) (parts : List Text)
    (cut : Cut separator s parts) : ∀ part ∈ parts, Source.marks part <:+: Source.marks s := by
  induction cut with
  | last s free => exact List.forall_mem_singleton.mpr (List.infix_refl _)
  | more s t parts closed free rest ih =>
      rw [marks_break s t separator closed separates, List.forall_mem_cons]
      refine ⟨(List.prefix_append _ _).isInfix, fun part member => (ih part member).trans ?_⟩
      exact ((List.suffix_cons _ _).trans (List.suffix_append _ _)).isInfix

namespace Statement

theorem operand_of_operandsOf (s operand : Text) (member : operand ∈ operandsOf s) :
    operand.trim = operand ∧ marks operand <:+: marks s := by
  rw [operandsOf] at member
  split at member
  · contradiction
  · obtain ⟨part, inside, rfl⟩ := List.mem_map.mp member
    have cut := cut_splitOutside ',' (by decide) s
    exact ⟨Text.trim_trim part, (marks_trim part).trans (cut.marks_isInfix ',' (by decide) s _ part inside)⟩

/-- Behind a mnemonic without quotes, the operands of a statement are pieces of it. -/
theorem operand_of_ofText (s operand : Text) (plain : Unquoted (ofText s).mnemonic)
    (member : operand ∈ (ofText s).operands) : operand.trim = operand ∧ marks operand <:+: marks s := by
  rcases ofText_cases s with ⟨_, read⟩ | ⟨mnemonic, rest, whole, _, read⟩
  · rw [read] at member
    contradiction
  · rw [read] at plain member
    obtain ⟨trimmed, inside⟩ := operand_of_operandsOf (Text.trim rest) operand member
    have behind : marks rest <:+: marks s.trim := by
      rw [whole, append_space, (isLead_space mnemonic plain).marks]
      exact (List.suffix_append _ _).isInfix
    exact ⟨trimmed, inside.trans ((marks_trim rest).trans (behind.trans (marks_trim s)))⟩

theorem registerList_canonical (s : Text) (spelled : IsSpelled (marks s)) (statements : List Text)
    (listed : (ofText s).registerList? = some statements) : ∀ t ∈ statements, t ≠ [] ∧ IsCanonical t := by
  rw [registerList_eq, Option.ite_none_right_eq_some] at listed
  obtain ⟨⟨_, named, solid⟩, same⟩ := listed
  obtain rfl := Option.some.inj same
  obtain ⟨plain, front, start⟩ : Unquoted (ofText s).mnemonic ∧
      IsSpelled (((ofText s).mnemonic ++ " ").map Mark.outside) ∧
      (((ofText s).mnemonic ++ " ").map Mark.outside).head? ≠ some (Mark.outside ' ') := by
    rcases named with same | same <;> rw [same] <;> decide
  intro t member
  obtain ⟨register, listed, rfl⟩ := List.mem_map.mp member
  have nonempty : register ≠ [] := by simpa using List.all_eq_true.mp solid register listed
  obtain ⟨trimmed, inside⟩ := operand_of_ofText s register plain listed
  obtain ⟨first, last⟩ := ends_of_trimmed register trimmed
  have whole := (isLead_space _ plain).marks register
  have marked : marks register ≠ [] := fun none => nonempty (by rw [← bytes_marks register, none]; rfl)
  refine ⟨by simp [nonempty], ?_, ?_, ?_⟩
  · rw [whole]
    exact front.append (spelled.part inside) (.inr first)
  · rwa [whole, List.head?_append_of_ne_nil _ (by simp [space_eq])]
  · rwa [whole, List.getLast?_append_of_ne_nil _ marked]

theorem composed_canonical (statement : Statement) (statements : List Text)
    (composed : statement.composed? = some statements) : ∀ t ∈ statements, t ≠ [] ∧ IsCanonical t := by
  have loads : ∀ target ∈ registerPairs, ∀ source ∈ registerPairs,
      ∀ t ∈ ["LD " ++ target.2.1 ++ "," ++ source.2.1, "LD " ++ target.2.2 ++ "," ++ source.2.2],
        t ≠ [] ∧ IsCanonical t := by
    decide +kernel
  have differences : ∀ source ∈ [("BC" : Text), "DE", "HL", "SP"],
      ∀ t ∈ [("OR A" : Text), "SBC HL," ++ source], t ≠ [] ∧ IsCanonical t := by
    decide +kernel
  rcases statement.composed_cases statements composed with
    ⟨target, listed, source, listed', _, rfl⟩ | ⟨source, listed, _, rfl⟩
  · exact loads target listed source listed'
  · exact differences source listed

end Statement

namespace Dialect

theorem spellOut_canonical (dialect : Dialect) (s : Text) (nonempty : s ≠ []) (canonical : IsCanonical s) :
    ∀ t ∈ dialect.spellOut s, t ≠ [] ∧ IsCanonical t := by
  simp only [spellOut]
  split
  · next statements listed =>
      have found := (Option.ite_none_right_eq_some.mp listed).2
      exact Statement.registerList_canonical s canonical.spelled statements found
  · split
    · next statements composed =>
        have found := (Option.ite_none_right_eq_some.mp composed).2
        exact Statement.composed_canonical _ statements found
    · rw [List.forall_mem_singleton]
      exact ⟨nonempty, canonical⟩

/-- Spelling a text is final, keeps its literals and leaves nothing to respell outside them; so it is with
every statement of a line. -/
theorem statements_canonical :
    (∀ s : Text, clean (clean s) = clean s ∧ literals (clean s) = literals s ∧ IsCanonical (clean s)) ∧
    ∀ (dialect : Dialect) (raw : Text), ∀ t ∈ dialect.statements raw, t ≠ [] ∧ clean t = t := by
  constructor
  · intro s
    exact ⟨clean_of_canonical _ (isCanonical_clean s), literals_clean s, isCanonical_clean s⟩
  · intro dialect raw t member
    rw [statements_eq] at member
    obtain ⟨s, written, spelled⟩ := List.mem_flatMap.mp member
    obtain ⟨cleaned, some⟩ := List.mem_filter.mp written
    obtain ⟨part, _, rfl⟩ := List.mem_map.mp cleaned
    have nonempty : clean part ≠ [] := by simpa using some
    obtain ⟨holds, canonical⟩ := dialect.spellOut_canonical _ nonempty (isCanonical_clean part) t spelled
    exact ⟨holds, clean_of_canonical t canonical⟩

/-- A register list with the shadow pair, a literal with blanks and one that is left open, behind a load
between pairs. -/
def spreadLine : Text := "l:\tld  bc , de : push  af' ,'x  y' ,\t\"b\t c  "

theorem statements_canonical_spread :
    sjasmplus.statements spreadLine =
      [("LD B,D" : Text), "LD C,E", "PUSH AF'", "PUSH 'x  y'", "PUSH \"b\t c"] ∧
    (("PUSH \"b\t c" : Text) ∈ sjasmplus.statements spreadLine ∧ clean "PUSH \"b\t c" = "PUSH \"b\t c") ∧
    literals (clean spreadLine) = [("'x  y'" : Text), "\"b\t c  "] := by
  have listed : sjasmplus.statements spreadLine =
      [("LD B,D" : Text), "LD C,E", "PUSH AF'", "PUSH 'x  y'", "PUSH \"b\t c"] := by decide +kernel
  have member : Text.ofString "PUSH \"b\t c" ∈ sjasmplus.statements spreadLine := by
    rw [listed]
    decide
  obtain ⟨texts, lines⟩ := statements_canonical
  refine ⟨listed, ⟨member, (lines sjasmplus spreadLine _ member).2⟩, ?_⟩
  rw [(texts spreadLine).2.1]
  decide +kernel

end Dialect

end Z80Cost.Source
