import Z80Cost.Instruction.Z80
import Z80Cost.Proofs.Meter.Lines
import Z80Cost.Proofs.Source.Room

/-!
The limit on lines of code. It is applied to the statements that are metered, and once more to
blocks as they are spelled out, where statements that are metered as nothing take up room too. A
source is refused exactly if one of the two goes beyond the limit; where every statement is metered,
the second adds nothing to the first.
-/

namespace Z80Cost.Meter

open Source

def spelledOut (m : Meter) (source : List Text) : List Text :=
  unrolled m.dialect.repetition id (m.texts source)

theorem spelledOut_of_expand (m : Meter) (source out : List Text)
    (expanded : expand? m.dialect.repetition id 0 (m.texts source) = some out) :
    m.spelledOut source = out :=
  (expand_eq_unrolled 0 _ out expanded).symm

def codeCount (m : Meter) (source : List Text) : Nat := (m.spelledOut source).countP m.isCode

/-- Whether a block takes more room than the limit leaves. -/
def Crowded (m : Meter) (source : List Text) : Prop :=
  Overflows m.dialect.repetition id m.maxCode 0 (m.texts source)

/-- Refused for too much code, in either place. -/
def RefusesCode (m : Meter) (source : List Text) : Prop :=
  m.lines source = .error (.moreCode m.maxCode) ∨ m.lines source = .error (.blocks m.maxCode)

theorem codeCount_of_crowded (m : Meter) (source : List Text)
    (metered : ∀ s ∈ m.spelledOut source, m.isCode s = true)
    (crowded : m.Crowded source) : m.maxCode.toInt < m.codeCount source := by
  have long := length_of_overflows 0 (m.texts source) crowded
  rw [codeCount, List.countP_eq_length.mpr metered, spelledOut]
  simpa using long

section Limited
variable (m : Meter) (source : List Text) (limited : 0 < m.maxCode)
include limited

theorem effectiveLimit_limited : effectiveLimit m.maxCode = m.maxCode := by
  rw [effectiveLimit, if_neg]
  intro none
  exact absurd limited (Int64.not_lt.mpr none)

theorem exceeds_limited (n : Nat) : exceeds n m.maxCode = true ↔ m.maxCode.toInt < n := by
  simp [exceeds, limited]

theorem expand_eq_none_iff_crowded :
    expand? m.dialect.repetition id m.maxCode (m.texts source) = none ↔ m.Crowded source := by
  rw [expand_eq_none_iff, m.effectiveLimit_limited limited, Crowded]

/-- Blocks are looked at first, and then the lines of code of what they are spelled out to. -/
theorem lines_limited (short : exceeds source.length m.maxLines = false) :
    (m.Crowded source ∧ m.lines source = .error (.blocks m.maxCode)) ∨
      ¬ m.Crowded source ∧ ∃ report, m.lines source =
        if m.maxCode.toInt < m.codeCount source then .error (.moreCode m.maxCode) else .ok report := by
  rw [← m.expand_eq_none_iff_crowded source limited]
  cases found : expand? m.dialect.repetition id m.maxCode (m.texts source) with
  | none =>
      left
      refine ⟨rfl, ?_⟩
      rw [m.lines_refused source short found, m.effectiveLimit_limited limited]
  | some expanded =>
      right
      refine ⟨Option.some_ne_none expanded, ?_⟩
      obtain ⟨statements, outcome⟩ := m.lines_expanded source expanded short found
      have same : expanded = m.spelledOut source := expand_eq_unrolled m.maxCode _ expanded found
      refine ⟨⟨source.length, statements, m.cost expanded⟩, ?_⟩
      rw [outcome, same]
      exact ite_congr (propext (m.exceeds_limited limited _)) (fun _ => rfl) (fun _ => rfl)

end Limited

/-- Beyond the limit on code a source is refused, and no other one of few enough lines is; but
statements that are metered as nothing count as well where a block ends, so that the lines of code
alone decide only if every statement is one. -/
theorem lines_code_limit (m : Meter) (source : List Text) (limited : 0 < m.maxCode)
    (short : exceeds source.length m.maxLines = false) :
    (m.RefusesCode source ↔ m.maxCode.toInt < m.codeCount source ∨ m.Crowded source) ∧
      ((∃ report, m.lines source = .ok report) ↔ ¬ m.RefusesCode source) ∧
      ((∀ s ∈ m.spelledOut source, m.isCode s = true) →
        (m.RefusesCode source ↔ m.maxCode.toInt < m.codeCount source)) := by
  have refused : m.RefusesCode source ↔ m.maxCode.toInt < m.codeCount source ∨ m.Crowded source := by
    rcases m.lines_limited source limited short with ⟨crowded, outcome⟩ | ⟨roomy, report, outcome⟩
    · simp [RefusesCode, outcome, crowded]
    · by_cases much : m.maxCode.toInt < m.codeCount source
      · simp [RefusesCode, outcome, much]
      · simp [RefusesCode, outcome, much, roomy]
  refine ⟨refused, ?_, ?_⟩
  · rcases m.lines_limited source limited short with ⟨crowded, outcome⟩ | ⟨roomy, report, outcome⟩
    · simp [RefusesCode, outcome]
    · by_cases much : m.maxCode.toInt < m.codeCount source
      · simp [RefusesCode, outcome, much]
      · simp [RefusesCode, outcome, much]
  · intro metered
    rw [refused]
    constructor
    · rintro (much | crowded)
      · exact much
      · exact m.codeCount_of_crowded source metered crowded
    · exact Or.inl

def pairMeter : Meter where
  matcher := { catalog := .ofPatterns [Catalog.steady "S" "NOP" 4 5 1 "00" 1] }
  maxCode := 2

/-- Three lines of code and nothing else. -/
theorem lines_code_limit_block :
    0 < pairMeter.maxCode ∧ exceeds 3 pairMeter.maxLines = false ∧
      (∀ s ∈ pairMeter.spelledOut [" rept 3", " nop", " endm"], pairMeter.isCode s = true) ∧
      pairMeter.maxCode.toInt < pairMeter.codeCount [" rept 3", " nop", " endm"] ∧
      pairMeter.RefusesCode [" rept 3", " nop", " endm"] := by
  have spelled := pairMeter.spelledOut_of_expand [" rept 3", " nop", " endm"] ["NOP", "NOP", "NOP"]
    (by decide +kernel)
  have metered : ∀ s ∈ pairMeter.spelledOut [" rept 3", " nop", " endm"], pairMeter.isCode s = true := by
    rw [spelled]
    decide +kernel
  have much : pairMeter.maxCode.toInt < pairMeter.codeCount [" rept 3", " nop", " endm"] := by
    rw [codeCount, spelled]
    decide +kernel
  have decided := lines_code_limit pairMeter [" rept 3", " nop", " endm"] (by decide) (by decide)
  exact ⟨by decide, by decide, metered, much, (decided.2.2 metered).mpr much⟩

/-- An origin in front of a block takes up room, though it is no line of code. -/
theorem lines_refuses_origin :
    0 < pairMeter.maxCode ∧ exceeds 4 pairMeter.maxLines = false ∧
      pairMeter.codeCount [" org 0", " rept 2", " nop", " endm"] = 2 ∧
      pairMeter.RefusesCode [" org 0", " rept 2", " nop", " endm"] := by
  refine ⟨by decide, by decide, ?_, ?_⟩
  · have spelled := pairMeter.spelledOut_of_expand [" org 0", " rept 2", " nop", " endm"]
      ["ORG 0", "NOP", "NOP"] (by decide +kernel)
    rw [codeCount, spelled]
    decide +kernel
  · right
    exact lines_refused pairMeter _ (by decide) (by decide +kernel)

end Z80Cost.Meter
