import Z80Cost.Proofs.Matcher.Instances
import Z80Cost.Proofs.Source.Contents

/-!
The accumulator in front of a single operand. Where an instruction has it as its first operand it may
be left out, and where it is understood it may be spelled out: both statements compare the same text
with the same operand of the instruction. On the table of the Z80, the other instructions of such a
mnemonic, those of sixteen bits and of extensions, refuse both.
-/

namespace Z80Cost

namespace Source

namespace Statement

section Lone
variable (mnemonic s : Text) (valid : IsMnemonic mnemonic) (free : Mark.outside ',' ∉ marks s)
include valid free

/-- What is read of a lone operand; there is none among blanks. -/
theorem ofText_lone : ofText (mnemonic ++ " " ++ s) =
    ⟨mnemonic, if Text.trim s.trimRight = [] then [] else [Text.trim s.trimRight]⟩ := by
  have still := free_trim ',' _ (free_trimRight ',' s free)
  rw [← append_space, ofText_mnemonic mnemonic s valid, operandsOf, splitOutside_free ',' _ still,
    List.map_singleton, Text.trim_trim]
  simp only [List.isEmpty_iff]

theorem ofText_pair (first : Text) (operand : IsField first) :
    ofText (mnemonic ++ (' ' : UInt8) :: (first ++ (',' : UInt8) :: s)) =
      ⟨mnemonic, [first, Text.trim s.trimRight]⟩ := by
  have right (t : Text) : Text.trimRight (first ++ (',' : UInt8) :: t) = first ++ (',' : UInt8) :: t.trimRight :=
    Text.trimRight_append_cons first t ',' solid_comma
  have left (t : Text) : Text.trimLeft (first ++ (',' : UInt8) :: t) = first ++ (',' : UInt8) :: t := by
    rw [Text.trimLeft_append_cons first t ',' solid_comma, (Text.trim_fixed first operand.trimmed).1]
  have closed : isOpen first = false := (isOpen_eq_false first).mpr (operand.balanced {} rfl rfl).2
  have split : splitOutside ',' (first ++ (',' : UInt8) :: s.trimRight) = [first, s.trimRight] := by
    rw [splitOutside_break ',' (by decide) first _ closed, splitOutside_free ',' first operand.comma_free,
      splitOutside_free ',' _ (free_trimRight ',' s free)]
    rfl
  rw [ofText_mnemonic mnemonic _ valid, Text.trim, right, left, right, Text.trimRight_trimRight, operandsOf, split]
  simp [operand.trimmed]

theorem ofText_accumulator : ofText (mnemonic ++ " A," ++ s) = ⟨mnemonic, ["A", Text.trim s.trimRight]⟩ := by
  have line : mnemonic ++ " A," ++ s = mnemonic ++ (' ' : UInt8) :: ("A" ++ (',' : UInt8) :: s) := by
    rw [List.append_assoc]
    rfl
  have register : IsOperand "A" :=
    ⟨by decide, by decide, by decide, literalless_of_all _ (by decide)⟩
  rw [line]
  exact ofText_pair mnemonic s valid free "A" register.isField

end Lone

end Statement

end Source

namespace Instruction

/-- Whether the operand of `i` that reads as `t` may stand alone or behind the accumulator. -/
def TakesBehindAccumulator (i : Instruction) (t : Text) : Prop :=
  i.operands = [("A" : Text), t] ∧ i.mnemonic ≠ "LD" ∨ i.operands = [t] ∧ i.mnemonic ∈ Matcher.explicitAccumulator

/-- Whether `i` fits neither a lone operand nor one behind the accumulator. -/
def RefusesAccumulator (i : Instruction) : Prop :=
  ∃ first t, i.operands = [first, t] ∧ first ≠ "A" ∧ (Operand.ofText first).score "A" = .rejected

/-- Whether the accumulator in front of a lone operand is all the same to `i`. -/
def ignoresAccumulator (i : Instruction) : Bool :=
  match i.operands with
  | [first, _] =>
      if first = "A" then i.mnemonic != "LD" else (Operand.ofText first).score "A" == .rejected
  | [_] => Matcher.explicitAccumulator.contains i.mnemonic
  | _ => false

theorem takes_or_refuses (i : Instruction) (ignores : i.ignoresAccumulator = true) :
    (∃ t, i.TakesBehindAccumulator t) ∨ i.RefusesAccumulator := by
  unfold ignoresAccumulator at ignores
  split at ignores
  · next first t row =>
      split at ignores
      · next accumulator => exact .inl ⟨t, .inl ⟨accumulator ▸ row, by simpa using ignores⟩⟩
      · next other => exact .inr ⟨first, t, row, other, by simpa using ignores⟩
  · next t row => exact .inl ⟨t, .inr ⟨row, by simpa using ignores⟩⟩
  · contradiction

end Instruction

namespace Matcher

theorem scoreOf_blank (i : Instruction) (mnemonic : Text) (operands : List Text) (blank : [] ∈ operands) :
    scoreOf i ⟨mnemonic, operands⟩ = .rejected := by
  have found : operands.any List.isEmpty = true := List.any_eq_true.mpr ⟨[], blank, rfl⟩
  simp [scoreOf, found]

theorem scoreOf_other (i : Instruction) (mnemonic : Text) (operands : List Text) (other : i.mnemonic ≠ mnemonic) :
    scoreOf i ⟨mnemonic, operands⟩ = .rejected := by
  simp [scoreOf, other]

section Row
variable (i : Instruction) (shaped : i.shapes = i.operands.map Operand.ofText)
include shaped

/-- Alone or behind the accumulator, the operand is compared with the same one of the instruction. -/
theorem scoreOf_taken (t x : Text) (takes : i.TakesBehindAccumulator t) (nonempty : x ≠ []) :
    scoreOf i ⟨i.mnemonic, [x]⟩ = (Operand.ofText t).score x ∧
      scoreOf i ⟨i.mnemonic, ["A", x]⟩ = (Operand.ofText t).score x := by
  have spelled : Text.ofString "A" ≠ [] := by decide
  rcases takes with ⟨row, other⟩ | ⟨row, redundant⟩
  · have shapes : i.shapes = [.ofText "A", .ofText t] := by rw [shaped, row]; rfl
    have fits : (Operand.ofText "A").score "A" = .exact := rfl
    constructor
    · simp [scoreOf, nonempty, shapes, implicitForm, row, other, exactForm, product, productFrom]
    · simp [scoreOf, spelled, nonempty, shapes, exactForm, product, productFrom, fits]
  · have shapes : i.shapes = [.ofText t] := by rw [shaped, row]; rfl
    constructor
    · simp [scoreOf, nonempty, shapes, exactForm, product, productFrom]
    · simp [scoreOf, spelled, nonempty, shapes, explicitForm, redundant]

theorem scoreOf_refusing (mnemonic x : Text) (refuses : i.RefusesAccumulator) :
    scoreOf i ⟨mnemonic, [x]⟩ = .rejected ∧ scoreOf i ⟨mnemonic, ["A", x]⟩ = .rejected := by
  obtain ⟨first, t, row, other, unfit⟩ := refuses
  have shapes : i.shapes = [.ofText first, .ofText t] := by rw [shaped, row]; rfl
  constructor
  · simp [scoreOf, shapes, implicitForm, row, other]
  · simp [scoreOf, shapes, exactForm, product, productFrom, unfit, Score.rejected_times]

theorem scoreOf_behind (t : Text) (takes : i.TakesBehindAccumulator t) (mnemonic x : Text) :
    scoreOf i ⟨mnemonic, [x]⟩ = scoreOf i ⟨mnemonic, ["A", x]⟩ := by
  by_cases other : i.mnemonic ≠ mnemonic
  · rw [scoreOf_other i mnemonic _ other, scoreOf_other i mnemonic _ other]
  obtain rfl := Decidable.not_not.mp other
  by_cases blank : x = []
  · rw [blank, scoreOf_blank i _ _ (by simp), scoreOf_blank i _ _ (by simp)]
  obtain ⟨alone, behind⟩ := scoreOf_taken i shaped t x takes blank
  rw [alone, behind]

theorem scoreOf_ignoring (ignores : i.ignoresAccumulator = true) (mnemonic x : Text) :
    scoreOf i ⟨mnemonic, [x]⟩ = scoreOf i ⟨mnemonic, ["A", x]⟩ := by
  rcases i.takes_or_refuses ignores with ⟨t, takes⟩ | refuses
  · exact scoreOf_behind i shaped t takes mnemonic x
  · obtain ⟨alone, behind⟩ := scoreOf_refusing i shaped mnemonic x refuses
    rw [alone, behind]

/-- Where an operand is needed, none is as good as an empty one. -/
theorem scoreOf_missing (ignores : i.ignoresAccumulator = true) (mnemonic : Text) :
    scoreOf i ⟨mnemonic, []⟩ = .rejected := by
  rcases i.takes_or_refuses ignores with ⟨t, ⟨row, _⟩ | ⟨row, _⟩⟩ | ⟨first, t, row, _⟩ <;>
    simp [scoreOf, shaped, row, implicitForm, explicitForm]

end Row

/-- The best is found by the scores alone. -/
theorem bestFrom_congr (first second : Source.Statement) (best : Option Ranked) (rows : List Instruction)
    (same : ∀ i ∈ rows, scoreOf i first = scoreOf i second) :
    bestFrom first best rows = bestFrom second best rows := by
  induction rows generalizing best with
  | nil => rfl
  | cons i rest ih =>
      obtain ⟨here, later⟩ := List.forall_mem_cons.mp same
      simp only [bestFrom, here, ih _ later]

/-- The mnemonics that work on the accumulator, or may be written as if they did. -/
def accumulating : List Text :=
  ["ADD", "ADC", "SBC", "SUB", "AND", "OR", "XOR", "CP", "RLC", "RRC", "RL", "RR", "SLA", "SRA", "SLL", "SRL"]

theorem accumulating_valid (mnemonic : Text) (member : mnemonic ∈ accumulating) :
    Source.Statement.IsMnemonic mnemonic := by
  have nonempty : accumulating.all (fun word => !word.isEmpty && word.all Text.isSolid) = true := by decide
  have valid := List.all_eq_true.mp nonempty mnemonic member
  rw [Bool.and_eq_true] at valid
  exact ⟨by simpa using valid.1, List.all_eq_true.mp valid.2⟩

end Matcher

namespace Catalog

-- Evaluated by the kernel: of these mnemonics, every row takes the operand or refuses `A`.
set_option maxRecDepth 100000 in
theorem z80_accumulating : ∀ i ∈ z80.all, i.mnemonic ∈ Matcher.accumulating → i.ignoresAccumulator = true := by
  decide +kernel

end Catalog

namespace Matcher

theorem best_lone (m : Matcher) (builtin : m.catalog = Catalog.z80) (mnemonic s : Text)
    (member : mnemonic ∈ accumulating) (free : Source.Mark.outside ',' ∉ Source.marks s) :
    m.best? (.ofText (mnemonic ++ " " ++ s)) = m.best? (.ofText (mnemonic ++ " A," ++ s)) := by
  have valid := accumulating_valid mnemonic member
  rw [Source.Statement.ofText_lone mnemonic s valid free, Source.Statement.ofText_accumulator mnemonic s valid free]
  simp only [best?, builtin]
  apply bestFrom_congr
  intro i candidate
  obtain ⟨inTable, rfl⟩ := (Catalog.mem_candidates_iff _ mnemonic i).mp (List.mem_of_mem_filter candidate)
  have shaped := Catalog.ofPatterns_shapes Catalog.z80Patterns i inTable
  have ignores := Catalog.z80_accumulating i inTable member
  split
  · next blank => rw [blank, scoreOf_missing i shaped ignores, scoreOf_blank i _ _ (by simp)]
  · exact scoreOf_ignoring i shaped ignores _ _

/-- The accumulator in front of an operand may be written or left out. An instruction that has it or
may have it there scores both alike, by the operand; on the table of the Z80 the best instruction is
the same with the same score, whatever the operand and the enabled sets. -/
theorem best_accumulator :
    (∀ (patterns : List Pattern), ∀ i ∈ (Catalog.ofPatterns patterns).all, ∀ t, i.TakesBehindAccumulator t →
      ∀ mnemonic x, scoreOf i ⟨mnemonic, [x]⟩ = scoreOf i ⟨mnemonic, ["A", x]⟩ ∧
        (mnemonic = i.mnemonic → x ≠ [] → scoreOf i ⟨mnemonic, [x]⟩ = (Operand.ofText t).score x)) ∧
    ∀ m : Matcher, m.catalog = Catalog.z80 → ∀ mnemonic ∈ accumulating, ∀ s : Text,
      Source.Mark.outside ',' ∉ Source.marks s →
        m.best? (.ofText (mnemonic ++ " " ++ s)) = m.best? (.ofText (mnemonic ++ " A," ++ s)) := by
  constructor
  · intro patterns i member t takes mnemonic x
    have shaped := Catalog.ofPatterns_shapes patterns i member
    refine ⟨scoreOf_behind i shaped t takes mnemonic x, ?_⟩
    rintro rfl nonempty
    exact (scoreOf_taken i shaped t x takes nonempty).1
  · intro m builtin mnemonic member s free
    exact best_lone m builtin mnemonic s member free

def addIndexed : Pattern := Catalog.steady "S" "ADD A,(IX+o)" 19 21 5 "DD 86 o" 3

def subtractNumber : Pattern := Catalog.steady "S" "SUB n" 7 8 2 "D6 n" 2

/-- A comma in quotes as the offset: without doubt for the first row, with one for the second, and
read as part of the operand. -/
theorem best_accumulator_quoted :
    scoreOf (.ofPattern addIndexed) ⟨"ADD", ["A", "(IX+',')"]⟩ = .exact ∧
    scoreOf (.ofPattern subtractNumber) ⟨"SUB", ["A", "(IX+',')"]⟩ = .doubtful ∧
    Source.Mark.outside ',' ∉ Source.marks "(IX+',')" ∧
    ({ catalog := .z80, sets := ["N", "S"] } : Matcher).best? (.ofText "ADD (IX+',')") =
      ({ catalog := .z80, sets := ["N", "S"] } : Matcher).best? (.ofText "ADD A,(IX+',')") := by
  have free : Source.Mark.outside ',' ∉ Source.marks "(IX+',')" := by decide
  have alone : Text.ofString "ADD (IX+',')" = Text.ofString "ADD" ++ " " ++ Text.ofString "(IX+',')" := by decide
  have behind : Text.ofString "ADD A,(IX+',')" = Text.ofString "ADD" ++ " A," ++ Text.ofString "(IX+',')" := by
    decide
  have add := best_accumulator.1 [addIndexed] (.ofPattern addIndexed) (by decide) "(IX+o)" (.inl (by decide))
    "ADD" "(IX+',')"
  have subtract := best_accumulator.1 [subtractNumber] (.ofPattern subtractNumber) (by decide) "n"
    (.inr (by decide)) "SUB" "(IX+',')"
  refine ⟨?_, ?_, free, ?_⟩
  · rw [← add.1, add.2 (by decide) (by decide)]
    rfl
  · rw [← subtract.1, subtract.2 (by decide) (by decide)]
    rfl
  · rw [alone, behind]
    exact best_accumulator.2 _ rfl "ADD" (by decide) _ free

end Matcher

end Z80Cost
