import Mathlib.Data.List.Forall2
import Z80Cost.Instruction.Z80
import Z80Cost.Proofs.Directive.Storage
import Z80Cost.Proofs.Meter.Lines
import Z80Cost.Proofs.Totals

/-!
The storage policy changes times alone. A source is refused under both policies or under none, and
the two reports list the same statements of the same size; only a storage block without a fill byte
may list other bytes, those of the instruction that it stands for.
-/

namespace Z80Cost

open Directive

theorem Matcher.meter_agree (instructions : List Instruction) (sets : List Text)
    (statement : Source.Statement) :
    Agree instructions statement
      (({ catalog := .ofInstructions instructions, sets, policy := .keep } : Matcher).meter statement)
      (({ catalog := .ofInstructions instructions, sets, policy := .expand } : Matcher).meter statement) := by
  simp only [Matcher.meter]
  by_cases data : ((Catalog.ofInstructions instructions).candidates statement.mnemonic).isEmpty = true
  · rw [if_pos data, if_pos data]
    exact agree_meter instructions statement data
  · -- The policy is not looked at where an instruction is chosen.
    rw [if_neg data, if_neg data]
    apply agree_same
    simp [plainStorage?, data]

namespace Meter

section Policies
variable (patterns : List Pattern) (sets : List Text) (dialect : Source.Dialect) (maxLines maxCode : Int64)

def ofTable (policy : StoragePolicy) : Meter where
  matcher := { catalog := .ofPatterns patterns, sets, policy }
  dialect := dialect
  maxLines := maxLines
  maxCode := maxCode

section
variable (policy : StoragePolicy)

theorem ofTable_dialect : (ofTable patterns sets dialect maxLines maxCode policy).dialect = dialect := rfl

theorem ofTable_maxLines : (ofTable patterns sets dialect maxLines maxCode policy).maxLines = maxLines := rfl

theorem ofTable_maxCode : (ofTable patterns sets dialect maxLines maxCode policy).maxCode = maxCode := rfl

end

/-- What a statement is listed with under either policy. -/
structure AgreeOn (kept expanded : Listed) : Prop where
  line : kept.line = expanded.line
  text : kept.text = expanded.text
  code : kept.isCode = expanded.isCode
  results : Agree (patterns.flatMap Pattern.expand) (.ofText kept.text) kept.results expanded.results

theorem listed_agree (entry : Nat × Text) :
    AgreeOn patterns ((ofTable patterns sets dialect maxLines maxCode .keep).listed entry)
      ((ofTable patterns sets dialect maxLines maxCode .expand).listed entry) := by
  have same := Matcher.meter_agree (patterns.flatMap Pattern.expand) sets (.ofText entry.2)
  exact ⟨rfl, rfl, congrArg Bool.not same.code, same⟩

/-- Both policies find the same lines of code. -/
theorem isCode_agree :
    (ofTable patterns sets dialect maxLines maxCode .keep).isCode =
      (ofTable patterns sets dialect maxLines maxCode .expand).isCode := by
  funext s
  exact (listed_agree patterns sets dialect maxLines maxCode (0, s)).code

theorem cost_agree (statements : List Text) :
    let kept := (ofTable patterns sets dialect maxLines maxCode .keep).cost statements
    let expanded := (ofTable patterns sets dialect maxLines maxCode .expand).cost statements
    kept.code = expanded.code ∧ kept.size = expanded.size := by
  have same (s : Text) := (listed_agree patterns sets dialect maxLines maxCode (0, s)).results
  constructor
  · apply Totals.sum_part_congr Totals.code (fun _ _ => rfl)
    intro s
    rw [Totals.code_ofResults, Totals.code_ofResults]
    exact congrArg (fun empty : Bool => if empty then 0 else 1) (same s).code
  · apply Totals.sum_part_congr Totals.size (fun _ _ => rfl)
    intro s
    rw [Totals.size_ofResults, Totals.size_ofResults]
    exact (same s).size

/-- What two reports have in common. -/
structure AgreeReports (kept expanded : Report) : Prop where
  lines : kept.lines = expanded.lines
  statements : List.Forall₂ (AgreeOn patterns) kept.statements expanded.statements
  code : kept.totals.code = expanded.totals.code
  size : kept.totals.size = expanded.totals.size

theorem reportOn_agree (lines : Nat) (entries : List (Nat × Text)) :
    AgreeReports patterns ((ofTable patterns sets dialect maxLines maxCode .keep).reportOn lines entries)
      ((ofTable patterns sets dialect maxLines maxCode .expand).reportOn lines entries) := by
  obtain ⟨code, size⟩ := cost_agree patterns sets dialect maxLines maxCode (entries.map Prod.snd)
  refine ⟨rfl, ?_, code, size⟩
  apply List.forall₂_map_left_iff.mpr
  apply List.forall₂_map_right_iff.mpr
  apply List.forall₂_same.mpr
  intro entry _
  exact listed_agree patterns sets dialect maxLines maxCode entry

/-- Both policies refuse a source for the same reason, or give reports that differ in times and in
the bytes of storage blocks without a fill. -/
theorem lines_policies (source : List Text) :
    (∃ fault, (ofTable patterns sets dialect maxLines maxCode .keep).lines source = .error fault ∧
        (ofTable patterns sets dialect maxLines maxCode .expand).lines source = .error fault) ∨
      ∃ kept expanded, (ofTable patterns sets dialect maxLines maxCode .keep).lines source = .ok kept ∧
        (ofTable patterns sets dialect maxLines maxCode .expand).lines source = .ok expanded ∧
        AgreeReports patterns kept expanded := by
  simp only [lines_eq, ofTable_dialect, ofTable_maxLines, ofTable_maxCode, isCode_agree]
  by_cases long : exceeds source.length maxLines = true
  · exact .inl ⟨_, if_pos long, if_pos long⟩
  · simp only [long, Bool.false_eq_true, ↓reduceIte]
    cases Source.expand? dialect.repetition Prod.snd maxCode (numbered dialect source) with
    | none => exact .inl ⟨_, rfl, rfl⟩
    | some entries =>
        by_cases much : exceeds ((entries.map Prod.snd).countP
            (ofTable patterns sets dialect maxLines maxCode .expand).isCode) maxCode = true
        · exact .inl ⟨_, if_pos much, if_pos much⟩
        · exact .inr ⟨_, _, if_neg much, if_neg much,
            reportOn_agree patterns sets dialect maxLines maxCode source.length entries⟩

end Policies

/-- Two instructions with one opcode, the later of two bytes. -/
def sharedOpcode : List Pattern :=
  [Catalog.steady "S" "NOP" 4 5 1 "00" 1, Catalog.steady "S" "BRK" 7 8 2 "00" 2]

/-- An instruction of one byte does not stand for a storage block if a later one has its opcode. -/
theorem lines_shared_opcode :
    (∃ i ∈ (Catalog.ofPatterns sharedOpcode).all, i.opcode = zeroOpcode ∧ i.size = 1) ∧
      ((ofTable sharedOpcode [] .generic 0 0 .expand).lines [" ds 4"]).toOption.map
          (fun report => report.statements.map fun listed => Metered.tokens listed.results) =
        some [List.replicate 4 unknownByte] := by
  decide +kernel

end Meter

end Z80Cost
