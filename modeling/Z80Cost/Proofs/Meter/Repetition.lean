import Z80Cost.Instruction.Z80
import Z80Cost.Proofs.Meter.Lines
import Z80Cost.Proofs.Numeral
import Z80Cost.Proofs.Source.Line
import Z80Cost.Proofs.Totals

/-!
The cost of a repeated source. In each dialect a line opens a block with a count in decimal and a
line closes it; the source between them, if its own blocks are balanced, costs that many times what
it costs alone.
-/

namespace Z80Cost

namespace Source

/-- The line that opens a block of `n` copies. -/
def Dialect.openerLine (dialect : Dialect) (n : Nat) : Text :=
  (if dialect = .sjasmplus then Text.ofString " dup " else Text.ofString " rept ") ++ Text.ofNat n

def Dialect.closerLine (dialect : Dialect) : Text :=
  if dialect = .sjasmplus then " edup" else " endm"

theorem isWordText_ofNat (n : Nat) : Text.IsWordText (Text.ofNat n) :=
  ⟨Text.ofNat_ne_nil n, Text.forall_mem_ofNat (Text.isWord · = true) (by decide) n⟩

theorem count_ofNat (n : Nat) (positive : 0 < n) (bounded : n < 0x8000000000000000) :
    Repetition.count [Text.ofNat n] = Int64.ofNat n := by
  have above : (0 : Int64) < Int64.ofNat n := by
    rw [Int64.lt_iff_toInt_lt, Int64.toInt_ofNat_of_lt bounded]
    exact Int.natCast_pos.mpr positive
  simp only [Repetition.count, Expression.eval_ofNat n bounded, above, ↓reduceIte]

/-- The name of an opener and a count are a statement that opens a block. -/
theorem statements_counted (dialect : Dialect) (known : dialect ∈ Dialect.all) (name : Text)
    (isName : Text.IsWordText name)
    (listed : dialect.repetition.openers.any (Repetition.names · name.upper) = true) (n : Nat)
    (positive : 0 < n) (bounded : n < 0x8000000000000000) :
    ∃ s, dialect.statements (indented name (Text.ofNat n)) = [s] ∧
      dialect.repetition.opens? s = some (Int64.ofNat n) := by
  have digits := isWordText_ofNat n
  refine ⟨name.upper ++ (' ' : UInt8) :: Text.ofNat n, ?_, ?_⟩
  · rw [Dialect.statements_indented dialect known name _ isName digits, Text.upper_ofNat]
  · simp [Repetition.opens?, Dialect.ofText_single _ _ isName.upper digits, listed,
      count_ofNat n positive bounded]

theorem statements_openerLine (dialect : Dialect) (known : dialect ∈ Dialect.all) (n : Nat)
    (positive : 0 < n) (bounded : n < 0x8000000000000000) :
    ∃ s, dialect.statements (dialect.openerLine n) = [s] ∧
      dialect.repetition.opens? s = some (Int64.ofNat n) := by
  have dup : Text.ofString " dup " ++ Text.ofNat n = indented "dup" (Text.ofNat n) := rfl
  have rept : Text.ofString " rept " ++ Text.ofNat n = indented "rept" (Text.ofNat n) := rfl
  have words : Text.IsWordText "dup" ∧ Text.IsWordText "rept" :=
    ⟨⟨by decide, by decide +kernel⟩, ⟨by decide, by decide +kernel⟩⟩
  have counted := statements_counted dialect known
  simp only [Dialect.all, List.mem_cons, List.not_mem_nil, or_false] at known
  unfold Dialect.openerLine
  rcases known with rfl | rfl | rfl
  · rw [if_neg (by decide), rept]
    exact counted "rept" words.2 (by decide) n positive bounded
  · rw [if_pos rfl, dup]
    exact counted "dup" words.1 (by decide) n positive bounded
  · rw [if_neg (by decide), rept]
    exact counted "rept" words.2 (by decide) n positive bounded

theorem statements_closerLine (dialect : Dialect) (known : dialect ∈ Dialect.all) :
    ∃ s, dialect.statements dialect.closerLine = [s] ∧ dialect.repetition.opens? s = none ∧
      dialect.repetition.closes s = true := by
  simp only [Dialect.all, List.mem_cons, List.not_mem_nil, or_false] at known
  rcases known with rfl | rfl | rfl
  · exact ⟨"ENDM", by decide +kernel, by decide +kernel, by decide +kernel⟩
  · exact ⟨"EDUP", by decide +kernel, by decide +kernel, by decide +kernel⟩
  · exact ⟨"ENDM", by decide +kernel, by decide +kernel, by decide +kernel⟩

end Source

namespace Meter

open Source

theorem cost_copies (m : Meter) (n : Nat) (bounded : n < 0x8000000000000000) (statements : List Text) :
    m.cost (copies (Int64.ofNat n) statements) = (m.cost statements).repeated n := by
  have count : (Int64.ofNat n).toInt.toNat = n := by rw [Int64.toInt_ofNat_of_lt bounded, Int.toNat_natCast]
  rw [cost, copies, count, List.map_flatten, List.map_replicate, Totals.sum_replicate, cost]

/-- A source between an opener and a closer is metered at as many times its own cost as the opener
says. -/
theorem lines_repeated (m : Meter) (known : m.dialect ∈ Dialect.all) (body : List Text)
    (balanced : IsBalanced m.dialect.repetition id (body.flatMap m.dialect.statements)) (n : Nat)
    (positive : 1 ≤ n) (bounded : n < 0x8000000000000000) (report : Report)
    (metered : m.lines (m.dialect.openerLine n :: body ++ [m.dialect.closerLine]) = .ok report) :
    ∃ once, m.lines body = .ok once ∧
      report.totals.timing.z80 = once.totals.timing.z80.scale (.ofNat n) ∧
      report.totals.timing.msx = once.totals.timing.msx.scale (.ofNat n) ∧
      report.totals.timing.cpc = once.totals.timing.cpc.scale (.ofNat n) ∧
      report.totals.size = once.totals.size * .ofNat n ∧
      report.totals.code = once.totals.code * .ofNat n ∧
      report.totals.bytes = (List.replicate n once.totals.bytes).flatten := by
  obtain ⟨opener, opened, opens⟩ := statements_openerLine m.dialect known n positive bounded
  obtain ⟨closer, closed, other, closes⟩ := statements_closerLine m.dialect known
  obtain ⟨lines, expanded, found, code, sums⟩ :=
    (m.lines_ok_iff _ report.totals).mp ⟨report, metered, rfl⟩
  have texts : m.texts (m.dialect.openerLine n :: body ++ [m.dialect.closerLine]) =
      opener :: m.texts body ++ [closer] := by
    simp [Meter.texts, opened, closed]
  rw [texts] at found
  obtain ⟨alone, once_found, rfl⟩ :=
    expand_repeated m.maxCode (.ofNat n) opener closer _ expanded balanced opens other closes found
  -- Alone, the body has fewer lines and no more code, so the limits hold for it too.
  have shorter : body.length ≤ (m.dialect.openerLine n :: body ++ [m.dialect.closerLine]).length := by
    simp only [List.length_append, List.length_cons]
    omega
  have less : alone.countP m.isCode ≤ (copies (.ofNat n) alone).countP m.isCode := by
    refine (sublist_copies (.ofNat n) ?_ alone).countP_le
    rw [Int64.toInt_ofNat_of_lt bounded]
    omega
  obtain ⟨once, ok, same⟩ := (m.lines_ok_iff body (m.cost alone)).mpr
    ⟨exceeds_mono _ _ _ shorter lines, alone, once_found, exceeds_mono _ _ _ less code, rfl⟩
  rw [cost_copies m n bounded, ← same] at sums
  exact ⟨once, ok, by rw [← sums]; exact ⟨rfl, rfl, rfl, rfl, rfl, rfl⟩⟩

/-- Two instructions, one of them with two timings, and limits that three copies just meet. -/
def smallMeter : Meter where
  matcher := { catalog := .ofPatterns [Catalog.steady "S" "NOP" 4 5 1 "00" 1,
    Catalog.varying "S" "DJNZ o" 8 13 9 14 3 4 "10 o" 2] }
  dialect := .sjasmplus
  maxLines := 6
  maxCode := 9

/-- A block inside the block. -/
theorem lines_repeated_nested :
    ∃ report once, smallMeter.lines [" dup 3", " rept 2", " nop", " endr", " djnz $", " edup"] = .ok report ∧
      smallMeter.lines [" rept 2", " nop", " endr", " djnz $"] = .ok once ∧
      report.totals.timing.z80 = once.totals.timing.z80.scale 3 ∧
      report.totals.timing.msx = once.totals.timing.msx.scale 3 ∧
      report.totals.timing.cpc = once.totals.timing.cpc.scale 3 ∧
      report.totals.size = once.totals.size * 3 ∧ report.totals.code = once.totals.code * 3 ∧
      report.totals.bytes = (List.replicate 3 once.totals.bytes).flatten := by
  have succeeds : (smallMeter.lines
      [" dup 3", " rept 2", " nop", " endr", " djnz $", " edup"]).toOption.isSome = true := by
    decide +kernel
  cases metered : smallMeter.lines [" dup 3", " rept 2", " nop", " endr", " djnz $", " edup"] with
  | error fault => rw [metered] at succeeds; contradiction
  | ok report =>
      obtain ⟨once, ok, same⟩ := lines_repeated smallMeter (by decide)
        [" rept 2", " nop", " endr", " djnz $"] (by decide +kernel) 3 (by decide) (by decide) report metered
      exact ⟨report, once, rfl, ok, same⟩

end Meter

end Z80Cost
