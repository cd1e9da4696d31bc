import Z80Cost.Instruction.Z80
import Z80Cost.Proofs.Meter.Lines
import Z80Cost.Proofs.Source.Sequence
import Z80Cost.Proofs.Totals

/-!
Metering one source after another. If the first leaves no repeat block open, the report on both is
the report on the first, then the one on the second with its line numbers moved on; the costs add up.
-/

namespace Z80Cost

def Listed.shifted (n : Nat) (listed : Listed) : Listed := { listed with line := listed.line + n }

namespace Meter

open Source

def shiftedEntry (n : Nat) (entry : Nat × Text) : Nat × Text := (entry.1 + n, entry.2)

theorem numbered_append (dialect : Dialect) (first second : List Text) :
    numbered dialect (first ++ second) =
      numbered dialect first ++ (numbered dialect second).map (shiftedEntry first.length) := by
  have later : second.zipIdx (1 + first.length) =
      (second.zipIdx 1).map (Prod.map id (· + first.length)) := by
    rw [List.map_snd_add_zipIdx_eq_zipIdx, Nat.add_comm]
  rw [numbered, List.zipIdx_append, List.flatMap_append, later, List.flatMap_map]
  simp only [numbered, List.map_flatMap, List.map_map]
  rfl

theorem texts_shifted (n : Nat) (entries : List (Nat × Text)) :
    (entries.map (shiftedEntry n)).map Prod.snd = entries.map Prod.snd := by
  rw [List.map_map]
  rfl

theorem listed_shifted (m : Meter) (n : Nat) (entries : List (Nat × Text)) :
    (entries.map (shiftedEntry n)).map m.listed = (entries.map m.listed).map (Listed.shifted n) := by
  rw [List.map_map, List.map_map]
  rfl

theorem cost_append (m : Meter) (first second : List Text) :
    m.cost (first ++ second) = m.cost first + m.cost second := by
  rw [cost, List.map_append, Totals.sum_append]
  rfl

theorem leavesNoneOpen_numbered (m : Meter) (source : List Text)
    (shut : LeavesNoneOpen m.dialect.repetition id (m.texts source)) :
    LeavesNoneOpen m.dialect.repetition Prod.snd (numbered m.dialect source) := by
  rw [← numbered_texts, LeavesNoneOpen, List.foldl_map] at shut
  exact shut

theorem expand_numbered_append (m : Meter) (first second : List Text) (out : List (Nat × Text))
    (shut : LeavesNoneOpen m.dialect.repetition id (m.texts first))
    (expanded : expand? m.dialect.repetition Prod.snd m.maxCode (numbered m.dialect (first ++ second)) =
      some out) :
    ∃ front back,
      expand? m.dialect.repetition Prod.snd m.maxCode (numbered m.dialect first) = some front ∧
      expand? m.dialect.repetition Prod.snd m.maxCode (numbered m.dialect second) = some back ∧
      out = front ++ back.map (shiftedEntry first.length) := by
  rw [numbered_append] at expanded
  obtain ⟨front, moved, head, tail, rfl⟩ :=
    expand_append m.maxCode _ _ out (m.leavesNoneOpen_numbered first shut) expanded
  -- A line number is no part of the text, so it makes no difference to the expansion.
  have same : Prod.snd ∘ shiftedEntry first.length = Prod.snd := rfl
  rw [expand_map, same] at tail
  obtain ⟨back, found, rfl⟩ := Option.map_eq_some_iff.mp tail
  exact ⟨front, back, head, found, rfl⟩

theorem reportOn_append (m : Meter) (lines more n : Nat) (front back : List (Nat × Text)) :
    m.reportOn (lines + more) (front ++ back.map (shiftedEntry n)) =
      ⟨lines + more, (m.reportOn lines front).statements ++
          (m.reportOn more back).statements.map (Listed.shifted n),
        (m.reportOn lines front).totals + (m.reportOn more back).totals⟩ := by
  simp only [reportOn, List.map_append, listed_shifted, texts_shifted, cost_append]

/-- The report on two sources is put together from the reports on each. -/
theorem lines_append (m : Meter) (first second : List Text)
    (shut : LeavesNoneOpen m.dialect.repetition id (first.flatMap m.dialect.statements))
    (report : Report) (metered : m.lines (first ++ second) = .ok report) :
    ∃ front back, m.lines first = .ok front ∧ m.lines second = .ok back ∧
      report.lines = front.lines + back.lines ∧
      report.statements = front.statements ++ back.statements.map (Listed.shifted first.length) ∧
      report.totals.timing.z80 = front.totals.timing.z80 + back.totals.timing.z80 ∧
      report.totals.timing.msx = front.totals.timing.msx + back.totals.timing.msx ∧
      report.totals.timing.cpc = front.totals.timing.cpc + back.totals.timing.cpc ∧
      report.totals.size = front.totals.size + back.totals.size ∧
      report.totals.code = front.totals.code + back.totals.code ∧
      report.totals.bytes = front.totals.bytes ++ back.totals.bytes := by
  obtain ⟨short, out, expanded, few, rfl⟩ := (m.lines_eq_ok _ report).mp metered
  obtain ⟨front, back, head, tail, rfl⟩ := m.expand_numbered_append first second out shut expanded
  rw [List.length_append] at short
  rw [List.map_append, texts_shifted, List.countP_append] at few
  -- Each source alone has fewer lines and less code, so the limits hold for it too.
  have first_metered : m.lines first = .ok (m.reportOn first.length front) := by
    rw [lines_eq_ok]
    refine ⟨exceeds_mono _ _ _ ?_ short, front, head, exceeds_mono _ _ _ ?_ few, rfl⟩
    · exact Nat.le_add_right _ _
    · exact Nat.le_add_right _ _
  have second_metered : m.lines second = .ok (m.reportOn second.length back) := by
    rw [lines_eq_ok]
    refine ⟨exceeds_mono _ _ _ ?_ short, back, tail, exceeds_mono _ _ _ ?_ few, rfl⟩
    · exact Nat.le_add_left _ _
    · exact Nat.le_add_left _ _
  refine ⟨_, _, first_metered, second_metered, ?_⟩
  rw [List.length_append, reportOn_append]
  exact ⟨rfl, rfl, rfl, rfl, rfl, rfl, rfl, rfl⟩

/-- Two instructions, and limits that the source below just meets. -/
def tightMeter : Meter where
  matcher := { catalog := .ofPatterns [Catalog.steady "S" "NOP" 4 5 1 "00" 1,
    Catalog.varying "S" "DJNZ o" 8 13 9 14 3 4 "10 o" 2] }
  maxLines := 6
  maxCode := 6

/-- A stray closer and a whole block, then a block that is never closed. -/
theorem lines_append_unclosed :
    ∃ report front back,
      tightMeter.lines [" endm", " rept 2", " nop", " endm", " rept 3", " djnz $"] = .ok report ∧
      tightMeter.lines [" endm", " rept 2", " nop", " endm"] = .ok front ∧
      tightMeter.lines [" rept 3", " djnz $"] = .ok back ∧
      report.lines = front.lines + back.lines ∧
      report.statements = front.statements ++ back.statements.map (Listed.shifted 4) ∧
      report.totals.timing.z80 = front.totals.timing.z80 + back.totals.timing.z80 ∧
      report.totals.timing.msx = front.totals.timing.msx + back.totals.timing.msx ∧
      report.totals.timing.cpc = front.totals.timing.cpc + back.totals.timing.cpc ∧
      report.totals.size = front.totals.size + back.totals.size ∧
      report.totals.code = front.totals.code + back.totals.code ∧
      report.totals.bytes = front.totals.bytes ++ back.totals.bytes := by
  have succeeds : (tightMeter.lines
      [" endm", " rept 2", " nop", " endm", " rept 3", " djnz $"]).toOption.isSome = true := by
    decide +kernel
  cases metered : tightMeter.lines [" endm", " rept 2", " nop", " endm", " rept 3", " djnz $"] with
  | error fault => rw [metered] at succeeds; contradiction
  | ok report =>
      obtain ⟨front, back, sums⟩ := lines_append tightMeter [" endm", " rept 2", " nop", " endm"]
        [" rept 3", " djnz $"] (by decide +kernel) report metered
      exact ⟨report, front, back, rfl, sums⟩

end Meter

end Z80Cost
