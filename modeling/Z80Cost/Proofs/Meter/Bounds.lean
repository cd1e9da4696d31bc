import Z80Cost.Proofs.Instruction.Bounds
import Z80Cost.Proofs.Matcher.Enabled
import Z80Cost.Proofs.Meter.Policy

/-!
Totals in order. Words wrap around, so a total is the exact sum of what the results cost, as far as that
fits; and exact sums keep the order of what they add up.
-/

namespace Z80Cost

/-- What is added up over a source: bytes, or the lesser or the greater time on a machine. -/
inductive Measure where
  | bytes
  | least (platform : Platform)
  | most (platform : Platform)
  deriving DecidableEq

namespace Measure

def all : List Measure := .bytes :: Platform.all.flatMap fun platform => [.least platform, .most platform]

theorem mem_all (platform : Platform) (known : platform ∈ Platform.all) :
    .least platform ∈ all ∧ .most platform ∈ all := by
  simp [all, known]

def ofTotals : Measure → Totals → Int64
  | bytes, totals => totals.size
  | least platform, totals => (platform.cycles totals.timing).min
  | most platform, totals => (platform.cycles totals.timing).max

/-- What one result adds, as an integer without bounds. -/
def exact : Measure → Metered → Int
  | bytes, .instruction i => i.size.toInt
  | bytes, .directive d => d.data.length
  | least platform, result => (platform.cycles result.timing).min.toInt
  | most platform, result => (platform.cycles result.timing).max.toInt

def exactSum (measure : Measure) : List Metered → Int
  | [] => 0
  | result :: results => measure.exact result + measure.exactSum results

theorem exactSum_append (measure : Measure) (first second : List Metered) :
    measure.exactSum (first ++ second) = measure.exactSum first + measure.exactSum second := by
  induction first with
  | nil => simp [exactSum]
  | cons result first ih => simp [exactSum, ih, Int.add_assoc]

theorem exactSum_mono (low high : Measure) (results : List Metered)
    (each : ∀ result ∈ results, low.exact result ≤ high.exact result) :
    low.exactSum results ≤ high.exactSum results := by
  induction results with
  | nil => exact Int.le_refl 0
  | cons result results ih =>
      obtain ⟨here, others⟩ := List.forall_mem_cons.mp each
      exact Int.add_le_add here (ih others)

theorem exactSum_nonneg (measure : Measure) (results : List Metered)
    (each : ∀ result ∈ results, 0 ≤ measure.exact result) : 0 ≤ measure.exactSum results := by
  induction results with
  | nil => exact Int.le_refl 0
  | cons result results ih =>
      obtain ⟨here, others⟩ := List.forall_mem_cons.mp each
      exact Int.add_nonneg here (ih others)

theorem cycles_add (platform : Platform) (a b : Timing) :
    platform.cycles (a + b) = platform.cycles a + platform.cycles b := by
  cases platform <;> rfl

theorem ofTotals_add (measure : Measure) (a b : Totals) :
    measure.ofTotals (a + b) = measure.ofTotals a + measure.ofTotals b := by
  cases measure with
  | bytes => rfl
  | least platform =>
      change (platform.cycles (a.timing + b.timing)).min = _
      rw [cycles_add]
      rfl
  | most platform =>
      change (platform.cycles (a.timing + b.timing)).max = _
      rw [cycles_add]
      rfl

theorem ofTotals_zero (measure : Measure) : measure.ofTotals {} = 0 := by
  cases measure with
  | bytes => rfl
  | least platform => cases platform <;> rfl
  | most platform => cases platform <;> rfl

theorem ofTotals_ofMetered (measure : Measure) (result : Metered) :
    measure.ofTotals (.ofMetered result) = .ofInt (measure.exact result) := by
  cases measure with
  | bytes =>
      cases result with
      | instruction i => exact (Int64.ofInt_toInt _).symm
      | directive d => exact (Int64.ofInt_eq_ofNat ..).symm
  | least platform => exact (Int64.ofInt_toInt _).symm
  | most platform => exact (Int64.ofInt_toInt _).symm

theorem ofTotals_sum (measure : Measure) (results : List Metered) :
    measure.ofTotals (.sum (results.map .ofMetered)) = .ofInt (measure.exactSum results) := by
  induction results with
  | nil => exact measure.ofTotals_zero
  | cons result results ih =>
      change measure.ofTotals (.ofMetered result + .sum (results.map .ofMetered)) = _
      rw [ofTotals_add, ofTotals_ofMetered, ih, exactSum, Int64.ofInt_add]

theorem ofTotals_ofResults (measure : Measure) (results : List Metered) :
    measure.ofTotals (.ofResults results) = .ofInt (measure.exactSum results) := by
  rw [← ofTotals_sum]
  cases results with
  | nil => rfl
  | cons result results => cases measure <;> rfl

theorem ofTotals_totals (measure : Measure) (statements : List Listed) :
    measure.ofTotals (Meter.totals statements) = .ofInt (measure.exactSum (statements.flatMap Listed.results)) := by
  induction statements with
  | nil => exact measure.ofTotals_zero
  | cons listed statements ih =>
      change measure.ofTotals (.ofResults listed.results + Meter.totals statements) = _
      rw [ofTotals_add, ofTotals_ofResults, ih, List.flatMap_cons, exactSum_append, Int64.ofInt_add]

end Measure

/-- Every exact sum over the statements fits a word. -/
def Meter.Fits (statements : List Listed) : Prop :=
  ∀ measure ∈ Measure.all,
    -0x8000000000000000 ≤ measure.exactSum (statements.flatMap Listed.results) ∧
      measure.exactSum (statements.flatMap Listed.results) < 0x8000000000000000

instance Meter.decidableFits (statements : List Listed) : Decidable (Fits statements) :=
  inferInstanceAs (Decidable (∀ measure ∈ Measure.all, _ ∧ _))

theorem Timing.IsOrdered.cycles {timing : Timing} (ordered : timing.IsOrdered) (platform : Platform) :
    (platform.cycles timing).IsOrdered := by
  cases platform with
  | msx => exact ordered.msx
  | cpc => exact ordered.cpc
  | z80 => exact ordered.z80
  | z80n => exact ordered.z80
  | other number => exact ordered.z80

structure Metered.IsOrdered (result : Metered) : Prop where
  size : 0 ≤ Measure.bytes.exact result
  timing : result.timing.IsOrdered

theorem Metered.isOrdered_instruction (i : Instruction) (size : 0 ≤ i.pattern.size)
    (timing : i.pattern.timing.IsOrdered) : (Metered.instruction i).IsOrdered :=
  ⟨Int64.le_iff_toInt_le.mp size, timing⟩

theorem Metered.isOrdered_directive (d : Directive) : (Metered.directive d).IsOrdered :=
  ⟨Int.natCast_nonneg _, (by decide : ({} : Timing).IsOrdered)⟩

namespace Meter

section Totals
variable (statements : List Listed) (fits : Fits statements)
include fits

theorem toInt_totals (measure : Measure) (known : measure ∈ Measure.all) :
    (measure.ofTotals (totals statements)).toInt = measure.exactSum (statements.flatMap Listed.results) := by
  rw [Measure.ofTotals_totals, Int64.toInt_ofInt_of_le (fits measure known).1 (fits measure known).2]

theorem totals_nonneg (measure : Measure) (known : measure ∈ Measure.all)
    (each : ∀ result ∈ statements.flatMap Listed.results, 0 ≤ measure.exact result) :
    0 ≤ measure.ofTotals (totals statements) := by
  rw [Int64.le_iff_toInt_le, toInt_totals statements fits measure known]
  exact measure.exactSum_nonneg _ each

theorem totals_mono (low high : Measure) (lowKnown : low ∈ Measure.all) (highKnown : high ∈ Measure.all)
    (each : ∀ result ∈ statements.flatMap Listed.results, low.exact result ≤ high.exact result) :
    low.ofTotals (totals statements) ≤ high.ofTotals (totals statements) := by
  rw [Int64.le_iff_toInt_le, toInt_totals statements fits low lowKnown, toInt_totals statements fits high highKnown]
  exact low.exactSum_mono high _ each

theorem totals_ordered (each : ∀ result ∈ statements.flatMap Listed.results, result.IsOrdered) :
    0 ≤ (totals statements).size ∧ (totals statements).timing.IsOrdered := by
  have machine (platform : Platform) (known : platform ∈ Platform.all) :
      (platform.cycles (totals statements).timing).IsOrdered := by
    obtain ⟨least, most⟩ := Measure.mem_all platform known
    constructor
    · refine totals_nonneg statements fits (.least platform) least fun result member => ?_
      exact Int64.le_iff_toInt_le.mp ((each result member).timing.cycles platform).1
    · refine totals_mono statements fits (.least platform) (.most platform) least most fun result member => ?_
      exact Int64.le_iff_toInt_le.mp ((each result member).timing.cycles platform).2
  constructor
  · exact totals_nonneg statements fits .bytes (by decide) fun result member => (each result member).size
  · exact ⟨machine .z80 (by decide), machine .msx (by decide), machine .cpc (by decide)⟩

end Totals

section Reports
variable (patterns : List Pattern) (sets : List Text) (dialect : Source.Dialect) (maxLines maxCode : Int64)
  (policy : StoragePolicy) (source : List Text) (report : Report)
  (metered : (ofTable patterns sets dialect maxLines maxCode policy).lines source = .ok report)
include metered

theorem totals_report : report.totals = totals report.statements := by
  obtain ⟨_, entries, _, _, rfl⟩ := (lines_eq_ok _ source report).mp metered
  exact (totals_listed _ entries).symm

/-- The instructions of a report are instructions of the table. -/
theorem mem_report (i : Instruction) (member : .instruction i ∈ report.statements.flatMap Listed.results) :
    i ∈ (Catalog.ofPatterns patterns).all := by
  obtain ⟨_, entries, _, _, rfl⟩ := (lines_eq_ok _ source report).mp metered
  obtain ⟨listed, inside, result⟩ := List.mem_flatMap.mp member
  obtain ⟨entry, _, rfl⟩ := List.mem_map.mp inside
  exact Matcher.mem_of_meter patterns sets policy _ i result

theorem report_ordered (sound : ∀ i ∈ (Catalog.ofPatterns patterns).all, i.pattern.IsSound)
    (fits : Fits report.statements) : 0 ≤ report.totals.size ∧ report.totals.timing.IsOrdered := by
  rw [totals_report patterns sets dialect maxLines maxCode policy source report metered]
  apply totals_ordered report.statements fits
  intro result member
  cases result with
  | directive d => exact Metered.isOrdered_directive d
  | instruction i =>
      have row := sound i (mem_report patterns sets dialect maxLines maxCode policy source report metered i member)
      exact Metered.isOrdered_instruction i row.size row.timing

end Reports

theorem report_waits (sets : List Text) (dialect : Source.Dialect) (maxLines maxCode : Int64)
    (policy : StoragePolicy) (source : List Text) (report : Report)
    (metered : (ofTable Catalog.z80Patterns sets dialect maxLines maxCode policy).lines source = .ok report)
    (fits : Fits report.statements) :
    report.totals.timing.z80.min ≤ report.totals.timing.msx.min ∧
      report.totals.timing.z80.max ≤ report.totals.timing.msx.max := by
  have waits : ∀ result ∈ report.statements.flatMap Listed.results,
      result.timing.z80.min ≤ result.timing.msx.min ∧ result.timing.z80.max ≤ result.timing.msx.max := by
    intro result member
    cases result with
    | directive d => exact ⟨Int64.le_refl 0, Int64.le_refl 0⟩
    | instruction i =>
        exact Catalog.z80_waits i (mem_report _ sets dialect maxLines maxCode policy source report metered i member)
  rw [totals_report _ sets dialect maxLines maxCode policy source report metered]
  constructor
  · refine totals_mono report.statements fits (.least .z80) (.least .msx) (by decide) (by decide) fun result member => ?_
    exact Int64.le_iff_toInt_le.mp (waits result member).1
  · refine totals_mono report.statements fits (.most .z80) (.most .msx) (by decide) (by decide) fun result member => ?_
    exact Int64.le_iff_toInt_le.mp (waits result member).2

/-- Whatever table is read, its rows, their instructions and the totals of every source are in order; on
the built-in table the machine that waits is never the faster one. -/
theorem lines_ordered :
    (∀ (s : Text) (patterns : List Pattern), Table.read s = .ok patterns →
      (∀ pattern ∈ patterns, pattern.IsSound) ∧
      (∀ i ∈ (Catalog.ofPatterns patterns).all, i.pattern.IsSound) ∧
      ∀ (sets : List Text) (dialect : Source.Dialect) (maxLines maxCode : Int64) (policy : StoragePolicy)
          (source : List Text) (report : Report),
        (ofTable patterns sets dialect maxLines maxCode policy).lines source = .ok report →
        Fits report.statements → 0 ≤ report.totals.size ∧ report.totals.timing.IsOrdered) ∧
    ∀ (sets : List Text) (dialect : Source.Dialect) (maxLines maxCode : Int64) (policy : StoragePolicy)
        (source : List Text) (report : Report),
      (ofTable Catalog.z80Patterns sets dialect maxLines maxCode policy).lines source = .ok report →
      Fits report.statements →
      (0 ≤ report.totals.size ∧ report.totals.timing.IsOrdered) ∧
        report.totals.timing.z80.min ≤ report.totals.timing.msx.min ∧
        report.totals.timing.z80.max ≤ report.totals.timing.msx.max := by
  constructor
  · intro s patterns accepted
    have rows := Table.read_sound s patterns accepted
    have sound := Catalog.ofPatterns_sound patterns rows
    refine ⟨fun pattern member => (rows pattern member).1, sound, ?_⟩
    intro sets dialect maxLines maxCode policy source report metered fits
    exact report_ordered patterns sets dialect maxLines maxCode policy source report metered sound fits
  · intro sets dialect maxLines maxCode policy source report metered fits
    have sound := Catalog.ofPatterns_sound _ Catalog.z80Patterns_sound
    constructor
    · exact report_ordered _ sets dialect maxLines maxCode policy source report metered sound fits
    · exact report_waits sets dialect maxLines maxCode policy source report metered fits

/-- A jump that takes longer where it is taken. -/
def conditionalJump : Pattern := Catalog.varying "S" "JR NZ,o" 7 12 8 13 2 3 "20 o" 2

def jumps : List Listed := List.replicate 2 ⟨2, "JR NZ,$-3", [.instruction (.ofPattern conditionalJump)]⟩

set_option maxRecDepth 100000 in
/-- A table of one row meters the jumps as the built-in one does. -/
theorem lines_ordered_jumps :
    Table.read "S;JR NZ,o;12/7;13/8;3/2;20 o;2\n" = .ok [conditionalJump] ∧ Fits jumps ∧
      (∀ patterns ∈ [[conditionalJump], Catalog.z80Patterns],
        (ofTable patterns [] .generic 0 0 .keep).lines [" rept 2", " jr nz,$-3", " endm"] =
          .ok ⟨3, jumps, totals jumps⟩) ∧
      (totals jumps).timing = ⟨⟨14, 24⟩, ⟨16, 26⟩, ⟨4, 6⟩⟩ ∧
      (0 ≤ (totals jumps).size ∧ (totals jumps).timing.IsOrdered) ∧
      (totals jumps).timing.z80.min ≤ (totals jumps).timing.msx.min ∧
      (totals jumps).timing.z80.max ≤ (totals jumps).timing.msx.max := by
  have fits : Fits jumps := by decide
  have read : Table.read "S;JR NZ,o;12/7;13/8;3/2;20 o;2\n" = .ok [conditionalJump] := rfl
  let entries : List (Nat × Text) := List.replicate 2 (2, "JR NZ,$-3")
  have unrolled : Source.expand? Source.Dialect.generic.repetition Prod.snd 0
      (numbered .generic [" rept 2", " jr nz,$-3", " endm"]) = some entries := by decide +kernel
  have metered (patterns : List Pattern)
      (chosen : (Matcher.ofTable patterns [] .keep).best? (.ofText "JR NZ,$-3") =
        some ⟨.ofPattern conditionalJump, .exact⟩) :
      (ofTable patterns [] .generic 0 0 .keep).lines [" rept 2", " jr nz,$-3", " endm"] =
        .ok ⟨3, jumps, totals jumps⟩ := by
    have results : (ofTable patterns [] .generic 0 0 .keep).resultsOf "JR NZ,$-3" =
        [.instruction (.ofPattern conditionalJump)] := Matcher.meter_of_best patterns [] .keep _ _ chosen
    have statements : entries.map (ofTable patterns [] .generic 0 0 .keep).listed = jumps := by
      rw [List.map_replicate, listed, results]
      rfl
    refine (lines_eq_ok _ _ _).mpr ⟨rfl, entries, unrolled, rfl, ?_⟩
    rw [reportOn, statements, ← totals_listed, statements]
    rfl
  have own := metered [conditionalJump] (by decide +kernel)
  have builtin := metered Catalog.z80Patterns (by
    rw [Matcher.best?, Matcher.ofTable, Catalog.ofPatterns, Catalog.candidates_ofInstructions]
    decide +kernel)
  obtain ⟨any, z80⟩ := lines_ordered
  have ordered := (any _ _ read).2.2 [] .generic 0 0 .keep _ _ own fits
  have waits := (z80 [] .generic 0 0 .keep _ _ builtin fits).2
  refine ⟨read, fits, ?_, by decide, ordered, waits⟩
  simp only [List.forall_mem_cons]
  exact ⟨own, builtin, by simp⟩

end Meter

end Z80Cost
