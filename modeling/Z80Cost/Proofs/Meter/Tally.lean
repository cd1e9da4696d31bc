import Z80Cost.Instruction.Z80
import Z80Cost.Proofs.Matcher.Enabled
import Z80Cost.Proofs.Meter.Lines
import Z80Cost.Proofs.Meter.Quoted
import Z80Cost.Proofs.Totals

/-!
Sizes and byte listings keep in step. A result is exact if it lists as many bytes as its size says. The
rows of the table are, register families stay so when they are expanded, data definitions list one token
for each byte, and sums of exact costs are exact.
-/

namespace Z80Cost

/-- As many bytes are listed as the size says. -/
def Metered.IsExact (result : Metered) : Prop := result.size = .ofNat result.bytes.words.length

namespace Pattern

def IsExact (pattern : Pattern) : Prop := pattern.size = .ofNat pattern.opcode.words.length

instance (pattern : Pattern) : Decidable pattern.IsExact :=
  inferInstanceAs (Decidable (pattern.size = .ofNat pattern.opcode.words.length))

theorem forRegister_exact (pattern : Pattern) (single : pattern.size = 1) (base code : UInt8) (register : Text) :
    (pattern.forRegister base register code).IsExact := by
  have listed : (hexText (base + code)).words = [hexText (base + code)] :=
    Text.words_token _ (Directive.isToken_hexText _)
  change pattern.size = .ofNat (hexText (base + code)).words.length
  rw [listed, single]
  rfl

theorem expand_exact (pattern : Pattern) (exact : pattern.IsExact) :
    ∀ i ∈ pattern.expand, (Metered.instruction i).IsExact := by
  intro i member
  rcases pattern.expand_cases i member with rfl | ⟨single, base, register, code, rfl⟩
  · exact exact
  · exact forRegister_exact pattern single base code register

end Pattern

theorem Catalog.ofPatterns_exact (patterns : List Pattern) (exact : ∀ pattern ∈ patterns, pattern.IsExact) :
    ∀ i ∈ patterns.flatMap Pattern.expand, (Metered.instruction i).IsExact := by
  intro i member
  obtain ⟨pattern, row, stands⟩ := List.mem_flatMap.mp member
  exact pattern.expand_exact (exact pattern row) i stands

theorem Catalog.z80Patterns_exact : ∀ pattern ∈ z80Patterns, pattern.IsExact := by
  decide +kernel

namespace Directive

theorem exact_of_tokens (d : Directive) (each : ∀ token ∈ d.data, Text.IsToken token) :
    (Metered.directive d).IsExact := by
  change Int64.ofNat d.data.length = .ofNat (Text.join " " d.data).words.length
  rw [Text.words_join d.data each]

theorem list_exact (kind : DataKind) (text : Text) (tokens : Text → List Text)
    (each : ∀ operand, ∀ token ∈ tokens operand, Text.IsToken token) (operands : List Text) :
    (Metered.directive ⟨kind, text, operands.flatMap tokens⟩).IsExact := by
  apply exact_of_tokens
  intro token member
  obtain ⟨operand, _, inside⟩ := List.mem_flatMap.mp member
  exact each operand token inside

theorem block_exact (text : Text) (count : Nat) (fill : Option Text) :
    (Metered.directive ⟨.storage, text, List.replicate count (fillToken fill)⟩).IsExact := by
  apply exact_of_tokens
  intro token member
  rw [List.eq_of_mem_replicate member]
  exact isToken_fillToken fill

/-- The instruction that a block is filled with is one byte long and listed as one. -/
theorem fillInstruction_exact (instructions : List Instruction) (fill : Option Text) (i : Instruction)
    (found : fillInstruction? (some (.ofInstructions instructions)) fill = some i) :
    (Metered.instruction i).IsExact := by
  obtain ⟨opcode, single⟩ := fillInstruction_opcode instructions fill i found
  have valid : Text.IsToken i.opcode := by
    rw [opcode, expandedFill]
    split
    · exact isToken_zeroOpcode
    · exact isToken_fillToken fill
  change i.size = .ofNat i.opcode.words.length
  rw [Text.words_token _ valid, single]
  rfl

theorem storage_exact (instructions : List Instruction) (policy : StoragePolicy) (text : Text) (count : Nat)
    (fill : Option Text) :
    ∀ result ∈ storage (some (.ofInstructions instructions)) policy text count fill, result.IsExact := by
  intro result member
  have block := block_exact text count fill
  cases policy with
  | keep =>
      rw [List.mem_singleton.mp member]
      exact block
  | expand =>
      simp only [storage] at member
      split at member
      · rw [List.mem_singleton.mp member]
        exact block
      · split at member
        · next i found =>
            rw [List.eq_of_mem_replicate member]
            exact fillInstruction_exact instructions fill i found
        · rw [List.mem_singleton.mp member]
          exact block

theorem meter_exact (instructions : List Instruction) (policy : StoragePolicy) (statement : Source.Statement) :
    ∀ result ∈ (meter? (some (.ofInstructions instructions)) policy statement).getD [], result.IsExact := by
  intro result member
  cases metered : meter? (some (.ofInstructions instructions)) policy statement with
  | none => simp [metered] at member
  | some results =>
      rw [metered, Option.getD_some] at member
      rcases meter_cases _ policy statement results metered with ⟨kind, tokens, known, rfl⟩ | ⟨count, fill, rfl⟩
      · rw [List.mem_singleton.mp member]
        apply list_exact
        rcases known with rfl | rfl
        · exact isToken_byteTokens
        · exact isToken_wordTokens
      · exact storage_exact instructions policy statement.text count fill result member

end Directive

namespace Matcher

theorem meter_exact (m : Matcher) (instructions : List Instruction)
    (table : m.catalog = .ofInstructions instructions)
    (exact : ∀ i ∈ instructions, (Metered.instruction i).IsExact) (statement : Source.Statement) :
    ∀ result ∈ m.meter statement, result.IsExact := by
  intro result member
  unfold meter at member
  split at member
  · rw [table] at member
    exact Directive.meter_exact instructions m.policy statement result member
  · split at member
    · next best chosen =>
        rw [List.mem_singleton.mp member]
        exact exact _ (m.mem_of_best instructions table statement best chosen)
    · contradiction

end Matcher

/-- No instruction of the built-in table is named like data. -/
theorem Matcher.meter_data (m : Matcher) (builtin : m.catalog = Catalog.z80) (statement : Source.Statement)
    (data : (Directive.kind? statement.mnemonic).isSome) :
    m.meter statement = (Directive.meter? (some m.catalog) m.policy statement).getD [] := by
  have free := Catalog.z80_candidates_data statement.mnemonic data
  rw [Matcher.meter, builtin, if_pos free]

namespace Totals

def IsExact (cost : Totals) : Prop := cost.size = .ofNat cost.bytes.length

theorem add_exact (a b : Totals) (left : a.IsExact) (right : b.IsExact) : (a + b).IsExact := by
  change a.size + b.size = .ofNat (a.bytes ++ b.bytes).length
  rw [left, right, List.length_append, Int64.ofNat_add]

theorem sum_exact (costs : List Totals) (each : ∀ cost ∈ costs, cost.IsExact) : (sum costs).IsExact := by
  induction costs with
  | nil => rfl
  | cons cost costs ih =>
      obtain ⟨first, others⟩ := List.forall_mem_cons.mp each
      exact add_exact cost (sum costs) first (ih others)

theorem ofResults_exact (results : List Metered) (each : ∀ result ∈ results, result.IsExact) :
    (ofResults results).IsExact := by
  have summed : (sum (results.map ofMetered)).IsExact := by
    apply sum_exact
    intro cost member
    obtain ⟨result, inside, rfl⟩ := List.mem_map.mp member
    exact each result inside
  cases results with
  | nil => rfl
  | cons first rest => exact summed

theorem code_sum (statements : List Listed) :
    (sum (statements.map fun listed => ofResults listed.results)).code =
      .ofNat (statements.countP Listed.isCode) := by
  induction statements with
  | nil => rfl
  | cons listed statements ih =>
      change (ofResults listed.results).code + (sum _).code = _
      rw [ih, code_ofResults, List.countP_cons, Int64.ofNat_add, Int64.add_comm]
      congr 1
      unfold Listed.isCode
      cases listed.results with
      | nil => rfl
      | cons first rest => rfl

end Totals

namespace Meter

theorem listed_exact (m : Meter) (builtin : m.matcher.catalog = Catalog.z80) (entry : Nat × Text) :
    ∀ result ∈ (m.listed entry).results, result.IsExact := by
  apply m.matcher.meter_exact (Catalog.z80Patterns.flatMap Pattern.expand) builtin
  exact Catalog.ofPatterns_exact _ Catalog.z80Patterns_exact

/-- With the built-in table every result lists the bytes of its size, and so does the whole report; its
lines of code are the statements with results. -/
theorem lines_exact (m : Meter) (builtin : m.matcher.catalog = Catalog.z80) (source : List Text)
    (report : Report) (metered : m.lines source = .ok report) :
    (∀ listed ∈ report.statements, ∀ result ∈ listed.results,
        result.size = .ofNat result.bytes.words.length) ∧
      report.totals.size = .ofNat report.totals.bytes.length ∧
      report.totals.code = .ofNat (report.statements.countP fun listed => !listed.results.isEmpty) := by
  obtain ⟨_, entries, _, _, rfl⟩ := (m.lines_eq_ok source report).mp metered
  have each : ∀ listed ∈ entries.map m.listed, ∀ result ∈ listed.results, result.IsExact := by
    intro listed member
    obtain ⟨entry, _, rfl⟩ := List.mem_map.mp member
    exact m.listed_exact builtin entry
  refine ⟨each, ?_, ?_⟩
  · change (m.cost _).IsExact
    rw [← totals_listed]
    apply Totals.sum_exact
    intro cost member
    obtain ⟨listed, inside, rfl⟩ := List.mem_map.mp member
    exact Totals.ofResults_exact listed.results (each listed inside)
  · change (m.cost _).code = _
    rw [← totals_listed]
    exact Totals.code_sum _

def plainMeter : Meter where
  matcher := { catalog := .z80 }

/-- Data in a block, with values that are not known. -/
theorem lines_exact_unknown :
    ∃ report, plainMeter.lines [" rept 2", " db 1,'ab',x", " endm", " dw x"] = .ok report ∧
      (∀ listed ∈ report.statements, ∀ result ∈ listed.results,
        result.size = .ofNat result.bytes.words.length) ∧
      report.totals.bytes = (["01", "61", "62", "n", "01", "61", "62", "n", "nn", "nn"] : List Text) ∧
      report.totals.size = 10 ∧ report.totals.code = 3 := by
  let entries : List (Nat × Text) := [(2, "DB 1,'ab',X"), (2, "DB 1,'ab',X"), (4, "DW X")]
  have metered : plainMeter.lines [" rept 2", " db 1,'ab',x", " endm", " dw x"] =
      .ok (plainMeter.reportOn 4 entries) := by
    rw [lines_eq_ok]
    exact ⟨by decide, entries, by decide +kernel, rfl, rfl⟩
  have bytes : plainMeter.resultsOf "DB 1,'ab',X" =
      [.directive ⟨.byte, "DB 1,'ab',X", ["01", "61", "62", "n"]⟩] := by
    rw [resultsOf, plainMeter.matcher.meter_data rfl _ (by decide)]
    decide +kernel
  have words : plainMeter.resultsOf "DW X" = [.directive ⟨.word, "DW X", ["nn", "nn"]⟩] := by
    rw [resultsOf, plainMeter.matcher.meter_data rfl _ (by decide)]
    decide +kernel
  have listed : (plainMeter.reportOn 4 entries).totals.bytes =
      (["01", "61", "62", "n", "01", "61", "62", "n", "nn", "nn"] : List Text) := by
    simp only [reportOn, entries, cost, List.map_cons, List.map_nil, bytes, words]
    decide +kernel
  have code : (plainMeter.reportOn 4 entries).statements.countP (fun listed => !listed.results.isEmpty) = 3 := by
    simp only [reportOn, entries, Meter.listed, List.map_cons, List.map_nil, bytes, words]
    rfl
  obtain ⟨each, size, counted⟩ := lines_exact plainMeter rfl _ _ metered
  refine ⟨_, metered, each, listed, ?_, ?_⟩
  · rw [size, listed]
    rfl
  · rw [counted, code]
    rfl

end Meter

end Z80Cost
