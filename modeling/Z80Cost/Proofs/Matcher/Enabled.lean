import Z80Cost.Instruction.Table
import Z80Cost.Instruction.Z80
import Z80Cost.Matcher
import Z80Cost.Proofs.Directive.Storage

/-!
Where the instructions of a result come from. The best candidate is of an enabled set. A storage
block that is expanded takes its instruction from the opcodes, and those hold every set.
-/

namespace Z80Cost

namespace Directive

section Blocks
variable (instructions : List Instruction) (policy : StoragePolicy) (i : Instruction)

theorem mem_storage (text : Text) (count : Nat) (fill : Option Text) :
    .instruction i ∈ storage (some (.ofInstructions instructions)) policy text count fill ↔
      policy = .expand ∧ count ≠ 0 ∧
        fillInstruction? (some (.ofInstructions instructions)) fill = some i := by
  cases policy with
  | keep => simp [storage]
  | expand =>
      by_cases empty : count = 0
      · simp [storage, empty]
      · cases found : fillInstruction? (some (.ofInstructions instructions)) fill with
        | none => simp [storage, empty, found]
        | some other => simp [storage, empty, found, eq_comm]

/-- The opcode that a storage block stands for copies of; `none` if it reserves nothing, or what it is
filled with is not known. -/
def fillOpcode? (statement : Source.Statement) : Option Text :=
  match statement.operands with
  | [size] => if (storageCount? size).any (0 < ·) then some zeroOpcode else none
  | [size, fill] =>
      if (storageCount? size).any (0 < ·) ∧ fillToken (some fill) ≠ unknownByte then
        some (fillToken (some fill))
      else none
  | _ => none

/-- The instruction that an expanded storage block is metered as copies of: the last one of the table
with the opcode, if it is one byte long. Its set is not looked at. -/
def fillOf? (statement : Source.Statement) : Option Instruction :=
  if kind? statement.mnemonic = some .storage then (fillOpcode? statement).bind (oneByte? instructions) else none

theorem mem_plain_storage (text size : Text) :
    .instruction i ∈ ((storageCount? size).map fun n =>
        storage (some (.ofInstructions instructions)) policy text n none).getD [] ↔
      policy = .expand ∧ (storageCount? size).any (0 < ·) = true ∧ oneByte? instructions zeroOpcode = some i := by
  cases storageCount? size with
  | none => simp
  | some n => simp [mem_storage, fillInstruction_none, Nat.pos_iff_ne_zero]

theorem mem_filled_storage (text size fill : Text) :
    .instruction i ∈ ((storageCount? size).map fun n =>
        storage (some (.ofInstructions instructions)) policy text n (some fill)).getD [] ↔
      policy = .expand ∧ ((storageCount? size).any (0 < ·) = true ∧ fillToken (some fill) ≠ unknownByte) ∧
        oneByte? instructions (fillToken (some fill)) = some i := by
  cases storageCount? size with
  | none => simp
  | some n => simp [mem_storage, fillInstruction_some, Nat.pos_iff_ne_zero, and_assoc]

/-- An empty operand is neither a size nor a fill. -/
theorem fillOpcode_blank (statement : Source.Statement) (blank : statement.operands.any List.isEmpty = true) :
    fillOpcode? statement = none := by
  obtain ⟨mnemonic, operands⟩ := statement
  have size : storageCount? [] = none := rfl
  have fill : fillToken (some []) = unknownByte := rfl
  rcases operands with _ | ⟨first, _ | ⟨second, _ | ⟨third, rest⟩⟩⟩
  · rfl
  · obtain rfl : first = [] := by simpa using blank
    simp [fillOpcode?, size]
  · rcases (by simpa using blank : first = [] ∨ second = []) with rfl | rfl
    · simp [fillOpcode?, size]
    · simp [fillOpcode?, fill]
  · rfl

/-- Data definitions yield instructions in one way alone. -/
theorem mem_meter (statement : Source.Statement) :
    .instruction i ∈ (meter? (some (.ofInstructions instructions)) policy statement).getD [] ↔
      policy = .expand ∧ fillOf? instructions statement = some i := by
  by_cases kind : kind? statement.mnemonic = some .storage
  · rw [meter_storage _ policy statement kind, fillOf?, if_pos kind]
    by_cases blank : statement.operands.any List.isEmpty = true
    · simp [blank, fillOpcode_blank statement blank]
    · obtain ⟨mnemonic, operands⟩ := statement
      rw [if_neg blank]
      rcases operands with _ | ⟨size, _ | ⟨fill, _ | ⟨third, rest⟩⟩⟩
      · simp [fillOpcode?]
      · simp only [mem_plain_storage, fillOpcode?]
        by_cases reserves : (storageCount? size).any (0 < ·) = true
        · simp [reserves]
        · simp [reserves]
      · simp only [mem_filled_storage, fillOpcode?]
        by_cases filled : (storageCount? size).any (0 < ·) = true ∧ fillToken (some fill) ≠ unknownByte
        · simp [filled]
        · simp [filled]
      · simp [fillOpcode?]
  · simp only [fillOf?, if_neg kind, reduceCtorEq, and_false, iff_false]
    obtain ⟨mnemonic, operands⟩ := statement
    simp only [meter?]
    split
    · simp
    · next kind' defined =>
        split
        · simp
        · cases kind' with
          | byte => cases operands <;> simp
          | word => cases operands <;> simp
          | storage => exact absurd defined kind

end Blocks

theorem mem_of_fillOf (instructions : List Instruction) (statement : Source.Statement) (i : Instruction)
    (found : fillOf? instructions statement = some i) : i ∈ instructions := by
  unfold fillOf? at found
  split at found
  · obtain ⟨opcode, _, last⟩ := Option.bind_eq_some_iff.mp found
    exact (List.mem_filter.mp (List.mem_of_getLast? (Option.filter_eq_some_iff.mp last).1)).1
  · contradiction

end Directive

namespace Matcher

theorem mem_of_bestFrom (statement : Source.Statement) (best : Option Ranked) (candidates : List Instruction)
    (found : Ranked) (chosen : bestFrom statement best candidates = some found) :
    found.instruction ∈ candidates ∨ best = some found := by
  induction candidates generalizing best with
  | nil => exact .inr chosen
  | cons i rest ih =>
      simp only [bestFrom] at chosen
      split at chosen
      · obtain rfl := Option.some.inj chosen
        exact .inl List.mem_cons_self
      · split at chosen
        · rcases ih _ chosen with later | here
          · exact .inl (List.mem_cons_of_mem i later)
          · obtain rfl := Option.some.inj here
            exact .inl List.mem_cons_self
        · rcases ih _ chosen with later | before
          · exact .inl (List.mem_cons_of_mem i later)
          · exact .inr before

theorem candidate_of_best (m : Matcher) (statement : Source.Statement) (found : Ranked)
    (chosen : m.best? statement = some found) :
    found.instruction ∈ m.catalog.candidates statement.mnemonic ∧ found.instruction.set ∈ m.enabledSets := by
  rcases mem_of_bestFrom statement none _ found chosen with member | none
  · obtain ⟨candidate, enabled⟩ := List.mem_filter.mp member
    exact ⟨candidate, List.contains_iff_mem.mp enabled⟩
  · contradiction

theorem mem_of_best (m : Matcher) (instructions : List Instruction)
    (table : m.catalog = .ofInstructions instructions) (statement : Source.Statement) (found : Ranked)
    (chosen : m.best? statement = some found) : found.instruction ∈ instructions := by
  obtain ⟨candidate, _⟩ := m.candidate_of_best statement found chosen
  rw [table, Catalog.mem_candidates_iff] at candidate
  exact candidate.1

section Results
variable (patterns : List Pattern) (sets : List Text) (policy : StoragePolicy)

def ofTable : Matcher := { catalog := .ofPatterns patterns, sets, policy }

def IsForeign (mnemonic : Text) : Prop := ∀ row ∈ (Catalog.ofPatterns patterns).all, row.mnemonic ≠ mnemonic

theorem candidates_isEmpty_iff (mnemonic : Text) :
    ((Catalog.ofPatterns patterns).candidates mnemonic).isEmpty = true ↔ IsForeign patterns mnemonic := by
  rw [Catalog.ofPatterns, Catalog.candidates_ofInstructions, List.isEmpty_iff, List.filter_eq_nil_iff]
  simp only [decide_eq_true_eq]
  rfl

variable (statement : Source.Statement) (i : Instruction)

theorem mem_meter_foreign (foreign : IsForeign patterns statement.mnemonic) :
    .instruction i ∈ (ofTable patterns sets policy).meter statement ↔
      policy = .expand ∧ Directive.fillOf? (Catalog.ofPatterns patterns).all statement = some i := by
  have data := (candidates_isEmpty_iff patterns statement.mnemonic).mpr foreign
  have defined : (ofTable patterns sets policy).meter statement =
      (Directive.meter? (some (.ofPatterns patterns)) policy statement).getD [] := if_pos data
  rw [defined]
  exact Directive.mem_meter _ policy i statement

theorem meter_known (known : ¬ IsForeign patterns statement.mnemonic) :
    (ofTable patterns sets policy).meter statement =
      match (ofTable patterns sets policy).best? statement with
      | some best => [.instruction best.instruction]
      | none => [] :=
  if_neg (mt (candidates_isEmpty_iff patterns statement.mnemonic).mp known)

theorem mem_meter_known (known : ¬ IsForeign patterns statement.mnemonic) :
    .instruction i ∈ (ofTable patterns sets policy).meter statement ↔
      ∃ score, (ofTable patterns sets policy).best? statement = some ⟨i, score⟩ := by
  rw [meter_known _ _ _ _ known]
  constructor
  · intro member
    cases chosen : (ofTable patterns sets policy).best? statement with
    | none => simp [chosen] at member
    | some best =>
        obtain rfl : i = best.instruction := by simpa [chosen] using member
        exact ⟨best.score, rfl⟩
  · rintro ⟨score, chosen⟩
    simp [chosen]

theorem known_of_best (found : Ranked) (chosen : (ofTable patterns sets policy).best? statement = some found) :
    ¬ IsForeign patterns statement.mnemonic := by
  intro foreign
  have member := (candidate_of_best _ statement found chosen).1
  have none := (candidates_isEmpty_iff patterns statement.mnemonic).mpr foreign
  rw [ofTable, List.isEmpty_iff.mp none] at member
  contradiction

theorem meter_of_best (found : Ranked) (chosen : (ofTable patterns sets policy).best? statement = some found) :
    (ofTable patterns sets policy).meter statement = [.instruction found.instruction] := by
  rw [meter_known _ _ _ _ (known_of_best _ _ _ _ found chosen), chosen]

theorem mem_of_meter (member : .instruction i ∈ (ofTable patterns sets policy).meter statement) :
    i ∈ (Catalog.ofPatterns patterns).all := by
  by_cases foreign : IsForeign patterns statement.mnemonic
  · rw [mem_meter_foreign _ _ _ _ _ foreign] at member
    exact Directive.mem_of_fillOf _ statement i member.2
  · obtain ⟨score, chosen⟩ := (mem_meter_known _ _ _ _ _ foreign).mp member
    exact mem_of_best _ _ rfl statement ⟨i, score⟩ chosen

/-- An instruction is among the results if it is the best one, and then its set is enabled, or if
it fills a storage block that is expanded, whatever its set. -/
theorem meter_instruction_iff (line : Text) :
    .instruction i ∈ (ofTable patterns sets policy).meter (.ofText line) ↔
      (i.set ∈ (ofTable patterns sets policy).enabledSets ∧
        ∃ score, (ofTable patterns sets policy).best? (.ofText line) = some ⟨i, score⟩) ∨
      (policy = .expand ∧ IsForeign patterns (Source.Statement.ofText line).mnemonic ∧
        Directive.fillOf? (Catalog.ofPatterns patterns).all (.ofText line) = some i) := by
  constructor
  · intro member
    by_cases foreign : IsForeign patterns (Source.Statement.ofText line).mnemonic
    · obtain ⟨expands, filled⟩ := (mem_meter_foreign _ _ _ _ i foreign).mp member
      exact .inr ⟨expands, foreign, filled⟩
    · obtain ⟨score, chosen⟩ := (mem_meter_known _ _ _ _ i foreign).mp member
      exact .inl ⟨(candidate_of_best _ _ _ chosen).2, score, chosen⟩
  · rintro (⟨_, score, chosen⟩ | ⟨expands, foreign, filled⟩)
    · exact (mem_meter_known _ _ _ _ i (known_of_best _ _ _ _ _ chosen)).mpr ⟨score, chosen⟩
    · exact (mem_meter_foreign _ _ _ _ i foreign).mpr ⟨expands, filled⟩

end Results

/-- A no-operation that only the extended set has. -/
def extendedIdle : Pattern := Catalog.steady "N" "NOP" 4 5 1 "00" 1

/-- A storage block is metered as instructions of a set that is not enabled. -/
theorem meter_disabled_fill :
    Table.read "N;NOP;4;5;1;00;1\n" = .ok [extendedIdle] ∧
      ¬ ∀ i, .instruction i ∈ (ofTable [extendedIdle] [] .expand).meter (.ofText "DS 4") →
        i.set ∈ (ofTable [extendedIdle] [] .expand).enabledSets := by
  refine ⟨rfl, fun enabled => ?_⟩
  have filled : .instruction (.ofPattern extendedIdle) ∈
      (ofTable [extendedIdle] [] .expand).meter (.ofText "DS 4") := by decide +kernel
  exact absurd (enabled _ filled) (by decide)

end Matcher

end Z80Cost
