import Z80Cost.Directive
import Z80Cost.Proofs.Instruction.Catalog
import Z80Cost.Proofs.Instruction.Hexadecimal
import Z80Cost.Proofs.Text.Words

/-!
A storage block under the two policies. As data it lists its fill byte once for each byte that it
takes; as instructions it lists their opcode, which is the fill byte if there is one. Its size is the
same.
-/

namespace Z80Cost

namespace Metered

def totalSize (results : List Metered) : Int64 := (results.map size).foldr (· + ·) 0

def tokens (results : List Metered) : List Text := results.flatMap (·.bytes.words)

theorem totalSize_replicate (n : Nat) (i : Instruction) (single : i.size = 1) :
    totalSize (List.replicate n (.instruction i)) = .ofNat n := by
  induction n with
  | zero => rfl
  | succ n ih =>
      have one : Int64.ofNat 1 = 1 := rfl
      have first : (Metered.instruction i).size = 1 := single
      rw [totalSize, List.replicate_succ, List.map_cons, List.foldr_cons, first, Int64.ofNat_add, one,
        Int64.add_comm, ← ih]
      rfl

theorem tokens_replicate (n : Nat) (i : Instruction) (valid : Text.IsToken i.opcode) :
    tokens (List.replicate n (.instruction i)) = List.replicate n i.opcode := by
  have listed : (Metered.instruction i).bytes.words = [i.opcode] := Text.words_token i.opcode valid
  rw [tokens, List.flatMap_replicate, listed]
  simp

theorem tokens_directive (d : Directive) (each : ∀ token ∈ d.data, Text.IsToken token) :
    tokens [.directive d] = d.data := by
  rw [tokens, List.flatMap_singleton]
  exact Text.words_join d.data each

end Metered

namespace Directive

theorem isToken_hexText (b : UInt8) : Text.IsToken (Pattern.hexText b) := by
  have solid : ∀ d < 16, Text.isSolid (Text.upperDigit d) = true := by decide
  rw [Pattern.hexText_digits]
  constructor
  · exact List.cons_ne_nil _ _
  · intro c member
    rcases List.mem_cons.mp member with rfl | last
    · exact solid _ (Nat.div_lt_of_lt_mul b.toNat_lt)
    · rw [List.mem_singleton.mp last]
      exact solid _ (Nat.mod_lt _ (by decide))

theorem isToken_unknownByte : Text.IsToken unknownByte :=
  ⟨by decide, List.all_eq_true.mp (by decide)⟩

theorem isToken_unknownWord : Text.IsToken unknownWord :=
  ⟨by decide, List.all_eq_true.mp (by decide)⟩

theorem isToken_byteTokens (operand : Text) : ∀ token ∈ byteTokens operand, Text.IsToken token := by
  intro token member
  unfold byteTokens at member
  split at member
  · obtain ⟨b, _, rfl⟩ := List.mem_map.mp member
    exact isToken_hexText b
  · split at member
    · rw [List.mem_singleton.mp member]
      exact isToken_hexText _
    · rw [List.mem_singleton.mp member]
      exact isToken_unknownByte

theorem isToken_wordTokens (operand : Text) : ∀ token ∈ wordTokens operand, Text.IsToken token := by
  intro token member
  unfold wordTokens at member
  split at member
  · simp only [List.mem_cons, List.not_mem_nil, or_false] at member
    rcases member with rfl | rfl
    · exact isToken_hexText _
    · exact isToken_hexText _
  · simp only [List.mem_cons, List.not_mem_nil, or_false, or_self] at member
    rw [member]
    exact isToken_unknownWord

theorem isToken_fillToken (fill : Option Text) : Text.IsToken (fillToken fill) := by
  cases fill with
  | none => exact isToken_unknownByte
  | some operand =>
      rw [fillToken]
      split
      · exact isToken_hexText _
      · exact isToken_unknownByte

/-- The last instruction with an opcode, if it is one byte long. -/
def oneByte? (instructions : List Instruction) (opcode : Text) : Option Instruction :=
  (instructions.filter (·.opcode = opcode)).getLast?.filter (·.size = 1)

theorem oneByte_some (instructions : List Instruction) (opcode : Text) (i : Instruction)
    (found : oneByte? instructions opcode = some i) : i.opcode = opcode ∧ i.size = 1 := by
  obtain ⟨last, single⟩ := Option.filter_eq_some_iff.mp found
  have member := List.mem_of_getLast? last
  exact ⟨by simpa using (List.mem_filter.mp member).2, by simpa using single⟩

def zeroOpcode : Text := "00"

theorem isToken_zeroOpcode : Text.IsToken zeroOpcode := ⟨by decide, List.all_eq_true.mp (by decide)⟩

theorem fillInstruction_none (instructions : List Instruction) :
    fillInstruction? (some (.ofInstructions instructions)) none = oneByte? instructions zeroOpcode := by
  have known : zeroOpcode ≠ unknownByte := by decide
  rw [oneByte?, ← Catalog.withOpcode_ofInstructions]
  change (if zeroOpcode = unknownByte then none else _) = _
  rw [if_neg known]
  rfl

theorem fillInstruction_some (instructions : List Instruction) (operand : Text) :
    fillInstruction? (some (.ofInstructions instructions)) (some operand) =
      if fillToken (some operand) = unknownByte then none
      else oneByte? instructions (fillToken (some operand)) := by
  rw [oneByte?, ← Catalog.withOpcode_ofInstructions]
  rfl

/-- What a storage block lists for each of its bytes once it is expanded. -/
def expandedFill (instructions : List Instruction) (fill : Option Text) : Text :=
  if fill.isNone && (oneByte? instructions zeroOpcode).isSome then zeroOpcode else fillToken fill

theorem fillInstruction_opcode (instructions : List Instruction) (fill : Option Text) (i : Instruction)
    (found : fillInstruction? (some (.ofInstructions instructions)) fill = some i) :
    i.opcode = expandedFill instructions fill ∧ i.size = 1 := by
  cases fill with
  | none =>
      rw [fillInstruction_none] at found
      rw [expandedFill, found]
      exact oneByte_some instructions zeroOpcode i found
  | some operand =>
      rw [fillInstruction_some] at found
      split at found
      · contradiction
      · exact oneByte_some instructions _ i found

theorem expandedFill_of_none (instructions : List Instruction) (fill : Option Text)
    (missing : fillInstruction? (some (.ofInstructions instructions)) fill = none) :
    expandedFill instructions fill = fillToken fill := by
  cases fill with
  | none =>
      rw [fillInstruction_none] at missing
      simp [expandedFill, missing]
  | some operand => rfl

theorem storage_kept (text : Text) (count : Nat) (fill : Option Text) :
    Metered.totalSize [.directive ⟨.storage, text, List.replicate count (fillToken fill)⟩] = .ofNat count ∧
      Metered.tokens [.directive ⟨.storage, text, List.replicate count (fillToken fill)⟩] =
        List.replicate count (fillToken fill) := by
  constructor
  · simp [Metered.totalSize, Metered.size]
  · apply Metered.tokens_directive
    intro token member
    rw [List.eq_of_mem_replicate member]
    exact isToken_fillToken fill

theorem storage_expanded (instructions : List Instruction) (text : Text) (count : Nat) (fill : Option Text) :
    let results := storage (some (.ofInstructions instructions)) .expand text count fill
    results ≠ [] ∧ Metered.totalSize results = .ofNat count ∧
      Metered.tokens results = List.replicate count (expandedFill instructions fill) := by
  intro results
  obtain ⟨size, tokens⟩ := storage_kept text count fill
  by_cases empty : count = 0
  · have kept : results = [.directive ⟨.storage, text, List.replicate count (fillToken fill)⟩] := by
      simp [results, storage, empty]
    rw [kept]
    refine ⟨List.cons_ne_nil _ _, size, ?_⟩
    rw [tokens, empty]
    rfl
  · cases found : fillInstruction? (some (.ofInstructions instructions)) fill with
    | none =>
        have kept : results = [.directive ⟨.storage, text, List.replicate count (fillToken fill)⟩] := by
          simp [results, storage, empty, found]
        rw [kept, expandedFill_of_none instructions fill found]
        exact ⟨List.cons_ne_nil _ _, size, tokens⟩
    | some i =>
        have copied : results = List.replicate count (.instruction i) := by
          simp [results, storage, empty, found]
        obtain ⟨opcode, single⟩ := fillInstruction_opcode instructions fill i found
        rw [copied, ← opcode]
        refine ⟨?_, Metered.totalSize_replicate count i single, Metered.tokens_replicate count i ?_⟩
        · simpa using empty
        · rw [opcode, expandedFill]
          split
          · exact isToken_zeroOpcode
          · exact isToken_fillToken fill

/-- The number of bytes of a storage block without a fill; `none` for every other statement. -/
def plainStorage? (catalog : Catalog) (statement : Source.Statement) : Option Nat :=
  if (catalog.candidates statement.mnemonic).isEmpty ∧ kind? statement.mnemonic = some .storage then
    match statement.operands with
    | [size] => storageCount? size
    | _ => none
  else none

/-- What the results of one statement under the two policies have in common. -/
structure Agree (instructions : List Instruction) (statement : Source.Statement)
    (kept expanded : List Metered) : Prop where
  code : kept.isEmpty = expanded.isEmpty
  size : Metered.totalSize kept = Metered.totalSize expanded
  tokens : match plainStorage? (.ofInstructions instructions) statement with
    | some n => Metered.tokens kept = List.replicate n unknownByte ∧
        Metered.tokens expanded = List.replicate n
          (if (oneByte? instructions zeroOpcode).isSome then zeroOpcode else unknownByte)
    | none => Metered.tokens kept = Metered.tokens expanded

theorem agree_same (instructions : List Instruction) (statement : Source.Statement) (results : List Metered)
    (other : plainStorage? (.ofInstructions instructions) statement = none) :
    Agree instructions statement results results := by
  refine ⟨rfl, rfl, ?_⟩
  rw [other]

theorem agree_storage (instructions : List Instruction) (statement : Source.Statement) (count : Nat)
    (fill : Option Text)
    (plain : plainStorage? (.ofInstructions instructions) statement = if fill.isNone then some count else none) :
    Agree instructions statement
      (storage (some (.ofInstructions instructions)) .keep statement.text count fill)
      (storage (some (.ofInstructions instructions)) .expand statement.text count fill) := by
  obtain ⟨size, tokens⟩ := storage_kept statement.text count fill
  obtain ⟨nonempty, same, bytes⟩ := storage_expanded instructions statement.text count fill
  constructor
  · rw [List.isEmpty_eq_false_iff.mpr nonempty]
    rfl
  · rw [same]
    exact size
  · rw [plain]
    cases fill with
    | none =>
        refine ⟨tokens, ?_⟩
        rw [bytes, expandedFill]
        rfl
    | some operand =>
        rw [bytes]
        exact tokens

/-- A data definition is metered as one list of tokens or as a storage block. -/
theorem meter_cases (catalog : Option Catalog) (policy : StoragePolicy) (statement : Source.Statement)
    (results : List Metered) (metered : meter? catalog policy statement = some results) :
    (∃ kind tokens, (tokens = byteTokens ∨ tokens = wordTokens) ∧
        results = [.directive ⟨kind, statement.text, statement.operands.flatMap tokens⟩]) ∨
      ∃ count fill, results = storage catalog policy statement.text count fill := by
  obtain ⟨mnemonic, operands⟩ := statement
  simp only [meter?] at metered
  split at metered
  · contradiction
  · split at metered
    · contradiction
    · split at metered
      · contradiction
      · exact .inl ⟨.byte, byteTokens, .inl rfl, (Option.some.inj metered).symm⟩
      · exact .inl ⟨.word, wordTokens, .inr rfl, (Option.some.inj metered).symm⟩
      · obtain ⟨count, _, rfl⟩ := Option.map_eq_some_iff.mp metered
        exact .inr ⟨count, none, rfl⟩
      · next fill _ _ =>
          obtain ⟨count, _, rfl⟩ := Option.map_eq_some_iff.mp metered
          exact .inr ⟨count, some fill, rfl⟩
      · contradiction

theorem meter_other (catalog : Option Catalog) (statement : Source.Statement)
    (other : kind? statement.mnemonic ≠ some .storage) :
    meter? catalog .keep statement = meter? catalog .expand statement := by
  obtain ⟨mnemonic, operands⟩ := statement
  simp only [meter?]
  cases kind : kind? mnemonic with
  | none => rfl
  | some defined =>
      cases defined with
      | byte => cases operands <;> rfl
      | word => cases operands <;> rfl
      | storage => exact absurd kind other

theorem meter_storage (catalog : Option Catalog) (policy : StoragePolicy) (statement : Source.Statement)
    (kind : kind? statement.mnemonic = some .storage) :
    meter? catalog policy statement =
      if statement.operands.any List.isEmpty then none
      else match statement.operands with
        | [size] => (storageCount? size).map fun n => storage catalog policy statement.text n none
        | [size, fill] => (storageCount? size).map fun n => storage catalog policy statement.text n (some fill)
        | _ => none := by
  obtain ⟨mnemonic, operands⟩ := statement
  simp only [meter?, kind]
  rcases operands with _ | ⟨size, _ | ⟨fill, _ | ⟨third, rest⟩⟩⟩ <;> rfl

/-- The two policies meter a data definition alike. -/
theorem agree_meter (instructions : List Instruction) (statement : Source.Statement)
    (data : ((Catalog.ofInstructions instructions).candidates statement.mnemonic).isEmpty = true) :
    Agree instructions statement
      ((meter? (some (.ofInstructions instructions)) .keep statement).getD [])
      ((meter? (some (.ofInstructions instructions)) .expand statement).getD []) := by
  by_cases kind : kind? statement.mnemonic = some .storage
  · have plain : plainStorage? (.ofInstructions instructions) statement =
        match statement.operands with
        | [size] => storageCount? size
        | _ => none := by
      simp [plainStorage?, data, kind]
    rw [meter_storage _ .keep statement kind, meter_storage _ .expand statement kind]
    by_cases blank : statement.operands.any List.isEmpty = true
    · rw [if_pos blank, if_pos blank]
      apply agree_same
      rw [plain]
      split
      · next size single =>
          -- An empty operand has no value.
          rw [single] at blank
          obtain rfl : size = [] := by simpa using blank
          rfl
      · rfl
    · rw [if_neg blank, if_neg blank]
      split
      · next size single =>
          rw [single] at plain
          cases count : storageCount? size with
          | none => exact agree_same instructions statement [] (plain.trans count)
          | some n => exact agree_storage instructions statement n none (plain.trans count)
      · next size fill pair =>
          rw [pair] at plain
          cases storageCount? size with
          | none => exact agree_same instructions statement [] plain
          | some n => exact agree_storage instructions statement n (some fill) plain
      · next others _ =>
          apply agree_same
          rw [plain]
          split
          · next size single => exact absurd single (others size)
          · rfl
  · rw [meter_other _ statement kind]
    apply agree_same
    simp [plainStorage?, kind]

end Directive

end Z80Cost
