import Z80Cost.Proofs.Delimited
import Z80Cost.Proofs.Instruction.Bounds
import Z80Cost.Proofs.Numeral

/-!
Tables round-trip. A row gives the fields of a pattern with the greater time before the lesser; reading
puts each pair back in order, so that the rows of a text are read as the patterns they were written for.
-/

namespace Z80Cost

/-- A pattern whose texts can stand between separators as they are. -/
structure Pattern.IsWritable (pattern : Pattern) : Prop extends pattern.IsSound where
  set_trimmed : pattern.set.trim = pattern.set
  text_trimmed : pattern.text.trim = pattern.text
  opcode_trimmed : pattern.opcode.trim = pattern.opcode
  plain : ∀ b ∈ pattern.set ++ pattern.text ++ pattern.opcode, Delimited.IsPlainByte b
  uncommented : pattern.set.head? ≠ some ('#' : UInt8)

instance Pattern.decidableIsWritable (pattern : Pattern) : Decidable pattern.IsWritable :=
  decidable_of_iff (pattern.IsSound ∧ pattern.set.trim = pattern.set ∧ pattern.text.trim = pattern.text ∧
      pattern.opcode.trim = pattern.opcode ∧
      (pattern.set ++ pattern.text ++ pattern.opcode).all (fun b => decide (Delimited.IsPlainByte b)) = true ∧
      pattern.set.head? ≠ some ('#' : UInt8))
    ⟨fun ⟨sound, set, text, opcode, plain, code⟩ =>
      ⟨sound, set, text, opcode, fun b member => of_decide_eq_true (List.all_eq_true.mp plain b member), code⟩,
    fun writable =>
      ⟨writable.toIsSound, writable.set_trimmed, writable.text_trimmed, writable.opcode_trimmed,
        List.all_eq_true.mpr fun b member => decide_eq_true (writable.plain b member), writable.uncommented⟩⟩

theorem Text.forall_mem_ofInt64 (P : UInt8 → Prop) (each : ∀ d < 10, P (Nat.digitChar d).toUInt8) (n : Int64)
    (positive : 0 ≤ n) : ∀ b ∈ ofInt64 n, P b := by
  have zero : (0 : Int64).toInt = 0 := rfl
  have order := Int64.le_iff_toInt_le.mp positive
  rw [ofInt64, ofInt, if_neg (by omega)]
  exact forall_mem_ofNat P each _

theorem Text.trim_ofInt64 (n : Int64) (positive : 0 ≤ n) : (ofInt64 n).trim = ofInt64 n :=
  trim_solid _ (forall_mem_ofInt64 (isSolid · = true) (by decide) n positive)

namespace Cycles

theorem IsOrdered.max_nonneg {cycles : Cycles} (ordered : cycles.IsOrdered) : 0 ≤ cycles.max :=
  Int64.le_trans ordered.1 ordered.2

theorem text_pair (cycles : Cycles) (differ : cycles.min ≠ cycles.max) :
    cycles.text = Text.ofInt64 cycles.max ++ ('/' : UInt8) :: Text.ofInt64 cycles.min := by
  have slash : (("/" : String) : Text) = [('/' : UInt8)] := by decide
  rw [text, if_neg differ, slash, List.append_assoc]
  rfl

theorem forall_mem_text (P : UInt8 → Prop) (each : ∀ d < 10, P (Nat.digitChar d).toUInt8)
    (slash : P ('/' : UInt8)) (cycles : Cycles) (ordered : cycles.IsOrdered) : ∀ b ∈ cycles.text, P b := by
  have max := Text.forall_mem_ofInt64 P each cycles.max ordered.max_nonneg
  have min := Text.forall_mem_ofInt64 P each cycles.min ordered.1
  by_cases same : cycles.min = cycles.max
  · rw [text, if_pos same]
    exact max
  · intro b member
    rw [text_pair cycles same] at member
    rcases List.mem_append.mp member with front | rest
    · exact max b front
    · rcases List.mem_cons.mp rest with rfl | back
      · exact slash
      · exact min b back

end Cycles

namespace Table

theorem readCount_ofInt64 (field : Text) (n : Int64) (positive : 0 ≤ n) :
    readCount field (Text.ofInt64 n) = .ok n := by
  rw [readCount, Text.trim_ofInt64 n positive, Integer.read_ofInt64]
  exact if_neg (Int64.not_lt.mpr positive)

/-- The greater time is written first, and the pair is put in order again. -/
theorem readCycles_text (cycles : Cycles) (ordered : cycles.IsOrdered) : readCycles cycles.text = .ok cycles := by
  have whole : cycles.text.trim = cycles.text :=
    Text.trim_solid _ (cycles.forall_mem_text (Text.isSolid · = true) (by decide) (by decide) ordered)
  have free : ∀ n, 0 ≤ n → (Text.ofInt64 n).splitOn ('/' : UInt8) = [Text.ofInt64 n] := by
    intro n positive
    apply List.splitOn_eq_singleton
    intro member
    exact Text.forall_mem_ofInt64 (· ≠ ('/' : UInt8)) (by decide) n positive _ member rfl
  have greater (field : Text) := readCount_ofInt64 field cycles.max ordered.max_nonneg
  have lesser (field : Text) := readCount_ofInt64 field cycles.min ordered.1
  by_cases same : cycles.min = cycles.max
  · have one : cycles.text = Text.ofInt64 cycles.max := if_pos same
    have pair : (⟨cycles.max, cycles.max⟩ : Cycles) = cycles := congrArg (Cycles.mk · cycles.max) same.symm
    rw [readCycles, whole, one, free _ ordered.max_nonneg]
    simp only [greater]
    exact congrArg Except.ok pair
  · have apart : ¬ cycles.max ≤ cycles.min := fun order => same (Int64.le_antisymm ordered.2 order)
    rw [readCycles, whole, cycles.text_pair same, List.splitOn_append_cons_self, free _ ordered.max_nonneg,
      free _ ordered.1]
    simp only [List.singleton_append, greater, lesser]
    exact congrArg Except.ok (if_neg apart)

def fields (pattern : Pattern) : List Text :=
  [pattern.set, pattern.text, pattern.timing.z80.text, pattern.timing.msx.text, pattern.timing.cpc.text,
    pattern.opcode, Text.ofInt64 pattern.size]

theorem readRow_fields (pattern : Pattern) (writable : pattern.IsWritable) :
    readRow pattern.set pattern.text pattern.timing.z80.text pattern.timing.msx.text pattern.timing.cpc.text
      pattern.opcode (Text.ofInt64 pattern.size) = .ok pattern := by
  have size : readSize pattern.text (Text.ofInt64 pattern.size) = .ok pattern.size := by
    rw [readSize, Text.trim_ofInt64 _ writable.size, Integer.read_ofInt64]
    exact if_neg (Int64.not_lt.mpr writable.size)
  have machine (name : Text) (cycles : Cycles) (ordered : cycles.IsOrdered) :
      readMachine pattern.text name cycles.text = .ok cycles := by
    rw [readMachine, readCycles_text cycles ordered]
    rfl
  rw [readRow, writable.set_trimmed, writable.text_trimmed, writable.opcode_trimmed,
    if_neg (mt List.isEmpty_iff.mp writable.set), if_neg (mt List.isEmpty_iff.mp writable.text),
    machine _ _ writable.timing.z80, machine _ _ writable.timing.msx, machine _ _ writable.timing.cpc, size]
  rfl

theorem isRow_fields (pattern : Pattern) (writable : pattern.IsWritable) : Delimited.IsRow (fields pattern) := by
  have digit : ∀ d < 10, Delimited.IsPlainByte (Nat.digitChar d).toUInt8 := by decide
  have slash : Delimited.IsPlainByte '/' := by decide
  have machine (cycles : Cycles) (ordered : cycles.IsOrdered) : ∀ b ∈ cycles.text, Delimited.IsPlainByte b :=
    cycles.forall_mem_text _ digit slash ordered
  have plain := writable.plain
  simp only [List.forall_mem_append] at plain
  constructor
  · simp only [fields, List.forall_mem_cons, List.not_mem_nil, false_implies, implies_true, and_true]
    exact ⟨plain.1.1, plain.1.2, machine _ writable.timing.z80, machine _ writable.timing.msx,
      machine _ writable.timing.cpc, plain.2, Text.forall_mem_ofInt64 _ digit _ writable.size⟩
  · obtain ⟨b, rest, whole⟩ := List.exists_cons_of_ne_nil writable.set
    have code := writable.uncommented
    rw [whole] at code
    exact ⟨b, rest, _, congrArg (· :: _) whole, fun comment => code (congrArg some comment)⟩

theorem mapM_fields (patterns : List Pattern) (writable : ∀ pattern ∈ patterns, pattern.IsWritable)
    (found : List Delimited.Record) (same : found.map Delimited.Record.fields = patterns.map fields) :
    found.mapM readRecord = .ok patterns := by
  induction patterns generalizing found with
  | nil =>
      obtain rfl := List.map_eq_nil_iff.mp same
      rfl
  | cons pattern patterns ih =>
      obtain ⟨record, others, rfl, first, rest⟩ := List.map_eq_cons_iff.mp same
      obtain ⟨here, later⟩ := List.forall_mem_cons.mp writable
      have row : readRecord record = .ok pattern := by
        rw [readRecord, first]
        simp only [fields, readRow_fields pattern here]
        rfl
      rw [List.mapM_cons, row, ih later others rest]
      rfl

/-- A text with a row for each pattern, and with empty lines and comments anywhere between, is read as
these patterns. -/
theorem read_written (patterns : List Pattern) (writable : ∀ pattern ∈ patterns, pattern.IsWritable) (s : Text)
    (written : Delimited.Written (patterns.map fields) s) : read s = .ok patterns := by
  have valid : ∀ row ∈ patterns.map fields, Delimited.IsRow row := by
    intro row member
    obtain ⟨pattern, inside, rfl⟩ := List.mem_map.mp member
    exact isRow_fields pattern (writable pattern inside)
  obtain ⟨found, records, same⟩ := Delimited.records_written _ s written valid
  rw [read, records]
  simp only [mapM_fields patterns writable found same]
  rfl

def loopRow : Pattern := Catalog.varying "S" "DJNZ o" 8 13 9 14 3 4 "10 o" 2

/-- A row without an opcode and with the greatest numbers. -/
def greatestRow : Pattern :=
  Catalog.varying "S" "SLEEP nn" 0 9223372036854775807 5 5 1 1 "" 9223372036854775807

/-- Two rows after a comment: the lines end in both ways and in none, and one of them is empty. -/
theorem read_written_ends :
    (∀ pattern ∈ [loopRow, greatestRow], pattern.IsWritable) ∧
      read "# \"set;\r\nS;DJNZ o;13/8;14/9;4/3;10 o;2\r\n\nS;SLEEP nn;9223372036854775807/0;5;1;;9223372036854775807" =
        .ok [loopRow, greatestRow] := by
  have writable : ∀ pattern ∈ [loopRow, greatestRow], pattern.IsWritable := by decide +kernel
  let note : Text := "# \"set;"
  let layout : Text := note ++ Delimited.returnAndFeed ++ (Delimited.rowText (fields loopRow) ++
    Delimited.returnAndFeed ++ ([] ++ Delimited.lineFeed ++ Delimited.rowText (fields greatestRow)))
  have comment : Delimited.Line [] note := .comment (" \"set;" : String) (by decide)
  have written : Delimited.Written ([loopRow, greatestRow].map fields) layout := by
    refine .line [] _ _ _ _ comment (.inr rfl) ?_
    refine .line [fields loopRow] _ _ _ _ (.row _) (.inr rfl) ?_
    refine .line [] _ _ _ _ .empty (.inl rfl) ?_
    exact .last [fields greatestRow] _ (.row _)
  refine ⟨writable, (congrArg read ?_).trans (read_written _ writable layout written)⟩
  decide +kernel

end Table

end Z80Cost
