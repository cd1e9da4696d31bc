import Z80Cost.Instruction.Catalog
import Z80Cost.Instruction.Table
import Z80Cost.Instruction.Z80
import Z80Cost.Proofs.Instruction.Catalog
import Z80Cost.Proofs.Text.Trim

/-!
Costs in order. What a table is read to has named rows of no negative size, with the lesser time first on
each machine, and the instructions that the rows stand for keep this.
-/

namespace Z80Cost

/-- No time is negative, and the lesser one comes first. -/
def Cycles.IsOrdered (cycles : Cycles) : Prop := 0 ≤ cycles.min ∧ cycles.min ≤ cycles.max

instance Cycles.decidableIsOrdered (cycles : Cycles) : Decidable cycles.IsOrdered :=
  inferInstanceAs (Decidable (0 ≤ cycles.min ∧ cycles.min ≤ cycles.max))

structure Timing.IsOrdered (timing : Timing) : Prop where
  z80 : timing.z80.IsOrdered
  msx : timing.msx.IsOrdered
  cpc : timing.cpc.IsOrdered

instance Timing.decidableIsOrdered (timing : Timing) : Decidable timing.IsOrdered :=
  decidable_of_iff (timing.z80.IsOrdered ∧ timing.msx.IsOrdered ∧ timing.cpc.IsOrdered)
    ⟨fun ⟨z80, msx, cpc⟩ => ⟨z80, msx, cpc⟩, fun ⟨z80, msx, cpc⟩ => ⟨z80, msx, cpc⟩⟩

structure Pattern.IsSound (pattern : Pattern) : Prop where
  set : pattern.set ≠ []
  text : pattern.text ≠ []
  size : 0 ≤ pattern.size
  timing : pattern.timing.IsOrdered

instance Pattern.decidableIsSound (pattern : Pattern) : Decidable pattern.IsSound :=
  decidable_of_iff (pattern.set ≠ [] ∧ pattern.text ≠ [] ∧ 0 ≤ pattern.size ∧ pattern.timing.IsOrdered)
    ⟨fun ⟨set, text, size, timing⟩ => ⟨set, text, size, timing⟩,
      fun ⟨set, text, size, timing⟩ => ⟨set, text, size, timing⟩⟩

theorem ok_of_bind {ε α β : Type} {x : Except ε α} {f : α → Except ε β} {b : β} (ran : x >>= f = .ok b) :
    ∃ a, x = .ok a ∧ f a = .ok b := by
  cases x with
  | error fault => contradiction
  | ok a => exact ⟨a, rfl, ran⟩

theorem ok_of_mapError {ε φ α : Type} {x : Except ε α} {f : ε → φ} {a : α} (ran : x.mapError f = .ok a) :
    x = .ok a := by
  cases x with
  | error fault => contradiction
  | ok b => exact congrArg Except.ok (Except.ok.inj ran)

namespace Table

theorem nonneg_of_guard {ε : Type} (n : Int64) (fault : ε) (count : Int64)
    (guarded : (if n < 0 then .error fault else .ok n) = Except.ok count) : 0 ≤ count := by
  split at guarded
  · contradiction
  · next positive =>
      obtain rfl := Except.ok.inj guarded
      exact Int64.not_lt.mp positive

theorem readCount_nonneg (field part : Text) (n : Int64) (read : readCount field part = .ok n) : 0 ≤ n := by
  unfold readCount at read
  split at read
  · contradiction
  · exact nonneg_of_guard _ _ n read

theorem readCycles_ordered (field : Text) (cycles : Cycles) (read : readCycles field = .ok cycles) :
    cycles.IsOrdered := by
  unfold readCycles at read
  split at read
  · obtain ⟨n, counted, same⟩ := ok_of_bind read
    obtain rfl := Except.ok.inj same
    exact ⟨readCount_nonneg field _ n counted, Int64.le_refl n⟩
  · obtain ⟨a, first, rest⟩ := ok_of_bind read
    obtain ⟨b, second, same⟩ := ok_of_bind rest
    obtain rfl := Except.ok.inj same
    have left := readCount_nonneg field _ a first
    have right := readCount_nonneg field _ b second
    split
    · next order => exact ⟨left, order⟩
    · next order => exact ⟨right, Int64.le_of_lt (Int64.not_le.mp order)⟩
  · contradiction

theorem readMachine_ordered (text machine field : Text) (cycles : Cycles)
    (read : readMachine text machine field = .ok cycles) : cycles.IsOrdered :=
  readCycles_ordered field cycles (ok_of_mapError read)

theorem readSize_nonneg (text field : Text) (n : Int64) (read : readSize text field = .ok n) : 0 ≤ n := by
  unfold readSize at read
  split at read
  · contradiction
  · exact nonneg_of_guard _ _ n read

theorem readRow_sound (set text z80 msx cpc opcode size : Text) (pattern : Pattern)
    (read : readRow set text z80 msx cpc opcode size = .ok pattern) :
    pattern.IsSound ∧ pattern.text.trim = pattern.text := by
  unfold readRow at read
  split at read
  · contradiction
  · next tagged =>
      split at read
      · contradiction
      · next named =>
          obtain ⟨onZ80, first, read⟩ := ok_of_bind read
          obtain ⟨onMsx, second, read⟩ := ok_of_bind read
          obtain ⟨onCpc, third, read⟩ := ok_of_bind read
          obtain ⟨bytes, counted, same⟩ := ok_of_bind read
          obtain rfl := Except.ok.inj same
          refine ⟨⟨?_, ?_, ?_, ?_⟩, Text.trim_trim text⟩
          · exact mt List.isEmpty_iff.mpr tagged
          · exact mt List.isEmpty_iff.mpr named
          · exact readSize_nonneg _ _ _ counted
          · exact ⟨readMachine_ordered _ _ _ _ first, readMachine_ordered _ _ _ _ second,
              readMachine_ordered _ _ _ _ third⟩

theorem readRecord_sound (record : Delimited.Record) (pattern : Pattern) (read : readRecord record = .ok pattern) :
    pattern.IsSound ∧ pattern.text.trim = pattern.text := by
  unfold readRecord at read
  split at read
  · exact readRow_sound _ _ _ _ _ _ _ pattern (ok_of_mapError read)
  · contradiction

theorem mapM_sound (records : List Delimited.Record) (patterns : List Pattern)
    (read : records.mapM readRecord = .ok patterns) :
    ∀ pattern ∈ patterns, pattern.IsSound ∧ pattern.text.trim = pattern.text := by
  induction records generalizing patterns with
  | nil =>
      obtain rfl := Except.ok.inj read
      intro pattern member
      contradiction
  | cons record records ih =>
      rw [List.mapM_cons] at read
      obtain ⟨first, here, rest⟩ := ok_of_bind read
      obtain ⟨others, later, same⟩ := ok_of_bind rest
      obtain rfl := Except.ok.inj same
      rw [List.forall_mem_cons]
      exact ⟨readRecord_sound record first here, ih others later⟩

theorem read_sound (s : Text) (patterns : List Pattern) (accepted : read s = .ok patterns) :
    ∀ pattern ∈ patterns, pattern.IsSound ∧ pattern.text.trim = pattern.text := by
  obtain ⟨rows, mapped, rest⟩ := ok_of_bind accepted
  have same : rows = patterns := by
    split at rest
    · contradiction
    · exact Except.ok.inj rest
  rw [← same]
  exact mapM_sound _ rows mapped

end Table

namespace Pattern

theorem form_mnemonic (s : Text) (some : s.trim ≠ []) : (form s).mnemonic ≠ [] := by
  simp only [form]
  split
  · exact some
  · obtain ⟨b, rest, whole⟩ := List.exists_cons_of_ne_nil some
    have solid : ∀ blank ∈ Text.blanks, ¬ blank <+: b :: rest := by
      rw [← whole]
      exact Text.trim_not_starts s
    have space : b ≠ ' ' := by
      rintro rfl
      exact solid [0x20] (by decide) ⟨rest, rfl⟩
    have tab : b ≠ '\t' := by
      rintro rfl
      exact solid [0x09] (by decide) ⟨rest, rfl⟩
    simp [whole, space, tab]

theorem text_ne_nil (statement : Source.Statement) (named : statement.mnemonic ≠ []) : statement.text ≠ [] := by
  unfold Source.Statement.text
  split
  · exact named
  · simp [named]

theorem expand_keeps (pattern : Pattern) (i : Instruction) (member : i ∈ pattern.expand) :
    i.pattern.set = pattern.set ∧ i.pattern.timing = pattern.timing ∧ i.pattern.size = pattern.size ∧
      (i.pattern.text = pattern.text ∨
        ∃ operands, i.pattern.text = { form pattern.text with operands }.text) := by
  rcases pattern.expand_cases i member with rfl | ⟨_, _, _, _, rfl⟩
  · exact ⟨rfl, rfl, rfl, .inl rfl⟩
  · exact ⟨rfl, rfl, rfl, .inr ⟨_, rfl⟩⟩

theorem expand_sound (pattern : Pattern) (sound : pattern.IsSound) (trimmed : pattern.text.trim = pattern.text) :
    ∀ i ∈ pattern.expand, i.pattern.IsSound := by
  intro i member
  obtain ⟨set, timing, size, text⟩ := expand_keeps pattern i member
  refine ⟨?_, ?_, ?_, ?_⟩
  · exact set ▸ sound.set
  · rcases text with same | ⟨operands, same⟩
    · exact same ▸ sound.text
    · rw [same]
      exact text_ne_nil _ (form_mnemonic pattern.text (trimmed.symm ▸ sound.text))
  · exact size ▸ sound.size
  · exact timing ▸ sound.timing

end Pattern

namespace Catalog

theorem ofPatterns_sound (patterns : List Pattern)
    (each : ∀ pattern ∈ patterns, pattern.IsSound ∧ pattern.text.trim = pattern.text) :
    ∀ i ∈ (ofPatterns patterns).all, i.pattern.IsSound := by
  intro i member
  obtain ⟨pattern, row, stands⟩ := List.mem_flatMap.mp member
  exact pattern.expand_sound (each pattern row).1 (each pattern row).2 i stands

theorem z80Patterns_sound : ∀ pattern ∈ z80Patterns, pattern.IsSound ∧ pattern.text.trim = pattern.text := by
  decide +kernel

/-- Waiting after opcode fetches never makes anything faster. -/
theorem z80Patterns_waits : ∀ pattern ∈ z80Patterns,
    pattern.timing.z80.min ≤ pattern.timing.msx.min ∧ pattern.timing.z80.max ≤ pattern.timing.msx.max := by
  decide +kernel

theorem z80_waits (i : Instruction) (member : i ∈ (ofPatterns z80Patterns).all) :
    i.timing.z80.min ≤ i.timing.msx.min ∧ i.timing.z80.max ≤ i.timing.msx.max := by
  obtain ⟨pattern, row, stands⟩ := List.mem_flatMap.mp member
  have same : i.timing = pattern.timing := (pattern.expand_keeps i stands).2.1
  rw [same]
  exact z80Patterns_waits pattern row

end Catalog

end Z80Cost
