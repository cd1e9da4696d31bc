import Mathlib.Data.List.Forall2
import Mathlib.Data.List.Nodup
import Z80Cost.Instruction.Z80
import Z80Cost.Proofs.Instruction.Form
import Z80Cost.Proofs.Instruction.Hexadecimal

/-!
Register families. A row whose one-byte opcode ends in `+r` stands for seven instructions, and their texts
are put together from the parts of its text: read again they have these parts, with a register for `r`.
No instruction stands for others, so the instructions of a table are a table of themselves.
-/

namespace Z80Cost

namespace Pattern

/-- A row for a family of registers: one byte long, with an opcode such as `80+r`. -/
def IsFamily (pattern : Pattern) (base : Nat) : Prop :=
  pattern.size = 1 ∧ ∃ digits, Text.IsHexPair base digits ∧ pattern.opcode = digits ++ "+r"

theorem IsFamily.exists_byte {pattern : Pattern} {base : Nat} (family : pattern.IsFamily base) :
    ∃ b : UInt8, base = b.toNat := by
  obtain ⟨_, digits, pair, _⟩ := family
  exact ⟨base.toUInt8, (Nat.mod_eq_of_lt ((Text.isHexPair_iff base digits).mp pair).1).symm⟩

theorem registerBase_eq_some_iff (opcode : Text) (b : UInt8) :
    registerBase? opcode = some b ↔ ∃ digits, Text.IsHexPair b.toNat digits ∧ opcode = digits ++ "+r" := by
  have ending : Text.ofString "+r" = [('+' : UInt8), ('r' : UInt8)] := by decide
  constructor
  · intro found
    unfold registerBase? at found
    split at found
    · next high low plus r =>
        obtain ⟨⟨rfl, rfl⟩, value⟩ := Option.ite_none_right_eq_some.mp found
        exact ⟨[high, low], (hexByte_eq_some_iff high low b).mp value, by rw [ending]; rfl⟩
    · contradiction
  · rintro ⟨_, pair, rfl⟩
    obtain ⟨high, low, rfl, _⟩ := id pair
    have read : registerBase? [high, low, '+', 'r'] = hexByte? high low := by
      rw [registerBase?, if_pos ⟨rfl, rfl⟩]
    rw [ending]
    exact read.trans ((hexByte_eq_some_iff high low b).mpr pair)

theorem expand_family (pattern : Pattern) (b : UInt8) (family : pattern.IsFamily b.toNat) :
    pattern.expand =
      registerCodes.map fun register => .ofPattern (pattern.forRegister b register.1 register.2) := by
  obtain ⟨single, marked⟩ := family
  rw [expand, (registerBase_eq_some_iff pattern.opcode b).mpr marked]
  exact if_pos single

theorem expand_other (pattern : Pattern) (other : ¬ ∃ base, pattern.IsFamily base) :
    pattern.expand = [.ofPattern pattern] := by
  unfold expand
  split
  · next b found =>
      have marked := (registerBase_eq_some_iff pattern.opcode b).mp found
      exact if_neg fun single => other ⟨b.toNat, single, marked⟩
  · rfl

/-- What stands between the commas of a table text. -/
structure IsPart (s : Text) : Prop where
  trimmed : s.trim = s
  comma_free : (',' : UInt8) ∉ s

theorem comma_free_of_mem_splitOn (s : Text) :
    ∀ part ∈ s.splitOn (',' : UInt8), (',' : UInt8) ∉ part := by
  induction s with
  | nil => simp
  | cons b s ih =>
      rw [List.splitOn_cons_eq_if_modifyHead]
      obtain ⟨first, rest, split⟩ := List.exists_cons_of_ne_nil (List.splitOn_ne_nil (',' : UInt8) s)
      rw [split, List.forall_mem_cons] at ih
      split
      · rw [split, List.forall_mem_cons, List.forall_mem_cons]
        exact ⟨List.not_mem_nil, ih⟩
      · next other =>
          rw [split, List.modifyHead_cons, List.forall_mem_cons, List.mem_cons, not_or]
          exact ⟨⟨fun comma => other (beq_iff_eq.mpr comma.symm), ih.1⟩, ih.2⟩

theorem form_parts (s : Text) : ∀ operand ∈ (form s).operands, IsPart operand := by
  intro operand member
  rcases form_cases s with read | ⟨mnemonic, rest, b, _, _, _, read⟩
  · rw [read] at member
    contradiction
  · rw [read] at member
    obtain ⟨part, inside, rfl⟩ := List.mem_map.mp member
    refine ⟨Text.trim_trim part, fun comma => ?_⟩
    exact comma_free_of_mem_splitOn rest part inside ((Text.trim_isInfix part).subset comma)

theorem join_parts (parts : List Text) (some : parts ≠ []) (each : ∀ part ∈ parts, IsPart part) :
    ((Text.join "," parts).splitOn (',' : UInt8)).map Text.trim = parts := by
  have comma : Text.ofString "," = [(',' : UInt8)] := by decide
  rw [Text.join, comma, List.splitOn_intercalate _ (fun part member => (each part member).comma_free) some]
  exact (List.map_congr_left fun part member => (each part member).trimmed).trans (List.map_id parts)

theorem form_join (mnemonic : Text) (parts : List Text) (valid : Source.Statement.IsMnemonic mnemonic)
    (some : parts ≠ []) (each : ∀ part ∈ parts, IsPart part) (nonempty : ∀ part ∈ parts, part ≠ []) :
    form (mnemonic ++ (' ' : UInt8) :: Text.join "," parts) = ⟨mnemonic, parts⟩ := by
  have trimmed := Source.Statement.join_trimmed parts fun part member => (each part member).trimmed
  have written : Text.join "," parts ≠ [] := by
    obtain ⟨first, rest, rfl⟩ := List.exists_cons_of_ne_nil some
    have spelled := nonempty first List.mem_cons_self
    cases rest with
    | nil => simpa [Text.join, List.intercalate_singleton] using spelled
    | cons second rest => simp [Text.join, List.intercalate_cons_cons, spelled]
  have whole : Text.trim (mnemonic ++ (' ' : UInt8) :: Text.join "," parts) =
      mnemonic ++ (' ' : UInt8) :: Text.join "," parts := by
    rw [Text.trim, Source.Statement.mnemonic_trimLeft mnemonic _ valid, Text.trimRight_space,
      (Text.trim_fixed _ trimmed).2, if_neg written]
  have tab : Text.isSolid '\t' = false := by decide
  have free := Source.Statement.mnemonic_space_free mnemonic valid
  rw [form_ended _ mnemonic _ ' ' (.inl rfl) whole
    ⟨free, fun member => by simp [valid.solid _ member] at tab⟩, join_parts parts some each]

/-- Other parts in the place of those of a text are read back from the text that they make. -/
theorem form_rejoined (s : Text) (f : Text → Text) (parts : ∀ operand, IsPart operand → IsPart (f operand))
    (some : ∀ operand, operand ≠ [] → f operand ≠ []) :
    form { form s with operands := (form s).operands.map f }.text =
      { form s with operands := (form s).operands.map f } := by
  have each : ∀ operand ∈ (form s).operands.map f, IsPart operand := by
    intro operand member
    obtain ⟨part, inside, rfl⟩ := List.mem_map.mp member
    exact parts part (form_parts s part inside)
  rcases form_cases s with read | ⟨mnemonic, rest, b, ends, whole, free, read⟩
  · -- Without operands the text is the mnemonic.
    have trimmed : form s.trim = form s := by
      rw [form, Text.trim_trim]
      rfl
    rw [read] at trimmed ⊢
    exact trimmed
  · -- The blank behind the mnemonic may be a tab; the space in its place ends the mnemonic as well.
    obtain ⟨solid, _⟩ := Source.Statement.trim_behind s mnemonic rest b ends whole
    rw [read] at each ⊢
    have listed : ((rest.splitOn (',' : UInt8)).map Text.trim).map f ≠ [] := by simp
    have joined : Text.join "," (((rest.splitOn (',' : UInt8)).map Text.trim).map f) ≠ [] := by
      -- Several parts have a comma between them, and a single one is not blank.
      by_cases several : (',' : UInt8) ∈ rest
      · obtain ⟨first, others, rfl, one⟩ := List.eq_append_cons_of_mem several
        obtain ⟨next, more, split⟩ := List.exists_cons_of_ne_nil (List.splitOn_ne_nil (',' : UInt8) others)
        rw [List.splitOn_append_cons_self_of_not_mem one, split]
        simp [Source.join_cons_cons]
      · rw [List.splitOn_eq_singleton several]
        simpa [Text.join] using some _ solid
    have kept := Source.Statement.join_trimmed _ fun operand member => (each operand member).trimmed
    have line := Source.Statement.trim_mnemonic s mnemonic rest b ends whole _ kept joined
    rw [Source.Statement.text_operands mnemonic _ listed, form_ended _ mnemonic _ ' ' (.inl rfl) line free,
      join_parts _ listed each]

theorem form_chosen (s register : Text) (known : register ∈ registerCodes.map Prod.fst) :
    form { form s with operands := (form s).operands.map (chosen register) }.text =
      { form s with operands := (form s).operands.map (chosen register) } := by
  have valid : IsPart register ∧ register ≠ [] := by
    have checked : ∀ register ∈ registerCodes.map Prod.fst,
        (register.trim = register ∧ (',' : UInt8) ∉ register) ∧ register ≠ [] := by decide
    obtain ⟨⟨trimmed, comma⟩, some⟩ := checked register known
    exact ⟨⟨trimmed, comma⟩, some⟩
  apply form_rejoined
  · intro operand part
    unfold chosen
    split
    · exact valid.1
    · exact part
  · intro operand nonempty
    unfold chosen
    split
    · exact valid.2
    · exact nonempty

/-- The instruction of a family for one register: `r` is read as its name, and its code is added to the
opcode. -/
structure IsFor (pattern : Pattern) (base : Nat) (register : Text × Nat) (i : Instruction) : Prop where
  mnemonic : i.mnemonic = (form pattern.text).mnemonic
  operands : i.operands =
    (form pattern.text).operands.map fun operand : Text => if operand = "r" then register.1 else operand
  set : i.set = pattern.set
  timing : i.timing = pattern.timing
  size : i.size = pattern.size
  opcode : Text.IsHexPair ((base + register.2) % 256) i.opcode

theorem isFor_forRegister (pattern : Pattern) (b code : UInt8) (register : Text)
    (known : register ∈ registerCodes.map Prod.fst) :
    pattern.IsFor b.toNat (register, code.toNat) (.ofPattern (pattern.forRegister b register code)) := by
  have read : form (pattern.forRegister b register code).text = _ := form_chosen pattern.text register known
  have same : (fun operand : Text => if operand = "r" then register else operand) = chosen register := by
    funext operand
    simp [chosen]
  refine ⟨?_, ?_, rfl, rfl, rfl, ?_⟩
  · rw [Instruction.ofPattern, read]
  · rw [Instruction.ofPattern, read, same]
  · rw [show (b.toNat + code.toNat) % 256 = (b + code).toNat from (UInt8.toNat_add b code).symm]
    exact isHexPair_hexText (b + code)

/-- An opcode of two digits is that of no family. -/
theorem expand_final (pattern : Pattern) (i : Instruction) (member : i ∈ pattern.expand) :
    i.pattern.expand = [i] := by
  by_cases family : ∃ base, pattern.IsFamily base
  · obtain ⟨base, held⟩ := family
    obtain ⟨b, rfl⟩ := held.exists_byte
    rw [expand_family pattern b held] at member
    obtain ⟨register, _, rfl⟩ := List.mem_map.mp member
    apply expand_other
    rintro ⟨_, _, digits, pair, marked⟩
    have opcode : hexText (b + register.2) = digits ++ "+r" := marked
    have length := congrArg List.length opcode
    have ending : List.length (Text.ofString "+r") = 2 := by decide
    rw [List.length_append, ending, pair.length, (isHexPair_hexText _).length] at length
    omega
  · have alone := pattern.expand_other family
    rw [alone, List.mem_singleton] at member
    rw [member]
    exact alone

theorem nodup_opcodes (pattern : Pattern) (b : UInt8) (family : pattern.IsFamily b.toNat) :
    (pattern.expand.map Instruction.opcode).Nodup := by
  have codes : (registerCodes.map Prod.snd).Nodup := by decide
  have listed : pattern.expand.map Instruction.opcode =
      (registerCodes.map Prod.snd).map fun code => hexText (b + code) := by
    rw [expand_family pattern b family, List.map_map, List.map_map]
    rfl
  rw [listed]
  refine List.Nodup.map (fun first second same => ?_) codes
  exact (UInt8.add_right_inj b).mp (hexText_injective _ _ same)

end Pattern

namespace Catalog

theorem ofPatterns_final (patterns : List Pattern) :
    ofPatterns ((ofPatterns patterns).all.map Instruction.pattern) = ofPatterns patterns := by
  have each : ∀ i ∈ (ofPatterns patterns).all, i.pattern.expand = [i] := by
    intro i member
    obtain ⟨pattern, _, stands⟩ := List.mem_flatMap.mp member
    exact pattern.expand_final i stands
  have whole : ((ofPatterns patterns).all.map Instruction.pattern).flatMap Pattern.expand =
      (ofPatterns patterns).all := by
    rw [List.flatMap_map, List.flatMap_def, List.map_congr_left each, ← List.flatMap_def, List.flatMap_singleton']
  rw [ofPatterns, whole]
  rfl

end Catalog

namespace Pattern

/-- A family has one instruction for each register, every other row has one for itself, and expanding
again changes nothing. -/
theorem expand_registers :
    (∀ (pattern : Pattern) (base : Nat), pattern.IsFamily base →
      List.Forall₂ (pattern.IsFor base)
        [("A", 7), ("B", 0), ("C", 1), ("D", 2), ("E", 3), ("H", 4), ("L", 5)] pattern.expand ∧
      (pattern.expand.map Instruction.opcode).Nodup) ∧
    (∀ pattern : Pattern, (¬ ∃ base, pattern.IsFamily base) → pattern.expand = [.ofPattern pattern]) ∧
    (∀ pattern : Pattern, ∀ i ∈ pattern.expand, i.pattern.expand = [i]) ∧
    ∀ patterns : List Pattern,
      Catalog.ofPatterns ((Catalog.ofPatterns patterns).all.map Instruction.pattern) =
        Catalog.ofPatterns patterns := by
  refine ⟨?_, expand_other, expand_final, Catalog.ofPatterns_final⟩
  intro pattern base family
  obtain ⟨b, rfl⟩ := family.exists_byte
  refine ⟨?_, pattern.nodup_opcodes b family⟩
  have codes : ([("A", 7), ("B", 0), ("C", 1), ("D", 2), ("E", 3), ("H", 4), ("L", 5)] : List (Text × Nat)) =
      registerCodes.map fun register => (register.1, register.2.toNat) := by decide
  rw [codes, expand_family pattern b family, List.forall₂_map_left_iff, List.forall₂_map_right_iff,
    List.forall₂_same]
  intro register member
  exact pattern.isFor_forRegister b register.2 register.1 (List.mem_map_of_mem member)

/-- A tab, blanks and an empty operand, `r` twice, and a base from which the sum passes 255. -/
def spreadRow : Pattern := Catalog.steady "S" " LD\t r ,, r " 4 5 1 "FA+r" 1

theorem expand_registers_spread :
    spreadRow.IsFamily 0xFA ∧
    List.Forall₂ (spreadRow.IsFor 0xFA)
      [("A", 7), ("B", 0), ("C", 1), ("D", 2), ("E", 3), ("H", 4), ("L", 5)] spreadRow.expand ∧
    spreadRow.expand.map Instruction.opcode = [("01" : Text), "FA", "FB", "FC", "FD", "FE", "FF"] ∧
    spreadRow.expand.map Instruction.operands =
      [[("A" : Text), "", "A"], ["B", "", "B"], ["C", "", "C"], ["D", "", "D"], ["E", "", "E"], ["H", "", "H"],
        ["L", "", "L"]] ∧
    ∀ i ∈ spreadRow.expand, i.pattern.expand = [i] := by
  have family : spreadRow.IsFamily 0xFA := ⟨rfl, ['F', 'A'], ⟨_, _, rfl, by decide, by decide⟩, by decide⟩
  obtain ⟨registers, _, final, _⟩ := expand_registers
  exact ⟨family, (registers spreadRow 0xFA family).1, by decide +kernel, by decide +kernel, final spreadRow⟩

end Pattern

end Z80Cost
