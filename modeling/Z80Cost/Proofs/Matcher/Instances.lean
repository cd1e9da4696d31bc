import Mathlib.Data.List.Forall2
import Z80Cost.Instruction.Z80
import Z80Cost.Matcher
import Z80Cost.Proofs.Instruction.Catalog
import Z80Cost.Proofs.Matcher.Filling

/-!
Instances of an instruction, with a text for each of its operands. The candidates of a mnemonic are
tried in table order and the first that fits without doubt wins, so an instance has the cost of its
instruction where every earlier candidate refuses all instances or has that cost too. The table of
the Z80 is checked for this, pair by pair.
-/

namespace Z80Cost

namespace Instruction

/-- Whether `operands` are a writing of the operands of `i`. -/
def IsInstance (i : Instruction) (operands : List Text) : Prop :=
  List.Forall₂ Filling.Writes i.operands operands

def SameCost (i j : Instruction) : Prop := i.timing = j.timing ∧ i.size = j.size

instance : DecidableRel SameCost := fun i j =>
  inferInstanceAs (Decidable (i.timing = j.timing ∧ i.size = j.size))

/-- The instances of `i` are read back and fit `i` without doubt. -/
structure WellFormed (i : Instruction) : Prop where
  mnemonic : Source.Statement.IsMnemonic i.mnemonic
  readable : ∀ word ∈ i.operands, (Filling.ofText word).isReadable = true
  suited : ∀ word ∈ i.operands, (Filling.ofText word).suits (.ofText word) = true

instance : DecidablePred WellFormed := fun i =>
  decidable_of_iff ((i.mnemonic ≠ [] ∧ i.mnemonic.all Text.isSolid = true) ∧
      (∀ word ∈ i.operands, (Filling.ofText word).isReadable = true) ∧
      ∀ word ∈ i.operands, (Filling.ofText word).suits (.ofText word) = true)
    ⟨fun ⟨⟨nonempty, solid⟩, readable, suited⟩ =>
      ⟨⟨nonempty, List.all_eq_true.mp solid⟩, readable, suited⟩,
    fun valid => ⟨⟨valid.mnemonic.nonempty, List.all_eq_true.mpr valid.mnemonic.solid⟩, valid.readable,
      valid.suited⟩⟩

/-- Whether some operand of the shapes excludes the writings of the word at its place. -/
def excludesAny : List Operand → List Text → Bool
  | shape :: shapes, word :: words => (Filling.ofText word).excludes shape || excludesAny shapes words
  | _, _ => false

/-- Whether no instance of `later` fits `earlier` without doubt, the mnemonics being the same. -/
def refuses (earlier later : Instruction) : Bool :=
  if later.operands.length = earlier.shapes.length then excludesAny earlier.shapes later.operands
  else if later.operands.length + 1 = earlier.shapes.length then
    !(earlier.mnemonic != "LD" && earlier.operands.head? == some (Text.ofString "A"))
  else !Matcher.explicitAccumulator.contains earlier.mnemonic

/-- Whether `earlier` may stand before `later` in a table. -/
def Precedes (earlier later : Instruction) : Prop :=
  earlier.refuses later = true ∨ earlier.SameCost later

instance : DecidableRel Precedes := fun earlier later =>
  inferInstanceAs (Decidable (earlier.refuses later = true ∨ earlier.SameCost later))

end Instruction

namespace Matcher

open Instruction

theorem isOperand_written (words operands : List Text) (filled : List.Forall₂ Filling.Writes words operands)
    (readable : ∀ word ∈ words, (Filling.ofText word).isReadable = true) :
    ∀ operand ∈ operands, Source.Statement.IsOperand operand := by
  induction filled with
  | nil => simp
  | @cons word s words operands written _ ih =>
      intro operand member
      rcases List.mem_cons.mp member with rfl | later
      · exact Filling.isOperand_of_admits _ operand (readable word List.mem_cons_self) written
      · exact ih (fun other listed => readable other (List.mem_cons_of_mem word listed)) operand later

theorem productFrom_eq_exact (total : Score) (shapes : List Operand) (operands : List Text) :
    productFrom total shapes operands = .exact ↔ total = .exact ∧ product shapes operands = .exact := by
  induction shapes generalizing total operands with
  | nil => simp [product, productFrom]
  | cons shape shapes ih =>
      cases operands with
      | nil => simp [product, productFrom]
      | cons operand operands =>
          rw [product, productFrom, productFrom, ih, ih (Score.exact.times _), Score.times_eq_exact,
            Score.exact_times, and_assoc]

theorem product_cons_eq_exact (shape : Operand) (shapes : List Operand) (operand : Text) (operands : List Text) :
    product (shape :: shapes) (operand :: operands) = .exact ↔
      shape.score operand = .exact ∧ product shapes operands = .exact := by
  rw [product, productFrom, productFrom_eq_exact, Score.exact_times]

theorem product_suited (words operands : List Text) (filled : List.Forall₂ Filling.Writes words operands)
    (suited : ∀ word ∈ words, (Filling.ofText word).suits (.ofText word) = true) :
    product (words.map Operand.ofText) operands = .exact := by
  induction filled with
  | nil => rfl
  | @cons word s words operands written _ ih =>
      have head := Filling.exact_of_suits _ _ s (suited word List.mem_cons_self) written
      have tail := ih fun other member => suited other (List.mem_cons_of_mem word member)
      rw [List.map_cons, product_cons_eq_exact]
      exact ⟨head, tail⟩

theorem product_excluded (shapes : List Operand) (words operands : List Text)
    (filled : List.Forall₂ Filling.Writes words operands)
    (excluded : excludesAny shapes words = true) : product shapes operands ≠ .exact := by
  induction filled generalizing shapes with
  | nil => cases shapes <;> simp [excludesAny] at excluded
  | @cons word s words operands written _ ih =>
      cases shapes with
      | nil => simp [excludesAny] at excluded
      | cons shape shapes =>
          rw [ne_eq, product_cons_eq_exact, not_and]
          intro fits
          rw [excludesAny, Bool.or_eq_true] at excluded
          rcases excluded with here | later
          · exact absurd fits (Filling.inexact_of_excludes _ shape s here written)
          · exact ih shapes later

theorem scoreOf_instance (i : Instruction) (operands : List Text) (valid : i.WellFormed)
    (shaped : i.shapes = i.operands.map Operand.ofText) (filled : i.IsInstance operands) :
    scoreOf i ⟨i.mnemonic, operands⟩ = .exact := by
  have length : operands.length = i.shapes.length := by
    rw [shaped, List.length_map, filled.length_eq]
  have nonempty : operands.any List.isEmpty = false := by
    rw [List.any_eq_false]
    intro operand member
    simpa using (isOperand_written _ _ filled valid.readable operand member).nonempty
  have fits := product_suited _ _ filled valid.suited
  simp [scoreOf, nonempty, length, exactForm, shaped, fits]

theorem implicitForm_rejected (i : Instruction) (operands : List Text)
    (refused : (i.mnemonic != "LD" && i.operands.head? == some (Text.ofString "A")) = false) :
    implicitForm i operands = .rejected := by
  unfold implicitForm
  split
  · next first _ _ _ two _ =>
      rw [two, List.head?_cons, Option.some_beq_some] at refused
      simp [refused]
  · rfl

theorem explicitForm_rejected (i : Instruction) (operands : List Text)
    (refused : explicitAccumulator.contains i.mnemonic = false) : explicitForm i operands = .rejected := by
  unfold explicitForm
  split
  · simp only [refused, Bool.false_and, Bool.false_eq_true, ↓reduceIte]
  · rfl

/-- An instruction that refuses another fits none of its instances without doubt, with the
accumulator added or dropped or without. -/
theorem scoreOf_refused (earlier later : Instruction) (operands : List Text) (mnemonic : Text)
    (refused : earlier.refuses later = true) (filled : later.IsInstance operands) :
    scoreOf earlier ⟨mnemonic, operands⟩ ≠ .exact := by
  unfold refuses at refused
  rw [filled.length_eq] at refused
  by_cases rejected : earlier.mnemonic ≠ mnemonic ∨ operands.any List.isEmpty
  · simp only [scoreOf, rejected, ↓reduceIte]
    exact Score.rejected_ne_exact
  -- As many operands, one fewer with the accumulator left out, or one more with it spelled out.
  by_cases same : operands.length = earlier.shapes.length
  · rw [if_pos same] at refused
    simp only [scoreOf, rejected, same, exactForm, ↓reduceIte]
    exact product_excluded earlier.shapes _ operands filled refused
  by_cases shorter : operands.length + 1 = earlier.shapes.length
  · rw [if_neg same, if_pos shorter, Bool.not_eq_true'] at refused
    simp only [scoreOf, rejected, same, shorter, implicitForm_rejected earlier operands refused, ↓reduceIte]
    exact Score.rejected_ne_exact
  · rw [if_neg same, if_neg shorter, Bool.not_eq_true'] at refused
    simp only [scoreOf, rejected, same, shorter, explicitForm_rejected earlier operands refused, ↓reduceIte]
    exact Score.rejected_ne_exact

theorem bestFrom_find (statement : Source.Statement) (best : Option Ranked) (rows : List Instruction)
    (i : Instruction) (found : rows.find? (fun j => scoreOf j statement = .exact) = some i) :
    bestFrom statement best rows = some ⟨i, .exact⟩ := by
  induction rows generalizing best with
  | nil => simp at found
  | cons row rest ih =>
      rw [List.find?_cons] at found
      by_cases fits : scoreOf row statement = .exact
      · obtain rfl : row = i := by simpa [fits] using found
        simp [bestFrom, fits]
      · have later : rest.find? (fun j => scoreOf j statement = .exact) = some i := by
          simpa [fits] using found
        simp only [bestFrom, fits, ↓reduceIte]
        split <;> exact ih _ later

theorem find_instance (rows : List Instruction) (ordered : rows.Pairwise Precedes) (i : Instruction)
    (member : i ∈ rows) (operands : List Text) (filled : i.IsInstance operands)
    (fits : scoreOf i ⟨i.mnemonic, operands⟩ = .exact) :
    ∃ first, rows.find? (fun j => scoreOf j ⟨i.mnemonic, operands⟩ = .exact) = some first ∧
      first.SameCost i := by
  induction rows with
  | nil => simp at member
  | cons row rest ih =>
      obtain ⟨before, rest_ordered⟩ := List.pairwise_cons.mp ordered
      rw [List.find?_cons]
      by_cases here : scoreOf row ⟨i.mnemonic, operands⟩ = .exact
      · -- The first that fits is `i`, or stands before `i` and then has its cost.
        refine ⟨row, by simp [here], ?_⟩
        rcases List.mem_cons.mp member with rfl | later
        · exact ⟨rfl, rfl⟩
        · exact (before i later).resolve_left fun refused =>
            scoreOf_refused row i operands _ refused filled here
      · have later : i ∈ rest := (List.mem_cons.mp member).resolve_left fun same => here (same ▸ fits)
        simpa [here] using ih rest_ordered later

end Matcher

namespace Catalog

-- Evaluated by the kernel, bucket by bucket: only rows of one mnemonic are compared.
set_option maxRecDepth 100000 in
theorem z80_ordered : ∀ bucket ∈ z80.byMnemonic,
    (∀ i ∈ bucket.2, i.WellFormed) ∧ bucket.2.Pairwise Instruction.Precedes := by
  decide +kernel

theorem z80_candidates (mnemonic : Text) : (∀ i ∈ z80.candidates mnemonic, i.WellFormed) ∧
    (z80.candidates mnemonic).Pairwise Instruction.Precedes := by
  unfold candidates
  cases found : Index.get? mnemonic z80.byMnemonic with
  | none => simp
  | some rows => exact z80_ordered (mnemonic, rows) (Index.mem_of_get mnemonic rows _ found)

end Catalog

namespace Matcher

/-- An instance of an instruction of the table is metered at the cost of that instruction. -/
theorem best_instance (m : Matcher) (builtin : m.catalog = Catalog.z80) (i : Instruction)
    (member : i ∈ Catalog.z80.all) (enabled : i.set ∈ m.enabledSets) (operands : List Text)
    (filled : i.IsInstance operands) :
    ∃ best, m.best? (.ofText (i.mnemonic ++ (' ' : UInt8) :: Text.join "," operands)) = some best ∧
      best.score = .exact ∧ best.instruction.timing = i.timing ∧ best.instruction.size = i.size := by
  obtain ⟨valid, ordered⟩ := Catalog.z80_candidates i.mnemonic
  have listed : i ∈ Catalog.z80.candidates i.mnemonic := Catalog.mem_candidates _ i member
  have shaped := Catalog.ofPatterns_shapes _ i member
  have wellFormed := valid i listed
  have read := Source.Statement.ofText_join i.mnemonic operands wellFormed.mnemonic
    (isOperand_written _ _ filled wellFormed.readable)
  have fits := scoreOf_instance i operands wellFormed shaped filled
  have kept : i ∈ (Catalog.z80.candidates i.mnemonic).filter m.isEnabled := by
    simpa [isEnabled, listed] using enabled
  obtain ⟨first, found, same⟩ := find_instance _ (ordered.filter m.isEnabled) i kept operands filled fits
  refine ⟨⟨first, .exact⟩, ?_, rfl, same⟩
  rw [read, best?, builtin]
  exact bestFrom_find _ none _ first found

def loadIndexed : Instruction :=
  .ofPattern (Catalog.steady "S" "LD (IX+o),n" 19 21 6 "DD 36 o n" 4)

set_option maxRecDepth 100000 in
theorem loadIndexed_mem : loadIndexed ∈ Catalog.z80.all := by
  decide +kernel

/-- An offset with parentheses of its own, and an expression, under two sets. -/
theorem best_instance_indexed :
    ∃ best, ({ catalog := .z80, sets := ["N", "S"] } : Matcher).best?
        (.ofText "LD (IX+TABLE-(2*3)),COUNT+1") = some best ∧
      best.score = .exact ∧ best.instruction.timing = ⟨⟨19, 19⟩, ⟨21, 21⟩, ⟨6, 6⟩⟩ ∧
      best.instruction.size = 4 := by
  have words : loadIndexed.operands = ["(IX+o)", "n"] := by decide +kernel
  have line : Text.ofString "LD (IX+TABLE-(2*3)),COUNT+1" = loadIndexed.mnemonic ++ (' ' : UInt8) ::
      Text.join "," ["(IX+TABLE-(2*3))", "COUNT+1"] := by decide +kernel
  have filled : loadIndexed.IsInstance ["(IX+TABLE-(2*3))", "COUNT+1"] := by
    rw [Instruction.IsInstance, words]
    refine .cons ?_ (.cons ?_ .nil)
    · exact ⟨(('(' : UInt8), (')' : UInt8)), by decide, "+TABLE-(2*3)", by decide +kernel,
        by decide +kernel, by decide, by decide⟩
    · exact (by decide +kernel : IsPlain "COUNT+1")
  rw [line]
  exact best_instance _ rfl loadIndexed loadIndexed_mem (by decide) _ filled

end Matcher

end Z80Cost
