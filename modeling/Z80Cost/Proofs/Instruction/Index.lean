import Mathlib.Data.Finset.Card
import Z80Cost.Instruction.Z80
import Z80Cost.Proofs.Instruction.Catalog

/-!
The indexes of a catalog agree with scans of the whole table. Each instruction enters both indexes as it
is added: under its mnemonic it joins those already there, under its opcode a later one has precedence.
A mnemonic becomes a key with its first instruction and no key is entered twice, so the keys are counted
as the different mnemonics.
-/

namespace Z80Cost

namespace Index

variable {α : Type}

def keys (index : Index α) : List Text := index.map Prod.fst

theorem mem_keys_push (key k : Text) (value : α) (index : Index (List α)) :
    key ∈ keys (push k value index) ↔ key = k ∨ key ∈ keys index := by
  induction index with
  | nil => simp [push, keys]
  | cons entry rest ih =>
      simp only [keys] at ih
      by_cases here : entry.1 = k
      · simp [push, keys, here]
      · simp only [push, keys, here, ↓reduceIte, List.map_cons, List.mem_cons, ih]
        exact or_left_comm

theorem nodup_keys_push (k : Text) (value : α) (index : Index (List α)) (distinct : (keys index).Nodup) :
    (keys (push k value index)).Nodup := by
  induction index with
  | nil => simp [push, keys]
  | cons entry rest ih =>
      obtain ⟨fresh, others⟩ := List.nodup_cons.mp distinct
      by_cases here : entry.1 = k
      · simpa [push, keys, here] using distinct
      · have still : entry.1 ∉ keys (push k value rest) := by
          rw [mem_keys_push, not_or]
          exact ⟨here, fresh⟩
        simp only [push, here, ↓reduceIte]
        exact List.nodup_cons.mpr ⟨still, ih others⟩

end Index

namespace Catalog

theorem mem_keys_byMnemonic (all : List Instruction) (mnemonic : Text) :
    mnemonic ∈ Index.keys (ofInstructions all).byMnemonic ↔ mnemonic ∈ all.map Instruction.mnemonic := by
  induction all with
  | nil => rfl
  | cons i rest ih =>
      rw [ofInstructions] at ih ⊢
      rw [List.foldr_cons, Index.mem_keys_push, ih, List.map_cons, List.mem_cons]

theorem nodup_keys_byMnemonic (all : List Instruction) :
    (Index.keys (ofInstructions all).byMnemonic).Nodup := by
  induction all with
  | nil => exact List.nodup_nil
  | cons i rest ih => exact Index.nodup_keys_push i.mnemonic i _ ih

theorem mnemonics_ofInstructions (all : List Instruction) :
    (ofInstructions all).mnemonics = (all.map Instruction.mnemonic).toFinset.card := by
  have same : (Index.keys (ofInstructions all).byMnemonic).toFinset = (all.map Instruction.mnemonic).toFinset := by
    ext mnemonic
    rw [List.mem_toFinset, List.mem_toFinset, mem_keys_byMnemonic]
  rw [← same, List.toFinset_card_of_nodup (nodup_keys_byMnemonic all), Index.keys, List.length_map]
  rfl

def IsLastWith (opcode : Text) (rows : List Instruction) (i : Instruction) : Prop :=
  i.opcode = opcode ∧ ∃ before after, rows = before ++ i :: after ∧ ∀ later ∈ after, later.opcode ≠ opcode

theorem withOpcode_eq_some_iff (all : List Instruction) (opcode : Text) (i : Instruction) :
    (ofInstructions all).withOpcode? opcode = some i ↔ IsLastWith opcode all i := by
  rw [withOpcode_ofInstructions, List.getLast?_eq_head?_reverse, ← List.filter_reverse, List.head?_filter,
    List.find?_eq_some_iff_append, decide_eq_true_eq, IsLastWith]
  refine and_congr_right fun _ => ?_
  -- What the scan from the end passes over is what stands behind, last first.
  constructor
  · rintro ⟨passed, rest, whole, others⟩
    refine ⟨rest.reverse, passed.reverse, ?_, ?_⟩
    · rw [← List.reverse_inj, whole]
      simp
    · intro later member
      simpa using others later (List.mem_reverse.mp member)
  · rintro ⟨before, after, rfl, others⟩
    refine ⟨after.reverse, before.reverse, by simp, ?_⟩
    intro later member
    simpa using others later (List.mem_reverse.mp member)

theorem withOpcode_eq_none_iff (all : List Instruction) (opcode : Text) :
    (ofInstructions all).withOpcode? opcode = none ↔ ∀ i ∈ all, i.opcode ≠ opcode := by
  rw [withOpcode_ofInstructions, List.getLast?_eq_none_iff, List.filter_eq_nil_iff]
  simp only [decide_eq_true_eq]

theorem candidate_of_withOpcode (all : List Instruction) (opcode : Text) (i : Instruction)
    (found : (ofInstructions all).withOpcode? opcode = some i) :
    i ∈ (ofInstructions all).candidates i.mnemonic := by
  obtain ⟨_, before, after, rfl, _⟩ := (withOpcode_eq_some_iff all opcode i).mp found
  exact mem_candidates _ i (List.mem_append_right before List.mem_cons_self)

/-- What the indexes of a table give is what a scan of its instructions gives. -/
theorem ofPatterns_indexes (patterns : List Pattern) :
    (ofPatterns patterns).all = patterns.flatMap Pattern.expand ∧
    (∀ mnemonic, (ofPatterns patterns).candidates mnemonic =
      (ofPatterns patterns).all.filter (·.mnemonic = mnemonic)) ∧
    (∀ opcode i, (ofPatterns patterns).withOpcode? opcode = some i ↔
      IsLastWith opcode (ofPatterns patterns).all i) ∧
    (∀ opcode, (ofPatterns patterns).withOpcode? opcode = none ↔
      ∀ i ∈ (ofPatterns patterns).all, i.opcode ≠ opcode) ∧
    (∀ opcode i, (ofPatterns patterns).withOpcode? opcode = some i →
      i ∈ (ofPatterns patterns).candidates i.mnemonic) ∧
    (ofPatterns patterns).size = (ofPatterns patterns).all.length ∧
    (ofPatterns patterns).mnemonics = ((ofPatterns patterns).all.map Instruction.mnemonic).toFinset.card :=
  ⟨rfl, candidates_ofInstructions _, withOpcode_eq_some_iff _, withOpcode_eq_none_iff _,
    candidate_of_withOpcode _, rfl, mnemonics_ofInstructions _⟩

/-- One row with the opcode 78, and a family of rows that has it for register `B`. -/
def sharedRows : List Pattern :=
  [steady "S" "MOV A,B" 9 10 3 "78" 1, steady "S" "LD A,r" 4 5 1 "78+r" 1]

def loadFromB : Instruction := .ofPattern (steady "S" "LD A,B" 4 5 1 "78" 1)

/-- The later row takes the opcode over; under the mnemonics, both stay. -/
theorem ofPatterns_indexes_shared :
    (ofPatterns sharedRows).withOpcode? "78" = some loadFromB ∧
    IsLastWith "78" (ofPatterns sharedRows).all loadFromB ∧
    loadFromB ∈ (ofPatterns sharedRows).candidates "LD" ∧
    (ofPatterns sharedRows).size = 8 ∧ (ofPatterns sharedRows).mnemonics = 2 := by
  have found : (ofPatterns sharedRows).withOpcode? "78" = some loadFromB := by decide +kernel
  obtain ⟨_, _, last, _, candidate, size, mnemonics⟩ := ofPatterns_indexes sharedRows
  refine ⟨found, (last "78" loadFromB).mp found, candidate "78" loadFromB found, ?_, ?_⟩
  · rw [size]
    decide +kernel
  · rw [mnemonics]
    decide +kernel

end Catalog

end Z80Cost
