import Z80Cost.Instruction.Catalog

/-!
What the indexes of a catalog hold: under each mnemonic the instructions that have it, in table order,
each with the shapes of its own operands, and under each opcode the last instruction that has it.
-/

namespace Z80Cost

namespace Index

variable {α : Type}

theorem get_push (key k : Text) (value : α) (index : Index (List α)) :
    get? key (push k value index) =
      if k = key then some (value :: (get? key index).getD []) else get? key index := by
  induction index with
  | nil => by_cases same : k = key <;> simp [push, get?, same]
  | cons entry rest ih =>
      obtain ⟨first, values⟩ := entry
      by_cases here : first = k
      · subst here
        by_cases same : first = key <;> simp [push, get?, same]
      · by_cases same : first = key
        · subst same
          simp [push, get?, here, Ne.symm here]
        · simp [push, get?, here, same, ih]

theorem get_putNew (key k : Text) (value : α) (index : Index α) :
    get? key (putNew k value index) =
      if k = key then some ((get? key index).getD value) else get? key index := by
  unfold putNew
  by_cases same : k = key
  · subst same
    cases held : get? k index <;> simp [get?, held]
  · split <;> simp [get?, same]

theorem mem_of_get (key : Text) (value : α) (index : Index α) (found : get? key index = some value) :
    (key, value) ∈ index := by
  induction index with
  | nil => simp [get?] at found
  | cons entry rest ih =>
      obtain ⟨first, held⟩ := entry
      rw [get?] at found
      split at found
      · next same =>
          obtain rfl := Option.some.inj found
          simp [same]
      · exact List.mem_cons_of_mem _ (ih found)

end Index

/-- An instruction is that of its row, or that of a register family for one register. -/
theorem Pattern.expand_cases (pattern : Pattern) (i : Instruction) (member : i ∈ pattern.expand) :
    i = .ofPattern pattern ∨
      pattern.size = 1 ∧ ∃ base register code, i = .ofPattern (pattern.forRegister base register code) := by
  unfold expand at member
  split at member
  · next base _ =>
      split at member
      · next single =>
          obtain ⟨register, _, rfl⟩ := List.mem_map.mp member
          exact .inr ⟨single, base, register.1, register.2, rfl⟩
      · exact .inl (List.mem_singleton.mp member)
  · exact .inl (List.mem_singleton.mp member)

namespace Catalog

theorem candidates_ofInstructions (all : List Instruction) (mnemonic : Text) :
    (ofInstructions all).candidates mnemonic = all.filter (·.mnemonic = mnemonic) := by
  induction all with
  | nil => rfl
  | cons i rest ih =>
      simp only [candidates, ofInstructions, List.foldr_cons, Index.get_push] at ih ⊢
      by_cases same : i.mnemonic = mnemonic <;> simp [same, ih]

theorem mem_candidates_iff (all : List Instruction) (mnemonic : Text) (i : Instruction) :
    i ∈ (ofInstructions all).candidates mnemonic ↔ i ∈ all ∧ i.mnemonic = mnemonic := by
  rw [candidates_ofInstructions, List.mem_filter, decide_eq_true_eq]

theorem mem_candidates (all : List Instruction) (i : Instruction) (member : i ∈ all) :
    i ∈ (ofInstructions all).candidates i.mnemonic :=
  (mem_candidates_iff all i.mnemonic i).mpr ⟨member, rfl⟩

theorem withOpcode_ofInstructions (all : List Instruction) (opcode : Text) :
    (ofInstructions all).withOpcode? opcode = (all.filter (·.opcode = opcode)).getLast? := by
  induction all with
  | nil => rfl
  | cons i rest ih =>
      simp only [withOpcode?, ofInstructions, List.foldr_cons, Index.get_putNew] at ih ⊢
      by_cases same : i.opcode = opcode
      · simp [same, ih, List.getLast?_cons]
      · simp [same, ih]

theorem expand_shapes (pattern : Pattern) (i : Instruction) (member : i ∈ pattern.expand) :
    i.shapes = i.operands.map Operand.ofText := by
  rcases pattern.expand_cases i member with rfl | ⟨_, _, _, _, rfl⟩
  · rfl
  · rfl

theorem ofPatterns_shapes (patterns : List Pattern) (i : Instruction)
    (member : i ∈ (ofPatterns patterns).all) : i.shapes = i.operands.map Operand.ofText := by
  obtain ⟨pattern, _, stands⟩ := List.mem_flatMap.mp member
  exact expand_shapes pattern i stands

end Catalog

end Z80Cost
