import Z80Cost.Source.Block

/-!
What repeat blocks mean. A statement that opens a block takes the statements up to its matching
closer, and stands for copies of what these mean. Expansion keeps a nest of unfinished blocks
instead; at each statement the nest together with the statements to come means the same.
-/

namespace Z80Cost.Source

variable {α : Type}

section Matching
variable (repetition : Repetition) (text : α → Text)

/-- How many blocks are open inside a block after a statement, if `depth` were; `none` where the
statement closes the block itself. -/
def depthAfter (depth : Nat) (a : α) : Option Nat :=
  if (repetition.opens? (text a)).isSome then some (depth + 1)
  else if repetition.closes (text a) then
    match depth with
    | 0 => none
    | outer + 1 => some outer
  else some depth

/-- The statements before the matching closer, or all without one. -/
def blockBody : (depth : Nat) → List α → List α
  | _, [] => []
  | depth, a :: s =>
      match depthAfter repetition text depth a with
      | none => []
      | some depth => a :: blockBody depth s

def blockRest : (depth : Nat) → List α → List α
  | _, [] => []
  | depth, a :: s =>
      match depthAfter repetition text depth a with
      | none => s
      | some depth => blockRest depth s

theorem blockBody_length (depth : Nat) (s : List α) :
    (blockBody repetition text depth s).length ≤ s.length := by
  induction s generalizing depth with
  | nil => exact Nat.le_refl _
  | cons a s ih =>
      rw [blockBody]
      split
      · exact Nat.zero_le _
      · exact Nat.succ_le_succ (ih _)

theorem blockRest_length (depth : Nat) (s : List α) :
    (blockRest repetition text depth s).length ≤ s.length := by
  induction s generalizing depth with
  | nil => exact Nat.le_refl _
  | cons a s ih =>
      rw [blockRest]
      split
      · exact Nat.le_succ _
      · exact Nat.le_succ_of_le (ih _)

def copies (count : Int64) (s : List α) : List α :=
  (List.replicate count.toInt.toNat s).flatten

/-- The statements with every block in full. A closer outside every block is a statement like any
other. -/
def unrolled : List α → List α
  | [] => []
  | a :: s =>
      match repetition.opens? (text a) with
      | some count =>
          copies count (unrolled (blockBody repetition text 0 s)) ++
            unrolled (blockRest repetition text 0 s)
      | none => a :: unrolled s
termination_by s => s.length
decreasing_by
  · exact Nat.lt_succ_of_le (blockBody_length repetition text 0 s)
  · exact Nat.lt_succ_of_le (blockRest_length repetition text 0 s)
  · exact Nat.lt_succ_self s.length

end Matching

section Meaning
variable {repetition : Repetition} {text : α → Text}

@[simp] theorem unrolled_nil : unrolled repetition text [] = [] := by
  rw [unrolled]

theorem unrolled_opener (a : α) (s : List α) (count : Int64)
    (opens : repetition.opens? (text a) = some count) :
    unrolled repetition text (a :: s) =
      copies count (unrolled repetition text (blockBody repetition text 0 s)) ++
        unrolled repetition text (blockRest repetition text 0 s) := by
  rw [unrolled]
  simp only [opens]

theorem unrolled_other (a : α) (s : List α) (other : repetition.opens? (text a) = none) :
    unrolled repetition text (a :: s) = a :: unrolled repetition text s := by
  rw [unrolled]
  simp only [other]

/-- One block further out, the closer of a block is one of an inner block. -/
theorem depthAfter_succ (depth : Nat) (a : α) :
    depthAfter repetition text (depth + 1) a =
      some ((depthAfter repetition text depth a).elim 0 (· + 1)) := by
  unfold depthAfter
  split
  · rfl
  · split
    · cases depth <;> rfl
    · rfl

theorem blockBody_blockBody (depth : Nat) (s : List α) :
    blockBody repetition text depth (blockBody repetition text (depth + 1) s) =
      blockBody repetition text depth s := by
  induction s generalizing depth with
  | nil => rfl
  | cons a s ih =>
      cases next : depthAfter repetition text depth a with
      | none => simp only [blockBody, depthAfter_succ, next, Option.elim_none]
      | some inner => simp only [blockBody, depthAfter_succ, next, Option.elim_some, ih]

theorem blockRest_blockBody (depth : Nat) (s : List α) :
    blockRest repetition text depth (blockBody repetition text (depth + 1) s) =
      blockBody repetition text 0 (blockRest repetition text depth s) := by
  induction s generalizing depth with
  | nil => rfl
  | cons a s ih =>
      cases next : depthAfter repetition text depth a with
      | none => simp only [blockBody, blockRest, depthAfter_succ, next, Option.elim_none]
      | some inner => simp only [blockBody, blockRest, depthAfter_succ, next, Option.elim_some, ih]

theorem blockRest_blockRest (depth : Nat) (s : List α) :
    blockRest repetition text 0 (blockRest repetition text depth s) =
      blockRest repetition text (depth + 1) s := by
  induction s generalizing depth with
  | nil => rfl
  | cons a s ih =>
      cases next : depthAfter repetition text depth a with
      | none => simp only [blockRest, depthAfter_succ, next, Option.elim_none]
      | some inner => simp only [blockRest, depthAfter_succ, next, Option.elim_some, ih]

variable (repetition text) in
/-- What unfinished blocks and the statements to come mean, if `extra` is at the end of the innermost
block: the block goes on up to the next closer, and then its copies are the extra of the one around
it. -/
def resumed (root : List α) : List (Block α) → (extra rest : List α) → List α
  | [], extra, rest => root.reverse ++ (extra ++ unrolled repetition text rest)
  | block :: outer, extra, rest =>
      resumed root outer
        (copies block.count (block.body.reverse ++
          (extra ++ unrolled repetition text (blockBody repetition text 0 rest))))
        (blockRest repetition text 0 rest)

variable (repetition text) in
def Nest.meaning (nest : Nest α) (rest : List α) : List α :=
  resumed repetition text nest.root nest.blocks [] rest

theorem extend_meaning (nest : Nest α) (extra rest : List α) :
    (nest.extend extra).meaning repetition text rest =
      resumed repetition text nest.root nest.blocks extra.reverse rest := by
  obtain ⟨root, blocks⟩ := nest
  cases blocks with
  | nil => simp [Nest.extend, Nest.meaning, resumed]
  | cons block outer => simp [Nest.extend, Nest.meaning, resumed]

theorem resumed_opener (root : List α) (blocks : List (Block α)) (a : α) (extra rest : List α)
    (count : Int64) (opens : repetition.opens? (text a) = some count) :
    resumed repetition text root blocks extra (a :: rest) =
      resumed repetition text root blocks
        (extra ++ copies count (unrolled repetition text (blockBody repetition text 0 rest)))
        (blockRest repetition text 0 rest) := by
  -- Inside a block, the matching closer is found past the one of the block that opens here.
  cases blocks with
  | nil => simp only [resumed, unrolled_opener a rest count opens, List.append_assoc]
  | cons block outer =>
      have deeper : depthAfter repetition text 0 a = some 1 := by simp [depthAfter, opens]
      simp only [resumed, blockBody, blockRest, deeper, unrolled_opener a _ count opens,
        blockBody_blockBody, blockRest_blockBody, blockRest_blockRest, List.append_assoc]

theorem resumed_other (root : List α) (blocks : List (Block α)) (a : α) (extra rest : List α)
    (other : repetition.opens? (text a) = none)
    (inside : blocks ≠ [] → repetition.closes (text a) = false) :
    resumed repetition text root blocks extra (a :: rest) =
      resumed repetition text root blocks (extra ++ [a]) rest := by
  cases blocks with
  | nil => simp [resumed, unrolled_other a rest other]
  | cons block outer =>
      have same : depthAfter repetition text 0 a = some 0 := by
        simp [depthAfter, other, inside (List.cons_ne_nil block outer)]
      simp [resumed, blockBody, blockRest, same, unrolled_other a _ other]

theorem resumed_closer (root : List α) (block : Block α) (outer : List (Block α)) (a : α)
    (rest : List α) (other : repetition.opens? (text a) = none)
    (closes : repetition.closes (text a) = true) :
    resumed repetition text root (block :: outer) [] (a :: rest) =
      resumed repetition text root outer (copies block.count block.body.reverse) rest := by
  have ends : depthAfter repetition text 0 a = none := by simp [depthAfter, other, closes]
  simp [resumed, blockBody, blockRest, ends]

theorem copies_nil (count : Int64) : copies count ([] : List α) = [] := by
  simp [copies]

theorem reverse_copies (count : Int64) (s : List α) :
    (copies count s).reverse = copies count s.reverse := by
  simp [copies, List.reverse_flatten]

/-- Closing a block puts its copies at the end of the one around it. -/
theorem close_cases (limit : Int64) (nest next : Nest α) (block : Block α) (outer : List (Block α))
    (top : nest.blocks = block :: outer) (closed : nest.close? limit = some next) :
    next = Nest.extend ⟨nest.root, outer⟩ (copies block.count block.body) := by
  obtain ⟨root, blocks⟩ := nest
  obtain rfl : blocks = block :: outer := top
  simp only [Nest.close?] at closed
  split at closed
  · next empty =>
      obtain rfl := Option.some.inj closed
      rw [List.isEmpty_iff.mp empty, copies_nil]
      cases outer <;> rfl
  · split at closed
    · exact (Option.some.inj closed).symm
    · contradiction

theorem add_meaning (limit : Int64) (nest next : Nest α) (a : α) (rest : List α)
    (added : nest.add? repetition text limit a = some next) :
    nest.meaning repetition text (a :: rest) = next.meaning repetition text rest := by
  simp only [Nest.add?] at added
  split at added
  · next count opens =>
      obtain rfl := Option.some.inj added
      exact resumed_opener nest.root nest.blocks a [] rest count opens
  · next other =>
      split at added
      · next closing =>
          obtain ⟨inside, closes⟩ := Bool.and_eq_true_iff.mp closing
          cases top : nest.blocks with
          | nil => simp [top] at inside
          | cons block outer =>
              rw [close_cases limit nest next block outer top added, extend_meaning, reverse_copies,
                Nest.meaning, top]
              exact resumed_closer nest.root block outer a rest other closes
      · next staying =>
          obtain rfl := Option.some.inj added
          rw [extend_meaning]
          refine resumed_other nest.root nest.blocks a [] rest other fun inside => ?_
          simpa [inside] using staying

theorem foldlM_add_meaning (limit : Int64) (nest next : Nest α) (s : List α)
    (added : s.foldlM (Nest.add? repetition text limit) nest = some next) :
    nest.meaning repetition text s = next.meaning repetition text [] := by
  induction s generalizing nest with
  | nil => rw [Option.some.inj added]
  | cons a s ih =>
      obtain ⟨middle, first, others⟩ := Option.bind_eq_some_iff.mp added
      exact (add_meaning limit nest middle a s first).trans (ih middle others)

theorem extend_blocks_length (nest : Nest α) (extra : List α) :
    (nest.extend extra).blocks.length = nest.blocks.length := by
  obtain ⟨root, blocks⟩ := nest
  cases blocks <;> rfl

/-- Only their number matters of the blocks that are folded over. -/
theorem foldlM_close_meaning (limit : Int64) (nest closed : Nest α) (blocks : List (Block α))
    (size : blocks.length = nest.blocks.length)
    (ended : blocks.foldlM (fun nest _ => nest.close? limit) nest = some closed) :
    nest.meaning repetition text [] = closed.root.reverse := by
  -- The list is the one the fold began with, while the nest loses a block at each step.
  induction blocks generalizing nest with
  | nil =>
      obtain rfl := Option.some.inj ended
      rw [Nest.meaning, List.length_eq_zero_iff.mp size.symm]
      simp [resumed]
  | cons _ blocks ih =>
      obtain ⟨middle, first, others⟩ := Option.bind_eq_some_iff.mp ended
      cases top : nest.blocks with
      | nil => simp [top] at size
      | cons block outer =>
          have inner := close_cases limit nest middle block outer top first
          have same : nest.meaning repetition text [] = middle.meaning repetition text [] := by
            rw [inner, extend_meaning, reverse_copies, Nest.meaning, top]
            simp [resumed, blockBody, blockRest]
          rw [same]
          refine ih middle ?_ others
          rw [inner, extend_blocks_length]
          simpa [top] using size

theorem expand_eq_unrolled (limit : Int64) (statements out : List α)
    (expanded : expand? repetition text limit statements = some out) :
    out = unrolled repetition text statements := by
  obtain ⟨nest, added, ended⟩ := Option.bind_eq_some_iff.mp expanded
  obtain ⟨closed, closing, found⟩ := Option.bind_eq_some_iff.mp ended
  have start : Nest.meaning repetition text {} statements = unrolled repetition text statements := by
    simp [Nest.meaning, resumed]
  rw [← start, foldlM_add_meaning _ {} nest statements added,
    foldlM_close_meaning _ nest closed nest.blocks rfl closing]
  exact (Option.some.inj found).symm

/-! Nothing ordinary is lost -/

theorem count_positive (operands : List Text) : 0 < (Repetition.count operands).toInt := by
  have one : (0 : Int) < (1 : Int64).toInt := by decide
  cases operands with
  | nil => exact one
  | cons operand others =>
      rw [Repetition.count]
      split
      · next n _ =>
          split
          · next positive => exact Int64.lt_iff_toInt_lt.mp positive
          · exact one
      · exact one

theorem opens_positive (s : Text) (count : Int64) (opens : repetition.opens? s = some count) :
    0 < count.toInt := by
  simp only [Repetition.opens?] at opens
  split at opens
  · rw [← Option.some.inj opens]
    exact count_positive _
  · contradiction

theorem sublist_copies (count : Int64) (positive : 0 < count.toInt) (s : List α) :
    s.Sublist (copies count s) := by
  have some : s ∈ List.replicate count.toInt.toNat s := by
    rw [List.mem_replicate]
    exact ⟨by omega, rfl⟩
  exact List.sublist_flatten_of_mem some

variable (repetition text) in
/-- Whether a statement neither opens nor closes a block. -/
def isOrdinary (a : α) : Bool :=
  (repetition.opens? (text a)).isNone && !repetition.closes (text a)

theorem filter_block (depth : Nat) (s : List α) :
    s.filter (isOrdinary repetition text) =
      (blockBody repetition text depth s).filter (isOrdinary repetition text) ++
        (blockRest repetition text depth s).filter (isOrdinary repetition text) := by
  induction s generalizing depth with
  | nil => rfl
  | cons a s ih =>
      cases next : depthAfter repetition text depth a with
      | none =>
          have closer : isOrdinary repetition text a = false := by
            simp only [depthAfter] at next
            split at next
            · contradiction
            · split at next
              · next closes => simp [isOrdinary, closes]
              · contradiction
          simp [blockBody, blockRest, next, closer]
      | some inner =>
          simp only [blockBody, blockRest, next, List.filter_cons]
          split
          · rw [ih inner, List.cons_append]
          · exact ih inner

theorem ordinary_sublist_unrolled (s : List α) :
    (s.filter (isOrdinary repetition text)).Sublist (unrolled repetition text s) := by
  induction s using unrolled.induct repetition text with
  | case1 => simp
  | case2 a s count opens body rest =>
      -- The closer that separates body and rest is not ordinary, so they hold all that is.
      have opener : isOrdinary repetition text a = false := by simp [isOrdinary, opens]
      rw [List.filter_cons_of_neg (by simp [opener]), unrolled_opener a s count opens,
        filter_block 0 s]
      exact (body.trans (sublist_copies count (opens_positive (text a) count opens) _)).append rest
  | case3 a s other rest =>
      rw [unrolled_other a s other, List.filter_cons]
      split
      · exact rest.cons_cons a
      · exact rest.cons a

/-- Expansion that succeeds gives each block as often as its count says, and every ordinary statement
stays, in order. -/
theorem expand_unrolls (repetition : Repetition) (text : α → Text) (limit : Int64)
    (statements out : List α) (expanded : expand? repetition text limit statements = some out) :
    out = unrolled repetition text statements ∧
      (statements.filter (isOrdinary repetition text)).Sublist out := by
  have same := expand_eq_unrolled limit statements out expanded
  exact ⟨same, same ▸ ordinary_sublist_unrolled statements⟩

/-- A stray closer, then a block inside one that is never closed. -/
theorem expand_unrolls_unclosed :
    ∃ statements out : List Text,
      statements = (["ENDM", "REPT 2", "NOP", "REPT 1+1", "RLA"] : List Text) ∧
      out = (["ENDM", "NOP", "RLA", "RLA", "NOP", "RLA", "RLA"] : List Text) ∧
      expand? .rept id 0 statements = some out ∧ out = unrolled .rept id statements ∧
      (statements.filter (isOrdinary .rept id)).Sublist out := by
  refine ⟨_, _, rfl, rfl, ?_, expand_unrolls .rept id 0 _ _ ?_⟩ <;> decide +kernel

end Meaning

end Z80Cost.Source
