import Z80Cost.Proofs.Source.Nesting

/-!
When expansion is refused. A block that is closed needs room for its copies after the statements that
the one around it holds; expansion fails exactly if some block, read off the text, does not have it.
-/

namespace Z80Cost.Source

variable {α : Type}

/-- Whether a block may be closed into one that holds `held` statements. -/
def Block.hasRoom (limit : Int64) (held : Nat) (block : Block α) : Bool :=
  block.body.isEmpty || Nest.fits limit held block.body.length block.count

theorem close_eq (limit : Int64) (root : List α) (block : Block α) (outer : List (Block α)) :
    Nest.close? limit ⟨root, block :: outer⟩ =
      if block.hasRoom limit (Nest.innermost ⟨root, outer⟩).length then
        some (Nest.extend ⟨root, outer⟩ (copies block.count block.body))
      else none := by
  by_cases empty : block.body.isEmpty = true
  · have nothing : copies block.count block.body = [] := by
      rw [List.isEmpty_iff.mp empty, copies_nil]
    simp only [Nest.close?, Block.hasRoom, empty, Bool.true_or, ↓reduceIte, nothing]
    cases outer <;> rfl
  · simp only [Nest.close?, Block.hasRoom, empty, Bool.false_or, Bool.false_eq_true, ↓reduceIte]
    rfl

theorem hasRoom_mono (limit : Int64) (few many : Nat) (block : Block α) (less : few ≤ many)
    (room : block.hasRoom limit many = true) : block.hasRoom limit few = true := by
  simp only [Block.hasRoom, Bool.or_eq_true, List.isEmpty_iff, Nest.fits, decide_eq_true_eq] at room ⊢
  rcases room with empty | fits
  · exact .inl empty
  · by_cases empty : block.body = []
    · exact .inl empty
    · right
      have some := List.length_pos_iff.mpr empty
      apply Int.le_trans fits
      apply Int.tdiv_le_tdiv (by omega)
      omega

theorem length_copies (count : Int64) (s : List α) :
    (copies count s).length = count.toInt.toNat * s.length := by
  simp [copies]

/-- The quotient is compared instead of the product, which comes to the same. -/
theorem fits_iff (limit count : Int64) (held body : Nat) (positive : 0 < count.toInt) (some : 0 < body) :
    Nest.fits limit held body count = true ↔ held + count.toInt.toNat * body ≤ limit.toInt := by
  obtain ⟨n, counted⟩ : ∃ n : Nat, count.toInt = n := ⟨count.toInt.toNat, by omega⟩
  simp only [Nest.fits, decide_eq_true_eq, counted, Int.toNat_natCast]
  by_cases room : held ≤ limit.toInt
  · rw [Int.tdiv_eq_ediv_of_nonneg (by omega), Int.le_ediv_iff_mul_le (by omega)]
    omega
  · have refused : (limit.toInt - held).tdiv body ≤ 0 := by
      have below : (limit.toInt - held).tdiv body ≤ Int.tdiv 0 body := Int.tdiv_le_tdiv (by omega) (by omega)
      rwa [Int.zero_tdiv] at below
    have product : 0 ≤ (n : Int) * body := Int.mul_nonneg (by omega) (by omega)
    omega

theorem hasRoom_iff (limit : Int64) (held : Nat) (block : Block α) (positive : 0 < block.count.toInt) :
    block.hasRoom limit held = true ↔
      ¬ ((copies block.count block.body).length ≠ 0 ∧
        limit.toInt < held + (copies block.count block.body).length) := by
  rw [length_copies]
  by_cases empty : block.body = []
  · simp [Block.hasRoom, empty]
  · have some := List.length_pos_iff.mpr empty
    have copied : 0 < block.count.toInt.toNat * block.body.length := Nat.mul_pos (by omega) some
    simp only [Block.hasRoom, List.isEmpty_eq_false_iff.mpr empty, Bool.false_or,
      fits_iff limit block.count held _ positive some]
    omega

section Text
variable (repetition : Repetition) (text : α → Text) (limit : Int64)

/-- Whether copies that take `size` statements go beyond the limit after `held` ones; nothing never
does, whatever is held. -/
def Overfills (held size : Nat) : Prop := size ≠ 0 ∧ limit.toInt < held + size

/-- Whether some block of the text overfills the one around it, or the text itself, of which `held`
statements come before. -/
def Overflows : (held : Nat) → List α → Prop
  | _, [] => False
  | held, a :: s =>
      match repetition.opens? (text a) with
      | some count =>
          let size := (copies count (unrolled repetition text (blockBody repetition text 0 s))).length
          Overflows 0 (blockBody repetition text 0 s) ∨ Overfills limit held size ∨
            Overflows (held + size) (blockRest repetition text 0 s)
      | none => Overflows (held + 1) s
termination_by _ s => s.length
decreasing_by
  · exact Nat.lt_succ_of_le (blockBody_length repetition text 0 s)
  · exact Nat.lt_succ_of_le (blockRest_length repetition text 0 s)
  · exact Nat.lt_succ_self s.length

/-- The same for unfinished blocks and the statements to come, if `extra` more statements are at the
end of the innermost block. -/
def Strained (root : List α) : List (Block α) → (extra : Nat) → (rest : List α) → Prop
  | [], extra, rest => Overflows repetition text limit (root.length + extra) rest
  | block :: outer, extra, rest =>
      let body := blockBody repetition text 0 rest
      let size := block.count.toInt.toNat *
        (block.body.length + extra + (unrolled repetition text body).length)
      Overflows repetition text limit (block.body.length + extra) body ∨
        Overfills limit (Nest.innermost ⟨root, outer⟩).length size ∨
          Strained root outer size (blockRest repetition text 0 rest)

end Text

section Refusal
variable {repetition : Repetition} {text : α → Text} {limit : Int64}

theorem not_overflows_nil (held : Nat) : ¬ Overflows repetition text limit held [] := by
  rw [Overflows]
  exact not_false

theorem overflows_opener (held : Nat) (a : α) (s : List α) (count : Int64)
    (opens : repetition.opens? (text a) = some count) :
    Overflows repetition text limit held (a :: s) ↔
      Overflows repetition text limit 0 (blockBody repetition text 0 s) ∨
        Overfills limit held
          (copies count (unrolled repetition text (blockBody repetition text 0 s))).length ∨
        Overflows repetition text limit
          (held + (copies count (unrolled repetition text (blockBody repetition text 0 s))).length)
          (blockRest repetition text 0 s) := by
  rw [Overflows]
  simp only [opens]

theorem overflows_other (held : Nat) (a : α) (s : List α) (other : repetition.opens? (text a) = none) :
    Overflows repetition text limit held (a :: s) ↔ Overflows repetition text limit (held + 1) s := by
  rw [Overflows]
  simp only [other]

theorem strained_extend (nest : Nest α) (extra rest : List α) :
    Strained repetition text limit (nest.extend extra).root (nest.extend extra).blocks 0 rest ↔
      Strained repetition text limit nest.root nest.blocks extra.length rest := by
  obtain ⟨root, blocks⟩ := nest
  cases blocks with
  | nil => simp [Nest.extend, Strained, Nat.add_comm]
  | cons block outer => simp [Nest.extend, Strained, Nat.add_comm]

theorem strained_opener (root : List α) (blocks : List (Block α)) (a : α) (rest : List α) (count : Int64)
    (opens : repetition.opens? (text a) = some count) :
    Strained repetition text limit root blocks 0 (a :: rest) ↔
      Strained repetition text limit root (⟨count, []⟩ :: blocks) 0 rest := by
  -- Inside a block, the matching closer is found past the one of the block that opens here.
  cases blocks with
  | nil =>
      simp only [Strained, overflows_opener _ a rest count opens, length_copies, List.length_nil,
        Nat.zero_add, Nat.add_zero, Nest.innermost]
  | cons block outer =>
      have deeper : depthAfter repetition text 0 a = some 1 := by simp [depthAfter, opens]
      simp only [Strained, blockBody, blockRest, deeper, overflows_opener _ a _ count opens,
        unrolled_opener a _ count opens, blockBody_blockBody, blockRest_blockBody, blockRest_blockRest,
        length_copies, List.length_append, List.length_nil, Nat.zero_add, Nat.add_zero, Nest.innermost,
        or_assoc, Nat.add_assoc]

theorem strained_other (root : List α) (blocks : List (Block α)) (a : α) (rest : List α)
    (other : repetition.opens? (text a) = none)
    (inside : blocks ≠ [] → repetition.closes (text a) = false) :
    Strained repetition text limit root blocks 0 (a :: rest) ↔
      Strained repetition text limit root blocks 1 rest := by
  cases blocks with
  | nil => simp only [Strained, overflows_other _ a rest other, Nat.add_zero]
  | cons block outer =>
      have same : depthAfter repetition text 0 a = some 0 := by
        simp [depthAfter, other, inside (List.cons_ne_nil block outer)]
      simp only [Strained, blockBody, blockRest, same, overflows_other _ a _ other,
        unrolled_other a _ other, List.length_cons, Nat.add_zero]
      simp only [Nat.add_assoc, Nat.add_comm 1]

theorem strained_closed (root : List α) (block : Block α) (outer : List (Block α)) (rest later : List α)
    (body : blockBody repetition text 0 rest = []) (after : blockRest repetition text 0 rest = later) :
    Strained repetition text limit root (block :: outer) 0 rest ↔
      Overfills limit (Nest.innermost ⟨root, outer⟩).length (copies block.count block.body).length ∨
        Strained repetition text limit root outer (copies block.count block.body).length later := by
  simp only [Strained, body, after, not_overflows_nil, false_or, unrolled_nil, List.length_nil,
    Nat.add_zero, length_copies]

def Nest.Positive (nest : Nest α) : Prop := ∀ block ∈ nest.blocks, 0 < block.count.toInt

theorem positive_extend (nest : Nest α) (s : List α) (positive : nest.Positive) :
    (nest.extend s).Positive := by
  obtain ⟨root, blocks⟩ := nest
  cases blocks with
  | nil => exact positive
  | cons block outer =>
      intro other member
      rcases List.mem_cons.mp member with rfl | further
      · exact positive block List.mem_cons_self
      · exact positive other (List.mem_cons_of_mem block further)

theorem positive_close (nest next : Nest α) (positive : nest.Positive)
    (closed : nest.close? limit = some next) : next.Positive := by
  obtain ⟨root, blocks⟩ := nest
  cases blocks with
  | nil =>
      obtain rfl := Option.some.inj closed
      exact positive
  | cons block outer =>
      rw [close_cases limit _ next block outer rfl closed]
      apply positive_extend
      intro other member
      exact positive other (List.mem_cons_of_mem block member)

theorem positive_add (nest next : Nest α) (a : α) (positive : nest.Positive)
    (added : nest.add? repetition text limit a = some next) : next.Positive := by
  simp only [Nest.add?] at added
  split at added
  · next count opens =>
      obtain rfl := Option.some.inj added
      intro block member
      rcases List.mem_cons.mp member with rfl | outer
      · exact opens_positive (text a) count opens
      · exact positive block outer
  · split at added
    · exact positive_close nest next positive added
    · obtain rfl := Option.some.inj added
      exact positive_extend nest [a] positive

variable (repetition text limit) in
def Nest.Strained (nest : Nest α) (rest : List α) : Prop :=
  Source.Strained repetition text limit nest.root nest.blocks 0 rest

/-- Where a block ends, the nest is strained if it is refused or strained without it. -/
theorem close_strained (nest : Nest α) (inside : nest.blocks ≠ []) (positive : nest.Positive)
    (rest later : List α) (body : blockBody repetition text 0 rest = [])
    (after : blockRest repetition text 0 rest = later) :
    nest.Strained repetition text limit rest ↔
      ∀ next, nest.close? limit = some next → next.Strained repetition text limit later := by
  obtain ⟨root, blocks⟩ := nest
  cases blocks with
  | nil => exact absurd rfl inside
  | cons block outer =>
      have room := hasRoom_iff limit (Nest.innermost ⟨root, outer⟩).length block
        (positive block List.mem_cons_self)
      rw [Nest.Strained, strained_closed root block outer rest later body after, close_eq]
      by_cases fits : block.hasRoom limit (Nest.innermost ⟨root, outer⟩).length = true
      · simp only [fits, ↓reduceIte, Option.some.injEq, forall_eq', Nest.Strained, strained_extend,
          Overfills, room.mp fits, false_or]
      · have overfills := Decidable.not_not.mp (mt room.mpr fits)
        simp [fits, Overfills, overfills]

theorem add_strained (nest : Nest α) (positive : nest.Positive) (a : α) (rest : List α) :
    nest.Strained repetition text limit (a :: rest) ↔
      ∀ next, nest.add? repetition text limit a = some next →
        next.Strained repetition text limit rest := by
  cases opens : repetition.opens? (text a) with
  | some count =>
      simp only [Nest.add?, opens, Option.some.injEq, forall_eq', Nest.Strained]
      exact strained_opener nest.root nest.blocks a rest count opens
  | none =>
      by_cases closes : (!nest.blocks.isEmpty && repetition.closes (text a)) = true
      · obtain ⟨inside, closer⟩ := Bool.and_eq_true_iff.mp closes
        have ends : depthAfter repetition text 0 a = none := by simp [depthAfter, opens, closer]
        simp only [Nest.add?, opens, closes, ↓reduceIte]
        apply close_strained nest (by simpa using inside) positive
        · simp only [blockBody, ends]
        · simp only [blockRest, ends]
      · simp only [Nest.add?, opens, closes, Bool.false_eq_true, ↓reduceIte, Option.some.injEq, forall_eq',
          Nest.Strained, strained_extend]
        refine strained_other nest.root nest.blocks a rest opens fun inside => ?_
        simpa [inside] using closes

/-- At the end of the text the blocks are closed one by one. Only the number of those that are folded
over matters. -/
theorem foldlM_close_strained (nest : Nest α) (positive : nest.Positive) (blocks : List (Block α))
    (size : blocks.length = nest.blocks.length) :
    nest.Strained repetition text limit [] ↔
      blocks.foldlM (fun nest _ => nest.close? limit) nest = none := by
  induction blocks generalizing nest with
  | nil =>
      have outside : nest.blocks = [] := List.length_eq_zero_iff.mp size.symm
      simp [Nest.Strained, Source.Strained, outside, not_overflows_nil]
  | cons _ blocks ih =>
      have inside : nest.blocks ≠ [] := by
        rintro none_open
        simp [none_open] at size
      rw [close_strained nest inside positive [] [] rfl rfl, List.foldlM_cons]
      cases closed : nest.close? limit with
      | none => simp
      | some next =>
          have kept := positive_close nest next positive closed
          have fewer : blocks.length = next.blocks.length := by
            cases top : nest.blocks with
            | nil => exact absurd top inside
            | cons block outer =>
                rw [close_cases limit nest next block outer top closed, extend_blocks_length]
                simpa [top] using size
          simpa using ih next kept fewer

theorem foldlM_strained (nest : Nest α) (positive : nest.Positive) (s : List α) :
    nest.Strained repetition text limit s ↔
      (s.foldlM (Nest.add? repetition text limit) nest).bind (Nest.closeAll? limit) = none := by
  induction s generalizing nest with
  | nil => exact foldlM_close_strained nest positive nest.blocks rfl
  | cons a s ih =>
      rw [add_strained nest positive, List.foldlM_cons]
      cases added : nest.add? repetition text limit a with
      | none => simp
      | some middle =>
          have kept := positive_add nest middle a positive added
          simpa using ih middle kept

/-- The statements are taken in one by one, and then the blocks that are left are closed. -/
theorem expand_stages (limit : Int64) (statements : List α) :
    expand? repetition text limit statements =
      ((statements.foldlM (Nest.add? repetition text (effectiveLimit limit)) {}).bind
        (Nest.closeAll? (effectiveLimit limit))).map fun closed => closed.root.reverse := by
  rw [Option.map_bind]
  refine congrArg _ (funext fun nest => ?_)
  exact Option.map_eq_bind.symm

/-- Expansion is refused exactly if some block overfills what is around it. -/
theorem expand_eq_none_iff (limit : Int64) (statements : List α) :
    expand? repetition text limit statements = none ↔
      Overflows repetition text (effectiveLimit limit) 0 statements := by
  have empty : Nest.Positive ({} : Nest α) := by
    intro block member
    contradiction
  have start : Nest.Strained repetition text (effectiveLimit limit) {} statements ↔
      Overflows repetition text (effectiveLimit limit) 0 statements := by
    simp [Nest.Strained, Source.Strained]
  rw [← start, foldlM_strained {} empty statements, expand_stages, Option.map_eq_none_iff]

/-- Text that overflows is longer than the limit in full, since no block is repeated less than once. -/
theorem length_of_overflows (held : Nat) (s : List α) (overflows : Overflows repetition text limit held s) :
    limit.toInt < held + (unrolled repetition text s).length := by
  induction held, s using Overflows.induct repetition text with
  | case1 held => exact absurd overflows (not_overflows_nil held)
  | case2 held a s count opens size body rest =>
      rw [unrolled_opener a s count opens, List.length_append]
      rcases (overflows_opener held a s count opens).mp overflows with inner | here | later
      · have long := body inner
        have once := (sublist_copies count (opens_positive (text a) count opens)
          (unrolled repetition text (blockBody repetition text 0 s))).length_le
        omega
      · have long := here.2
        omega
      · have long := rest later
        omega
  | case3 held a s other ih =>
      rw [unrolled_other a s other, List.length_cons]
      have long := ih ((overflows_other held a s other).mp overflows)
      omega

end Refusal

end Z80Cost.Source
