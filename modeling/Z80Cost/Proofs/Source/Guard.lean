import Z80Cost.Proofs.Source.Room

/-!
The guard on expansion as it meets the blocks, one by one. It refuses exactly the block whose copies
would take the body around it beyond the limit, in words of 64 bits as in integers without bound; and
since no other body grows by more than a statement at a time, none gets longer than the limit and the
statements of the text together.
-/

namespace Z80Cost.Source

variable {α : Type}

/-- The guard where lengths are words as well: difference and quotient have 64 bits. -/
def Nest.fitsInWords (limit held body count : Int64) : Bool := count ≤ (limit - held) / body

section Words
variable (limit : Int64) (limited : 0 < limit)
include limited

-- With nothing negative on either side the difference is never the least word, and a positive divisor
-- is not the one that could overflow.
theorem fitsInWords_eq (held body : Nat) (count : Int64) (short : held < 0x8000000000000000)
    (small : body < 0x8000000000000000) (some : 0 < body) :
    Nest.fitsInWords limit (.ofNat held) (.ofNat body) count = Nest.fits limit held body count := by
  have positive : 0 < limit.toInt := Int64.lt_iff_toInt_lt.mp limited
  have below := limit.toInt_lt
  have heldWord : (Int64.ofNat held).toInt = held := Int64.toInt_ofNat_of_lt short
  have bodyWord : (Int64.ofNat body).toInt = body := Int64.toInt_ofNat_of_lt small
  have difference : (limit - .ofNat held).toInt = limit.toInt - held := by
    rw [Int64.toInt_sub, heldWord]
    apply Int.bmod_eq_of_le
    · omega
    · omega
  have divisor : Int64.ofNat body ≠ -1 := by
    intro same
    have value : (body : Int) = -1 := by rw [← bodyWord, same]; rfl
    omega
  have quotient : ((limit - .ofNat held) / .ofNat body).toInt = (limit.toInt - held).tdiv body := by
    rw [Int64.toInt_div_of_ne_right _ _ divisor, difference, bodyWord]
  rw [Nest.fitsInWords, Nest.fits, Bool.eq_iff_iff, decide_eq_true_eq, decide_eq_true_eq,
    Int64.le_iff_toInt_le, quotient]

theorem fitsInWords_iff (held body : Nat) (count : Int64) (short : held < 0x8000000000000000)
    (small : body < 0x8000000000000000) (some : 0 < body) (positive : 0 < count) :
    Nest.fitsInWords limit (.ofNat held) (.ofNat body) count = true ↔
      held + count.toInt * body ≤ limit.toInt := by
  have counted : 0 < count.toInt := Int64.lt_iff_toInt_lt.mp positive
  rw [fitsInWords_eq limit limited held body count short small some,
    fits_iff limit count held body counted some, Int.toNat_of_nonneg (Int.le_of_lt counted)]

end Words

theorem effectiveLimit_positive (limit : Int64) : 0 < effectiveLimit limit := by
  unfold effectiveLimit
  split
  · decide
  · next positive => exact Int64.not_le.mp positive

theorem effectiveLimit_nonneg (limit : Int64) : 0 ≤ (effectiveLimit limit).toInt :=
  Int.le_of_lt (Int64.lt_iff_toInt_lt.mp (effectiveLimit_positive limit))

section Stages
variable (repetition : Repetition) (text : α → Text) (limit : Int64)

/-- What comes of a nest: the statements to come are taken in, and what is open then is closed. -/
def Nest.finish? (nest : Nest α) (rest : List α) : Option (Nest α) :=
  (rest.foldlM (Nest.add? repetition text limit) nest).bind (Nest.closeAll? limit)

/-- The nests that expansion goes through, with the statements that are still to come. -/
inductive Reached (statements : List α) : Nest α → List α → Prop where
  | start : Reached statements {} statements
  | add (nest next : Nest α) (a : α) (rest : List α) (before : Reached statements nest (a :: rest))
      (added : nest.add? repetition text limit a = some next) : Reached statements next rest
  | close (nest next : Nest α) (before : Reached statements nest []) (inside : nest.blocks ≠ [])
      (closed : nest.close? limit = some next) : Reached statements next []

/-- Whether a block that is open ends here, by a statement or with the text. -/
def EndsBlock : List α → Prop
  | [] => True
  | a :: _ => repetition.opens? (text a) = none ∧ repetition.closes (text a) = true

/-- Whether the innermost block ends here, holds statements and with its copies takes the body around it
beyond the limit. -/
def Nest.Refused (nest : Nest α) (rest : List α) : Prop :=
  ∃ block outer, nest.blocks = block :: outer ∧ EndsBlock repetition text rest ∧ block.body ≠ [] ∧
    limit.toInt < (Nest.innermost ⟨nest.root, outer⟩).length + block.count.toInt * block.body.length

end Stages

section Run
variable {repetition : Repetition} {text : α → Text} {limit : Int64}

theorem finish_cons (nest : Nest α) (a : α) (rest : List α) :
    nest.finish? repetition text limit (a :: rest) =
      (nest.add? repetition text limit a).bind (·.finish? repetition text limit rest) := by
  rw [Nest.finish?, List.foldlM_cons]
  exact Option.bind_assoc ..

theorem finish_outside (nest : Nest α) (outside : nest.blocks = []) :
    nest.finish? repetition text limit [] = some nest := by
  simp [Nest.finish?, Nest.closeAll?, outside]

theorem close_blocks_length (nest next : Nest α) (block : Block α) (outer : List (Block α))
    (top : nest.blocks = block :: outer) (closed : nest.close? limit = some next) :
    next.blocks.length = outer.length := by
  rw [close_cases limit nest next block outer top closed, extend_blocks_length]

/-- Of the blocks that are folded over only the number counts. -/
theorem foldlM_close_congr (nest : Nest α) (blocks others : List (Block α))
    (size : blocks.length = others.length) :
    blocks.foldlM (fun nest _ => nest.close? limit) nest =
      others.foldlM (fun nest _ => nest.close? limit) nest := by
  induction blocks generalizing nest others with
  | nil => rw [List.length_eq_zero_iff.mp size.symm]
  | cons _ blocks ih =>
      cases others with
      | nil => contradiction
      | cons _ others =>
          rw [List.foldlM_cons, List.foldlM_cons]
          exact congrArg _ (funext fun next => ih next others (Nat.succ.inj size))

theorem finish_inside (nest : Nest α) (inside : nest.blocks ≠ []) :
    nest.finish? repetition text limit [] =
      (nest.close? limit).bind (·.finish? repetition text limit []) := by
  cases top : nest.blocks with
  | nil => exact absurd top inside
  | cons block outer =>
      change nest.closeAll? limit = _
      rw [Nest.closeAll?, top, List.foldlM_cons]
      cases closed : nest.close? limit with
      | none => rfl
      | some next =>
          have size := close_blocks_length nest next block outer top closed
          exact foldlM_close_congr next outer next.blocks size.symm

theorem add_of_endsBlock (nest : Nest α) (inside : nest.blocks ≠ []) (a : α) (rest : List α)
    (ends : EndsBlock repetition text (a :: rest)) :
    nest.add? repetition text limit a = nest.close? limit := by
  simp [Nest.add?, ends.1, ends.2, inside]

theorem endsBlock_of_refused (nest : Nest α) (a : α) (rest : List α)
    (refused : nest.add? repetition text limit a = none) :
    nest.blocks ≠ [] ∧ EndsBlock repetition text (a :: rest) := by
  simp only [Nest.add?] at refused
  split at refused
  · contradiction
  · next other =>
      split at refused
      · next closing =>
          obtain ⟨inside, closes⟩ := Bool.and_eq_true_iff.mp closing
          exact ⟨by simpa using inside, other, closes⟩
      · contradiction

theorem close_eq_none_iff (nest : Nest α) (positive : nest.Positive) (rest : List α)
    (ends : EndsBlock repetition text rest) :
    nest.close? limit = none ↔ nest.Refused repetition text limit rest := by
  obtain ⟨root, blocks⟩ := nest
  cases blocks with
  | nil => simp [Nest.close?, Nest.Refused]
  | cons block outer =>
      have counted := positive block List.mem_cons_self
      have exact : block.hasRoom limit (Nest.innermost ⟨root, outer⟩).length = false ↔ block.body ≠ [] ∧
          limit.toInt < (Nest.innermost ⟨root, outer⟩).length + block.count.toInt * block.body.length := by
        by_cases empty : block.body = []
        · simp [Block.hasRoom, empty]
        · rw [← Bool.not_eq_true, Block.hasRoom, List.isEmpty_eq_false_iff.mpr empty, Bool.false_or,
            fits_iff limit block.count _ _ counted (List.length_pos_iff.mpr empty),
            Int.toNat_of_nonneg (Int.le_of_lt counted), Int.not_le]
          simp [empty]
      constructor
      · intro refused
        rw [close_eq] at refused
        split at refused
        · contradiction
        · next full =>
            exact ⟨block, outer, rfl, ends, exact.mp (Bool.eq_false_iff.mpr full)⟩
      · rintro ⟨inner, around, top, _, beyond⟩
        obtain ⟨rfl, rfl⟩ := List.cons.inj top
        rw [close_eq, exact.mpr beyond]
        rfl

/-! What is reached -/

variable {statements : List α} {nest : Nest α} {rest : List α}

theorem reached_positive (reached : Reached repetition text limit statements nest rest) : nest.Positive := by
  induction reached with
  | start =>
      intro block member
      contradiction
  | add nest next a _ _ added ih => exact positive_add nest next a ih added
  | close nest next _ _ closed ih => exact positive_close nest next ih closed

theorem reached_rest (reached : Reached repetition text limit statements nest rest) :
    rest.length ≤ statements.length := by
  induction reached with
  | start => exact Nat.le_refl _
  | add _ _ a rest _ _ ih => exact Nat.le_of_succ_le ih
  | close _ _ _ _ _ ih => exact ih

/-- Wherever the run has got to, the outcome is what comes of the nest there. -/
theorem reached_finish (reached : Reached repetition text limit statements nest rest) :
    nest.finish? repetition text limit rest = Nest.finish? repetition text limit {} statements := by
  induction reached with
  | start => rfl
  | add nest next a rest _ added ih => rw [← ih, finish_cons, added, Option.bind_some]
  | close nest next _ inside closed ih => rw [← ih, finish_inside nest inside, closed, Option.bind_some]

theorem finish_of_refused (reached : Reached repetition text limit statements nest rest)
    (refused : nest.Refused repetition text limit rest) :
    nest.finish? repetition text limit rest = none := by
  obtain ⟨block, outer, top, ends, _⟩ := id refused
  have inside : nest.blocks ≠ [] := by simp [top]
  have none := (close_eq_none_iff nest (reached_positive reached) rest ends).mpr refused
  cases rest with
  | nil => rw [finish_inside nest inside, none, Option.bind_none]
  | cons a rest => rw [finish_cons, add_of_endsBlock nest inside a rest ends, none, Option.bind_none]

/-- After the last statement one block less is open at each stage. -/
theorem end_reaches (size : Nat) (nest : Nest α) (open_blocks : nest.blocks.length = size)
    (reached : Reached repetition text limit statements nest []) :
    (∃ last, Reached repetition text limit statements last [] ∧
        nest.finish? repetition text limit [] = some last) ∨
      ∃ stop, Reached repetition text limit statements stop [] ∧ stop.Refused repetition text limit [] := by
  induction size generalizing nest with
  | zero => exact .inl ⟨nest, reached, finish_outside nest (List.length_eq_zero_iff.mp open_blocks)⟩
  | succ size ih =>
      have inside : nest.blocks ≠ [] := by
        rintro outside
        simp [outside] at open_blocks
      cases closed : nest.close? limit with
      | none =>
          have ends : EndsBlock repetition text [] := trivial
          have refused := (close_eq_none_iff nest (reached_positive reached) [] ends).mp closed
          exact .inr ⟨nest, reached, refused⟩
      | some next =>
          rw [finish_inside nest inside, closed, Option.bind_some]
          cases top : nest.blocks with
          | nil => exact absurd top inside
          | cons block outer =>
              have fewer : next.blocks.length = size := by
                rw [close_blocks_length nest next block outer top closed]
                simpa [top] using open_blocks
              exact ih next fewer (.close nest next reached inside closed)

theorem run_reaches (reached : Reached repetition text limit statements nest rest) :
    (∃ last, Reached repetition text limit statements last [] ∧
        nest.finish? repetition text limit rest = some last) ∨
      ∃ stop later, Reached repetition text limit statements stop later ∧
        stop.Refused repetition text limit later := by
  induction rest generalizing nest with
  | nil =>
      rcases end_reaches _ nest rfl reached with found | ⟨stop, there, refused⟩
      · exact .inl found
      · exact .inr ⟨stop, [], there, refused⟩
  | cons a rest ih =>
      cases added : nest.add? repetition text limit a with
      | none =>
          obtain ⟨inside, ends⟩ := endsBlock_of_refused nest a rest added
          rw [add_of_endsBlock nest inside a rest ends] at added
          have refused := (close_eq_none_iff nest (reached_positive reached) _ ends).mp added
          exact .inr ⟨nest, a :: rest, reached, refused⟩
      | some next =>
          rw [finish_cons, added, Option.bind_some]
          exact ih (.add nest next a rest reached added)

def Nest.bodies (nest : Nest α) : List (List α) := nest.root :: nest.blocks.map Block.body

theorem innermost_mem_bodies (nest : Nest α) : nest.innermost ∈ nest.bodies := by
  obtain ⟨root, blocks⟩ := nest
  cases blocks <;> simp [Nest.bodies, Nest.innermost]

theorem mem_bodies_extend (nest : Nest α) (s body : List α) (member : body ∈ (nest.extend s).bodies) :
    body ∈ nest.bodies ∨ body = s ++ nest.innermost := by
  obtain ⟨root, blocks⟩ := nest
  cases blocks with
  | nil =>
      simp only [Nest.bodies, Nest.extend, Nest.innermost, List.map_nil, List.mem_singleton] at member ⊢
      exact .inr member
  | cons block outer =>
      simp only [Nest.bodies, Nest.extend, Nest.innermost, List.map_cons, List.mem_cons] at member ⊢
      rcases member with root | here | outside
      · exact .inl (.inl root)
      · exact .inr here
      · exact .inl (.inr (.inr outside))

/-- A block that is closed leaves the other bodies as they are, and the one around it within the limit or
as it was. -/
theorem mem_bodies_close (nest next : Nest α) (positive : nest.Positive) (inside : nest.blocks ≠ [])
    (closed : nest.close? limit = some next) (body : List α) (member : body ∈ next.bodies) :
    body ∈ nest.bodies ∨ body.length ≤ limit.toInt := by
  obtain ⟨root, blocks⟩ := nest
  cases blocks with
  | nil => exact absurd rfl inside
  | cons block outer =>
      have kept : ∀ other ∈ Nest.bodies ⟨root, outer⟩, other ∈ Nest.bodies ⟨root, block :: outer⟩ := by
        intro other held
        simp only [Nest.bodies, List.map_cons, List.mem_cons] at held ⊢
        exact held.imp_right .inr
      have counted := positive block List.mem_cons_self
      have room := close_eq limit root block outer
      rw [closed] at room
      split at room
      · next fits =>
          obtain rfl := Option.some.inj room
          rcases mem_bodies_extend _ _ body member with other | grown
          · exact .inl (kept body other)
          · have held := (hasRoom_iff limit _ block counted).mp fits
            by_cases nothing : (copies block.count block.body).length = 0
            · rw [List.length_eq_zero_iff.mp nothing, List.nil_append] at grown
              exact .inl (kept body (grown ▸ innermost_mem_bodies _))
            · right
              rw [grown, List.length_append]
              omega
      · contradiction

theorem mem_bodies_add (nest next : Nest α) (positive : nest.Positive) (limited : 0 ≤ limit.toInt) (a : α)
    (added : nest.add? repetition text limit a = some next) (body : List α) (member : body ∈ next.bodies) :
    body ∈ nest.bodies ∨ body.length ≤ limit.toInt ∨ body = a :: nest.innermost := by
  simp only [Nest.add?] at added
  split at added
  · obtain rfl := Option.some.inj added
    simp only [Nest.bodies, List.map_cons, List.mem_cons] at member ⊢
    rcases member with root | rfl | other
    · exact .inl (.inl root)
    · exact .inr (.inl limited)
    · exact .inl (.inr other)
  · split at added
    · next closing =>
        have inside : nest.blocks ≠ [] := by simpa using (Bool.and_eq_true_iff.mp closing).1
        exact (mem_bodies_close nest next positive inside added body member).imp_right .inl
    · obtain rfl := Option.some.inj added
      exact (mem_bodies_extend nest [a] body member).imp_right .inr

/-- What has passed the guard takes in at most the statements after it, one each. -/
theorem reached_bodies (limited : 0 ≤ limit.toInt)
    (reached : Reached repetition text limit statements nest rest) :
    ∀ body ∈ nest.bodies, body.length + rest.length ≤ limit.toInt + statements.length := by
  induction reached with
  | start =>
      intro body member
      obtain rfl : body = [] := by simpa [Nest.bodies] using member
      rw [List.length_nil]
      omega
  | add nest next a rest before added ih =>
      have few := reached_rest before
      have inner := ih nest.innermost (innermost_mem_bodies nest)
      rw [List.length_cons] at few inner ih
      intro body member
      rcases mem_bodies_add nest next (reached_positive before) limited a added body member with
        other | within | rfl
      · have bound := ih body other
        omega
      · omega
      · rw [List.length_cons]
        omega
  | close nest next before inside closed ih =>
      have few := reached_rest before
      intro body member
      rcases mem_bodies_close nest next (reached_positive before) inside closed body member with other | within
      · exact ih body other
      · omega

end Run

section Expansion
variable (repetition : Repetition) (text : α → Text) (limit : Int64) (statements : List α)

theorem expand_eq_none_iff_refused :
    expand? repetition text limit statements = none ↔
      ∃ nest rest, Reached repetition text (effectiveLimit limit) statements nest rest ∧
        nest.Refused repetition text (effectiveLimit limit) rest := by
  rw [expand_stages, Option.map_eq_none_iff]
  change Nest.finish? repetition text (effectiveLimit limit) {} statements = none ↔ _
  constructor
  · intro none
    rcases run_reaches (.start : Reached repetition text (effectiveLimit limit) statements {} statements)
      with ⟨last, _, found⟩ | stopped
    · rw [none] at found
      contradiction
    · exact stopped
  · rintro ⟨nest, rest, reached, refused⟩
    rw [← reached_finish reached]
    exact finish_of_refused reached refused

theorem expand_within (short : (unrolled repetition text statements).length ≤ (effectiveLimit limit).toInt) :
    expand? repetition text limit statements = some (unrolled repetition text statements) := by
  cases expanded : expand? repetition text limit statements with
  | some out => rw [expand_eq_unrolled limit statements out expanded]
  | none =>
      have long := length_of_overflows 0 statements ((expand_eq_none_iff limit statements).mp expanded)
      omega

theorem expand_length (out : List α) (expanded : expand? repetition text limit statements = some out) :
    out.length ≤ (effectiveLimit limit).toInt + statements.length := by
  rw [expand_stages] at expanded
  obtain ⟨closed, ended, rfl⟩ := Option.map_eq_some_iff.mp expanded
  rcases run_reaches (.start : Reached repetition text (effectiveLimit limit) statements {} statements)
    with ⟨last, reached, found⟩ | ⟨stop, later, reached, refused⟩
  · obtain rfl : last = closed := Option.some.inj (found.symm.trans ended)
    have bound := reached_bodies (effectiveLimit_nonneg limit) reached last.root List.mem_cons_self
    simpa using bound
  · have none := finish_of_refused reached refused
    rw [reached_finish reached] at none
    exact absurd (none.symm.trans ended) (by simp)

/-- A text is refused exactly if some block, where it ends, does not fit into what is around it, and the
test in words is that comparison. Hence a text goes through if all of it is within the limit, and no body
on the way is longer than the limit and the text together. -/
theorem expand_guarded :
    (expand? repetition text limit statements = none ↔
      ∃ nest rest, Reached repetition text (effectiveLimit limit) statements nest rest ∧
        nest.Refused repetition text (effectiveLimit limit) rest) ∧
    (∀ (held body : Nat) (count : Int64), held < 0x8000000000000000 → body < 0x8000000000000000 →
      0 < body → 0 < count →
        (Nest.fitsInWords (effectiveLimit limit) (.ofNat held) (.ofNat body) count = true ↔
          held + count.toInt * body ≤ (effectiveLimit limit).toInt)) ∧
    ((unrolled repetition text statements).length ≤ (effectiveLimit limit).toInt →
      expand? repetition text limit statements = some (unrolled repetition text statements)) ∧
    (∀ nest rest, Reached repetition text (effectiveLimit limit) statements nest rest →
      ∀ body ∈ nest.bodies, body.length ≤ (effectiveLimit limit).toInt + statements.length) ∧
    ∀ out, expand? repetition text limit statements = some out →
      out.length ≤ (effectiveLimit limit).toInt + statements.length := by
  refine ⟨expand_eq_none_iff_refused _ _ _ _, ?_, expand_within _ _ _ _, ?_, expand_length _ _ _ _⟩
  · intro held body count short small some positive
    exact fitsInWords_iff _ (effectiveLimit_positive limit) held body count short small some positive
  · intro nest rest reached body member
    have bound := reached_bodies (effectiveLimit_nonneg limit) reached body member
    omega

end Expansion

/-- Two copies that fill all the room under a limit of 3. -/
def brim : List Text := ["NOP", "REPT 2", "RLA", "ENDM"]

def brimSpelledOut : List Text := ["NOP", "RLA", "RLA"]

/-- The brim is within the limit; as many copies as a word can count, beside a body that is too long
already, are not. -/
theorem expand_guarded_brim :
    (unrolled .rept id brim).length = 3 ∧ expand? .rept id 3 brim = some brimSpelledOut ∧
      Nest.fitsInWords 3 (.ofNat 4) (.ofNat 1) 0x7FFFFFFFFFFFFFFF = false := by
  have unlimited : expand? .rept id 0 brim = some brimSpelledOut := by decide +kernel
  have full := (expand_eq_unrolled 0 brim brimSpelledOut unlimited).symm
  obtain ⟨_, words, within, _⟩ := expand_guarded .rept id 3 brim
  rw [full] at within ⊢
  refine ⟨rfl, within (by decide), Bool.eq_false_iff.mpr fun fits => ?_⟩
  have room := (words 4 1 0x7FFFFFFFFFFFFFFF (by decide) (by decide) (by decide) (by decide)).mp fits
  exact absurd room (by decide)

end Z80Cost.Source
