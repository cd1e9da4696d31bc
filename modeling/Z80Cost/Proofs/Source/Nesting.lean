import Z80Cost.Proofs.Source.Expansion

/-!
Expansion under a change of surroundings. It looks at nothing but the texts of the statements, so
it commutes with any relabelling that keeps them; and while statements are balanced, a block around
them changes nothing about how they are nested. A block around balanced statements is therefore
expanded to copies of what the statements alone expand to.
-/

namespace Z80Cost.Source

variable {α β : Type}

theorem foldlM_commutes {σ τ : Type} (relabel : σ → τ) (f : α → β) (step : σ → α → Option σ)
    (step' : τ → β → Option τ) (commutes : ∀ x a, step' (relabel x) (f a) = (step x a).map relabel)
    (s : List α) (x : σ) : (s.map f).foldlM step' (relabel x) = (s.foldlM step x).map relabel := by
  induction s generalizing x with
  | nil => rfl
  | cons a s ih =>
      rw [List.map_cons, List.foldlM_cons, List.foldlM_cons, commutes]
      cases step x a with
      | none => rfl
      | some y => exact ih y

def Block.map (f : α → β) (block : Block α) : Block β := ⟨block.count, block.body.map f⟩

namespace Nest

def map (f : α → β) (nest : Nest α) : Nest β := ⟨nest.root.map f, nest.blocks.map (Block.map f)⟩

theorem extend_map (f : α → β) (nest : Nest α) (s : List α) :
    (nest.map f).extend (s.map f) = (nest.extend s).map f := by
  obtain ⟨root, blocks⟩ := nest
  cases blocks <;> simp [map, extend, Block.map]

theorem innermost_map (f : α → β) (nest : Nest α) : (nest.map f).innermost = nest.innermost.map f := by
  obtain ⟨root, blocks⟩ := nest
  cases blocks <;> rfl

theorem close_map (f : α → β) (limit : Int64) (nest : Nest α) :
    (nest.map f).close? limit = (nest.close? limit).map (map f) := by
  obtain ⟨root, blocks⟩ := nest
  cases blocks with
  | nil => rfl
  | cons block outer =>
      have around := innermost_map f ⟨root, outer⟩
      have copied := extend_map f ⟨root, outer⟩
        (List.replicate block.count.toInt.toNat block.body).flatten
      simp only [map, List.map_flatten, List.map_replicate] at around copied
      simp only [close?, map, List.map_cons, Block.map, List.isEmpty_map, List.length_map, around, copied]
      split
      · rfl
      · split <;> rfl

theorem add_map (f : α → β) (repetition : Repetition) (text : β → Text) (limit : Int64) (nest : Nest α)
    (a : α) : (nest.map f).add? repetition text limit (f a) =
      (nest.add? repetition (text ∘ f) limit a).map (map f) := by
  have blocks : (nest.map f).blocks.isEmpty = nest.blocks.isEmpty := by simp [map]
  simp only [add?, Function.comp_apply, blocks]
  split
  · rfl
  · split
    · exact close_map f limit nest
    · exact congrArg some (extend_map f nest [a])

end Nest

theorem expand_map (f : α → β) (repetition : Repetition) (text : β → Text) (limit : Int64)
    (statements : List α) : expand? repetition text limit (statements.map f) =
      (expand? repetition (text ∘ f) limit statements).map (List.map f) := by
  have added := foldlM_commutes (Nest.map f) f _ _
    (Nest.add_map f repetition text (effectiveLimit limit)) statements {}
  have closed : ∀ nest : Nest α, (nest.map f).closeAll? (effectiveLimit limit) =
      (nest.closeAll? (effectiveLimit limit)).map (Nest.map f) := fun nest =>
    foldlM_commutes (Nest.map f) (Block.map f) _ _
      (fun nest _ => Nest.close_map f (effectiveLimit limit) nest) nest.blocks nest
  have start : Nest.map f {} = {} := rfl
  rw [start] at added
  simp only [expand?, added, Option.bind_eq_bind, Option.bind_map, Option.map_bind, Function.comp_def, closed]
  refine congrArg _ (funext fun nest => ?_)
  refine congrArg _ (funext fun closed => ?_)
  simp [Nest.map]

/-- Texts that are read as the same statements are expanded alike. -/
theorem expand_congr (repetition : Repetition) (first second : α → Text) (limit : Int64)
    (same : ∀ a, Statement.ofText (first a) = Statement.ofText (second a)) (statements : List α) :
    expand? repetition first limit statements = expand? repetition second limit statements := by
  have added : Nest.add? repetition first (effectiveLimit limit) =
      Nest.add? repetition second (effectiveLimit limit) := by
    funext nest a
    have opens : repetition.opens? (first a) = repetition.opens? (second a) := by
      simp only [Repetition.opens?, same a]
    have closes : repetition.closes (first a) = repetition.closes (second a) := by
      simp only [Repetition.closes, same a]
    simp only [Nest.add?, opens, closes]
  simp only [expand?, added]

/-- A nest inside one more block: what was outside every block is the body of that one. -/
def Nest.within (count : Int64) (nest : Nest α) : Nest α := ⟨[], nest.blocks ++ [⟨count, nest.root⟩]⟩

section Within
variable {repetition : Repetition} {text : α → Text}

theorem innermost_within (count : Int64) (nest : Nest α) : (nest.within count).innermost = nest.innermost := by
  obtain ⟨root, blocks⟩ := nest
  cases blocks <;> rfl

theorem extend_within (count : Int64) (nest : Nest α) (s : List α) :
    (nest.within count).extend s = (nest.extend s).within count := by
  obtain ⟨root, blocks⟩ := nest
  cases blocks <;> rfl

theorem close_within (count limit : Int64) (nest : Nest α) (inside : nest.blocks ≠ []) :
    (nest.within count).close? limit = (nest.close? limit).map (Nest.within count) := by
  obtain ⟨root, blocks⟩ := nest
  cases blocks with
  | nil => exact absurd rfl inside
  | cons block outer =>
      have around := innermost_within count ⟨root, outer⟩
      have copied := extend_within count ⟨root, outer⟩
        (List.replicate block.count.toInt.toNat block.body).flatten
      simp only [Nest.within] at around copied
      simp only [Nest.close?, Nest.within, List.cons_append, around, copied]
      split
      · rfl
      · split <;> rfl

theorem add_within (count limit : Int64) (nest : Nest α) (a : α) (depth : Nat)
    (inside : depthAfter repetition text nest.blocks.length a = some depth) :
    (nest.within count).add? repetition text limit a =
      (nest.add? repetition text limit a).map (Nest.within count) := by
  have deeper : (nest.within count).blocks.isEmpty = false := by simp [Nest.within]
  simp only [Nest.add?, deeper]
  cases opens : repetition.opens? (text a) with
  | some inner => rfl
  | none =>
      by_cases closes : repetition.closes (text a) = true
      · -- a closer with no block open would be one of the block around
        have open_block : nest.blocks ≠ [] := by
          rintro none_open
          simp [depthAfter, opens, closes, none_open] at inside
        simp [closes, open_block, close_within count limit nest open_block]
      · simp [closes, extend_within]

variable (repetition text) in
/-- How many blocks are open after a statement; a closer outside every block leaves none open. -/
def openAfter (depth : Nat) (a : α) : Nat := (depthAfter repetition text depth a).getD 0

theorem add_open (limit : Int64) (nest next : Nest α) (a : α)
    (added : nest.add? repetition text limit a = some next) :
    next.blocks.length = openAfter repetition text nest.blocks.length a := by
  simp only [Nest.add?] at added
  cases opens : repetition.opens? (text a) with
  | some inner =>
      simp only [opens] at added
      obtain rfl := Option.some.inj added
      simp [openAfter, depthAfter, opens]
  | none =>
      simp only [opens] at added
      by_cases closes : repetition.closes (text a) = true
      · cases top : nest.blocks with
        | nil =>
            obtain rfl : nest.extend [a] = next := by simpa [top] using added
            rw [extend_blocks_length, top]
            simp [openAfter, depthAfter, opens, closes]
        | cons block outer =>
            have closed : nest.close? limit = some next := by simpa [top, closes] using added
            rw [close_cases limit nest next block outer top closed, extend_blocks_length]
            simp [openAfter, depthAfter, opens, closes]
      · obtain rfl : nest.extend [a] = next := by simpa [closes] using added
        rw [extend_blocks_length]
        simp [openAfter, depthAfter, opens, closes]

theorem add_depth (limit : Int64) (nest next : Nest α) (a : α) (depth : Nat)
    (inside : depthAfter repetition text nest.blocks.length a = some depth)
    (added : nest.add? repetition text limit a = some next) : next.blocks.length = depth := by
  rw [add_open limit nest next a added, openAfter, inside, Option.getD_some]

theorem foldlM_within (count limit : Int64) (nest : Nest α) (s : List α) (depth : Nat)
    (inside : s.foldlM (depthAfter repetition text) nest.blocks.length = some depth) :
    s.foldlM (Nest.add? repetition text limit) (nest.within count) =
      (s.foldlM (Nest.add? repetition text limit) nest).map (Nest.within count) := by
  -- The depth that the balance counts is the number of blocks open in the nest.
  induction s generalizing nest with
  | nil => rfl
  | cons a s ih =>
      obtain ⟨middle, first, others⟩ := Option.bind_eq_some_iff.mp inside
      rw [List.foldlM_cons, List.foldlM_cons, add_within count limit nest a middle first]
      cases added : nest.add? repetition text limit a with
      | none => rfl
      | some next =>
          rw [← add_depth limit nest next a middle first added] at others
          exact ih next others

theorem foldlM_depth (limit : Int64) (nest next : Nest α) (s : List α) (depth : Nat)
    (inside : s.foldlM (depthAfter repetition text) nest.blocks.length = some depth)
    (added : s.foldlM (Nest.add? repetition text limit) nest = some next) : next.blocks.length = depth := by
  induction s generalizing nest with
  | nil =>
      obtain rfl := Option.some.inj added
      exact Option.some.inj inside
  | cons a s ih =>
      obtain ⟨middle, first, others⟩ := Option.bind_eq_some_iff.mp inside
      obtain ⟨between, here, later⟩ := Option.bind_eq_some_iff.mp added
      rw [← add_depth limit nest between a middle first here] at others
      exact ih between others later

variable (repetition text) in
/-- No closer stands outside every block, and no block is left open. -/
def IsBalanced (s : List α) : Prop := s.foldlM (depthAfter repetition text) 0 = some 0

instance (s : List α) : Decidable (IsBalanced repetition text s) :=
  inferInstanceAs (Decidable (s.foldlM (depthAfter repetition text) 0 = some 0))

/-- A block around balanced statements gives copies of what they give alone. -/
theorem expand_repeated (limit count : Int64) (opener closer : α) (s out : List α)
    (balanced : IsBalanced repetition text s) (opens : repetition.opens? (text opener) = some count)
    (other : repetition.opens? (text closer) = none) (closes : repetition.closes (text closer) = true)
    (expanded : expand? repetition text limit (opener :: s ++ [closer]) = some out) :
    ∃ once, expand? repetition text limit s = some once ∧ out = copies count once := by
  obtain ⟨nest, added, ended⟩ := Option.bind_eq_some_iff.mp expanded
  obtain ⟨root, closing, found⟩ := Option.bind_eq_some_iff.mp ended
  have opened : Nest.add? repetition text (effectiveLimit limit) {} opener = some (Nest.within count {}) := by
    simp [Nest.add?, opens, Nest.within]
  rw [List.cons_append, List.foldlM_cons, opened, Option.bind_eq_bind, Option.bind_some, List.foldlM_append,
    foldlM_within count _ {} s 0 balanced] at added
  obtain ⟨inner, body, last⟩ := Option.bind_eq_some_iff.mp added
  obtain ⟨outer, alone, rfl⟩ := Option.map_eq_some_iff.mp body
  -- After balanced statements only the block around them is open, and the closer ends it.
  have closed_blocks : outer.blocks = [] :=
    List.length_eq_zero_iff.mp (foldlM_depth _ {} outer s 0 balanced alone)
  refine ⟨outer.root.reverse, ?_, ?_⟩
  · simp [expand?, alone, Nest.closeAll?, closed_blocks]
  · have top : (outer.within count).blocks = [⟨count, outer.root⟩] := by simp [Nest.within, closed_blocks]
    have ending : (outer.within count).close? (effectiveLimit limit) = some nest := by
      simpa [Nest.add?, other, closes, top] using last
    obtain rfl := close_cases _ _ nest _ _ top ending
    obtain rfl := Option.some.inj closing
    rw [← Option.some.inj found, ← reverse_copies]
    simp [Nest.within, Nest.extend]

end Within

end Z80Cost.Source
