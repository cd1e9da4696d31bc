import Z80Cost.Proofs.Source.Room

/-!
Statements one after another. Once the first of two lists has closed its blocks, all it does to the
second is to leave less room, so what the two expand to together they expand to one by one.
-/

namespace Z80Cost.Source

variable {α : Type} {repetition : Repetition} {text : α → Text}

variable (repetition text) in
/-- No block is open at the end. Closers outside every block are allowed. -/
def LeavesNoneOpen (s : List α) : Prop := s.foldl (openAfter repetition text) 0 = 0

instance (s : List α) : Decidable (LeavesNoneOpen repetition text s) :=
  inferInstanceAs (Decidable (s.foldl (openAfter repetition text) 0 = 0))

theorem foldlM_open (limit : Int64) (nest next : Nest α) (s : List α)
    (added : s.foldlM (Nest.add? repetition text limit) nest = some next) :
    next.blocks.length = s.foldl (openAfter repetition text) nest.blocks.length := by
  induction s generalizing nest with
  | nil =>
      obtain rfl := Option.some.inj added
      rfl
  | cons a s ih =>
      obtain ⟨middle, first, others⟩ := Option.bind_eq_some_iff.mp added
      rw [ih middle others, add_open limit nest middle a first, List.foldl_cons]

/-- The nest with more statements, last first, before all of its own. -/
def Nest.after (before : List α) (nest : Nest α) : Nest α := ⟨nest.root ++ before, nest.blocks⟩

theorem extend_after (before : List α) (nest : Nest α) (s : List α) :
    (nest.after before).extend s = (nest.extend s).after before := by
  obtain ⟨root, blocks⟩ := nest
  cases blocks with
  | nil => simp [Nest.extend, Nest.after]
  | cons block outer => rfl

theorem innermost_after (before : List α) (nest : Nest α) :
    nest.innermost.length ≤ (nest.after before).innermost.length := by
  obtain ⟨root, blocks⟩ := nest
  cases blocks with
  | nil => simp [Nest.innermost, Nest.after]
  | cons block outer => exact Nat.le_refl _

theorem close_after (limit : Int64) (before : List α) (nest next : Nest α)
    (closed : (nest.after before).close? limit = some next) :
    ∃ alone, nest.close? limit = some alone ∧ next = alone.after before := by
  obtain ⟨root, blocks⟩ := nest
  cases blocks with
  | nil => exact ⟨_, rfl, (Option.some.inj closed).symm⟩
  | cons block outer =>
      rw [Nest.after, close_eq] at closed
      rw [close_eq]
      split at closed
      · next room =>
          have less := innermost_after before ⟨root, outer⟩
          rw [if_pos (hasRoom_mono limit _ _ block less room)]
          refine ⟨_, rfl, ?_⟩
          rw [← extend_after]
          exact (Option.some.inj closed).symm
      · contradiction

theorem add_after (limit : Int64) (before : List α) (nest next : Nest α) (a : α)
    (added : (nest.after before).add? repetition text limit a = some next) :
    ∃ alone, nest.add? repetition text limit a = some alone ∧ next = alone.after before := by
  have blocks : (nest.after before).blocks = nest.blocks := rfl
  simp only [Nest.add?, blocks] at added ⊢
  cases opens : repetition.opens? (text a) with
  | some count =>
      simp only [opens, Option.some.injEq] at added ⊢
      exact ⟨_, rfl, added.symm⟩
  | none =>
      simp only [opens] at added ⊢
      by_cases closes : (!nest.blocks.isEmpty && repetition.closes (text a)) = true
      · rw [if_pos closes] at added ⊢
        exact close_after limit before nest next added
      · rw [if_neg closes] at added ⊢
        rw [extend_after] at added
        exact ⟨_, rfl, (Option.some.inj added).symm⟩

/-- A run that starts from a lifted state is a lifted run, if each step is. -/
theorem foldlM_lifted {σ β : Type} (lift : σ → σ) (step : σ → β → Option σ)
    (lifted : ∀ x b y, step (lift x) b = some y → ∃ z, step x b = some z ∧ y = lift z)
    (s : List β) (x y : σ) (run : s.foldlM step (lift x) = some y) :
    ∃ z, s.foldlM step x = some z ∧ y = lift z := by
  induction s generalizing x with
  | nil => exact ⟨x, rfl, (Option.some.inj run).symm⟩
  | cons b s ih =>
      obtain ⟨middle, first, others⟩ := Option.bind_eq_some_iff.mp run
      obtain ⟨between, here, rfl⟩ := lifted x b middle first
      obtain ⟨z, later, same⟩ := ih between others
      refine ⟨z, ?_, same⟩
      rw [List.foldlM_cons, here]
      exact later

/-- What two lists expand to, one after the other, the two expand to by themselves. -/
theorem expand_append (limit : Int64) (first second out : List α)
    (shut : LeavesNoneOpen repetition text first)
    (expanded : expand? repetition text limit (first ++ second) = some out) :
    ∃ front back, expand? repetition text limit first = some front ∧
      expand? repetition text limit second = some back ∧ out = front ++ back := by
  obtain ⟨nest, added, ended⟩ := Option.bind_eq_some_iff.mp expanded
  obtain ⟨closed, closing, found⟩ := Option.bind_eq_some_iff.mp ended
  rw [List.foldlM_append] at added
  obtain ⟨middle, before, later⟩ := Option.bind_eq_some_iff.mp added
  have none_open : middle.blocks = [] := by
    rw [← List.length_eq_zero_iff, foldlM_open _ {} middle first before]
    exact shut
  -- The second list is read after the statements of the first, outside every block.
  have start : middle = Nest.after middle.root {} := by
    obtain ⟨root, blocks⟩ := middle
    obtain rfl : blocks = [] := none_open
    rfl
  rw [start] at later
  obtain ⟨alone, read, rfl⟩ := foldlM_lifted (Nest.after middle.root) _
    (fun nest a next => add_after _ middle.root nest next a) second {} nest later
  obtain ⟨back, ending, rfl⟩ := foldlM_lifted (Nest.after middle.root) _
    (fun nest _ next => close_after _ middle.root nest next) alone.blocks alone closed closing
  refine ⟨middle.root.reverse, back.root.reverse, ?_, ?_, ?_⟩
  · simp [expand?, before, Nest.closeAll?, none_open]
  · simp only [expand?, read, Nest.closeAll?, Option.bind_eq_bind, Option.bind_some, ending]
    rfl
  · rw [← Option.some.inj found, Nest.after, List.reverse_append]

end Z80Cost.Source
