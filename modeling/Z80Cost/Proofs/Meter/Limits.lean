import Z80Cost.Instruction.Z80
import Z80Cost.Proofs.Meter.Lines

/-!
Limits only refuse. They stand on one side of a comparison and never enter a state, so a run within
some limits is, step for step, the run within looser ones. A limit that is not positive sets none,
but blocks are still held to a limit of their own.
-/

namespace Z80Cost

namespace Source

variable {α : Type}

section Looser
variable (limit looser : Int64) (wider : limit ≤ looser)
include wider

theorem fits_looser (held body : Nat) (count : Int64) (fits : Nest.fits limit held body count = true) :
    Nest.fits looser held body count = true := by
  have order : limit.toInt ≤ looser.toInt := Int64.le_iff_toInt_le.mp wider
  simp only [Nest.fits, decide_eq_true_eq] at fits ⊢
  apply Int.le_trans fits
  rcases Nat.eq_zero_or_pos body with rfl | some
  · simp
  · apply Int.tdiv_le_tdiv
    · omega
    · omega

theorem close_looser (nest next : Nest α) (closed : nest.close? limit = some next) :
    nest.close? looser = some next := by
  obtain ⟨root, blocks⟩ := nest
  cases blocks with
  | nil => exact closed
  | cons block outer =>
      simp only [Nest.close?] at closed ⊢
      by_cases empty : block.body.isEmpty = true
      · rwa [if_pos empty] at closed ⊢
      · rw [if_neg empty] at closed ⊢
        split at closed
        · next fits => rwa [if_pos (fits_looser limit looser wider _ _ _ fits)]
        · contradiction

theorem add_looser (repetition : Repetition) (text : α → Text) (nest next : Nest α) (a : α)
    (added : nest.add? repetition text limit a = some next) :
    nest.add? repetition text looser a = some next := by
  simp only [Nest.add?] at added ⊢
  cases opens : repetition.opens? (text a) with
  | some count => simpa [opens] using added
  | none =>
      simp only [opens] at added ⊢
      by_cases closes : (!nest.blocks.isEmpty && repetition.closes (text a)) = true
      · rw [if_pos closes] at added ⊢
        exact close_looser limit looser wider nest next added
      · rwa [if_neg closes] at added ⊢

end Looser

/-- A run that goes through does so with steps that refuse less. -/
theorem foldlM_looser {σ : Type} (step step' : σ → α → Option σ)
    (kept : ∀ x a y, step x a = some y → step' x a = some y) (s : List α) (x y : σ)
    (ran : s.foldlM step x = some y) : s.foldlM step' x = some y := by
  induction s generalizing x with
  | nil => exact ran
  | cons a s ih =>
      rw [List.foldlM_cons] at ran ⊢
      obtain ⟨middle, first, others⟩ := Option.bind_eq_some_iff.mp ran
      exact Option.bind_eq_some_iff.mpr ⟨middle, kept x a middle first, ih middle others⟩

theorem expand_looser (repetition : Repetition) (text : α → Text) (limit looser : Int64)
    (wider : effectiveLimit limit ≤ effectiveLimit looser) (statements out : List α)
    (expanded : expand? repetition text limit statements = some out) :
    expand? repetition text looser statements = some out := by
  obtain ⟨nest, added, ended⟩ := Option.bind_eq_some_iff.mp expanded
  obtain ⟨closed, closing, found⟩ := Option.bind_eq_some_iff.mp ended
  have again := foldlM_looser _ (Nest.add? repetition text (effectiveLimit looser))
    (fun x a y => add_looser _ _ wider repetition text x y a) statements {} nest added
  have ending := foldlM_looser _ (fun nest _ => nest.close? (effectiveLimit looser))
    (fun x _ y => close_looser _ _ wider x y) nest.blocks nest closed closing
  exact Option.bind_eq_some_iff.mpr ⟨nest, again, Option.bind_eq_some_iff.mpr ⟨closed, ending, found⟩⟩

end Source

namespace Meter

/-- No limit, or a positive one that is raised. -/
theorem exceeds_looser (n : Nat) (limit looser : Int64)
    (wider : looser ≤ 0 ∨ 0 < limit ∧ limit ≤ looser) (within : exceeds n limit = false) :
    exceeds n looser = false := by
  simp only [exceeds, Bool.and_eq_false_iff, decide_eq_false_iff_not, Int64.lt_iff_toInt_lt,
    Int64.le_iff_toInt_le] at wider within ⊢
  have zero : (0 : Int64).toInt = 0 := rfl
  omega

theorem effectiveLimit_looser (limit looser : Int64)
    (wider : 0 < limit ∧ limit ≤ looser ∨ looser ≤ 0 ∧ limit ≤ Source.maxExpanded) :
    Source.effectiveLimit limit ≤ Source.effectiveLimit looser := by
  have zero : (0 : Int64).toInt = 0 := rfl
  unfold Source.effectiveLimit
  simp only [Int64.lt_iff_toInt_lt, Int64.le_iff_toInt_le] at wider ⊢
  split <;> split <;> omega

/-- Whatever the limits, they decide whether there is a report and nothing in it; and limits that
are raised or taken away refuse no source that went through. -/
theorem lines_looser (m : Meter) (maxLines maxCode : Int64) (source : List Text) (report : Report)
    (metered : m.lines source = .ok report) :
    (∀ other, { m with maxLines, maxCode }.lines source = .ok other → other = report) ∧
      ((maxLines ≤ 0 ∨ 0 < m.maxLines ∧ m.maxLines ≤ maxLines) →
        (0 < m.maxCode ∧ m.maxCode ≤ maxCode ∨ maxCode ≤ 0 ∧ m.maxCode ≤ 1048576) →
          { m with maxLines, maxCode }.lines source = .ok report) := by
  obtain ⟨short, entries, expanded, few, rfl⟩ := (m.lines_eq_ok source report).mp metered
  constructor
  · intro other again
    obtain ⟨_, others, unrolled, _, rfl⟩ := (lines_eq_ok _ source other).mp again
    have same : others = entries :=
      (Source.expand_eq_unrolled _ _ others unrolled).trans (Source.expand_eq_unrolled _ _ entries expanded).symm
    rw [same]
    rfl
  · intro lines code
    refine (lines_eq_ok _ source _).mpr ⟨?_, entries, ?_, ?_, rfl⟩
    · exact exceeds_looser _ _ _ lines short
    · exact Source.expand_looser _ _ _ _ (effectiveLimit_looser _ _ code) _ entries expanded
    · refine exceeds_looser _ _ _ ?_ few
      rcases code with raised | removed
      · exact .inr raised
      · exact .inl removed.1

def boundedMeter : Meter where
  matcher := { catalog := .ofPatterns [Catalog.steady "S" "NOP" 4 5 1 "00" 1] }
  maxLines := 7
  maxCode := 5

/-- A block in a block that takes all the room there is. -/
theorem lines_looser_nested : ∃ report,
    boundedMeter.lines [" nop", " rept 2", " nop", " rept 1", " nop", " endm", " endm"] = .ok report ∧
      ({ boundedMeter with maxLines := -1, maxCode := 0 } : Meter).lines
        [" nop", " rept 2", " nop", " rept 1", " nop", " endm", " endm"] = .ok report := by
  have succeeds : (boundedMeter.lines [" nop", " rept 2", " nop", " rept 1", " nop", " endm", " endm"]).isOk = true := by
    decide +kernel
  cases metered : boundedMeter.lines [" nop", " rept 2", " nop", " rept 1", " nop", " endm", " endm"] with
  | error fault => simp [metered, Except.isOk, Except.toBool] at succeeds
  | ok report =>
      have looser := (lines_looser boundedMeter (-1) 0 _ report metered).2
      exact ⟨report, rfl, looser (by decide) (by decide)⟩

end Meter

end Z80Cost
