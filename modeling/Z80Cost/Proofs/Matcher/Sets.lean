import Z80Cost.Proofs.Matcher.Instances

/-!
What more instruction sets do to a match. The best score is the highest score of an enabled candidate,
so it only grows with the sets. On the table of the Z80 no extension stands before a standard
instruction that fits the same statement without doubt, so an exact standard match stays what it is.
-/

namespace Z80Cost

namespace Matcher

/-- The score of what was found; nothing is as good as a rejection. -/
def scoreIn (best : Option Ranked) : Score := (best.map Ranked.score).getD .rejected

def bestScore (m : Matcher) (statement : Source.Statement) : Score := scoreIn (m.best? statement)

section Candidates
variable (statement : Source.Statement)

/-- One candidate more: it settles the search, or the better of two is kept. -/
theorem bestFrom_cons (best : Option Ranked) (i : Instruction) (rest : List Instruction) :
    bestFrom statement best (i :: rest) = some ⟨i, .exact⟩ ∧ scoreOf i statement = .exact ∨
      ∃ better, bestFrom statement best (i :: rest) = bestFrom statement better rest ∧
        scoreIn best ≤ scoreIn better ∧ scoreOf i statement ≤ scoreIn better ∧
        (scoreIn better = scoreIn best ∨ scoreIn better = scoreOf i statement) := by
  rw [bestFrom]
  by_cases fits : scoreOf i statement = .exact
  · left
    simp [fits]
  · right
    simp only [fits, ↓reduceIte]
    by_cases higher : (scoreOf i statement).exceeds (scoreIn best) = true
    · refine ⟨some ⟨i, scoreOf i statement⟩, if_pos higher, ?_, Score.le_refl _, .inr rfl⟩
      exact Score.le_of_exceeds _ _ higher
    · refine ⟨best, if_neg higher, Score.le_refl _, ?_, .inl rfl⟩
      exact (Score.le_def _ _).mpr (Bool.eq_false_iff.mpr higher)

theorem bestFrom_keeps (best : Option Ranked) (rows : List Instruction) :
    scoreIn best ≤ scoreIn (bestFrom statement best rows) := by
  induction rows generalizing best with
  | nil => exact Score.le_refl _
  | cons i rest ih =>
      rcases bestFrom_cons statement best i rest with ⟨found, _⟩ | ⟨better, later, kept, _⟩
      · rw [found]
        exact Score.le_exact _
      · rw [later]
        exact Score.le_trans _ _ _ kept (ih better)

theorem scoreOf_le_bestFrom (best : Option Ranked) (rows : List Instruction) (i : Instruction)
    (member : i ∈ rows) : scoreOf i statement ≤ scoreIn (bestFrom statement best rows) := by
  induction rows generalizing best with
  | nil => contradiction
  | cons row rest ih =>
      rcases bestFrom_cons statement best row rest with ⟨found, _⟩ | ⟨better, later, _, covers, _⟩
      · rw [found]
        exact Score.le_exact _
      · rw [later]
        rcases List.mem_cons.mp member with rfl | inside
        · exact Score.le_trans _ _ _ covers (bestFrom_keeps statement better rest)
        · exact ih better inside

theorem bestFrom_attained (best : Option Ranked) (rows : List Instruction) :
    scoreIn (bestFrom statement best rows) = scoreIn best ∨
      ∃ i ∈ rows, scoreIn (bestFrom statement best rows) = scoreOf i statement := by
  induction rows generalizing best with
  | nil => exact .inl rfl
  | cons row rest ih =>
      rcases bestFrom_cons statement best row rest with ⟨found, fits⟩ | ⟨better, later, _, _, origin⟩
      · refine .inr ⟨row, List.mem_cons_self, ?_⟩
        rw [found, fits]
        rfl
      · rw [later]
        rcases ih better with same | ⟨i, member, same⟩
        · rw [same]
          rcases origin with before | here
          · exact .inl before
          · exact .inr ⟨row, List.mem_cons_self, here⟩
        · exact .inr ⟨i, List.mem_cons_of_mem row member, same⟩

/-- Among more candidates the best score is at least as high. -/
theorem bestFrom_mono (few many : List Instruction) (subset : ∀ i ∈ few, i ∈ many) :
    scoreIn (bestFrom statement none few) ≤ scoreIn (bestFrom statement none many) := by
  rcases bestFrom_attained statement none few with same | ⟨i, member, same⟩
  · rw [same]
    exact Score.rejected_le _
  · rw [same]
    exact scoreOf_le_bestFrom statement none many i (subset i member)

/-- An exact match is the first candidate that fits without doubt. -/
theorem find_of_bestFrom (rows : List Instruction) (i : Instruction)
    (best : bestFrom statement none rows = some ⟨i, .exact⟩) :
    rows.find? (fun j => scoreOf j statement = .exact) = some i := by
  cases found : rows.find? (fun j => scoreOf j statement = .exact) with
  | some first =>
      have exact := bestFrom_find statement none rows first found
      rw [best] at exact
      exact congrArg some (Ranked.mk.inj (Option.some.inj exact)).1.symm
  | none =>
      have inexact := List.find?_eq_none.mp found
      rcases bestFrom_attained statement none rows with same | ⟨j, member, same⟩
      · rw [best] at same
        exact absurd same.symm Score.rejected_ne_exact
      · rw [best] at same
        exact absurd (decide_eq_true same.symm) (inexact j member)

end Candidates

end Matcher

namespace Operand

/-- Whether no text fits both operands without doubt: in parentheses a register, against a number. -/
def clashes : Operand → Operand → Bool
  | indirect (.verbatim spelling), direct .immediate => registers.contains spelling
  | _, _ => false

theorem not_both_of_clashes (first second : Operand) (clash : first.clashes second = true) (s : Text)
    (fits : first.score s = .exact) : second.score s ≠ .exact := by
  match first, second with
  | indirect (.verbatim spelling), direct .immediate =>
      have register : isRegister spelling = true := by
        simp only [clashes] at clash
        simp only [isRegister, clash, Bool.true_or]
      cases found : inner? s with
      | none => simp [score, isOffsetFirst, found, Score.rejected_ne_exact] at fits
      | some inside =>
          obtain rfl : inside = spelling := by simpa [score, isOffsetFirst, found, Shape.score] using fits
          simp [score, Shape.score, immediateScore, found, register, Score.doubtful_ne_exact]

end Operand

namespace Instruction

/-- Whether the operands are never written with an accumulator added or dropped. -/
def isFixedForm (i : Instruction) : Bool :=
  !(i.mnemonic != "LD" && i.operands.head? == some (Text.ofString "A"))
    && !Matcher.explicitAccumulator.contains i.mnemonic

def clashAny : List Operand → List Operand → Bool
  | first :: firsts, second :: seconds => first.clashes second || clashAny firsts seconds
  | _, _ => false

/-- Whether no statement fits both instructions without doubt. -/
def clashes (first second : Instruction) : Bool :=
  first.isFixedForm && second.isFixedForm
    && (first.shapes.length != second.shapes.length || clashAny first.shapes second.shapes)

end Instruction

namespace Matcher

open Instruction

theorem scoreOf_fixedForm (i : Instruction) (fixed : i.isFixedForm = true) (statement : Source.Statement)
    (fits : scoreOf i statement = .exact) :
    statement.operands.length = i.shapes.length ∧ product i.shapes statement.operands = .exact := by
  simp only [isFixedForm, Bool.and_eq_true, Bool.not_eq_true'] at fixed
  simp only [scoreOf, implicitForm_rejected i _ fixed.1, explicitForm_rejected i _ fixed.2] at fits
  split at fits
  · exact absurd fits Score.rejected_ne_exact
  · split at fits
    · next same =>
        rw [exactForm, if_pos same.symm] at fits
        exact ⟨same, fits⟩
    · split at fits <;> exact absurd fits Score.rejected_ne_exact

theorem product_clash (firsts seconds : List Operand) (clash : clashAny firsts seconds = true)
    (operands : List Text) (as_many : operands.length = firsts.length)
    (fits : product firsts operands = .exact) : product seconds operands ≠ .exact := by
  induction firsts generalizing seconds operands with
  | nil => contradiction
  | cons first firsts ih =>
      cases seconds with
      | nil => contradiction
      | cons second seconds =>
          cases operands with
          | nil => contradiction
          | cons operand operands =>
              rw [product_cons_eq_exact] at fits
              rw [ne_eq, product_cons_eq_exact, not_and]
              rw [clashAny, Bool.or_eq_true] at clash
              intro here
              rcases clash with now | later
              · exact absurd here (Operand.not_both_of_clashes first second now operand fits.1)
              · exact ih seconds later operands (Nat.succ.inj as_many) fits.2

theorem scoreOf_clash (first second : Instruction) (clash : first.clashes second = true)
    (statement : Source.Statement) (fits : scoreOf first statement = .exact) :
    scoreOf second statement ≠ .exact := by
  simp only [Instruction.clashes, Bool.and_eq_true, Bool.or_eq_true, bne_iff_ne] at clash
  obtain ⟨⟨fixed, otherFixed⟩, apart⟩ := clash
  intro both
  obtain ⟨length, exact⟩ := scoreOf_fixedForm first fixed statement fits
  obtain ⟨otherLength, otherExact⟩ := scoreOf_fixedForm second otherFixed statement both
  rcases apart with differ | clash
  · exact differ (length.symm.trans otherLength)
  · exact product_clash _ _ clash _ length exact otherExact

/-- What is found first among some rows is found first among more of them, if none of the others
stands before it and fits too. -/
theorem find_filter_wider (few many fits : Instruction → Bool) (within : ∀ i, few i = true → many i = true)
    (rows : List Instruction) (i : Instruction)
    (clear : rows.Pairwise fun earlier later =>
      few earlier = false → few later = true → fits earlier = true → fits later = false)
    (found : (rows.filter few).find? fits = some i) : (rows.filter many).find? fits = some i := by
  induction rows with
  | nil => contradiction
  | cons row rest ih =>
      obtain ⟨before, later⟩ := List.pairwise_cons.mp clear
      by_cases kept : few row = true
      · rw [List.filter_cons_of_pos kept] at found
        rw [List.filter_cons_of_pos (within row kept)]
        by_cases here : fits row = true
        · rw [List.find?_cons_of_pos here] at found ⊢
          exact found
        · rw [List.find?_cons_of_neg here] at found ⊢
          exact ih later found
      · rw [List.filter_cons_of_neg kept] at found
        have unfit : ¬ fits row = true := by
          intro here
          have member := (List.mem_filter.mp (List.mem_of_find?_eq_some found))
          have refused := before i member.1 (Bool.eq_false_iff.mpr kept) member.2 here
          rw [List.find?_some found] at refused
          contradiction
        by_cases added : many row = true
        · rw [List.filter_cons_of_pos added, List.find?_cons_of_neg unfit]
          exact ih later found
        · rw [List.filter_cons_of_neg added]
          exact ih later found

end Matcher

namespace Catalog

/-- Whether `later`, if it is standard, fits nothing that an extension before it fits. -/
def standsClear (earlier later : Instruction) : Prop :=
  earlier.set ≠ "S" → later.set = "S" → earlier.clashes later = true

instance decidableStandsClear : DecidableRel standsClear := fun earlier later =>
  inferInstanceAs (Decidable (earlier.set ≠ "S" → later.set = "S" → earlier.clashes later = true))

-- Evaluated by the kernel, bucket by bucket.
set_option maxRecDepth 100000 in
theorem z80_clear : ∀ bucket ∈ z80.byMnemonic, bucket.2.Pairwise standsClear := by
  decide +kernel

theorem z80_candidates_clear (mnemonic : Text) : (z80.candidates mnemonic).Pairwise standsClear := by
  unfold candidates
  cases found : Index.get? mnemonic z80.byMnemonic with
  | none => exact .nil
  | some rows => exact z80_clear (mnemonic, rows) (Index.mem_of_get mnemonic rows _ found)

end Catalog

namespace Matcher

section Wider
variable (narrow wide : Matcher) (same : wide.catalog = narrow.catalog)
  (more : ∀ tag ∈ narrow.enabledSets, tag ∈ wide.enabledSets) (statement : Source.Statement)
include same more

theorem bestScore_wider : narrow.bestScore statement ≤ wide.bestScore statement := by
  unfold bestScore best?
  apply bestFrom_mono
  intro i member
  obtain ⟨listed, enabled⟩ := List.mem_filter.mp member
  have tagged : i.set ∈ narrow.enabledSets := by simpa [isEnabled] using enabled
  rw [same]
  exact List.mem_filter.mpr ⟨listed, by simpa [isEnabled] using more i.set tagged⟩

/-- With the standard set alone, an exact match on the table of the Z80 stays when sets are added. -/
theorem best_standard_wider (builtin : narrow.catalog = Catalog.z80)
    (standard : ∀ tag, tag ∈ narrow.enabledSets ↔ tag = "S") (i : Instruction)
    (best : narrow.best? statement = some ⟨i, .exact⟩) : wide.best? statement = some ⟨i, .exact⟩ := by
  have isStandard : ∀ j, narrow.isEnabled j = true ↔ j.set = "S" := by
    intro j
    rw [isEnabled, List.contains_iff_mem]
    exact standard j.set
  have clear := Catalog.z80_candidates_clear statement.mnemonic
  have found := find_of_bestFrom statement _ i best
  rw [best?, same, builtin]
  rw [builtin] at found
  apply bestFrom_find
  refine find_filter_wider narrow.isEnabled wide.isEnabled _ ?_ _ i ?_ found
  · intro j enabled
    rw [isEnabled, List.contains_iff_mem] at enabled ⊢
    exact more j.set enabled
  · refine clear.imp ?_
    intro earlier later apart extension kept fits
    have clash := apart (fun set => by simp [(isStandard earlier).mpr set] at extension)
      ((isStandard later).mp kept)
    exact decide_eq_false (scoreOf_clash earlier later clash statement (of_decide_eq_true fits))

end Wider

/-- More sets never make the best score lower, and on the table of the Z80 the extensions take no
exact match from a standard instruction. -/
theorem best_more_sets (narrow wide : Matcher) (same : wide.catalog = narrow.catalog)
    (more : ∀ tag ∈ narrow.enabledSets, tag ∈ wide.enabledSets) (line : Text) :
    narrow.bestScore (.ofText line) ≤ wide.bestScore (.ofText line) ∧
      (narrow.catalog = Catalog.z80 → (∀ tag, tag ∈ narrow.enabledSets ↔ tag = "S") →
        (∀ tag, tag ∈ wide.enabledSets ↔ tag = "S" ∨ tag = "N") →
        ∀ i, narrow.best? (.ofText line) = some ⟨i, .exact⟩ → wide.best? (.ofText line) = some ⟨i, .exact⟩) := by
  refine ⟨bestScore_wider narrow wide same more _, ?_⟩
  intro builtin standard _ i best
  exact best_standard_wider narrow wide same more _ builtin standard i best

def jump : Instruction := .ofPattern (Catalog.steady "S" "JP nn" 10 11 3 "C3 n n" 3)

def plainZ80 : Matcher := { catalog := .z80 }

def extendedZ80 : Matcher := { catalog := .z80, sets := ["N", "S"] }

set_option maxRecDepth 100000 in
/-- The extension `JP (C)` stands before the row that a jump to a label fits. -/
theorem best_more_sets_jump : plainZ80.bestScore (.ofText "JP TABLE") ≤ extendedZ80.bestScore (.ofText "JP TABLE") ∧
    plainZ80.best? (.ofText "JP TABLE") = some ⟨jump, .exact⟩ ∧
    extendedZ80.best? (.ofText "JP TABLE") = some ⟨jump, .exact⟩ := by
  have standard : plainZ80.best? (.ofText "JP TABLE") = some ⟨jump, .exact⟩ := by
    rw [best?, plainZ80, Catalog.z80, Catalog.ofPatterns, Catalog.candidates_ofInstructions]
    decide +kernel
  have sets : plainZ80.enabledSets = ["S"] ∧ extendedZ80.enabledSets = ["N", "S"] := ⟨rfl, rfl⟩
  have more : ∀ tag ∈ plainZ80.enabledSets, tag ∈ extendedZ80.enabledSets := by simp [sets]
  obtain ⟨higher, kept⟩ := best_more_sets plainZ80 extendedZ80 rfl more "JP TABLE"
  refine ⟨higher, standard, kept rfl ?_ ?_ jump standard⟩
  · simp [sets]
  · simp [sets, or_comm]

def idleOnly : Catalog := .ofPatterns [Catalog.steady "S" "NOP" 4 5 1 "00" 1]

/-- An empty list has no tag and stands for the standard set all the same. Where the tags alone are
compared, more of them may lose a match. -/
theorem bestScore_unlisted_standard : (∀ tag ∈ ([] : List Text), tag ∈ ([("N" : Text)] : List Text)) ∧
    ¬ ({ catalog := idleOnly, sets := [] } : Matcher).bestScore (.ofText "NOP") ≤
      ({ catalog := idleOnly, sets := ["N"] } : Matcher).bestScore (.ofText "NOP") := by
  decide +kernel

end Matcher

end Z80Cost
