import Z80Cost.Proofs.Doubts
import Z80Cost.Proofs.Instruction.Expansion
import Z80Cost.Proofs.Matcher.Sets

/-!
The best match is the first maximum of the ranking. A score is zero, or what no more doubts than operands
compared have left of 1; so 1 is the highest there is and the search may stop at it. Short of that, a candidate
takes over only if its score is higher than all before it. Two scores of thousands of doubts may be rounded to
one number, and then the row that raises more doubts wins if it comes first.
-/

namespace Z80Cost

namespace Score

/-- Rejected, or accepted with at most `bound` doubts. -/
def Within (bound : Nat) (score : Score) : Prop := score = rejected ∨ ∃ k ≤ bound, score = accepted k

theorem Within.mono {few many : Nat} {score : Score} (valid : score.Within few) (more : few ≤ many) :
    score.Within many :=
  valid.imp_right fun ⟨k, bound, left⟩ => ⟨k, bound.trans more, left⟩

theorem within_rejected (bound : Nat) : rejected.Within bound := .inl rfl

theorem within_exact (bound : Nat) : exact.Within bound := .inr ⟨0, Nat.zero_le bound, rfl⟩

theorem accepted_one : accepted 1 = doubtful := exact_times doubtful

theorem within_doubtful : doubtful.Within 1 := .inr ⟨1, Nat.le_refl 1, accepted_one.symm⟩

theorem within_ofBool (bound : Nat) (fits : Bool) : (ofBool fits).Within bound := by
  cases fits with
  | false => exact within_rejected bound
  | true => exact within_exact bound

theorem within_times {total score : Score} {n : Nat} (few : total.Within n) (one : score.Within 1) :
    (total.times score).Within (n + 1) := by
  rcases one with rfl | ⟨k, bound, rfl⟩
  · rw [times_rejected]
    exact within_rejected _
  · rcases Nat.le_one_iff_eq_zero_or_eq_one.mp bound with rfl | rfl
    · rw [accepted, times_exact]
      exact few.mono (Nat.le_succ n)
    · rw [accepted_one]
      rcases few with rfl | ⟨doubts, most, rfl⟩
      · rw [rejected_times]
        exact within_rejected _
      · exact .inr ⟨doubts + 1, Nat.succ_le_succ most, rfl⟩

end Score

namespace Operand

theorem immediateScore_within (s : Text) : (immediateScore s).Within 1 := by
  unfold immediateScore
  split
  · exact Score.within_doubtful
  · exact Score.within_exact 1

theorem Shape.score_within (shape : Shape) (s : Text) : (shape.score s).Within 1 := by
  cases shape with
  | immediate => exact immediateScore_within s
  | literal spelling value =>
      simp only [score]
      split
      · exact Score.within_exact 1
      · split
        · exact Score.within_ofBool 1 _
        · exact immediateScore_within s
  | _ => exact Score.within_ofBool 1 _

/-- One operand raises at most one doubt. -/
theorem score_within (operand : Operand) (s : Text) : (operand.score s).Within 1 := by
  cases operand with
  | direct shape => exact shape.score_within s
  | indirect shape =>
      simp only [score]
      split
      · exact Score.within_exact 1
      · split
        · exact shape.score_within _
        · exact Score.within_rejected 1

end Operand

namespace Matcher

/-- How many operands of a statement are compared with those of an instruction: where the accumulator is
added or dropped, it is not one of them. -/
def compared (i : Instruction) (statement : Source.Statement) : Nat :=
  min i.shapes.length statement.operands.length

theorem productFrom_within (total : Score) (n : Nat) (few : total.Within n) (shapes : List Operand)
    (operands : List Text) :
    (productFrom total shapes operands).Within (n + min shapes.length operands.length) := by
  induction shapes generalizing total n operands with
  | nil => exact few.mono (Nat.le_add_right n _)
  | cons shape shapes ih =>
      cases operands with
      | nil => exact few.mono (Nat.le_add_right n _)
      | cons operand operands =>
          have next := ih _ (n + 1) (Score.within_times few (shape.score_within operand)) operands
          refine Score.Within.mono next ?_
          simp only [List.length_cons]
          omega

theorem exactForm_within (shapes : List Operand) (operands : List Text) :
    (exactForm shapes operands).Within (min shapes.length operands.length) := by
  unfold exactForm
  split
  · exact (productFrom_within .exact 0 (Score.within_exact 0) shapes operands).mono (Nat.zero_add _).le
  · exact Score.within_rejected _

theorem implicitForm_within (i : Instruction) (operands : List Text) :
    (implicitForm i operands).Within (min i.shapes.length operands.length) := by
  unfold implicitForm
  split
  · next first second accumulator shape listed shaped =>
      split
      · refine (exactForm_within [shape] operands).mono ?_
        simp only [shaped, List.length_cons, List.length_nil]
        omega
      · exact Score.within_rejected _
  · exact Score.within_rejected _

theorem explicitForm_within (i : Instruction) (operands : List Text) :
    (explicitForm i operands).Within (min i.shapes.length operands.length) := by
  unfold explicitForm
  split
  · next shape first operand shaped =>
      split
      · simpa [shaped] using shape.score_within operand
      · exact Score.within_rejected _
  · exact Score.within_rejected _

theorem scoreOf_within (i : Instruction) (statement : Source.Statement) :
    (scoreOf i statement).Within (compared i statement) := by
  simp only [scoreOf, compared]
  split
  · exact Score.within_rejected _
  · split
    · exact exactForm_within i.shapes statement.operands
    · split
      · exact implicitForm_within i statement.operands
      · exact explicitForm_within i statement.operands

/-! The first maximum -/

/-- Whether `found` is the first in the ranking with the highest score of all. -/
def IsFirstMaximum (ranking : List Ranked) (found : Ranked) : Prop :=
  ∃ before after, ranking = before ++ found :: after ∧
    (∀ other ∈ before, other.score.value < found.score.value) ∧
    ∀ other ∈ after, other.score.value ≤ found.score.value

theorem IsFirstMaximum.mem {ranking : List Ranked} {found : Ranked}
    (first : IsFirstMaximum ranking found) : found ∈ ranking := by
  obtain ⟨before, after, rfl, _⟩ := first
  exact List.mem_append_right before List.mem_cons_self

theorem IsFirstMaximum.highest {ranking : List Ranked} {found : Ranked}
    (first : IsFirstMaximum ranking found) :
    ∀ other ∈ ranking, other.score.value ≤ found.score.value := by
  obtain ⟨before, after, rfl, lower, atMost⟩ := first
  intro other member
  rcases List.mem_append.mp member with front | back
  · exact (lower other front).le
  · rcases List.mem_cons.mp back with rfl | later
    · exact le_refl _
    · exact atMost other later

/-- A lower score in front changes nothing. -/
theorem IsFirstMaximum.cons {ranking : List Ranked} {found : Ranked}
    (first : IsFirstMaximum ranking found) (other : Ranked) (lower : other.score.value < found.score.value) :
    IsFirstMaximum (other :: ranking) found := by
  obtain ⟨before, after, rfl, front, back⟩ := first
  exact ⟨other :: before, after, rfl, List.forall_mem_cons.mpr ⟨lower, front⟩, back⟩

/-- Nor does one that is not higher than the score before it. -/
theorem IsFirstMaximum.insert {ranking : List Ranked} {held found : Ranked}
    (first : IsFirstMaximum (held :: ranking) found) (other : Ranked)
    (lower : other.score.value ≤ held.score.value) : IsFirstMaximum (held :: other :: ranking) found := by
  obtain ⟨before, after, whole, front, back⟩ := first
  cases before with
  | nil =>
      obtain ⟨rfl, rfl⟩ := List.cons.inj whole
      exact ⟨[], other :: ranking, rfl, by simp, List.forall_mem_cons.mpr ⟨lower, back⟩⟩
  | cons first before =>
      obtain ⟨rfl, rfl⟩ := List.cons.inj whole
      obtain ⟨below, others⟩ := List.forall_mem_cons.mp front
      refine ⟨held :: other :: before, after, rfl, ?_, back⟩
      exact List.forall_mem_cons.mpr ⟨below, List.forall_mem_cons.mpr ⟨lower.trans_lt below, others⟩⟩

section Search
variable (statement : Source.Statement)

def ranking (rows : List Instruction) : List Ranked := rows.map fun i => ⟨i, scoreOf i statement⟩

theorem exact_isFirstMaximum (i : Instruction) (rest : List Instruction) (fits : scoreOf i statement = .exact) :
    IsFirstMaximum (ranking statement (i :: rest)) ⟨i, .exact⟩ := by
  refine ⟨[], ranking statement rest, by simp [ranking, fits], by simp, ?_⟩
  intro other _
  exact (Score.not_exceeds_iff _ _).mp ((Score.le_def _ _).mp (Score.le_exact other.score))

/-- From a candidate in hand that is not exact, the search ends at the first maximum of it and the
others. -/
theorem bestFrom_held (held : Ranked) (rows : List Instruction) (doubtful : held.score ≠ .exact) :
    ∃ found, bestFrom statement (some held) rows = some found ∧
      IsFirstMaximum (held :: ranking statement rows) found := by
  induction rows generalizing held with
  | nil => exact ⟨held, rfl, [], [], rfl, by simp, by simp⟩
  | cons i rest ih =>
      rw [bestFrom]
      by_cases fits : scoreOf i statement = .exact
      · refine ⟨⟨i, .exact⟩, by simp [fits], ?_⟩
        have below := (Score.exceeds_iff _ _).mp (Score.exceeds_exact held.score doubtful)
        exact (exact_isFirstMaximum statement i rest fits).cons held below
      · simp only [fits, ↓reduceIte, Option.map_some, Option.getD_some]
        by_cases higher : (scoreOf i statement).exceeds held.score = true
        · obtain ⟨found, chosen, first⟩ := ih ⟨i, scoreOf i statement⟩ fits
          have atLeast := first.highest ⟨i, scoreOf i statement⟩ List.mem_cons_self
          rw [if_pos higher]
          exact ⟨found, chosen, first.cons held (((Score.exceeds_iff _ _).mp higher).trans_le atLeast)⟩
        · obtain ⟨found, chosen, first⟩ := ih held doubtful
          rw [if_neg higher]
          refine ⟨found, chosen, first.insert _ ?_⟩
          exact (Score.not_exceeds_iff _ _).mp (Bool.eq_false_iff.mpr higher)

/-- With nothing in hand, the candidates that are rejected are passed over. -/
theorem bestFrom_none (rows : List Instruction) :
    (∀ r ∈ ranking statement rows, r.score.value = 0) ∧ bestFrom statement none rows = none ∨
      ∃ found, bestFrom statement none rows = some found ∧ 0 < found.score.value ∧
        IsFirstMaximum (ranking statement rows) found := by
  induction rows with
  | nil => exact .inl ⟨by simp [ranking], rfl⟩
  | cons i rest ih =>
      rw [bestFrom]
      by_cases fits : scoreOf i statement = .exact
      · right
        exact ⟨⟨i, .exact⟩, by simp [fits], Score.value_accepted_pos 0, exact_isFirstMaximum statement i rest fits⟩
      · simp only [fits, ↓reduceIte, Option.map_none, Option.getD_none]
        by_cases accepted : (scoreOf i statement).exceeds .rejected = true
        · right
          obtain ⟨found, chosen, first⟩ := bestFrom_held statement ⟨i, scoreOf i statement⟩ rest fits
          have positive := (Score.exceeds_iff _ _).mp accepted
          have atLeast := first.highest ⟨i, scoreOf i statement⟩ List.mem_cons_self
          rw [Score.value_rejected] at positive
          rw [if_pos accepted]
          exact ⟨found, chosen, positive.trans_le atLeast, first⟩
        · rw [if_neg accepted]
          have zero := (Score.value_eq_zero _).mpr (Bool.eq_false_iff.mpr accepted)
          rcases ih with ⟨none, nothing⟩ | ⟨found, chosen, positive, first⟩
          · exact .inl ⟨List.forall_mem_cons.mpr ⟨zero, none⟩, nothing⟩
          · exact .inr ⟨found, chosen, positive, first.cons _ (zero.trans_lt positive)⟩

end Search

theorem best_cases (m : Matcher) (statement : Source.Statement) :
    (∀ r ∈ m.rank statement, r.score.value = 0) ∧ m.best? statement = none ∨
      ∃ found, m.best? statement = some found ∧ 0 < found.score.value ∧
        IsFirstMaximum (m.rank statement) found :=
  bestFrom_none statement ((m.catalog.candidates statement.mnemonic).filter m.isEnabled)

theorem meter_candidates (m : Matcher) (statement : Source.Statement)
    (some : m.catalog.candidates statement.mnemonic ≠ []) :
    m.meter statement = ((m.best? statement).map fun best => .instruction best.instruction).toList := by
  rw [meter, if_neg (by simpa using some)]
  cases m.best? statement with
  | none => rfl
  | some best => rfl

/-- The search for the best match gives the first maximum of the whole ranking, and nothing if all of it
is rejected; this is what is metered. A score is zero or what is left by as many doubts as operands are compared,
or fewer: three quarters for each doubt, rounded to the nearest number there is, which makes no difference for
33 doubts and a difference for more. -/
theorem best_first_maximum (m : Matcher) (line : Text) :
    (∀ r ∈ m.rank (.ofText line), r.score.value = 0 ∨
      ∃ k ≤ compared r.instruction (.ofText line), r.score = .accepted k) ∧
    (∀ k, 0 < (Score.accepted k).value ∧ ((Score.accepted k).value = (3 / 4) ^ k ↔ k ≤ 33) ∧
      ∀ other : Score, |(Score.accepted (k + 1)).value - 3 / 4 * (Score.accepted k).value| ≤
        |other.value - 3 / 4 * (Score.accepted k).value|) ∧
    ((∀ r ∈ m.rank (.ofText line), r.score.value = 0) →
      m.best? (.ofText line) = none ∧ (m.bestScore (.ofText line)).value = 0) ∧
    ((∃ r ∈ m.rank (.ofText line), r.score.value ≠ 0) →
      ∃ found, m.best? (.ofText line) = some found ∧ IsFirstMaximum (m.rank (.ofText line)) found) ∧
    (m.catalog.candidates (Source.Statement.ofText line).mnemonic ≠ [] →
      m.meter (.ofText line) =
        ((m.best? (.ofText line)).map fun best => .instruction best.instruction).toList) := by
  refine ⟨?_, ?_, ?_, ?_, m.meter_candidates (.ofText line)⟩
  · intro r member
    obtain ⟨i, _, rfl⟩ := List.mem_map.mp member
    exact (scoreOf_within i (.ofText line)).imp_left fun rejected =>
      (congrArg Score.value rejected).trans Score.value_rejected
  · intro k
    refine ⟨Score.value_accepted_pos k, ⟨Score.le_of_power _ k, Score.value_accepted k⟩, fun other => ?_⟩
    have near := Score.value_times_nearest (.accepted k) .doubtful other
    rwa [Score.value_doubtful, mul_comm] at near
  · intro rejected
    rcases m.best_cases (.ofText line) with ⟨_, none⟩ | ⟨found, _, positive, first⟩
    · rw [bestScore, none]
      exact ⟨rfl, Score.value_rejected⟩
    · exact absurd (rejected found first.mem) positive.ne'
  · rintro ⟨r, member, nonzero⟩
    rcases m.best_cases (.ofText line) with ⟨rejected, _⟩ | ⟨found, chosen, _, first⟩
    · exact absurd (rejected r member) nonzero
    · exact ⟨found, chosen, first⟩

/-- A register, and two rows that take a number. -/
def compareRows : Matcher where
  catalog := .ofPatterns [Catalog.steady "S" "CP r" 4 5 1 "B8" 1, Catalog.steady "S" "CP n" 7 8 2 "FE n" 2,
    Catalog.steady "S" "CP nn" 7 8 2 "FE n n" 3]

/-- A pair of registers leaves the same doubt in the second row and the third; without an operand, all
rows are rejected. -/
theorem best_first_maximum_tie :
    ((compareRows.rank (.ofText "CP HL")).map Ranked.score = [.rejected, .accepted 1, .accepted 1] ∧
      ∃ found, compareRows.best? (.ofText "CP HL") = some found ∧
        IsFirstMaximum (compareRows.rank (.ofText "CP HL")) found) ∧
    (compareRows.rank (.ofText "CP")).map Ranked.score = [.rejected, .rejected, .rejected] ∧
      compareRows.meter (.ofText "CP") = [] := by
  have tie : (compareRows.rank (.ofText "CP HL")).map Ranked.score = [.rejected, .accepted 1, .accepted 1] := by
    decide +kernel
  have none : (compareRows.rank (.ofText "CP")).map Ranked.score = [.rejected, .rejected, .rejected] := by
    decide +kernel
  obtain ⟨_, _, _, found, _⟩ := best_first_maximum compareRows "CP HL"
  obtain ⟨_, _, rejected, _, metered⟩ := best_first_maximum compareRows "CP"
  refine ⟨⟨tie, found ?_⟩, none, ?_⟩
  · have listed : .accepted 1 ∈ (compareRows.rank (.ofText "CP HL")).map Ranked.score := by simp [tie]
    obtain ⟨r, member, doubt⟩ := List.mem_map.mp listed
    exact ⟨r, member, doubt ▸ (Score.value_accepted_pos 1).ne'⟩
  · have all : ∀ r ∈ compareRows.rank (.ofText "CP"), r.score.value = 0 := by
      intro r member
      have listed : r.score ∈ (compareRows.rank (.ofText "CP")).map Ranked.score := List.mem_map_of_mem member
      obtain zero : r.score = .rejected := by simpa [none] using listed
      rw [zero, Score.value_rejected]
    rw [metered (by decide +kernel), (rejected all).1]
    rfl

/-! Rounded ties -/

/-- A row of many operands, all numbers but perhaps the first. -/
def longRow (opcode : String) (first : Text) (others : Nat) : Pattern :=
  { Catalog.steady "S" "" 4 5 1 opcode 1 with
    text := Text.ofString "X" ++ (' ' : UInt8) :: Text.join "," (first :: List.replicate others "nn") }

/-- The second row takes one number less. -/
def longRows (others : Nat) : Matcher where
  catalog := .ofPatterns [longRow "01" "nn" others, longRow "02" "A" others]

def longLine (others : Nat) : Text :=
  Text.ofString "X" ++ (' ' : UInt8) :: Text.join "," (List.replicate (others + 1) "A")

theorem longLine_statement (others : Nat) :
    Source.Statement.ofText (longLine others) = ⟨"X", List.replicate (others + 1) "A"⟩ := by
  have register : Source.Statement.IsOperand "A" :=
    ⟨by decide, by decide, by decide, Source.literalless_of_all _ (by decide)⟩
  refine Source.Statement.ofText_join _ _ ⟨by decide, List.all_eq_true.mp (by decide)⟩ fun operand member => ?_
  rwa [List.eq_of_mem_replicate member]

theorem longRow_form (opcode : String) (first : Text) (others : Nat) (part : Pattern.IsPart first) (some : first ≠ []) :
    Pattern.form (longRow opcode first others).text = ⟨"X", first :: List.replicate others "nn"⟩ := by
  have number : Pattern.IsPart "nn" := ⟨by decide, by decide⟩
  refine Pattern.form_join _ _ ⟨by decide, List.all_eq_true.mp (by decide)⟩ (List.cons_ne_nil _ _) ?_ ?_
  · exact List.forall_mem_cons.mpr ⟨part, fun operand member => List.eq_of_mem_replicate member ▸ number⟩
  · exact List.forall_mem_cons.mpr ⟨some, fun operand member => List.eq_of_mem_replicate member ▸ by decide⟩

theorem productFrom_doubts (shape : Operand) (operand : Text) (doubt : shape.score operand = .doubtful) (k n : Nat) :
    productFrom (.accepted k) (List.replicate n shape) (List.replicate n operand) = .accepted (k + n) := by
  induction n generalizing k with
  | zero => rfl
  | succ n ih =>
      rw [List.replicate_succ, List.replicate_succ, productFrom, doubt, ← Nat.succ_add_eq_add_succ]
      exact ih (k + 1)

theorem longRow_score (opcode : String) (first : Text) (others k : Nat) (part : Pattern.IsPart first)
    (some : first ≠ []) (left : (Operand.ofText first).score "A" = .accepted k) :
    scoreOf (.ofPattern (longRow opcode first others)) ⟨"X", List.replicate (others + 1) "A"⟩ =
      .accepted (k + others) := by
  have form := longRow_form opcode first others part some
  have shapes : (Instruction.ofPattern (longRow opcode first others)).shapes =
      .ofText first :: List.replicate others (.ofText "nn") := by
    rw [Instruction.ofPattern, form, List.map_cons, List.map_replicate]
  have mnemonic : (Instruction.ofPattern (longRow opcode first others)).mnemonic = "X" := by
    rw [Instruction.ofPattern, form]
  have written : (List.replicate (others + 1) (Text.ofString "A")).any List.isEmpty = false := by
    rw [List.any_replicate, if_neg (Nat.succ_ne_zero others)]
    rfl
  have number : (Operand.ofText "nn").score "A" = .doubtful := rfl
  rw [scoreOf, mnemonic, shapes, if_neg (by simp [written]), if_pos (by simp), exactForm, if_pos (by simp), product,
    List.replicate_succ, productFrom, left, Score.exact_times, productFrom_doubts _ _ number]

theorem longRows_enabled (others : Nat) :
    ((longRows others).catalog.candidates "X").filter (longRows others).isEnabled =
      [.ofPattern (longRow "01" "nn" others), .ofPattern (longRow "02" "A" others)] := by
  have expanded : [longRow "01" "nn" others, longRow "02" "A" others].flatMap Pattern.expand =
      [.ofPattern (longRow "01" "nn" others), .ofPattern (longRow "02" "A" others)] := rfl
  have number := longRow_form "01" "nn" others ⟨by decide, by decide⟩ (by decide)
  have register := longRow_form "02" "A" others ⟨by decide, by decide⟩ (by decide)
  have listed : (longRows others).catalog.candidates "X" =
      [.ofPattern (longRow "01" "nn" others), .ofPattern (longRow "02" "A" others)] := by
    rw [longRows, Catalog.ofPatterns, expanded, Catalog.candidates_ofInstructions]
    simp [Instruction.ofPattern, number, register]
  rw [listed]
  rfl

theorem longRows_scores (others : Nat) :
    scoreOf (.ofPattern (longRow "01" "nn" others)) (.ofText (longLine others)) = .accepted (others + 1) ∧
      scoreOf (.ofPattern (longRow "02" "A" others)) (.ofText (longLine others)) = .accepted others := by
  have number := longRow_score "01" "nn" others 1 ⟨by decide, by decide⟩ (by decide) Score.accepted_one.symm
  have register := longRow_score "02" "A" others 0 ⟨by decide, by decide⟩ (by decide) rfl
  rw [longLine_statement, number, register, Nat.add_comm 1, Nat.zero_add]
  exact ⟨rfl, rfl⟩

theorem longRows_rank (others : Nat) :
    (longRows others).rank (.ofText (longLine others)) =
      [⟨.ofPattern (longRow "01" "nn" others), .accepted (others + 1)⟩,
        ⟨.ofPattern (longRow "02" "A" others), .accepted others⟩] := by
  obtain ⟨number, register⟩ := longRows_scores others
  have mnemonic := congrArg Source.Statement.mnemonic (longLine_statement others)
  rw [rank, mnemonic, longRows_enabled, List.map_cons, List.map_singleton, number, register]

theorem settled_ne_exact (k : Nat) (many : 3266 ≤ k) : Score.accepted k ≠ .exact := by
  intro same
  exact Score.value_settled k many 0 (by rw [same, Score.value_exact, pow_zero])

theorem longRows_best (others : Nat) (many : 3266 ≤ others) :
    (longRows others).best? (.ofText (longLine others)) =
      some ⟨.ofPattern (longRow "01" "nn" others), .accepted (others + 1)⟩ := by
  obtain ⟨number, register⟩ := longRows_scores others
  have mnemonic := congrArg Source.Statement.mnemonic (longLine_statement others)
  have more : 3266 ≤ others + 1 := many.trans (Nat.le_succ others)
  have positive : (Score.accepted (others + 1)).exceeds .rejected = true :=
    (Score.exceeds_iff _ _).mpr (Score.value_rejected ▸ Score.value_accepted_pos _)
  have level : (Score.accepted others).exceeds (.accepted (others + 1)) = false := by
    rw [Score.exceeds, Score.units_settled _ many, Score.units_settled _ more]
    rfl
  rw [best?, mnemonic, longRows_enabled]
  simp [bestFrom, number, register, settled_ne_exact _ many, settled_ne_exact _ more, positive, level]

/-- Thousands of doubts are rounded to one number, and this is no power of 3/4: the first row is the best match,
although the second raises one doubt less. -/
theorem best_rounded_tie :
    (longRows 3299).rank (.ofText (longLine 3299)) =
      [⟨.ofPattern (longRow "01" "nn" 3299), .accepted 3300⟩, ⟨.ofPattern (longRow "02" "A" 3299), .accepted 3299⟩] ∧
    (Score.accepted 3300).value ≠ 0 ∧ (∀ k, (Score.accepted 3300).value ≠ (3 / 4) ^ k) ∧
    (longRows 3299).best? (.ofText (longLine 3299)) =
      some ⟨.ofPattern (longRow "01" "nn" 3299), .accepted 3300⟩ := by
  refine ⟨longRows_rank 3299, (Score.value_accepted_pos 3300).ne', Score.value_settled 3300 (by decide), ?_⟩
  exact longRows_best 3299 (by decide)

end Matcher

end Z80Cost
