import Mathlib.Data.List.Forall2
import Z80Cost.Instruction.Z80
import Z80Cost.Matcher
import Z80Cost.Proofs.Instruction.Catalog
import Z80Cost.Proofs.Numeral
import Z80Cost.Proofs.Operand
import Z80Cost.Proofs.Source.Breaks

/-!
Parentheses and brackets around an operand. No word of the table and no numeral begins with either, so
what an operand of the table makes of delimited text depends on what is inside, and that is found the
same way between both kinds.
-/

namespace Z80Cost

namespace Operand

/-- Whether no beginning of the text closes more than it opens, `depth` being open before it, and all of
it leaves nothing open. -/
def IsBalanced (opening closing : UInt8) (depth : Nat) (s : Text) : Prop :=
  (∀ front, front <+: s → front.count closing ≤ depth + front.count opening) ∧
    s.count closing = depth + s.count opening

theorem forall_prefix_cons (b : UInt8) (s : Text) (P : Text → Prop) :
    (∀ front, front <+: b :: s → P front) ↔ P [] ∧ ∀ front, front <+: s → P (b :: front) := by
  constructor
  · intro all
    exact ⟨all [] List.nil_prefix, fun front starts => all _ ((List.prefix_cons_inj b).mpr starts)⟩
  · rintro ⟨empty, others⟩ front starts
    rcases List.prefix_cons_iff.mp starts with rfl | ⟨rest, rfl, inside⟩
    · exact empty
    · exact others rest inside

/-- The count along the text and the counts of its beginnings agree. -/
theorem balanced_iff (opening closing : UInt8) (distinct : opening ≠ closing) (depth : Nat) (s : Text) :
    balanced opening closing depth s = true ↔ IsBalanced opening closing depth s := by
  induction s generalizing depth with
  | nil =>
      simp only [balanced, IsBalanced, beq_iff_eq, List.prefix_nil, forall_eq, List.count_nil, Nat.zero_le,
        true_and]
      omega
  | cons b s ih =>
      simp only [balanced, IsBalanced, forall_prefix_cons, List.count_nil, Nat.zero_le, true_and]
      split
      · next opens =>
          subst opens
          simp only [ih, IsBalanced, List.count_cons_self, List.count_cons_of_ne distinct]
          exact and_congr (forall₂_congr fun front _ => by omega) (by omega)
      · next notOpening =>
          split
          · next closes =>
              subst closes
              simp only [Bool.and_eq_true, decide_eq_true_eq, ih, IsBalanced, List.count_cons_self,
                List.count_cons_of_ne notOpening]
              constructor
              · rintro ⟨positive, fronts, whole⟩
                refine ⟨fun front starts => ?_, by omega⟩
                have fewer := fronts front starts
                omega
              · rintro ⟨fronts, whole⟩
                have positive := fronts [] List.nil_prefix
                simp only [List.count_nil] at positive
                refine ⟨by omega, fun front starts => ?_, by omega⟩
                have fewer := fronts front starts
                omega
          · next notClosing =>
              simp only [ih, IsBalanced, List.count_cons_of_ne notOpening, List.count_cons_of_ne notClosing]

/-- Whether no delimiter begins a word. -/
def isBare (word : Text) : Bool := !delimiters.any fun pair => word.head? == some pair.1

theorem pair_of_closing (first second : UInt8 × UInt8) (listed : first ∈ delimiters) (member : second ∈ delimiters)
    (closing : first.2 = second.2) : first = second := by
  rcases (mem_delimiters first).mp listed with rfl | rfl
  · rcases (mem_delimiters second).mp member with rfl | rfl
    · rfl
    · contradiction
  · rcases (mem_delimiters second).mp member with rfl | rfl
    · contradiction
    · rfl

section Delimited
variable (pair : UInt8 × UInt8) (member : pair ∈ delimiters) (s : Text)
include member

theorem beq_bare (word : Text) (bare : isBare word = true) : (pair.1 :: s == word) = false := by
  rw [beq_eq_false_iff_ne]
  rintro rfl
  simp only [isBare, Bool.not_eq_true', List.any_eq_false] at bare
  exact bare pair member (by simp)

theorem contains_bare (words : List Text) (bare : words.all isBare = true) :
    words.contains (pair.1 :: s) = false := by
  rw [List.contains_eq_any_beq, List.any_eq_false]
  intro word listed
  simp only [beq_bare pair member s word (List.all_eq_true.mp bare word listed), Bool.false_eq_true,
    not_false_eq_true]

theorem isHalf_delimited (index : IndexRegister) : index.isHalf (pair.1 :: s) = false := by
  have highs : index.highs.contains (pair.1 :: s) = false :=
    contains_bare pair member s _ (by cases index <;> decide)
  have lows : index.lows.contains (pair.1 :: s) = false :=
    contains_bare pair member s _ (by cases index <;> decide)
  rw [IndexRegister.isHalf, highs, lows, Bool.or_self]

theorem isBaseOf_delimited (index : IndexRegister) : index.isBaseOf (pair.1 :: s) = false := by
  rw [Bool.eq_false_iff, ne_eq, IndexRegister.isBaseOf_iff]
  rintro ⟨rest, whole, _⟩
  have bare : isBare (index.name ++ rest) = true := by cases index <;> rfl
  exact absurd whole (beq_eq_false_iff_ne.mp (beq_bare pair member s _ bare))

theorem distinct_delimiters : pair.1 ≠ pair.2 := by
  rcases (mem_delimiters pair).mp member with rfl | rfl <;> decide

theorem solid_delimiters : Text.isSolid pair.1 = true ∧ Text.isSolid pair.2 = true := by
  rcases (mem_delimiters pair).mp member with rfl | rfl <;> decide

theorem caseless_delimiter : Text.isCaseless pair.1 = true := by
  rcases (mem_delimiters pair).mp member with rfl | rfl <;> decide

theorem read_delimited : Numeral.read? (pair.1 :: s) = none := by
  have foreign : Numeral.isFront (Text.upperByte pair.1) = false := by
    rcases (mem_delimiters pair).mp member with rfl | rfl <;> decide
  refine Option.eq_none_iff_forall_ne_some.mpr fun v read => ?_
  rw [Numeral.front_of_read pair.1 s v (solid_delimiters pair member).1 read] at foreign
  contradiction

theorem beq_upper_numeral (spelling : Text) (v : Int64) (number : Numeral.read? spelling = some v) :
    (pair.1 :: s == spelling.upper) = false := by
  rw [beq_eq_false_iff_ne]
  intro same
  cases spelling with
  | nil => contradiction
  | cons b rest =>
      obtain ⟨first, _⟩ := List.cons.inj same
      obtain rfl := (Text.upperByte_eq_caseless b pair.1 (caseless_delimiter pair member)).mp first.symm
      rw [read_delimited pair member rest] at number
      contradiction

end Delimited

/-- What the table can have for a shape: a name for `verbatim`, a numeral for `literal`. -/
def Shape.IsSpelled : Shape → Prop
  | .verbatim spelling => spelling ∈ verbatims
  | .literal spelling value => Numeral.read? spelling = some value
  | _ => True

theorem Shape.IsSpelled.ite {c : Prop} [Decidable c] {first second : Shape} (yes : c → first.IsSpelled)
    (no : second.IsSpelled) : (if c then first else second).IsSpelled := by
  by_cases holds : c
  · rw [if_pos holds]
    exact yes holds
  · rw [if_neg holds]
    exact no

theorem Shape.ofText_isSpelled (word : Text) : (Shape.ofText word).IsSpelled := by
  unfold Shape.ofText
  -- Eleven words stand for classes; the rest are names, numerals and everything else.
  iterate 11 refine .ite (fun _ => trivial) ?_
  refine .ite (fun listed => List.contains_iff_mem.mp listed) ?_
  split
  · next value read => exact read
  · trivial

/-- The score of delimited text by what is inside. -/
def Shape.scoreInside : Shape → Text → Score
  | .immediate, inside | .literal _ _, inside => if isRegister inside then .doubtful else .exact
  | _, _ => .rejected

section Inside
variable (pair : UInt8 × UInt8) (member : pair ∈ delimiters) (s : Text)
  (even : balanced pair.1 pair.2 0 s = true)
include member even

theorem immediateScore_delimited :
    immediateScore (pair.1 :: s ++ [pair.2]) = if isRegister s.trim then .doubtful else .exact := by
  rw [immediateScore, inner_delimited pair.1 pair.2 member s even, Option.getD_some]

theorem Shape.score_delimited (shape : Shape) (spelled : shape.IsSpelled) :
    shape.score (pair.1 :: s ++ [pair.2]) = shape.scoreInside s.trim := by
  have inside := immediateScore_delimited pair member s even
  rw [List.cons_append] at inside ⊢
  cases shape with
  | immediate => exact inside
  | verbatim spelling =>
      have bare : isBare spelling = true := List.all_eq_true.mp (by decide) spelling spelled
      rw [Shape.score, beq_bare pair member _ spelling bare]
      rfl
  | register =>
      rw [Shape.score, contains_bare pair member _ singles (by decide)]
      rfl
  | indexed index =>
      rw [Shape.score, isBaseOf_delimited pair member]
      rfl
  | high index =>
      rw [Shape.score, contains_bare pair member _ _ (by cases index <;> decide)]
      rfl
  | low index =>
      rw [Shape.score, contains_bare pair member _ _ (by cases index <;> decide)]
      rfl
  | half index =>
      rw [Shape.score, isHalf_delimited pair member]
      rfl
  | registerOrHalf index =>
      rw [Shape.score, contains_bare pair member _ singlesBesideHalf (by decide), isHalf_delimited pair member]
      rfl
  | literal spelling value =>
      rw [Shape.score, beq_upper_numeral pair member _ spelling value spelled, read_delimited pair member]
      exact inside

/-- Text that a word in delimiters ends is that word in them: behind anything else the opening delimiter
would stay open. -/
theorem suffix_delimited_iff (other : UInt8 × UInt8) (listed : other ∈ delimiters) (word : Text)
    (noOpening : pair.1 ∉ word) (noClosing : pair.2 ∉ word) :
    other.1 :: word ++ [other.2] <:+ pair.1 :: s ++ [pair.2] ↔ other = pair ∧ s = word := by
  constructor
  · rintro ⟨front, whole⟩
    rw [← List.append_assoc] at whole
    obtain ⟨before, last⟩ := List.append_inj' whole rfl
    obtain rfl := pair_of_closing other pair listed member (List.singleton_inj.mp last)
    refine ⟨rfl, ?_⟩
    cases front with
    | nil => exact (List.cons.inj before).2.symm
    | cons b front =>
        obtain rfl : front ++ other.1 :: word = s := (List.cons.inj before).2
        have distinct := distinct_delimiters other listed
        obtain ⟨fronts, whole⟩ := (balanced_iff other.1 other.2 distinct 0 _).mp even
        have fewer := fronts front (List.prefix_append front _)
        simp only [List.count_append, List.count_cons_self, List.count_cons_of_ne distinct,
          List.count_eq_zero_of_not_mem noOpening, List.count_eq_zero_of_not_mem noClosing] at whole
        omega
  · rintro ⟨rfl, rfl⟩
    exact List.suffix_refl _

theorem endsIn_delimited (index : IndexRegister) :
    index.endsIn (pair.1 :: s ++ [pair.2]) = (s == index.name) := by
  have free : pair.1 ∉ index.name ∧ pair.2 ∉ index.name := by
    rcases (mem_delimiters pair).mp member with rfl | rfl <;> cases index <;> decide
  have ends := fun other listed => suffix_delimited_iff pair member s even other listed index.name free.1 free.2
  have parentheses := ends (('(' : UInt8), (')' : UInt8)) (by decide)
  have brackets := ends (('[' : UInt8), (']' : UInt8)) (by decide)
  rw [Bool.eq_iff_iff, IndexRegister.endsIn, Bool.or_eq_true, Text.endsWith_iff, Text.endsWith_iff, beq_iff_eq]
  refine (or_congr parentheses brackets).trans ?_
  rw [← or_and_right, eq_comm, @eq_comm _ _ pair, ← mem_delimiters]
  exact and_iff_right member

def isNameOf : Shape → Text → Bool
  | .indexed index, inside => inside == index.name
  | _, _ => false

theorem isOffsetFirst_delimited (shape : Shape) :
    isOffsetFirst shape (pair.1 :: s ++ [pair.2]) = isNameOf shape s := by
  cases shape with
  | indexed index => exact endsIn_delimited pair member s even index
  | _ => rfl

end Inside

def scoreInside : Operand → Text → Score
  | direct shape, inside => shape.scoreInside inside.trim
  | indirect shape, inside => if isNameOf shape inside then .exact else shape.score inside.trim

theorem score_delimited (word : Text) (pair : UInt8 × UInt8) (member : pair ∈ delimiters) (s : Text)
    (even : balanced pair.1 pair.2 0 s = true) :
    (ofText word).score (pair.1 :: s ++ [pair.2]) = (ofText word).scoreInside s := by
  unfold ofText
  split
  · simp only [score, scoreInside, isOffsetFirst_delimited pair member s even,
      inner_delimited pair.1 pair.2 member s even]
  · exact Shape.score_delimited pair member s even _ (Shape.ofText_isSpelled word)

end Operand

namespace Matcher

/-! Operands that score alike -/

/-- Whether two texts for an operand are the same to an instruction of the given shapes. -/
structure Alike (shapes : List Operand) (first second : Text) : Prop where
  isEmpty : first.isEmpty = second.isEmpty
  accumulator : (first == "A") = (second == "A")
  score : ∀ shape ∈ shapes, shape.score first = shape.score second

theorem Alike.refl (shapes : List Operand) (s : Text) : Alike shapes s s := ⟨rfl, rfl, fun _ _ => rfl⟩

section Alike
variable {shapes : List Operand} {first second : List Text} (alike : List.Forall₂ (Alike shapes) first second)
include alike

theorem any_isEmpty_alike : first.any List.isEmpty = second.any List.isEmpty := by
  induction alike with
  | nil => rfl
  | cons head _ ih => rw [List.any_cons, List.any_cons, head.isEmpty, ih]

theorem productFrom_alike (total : Score) (some : List Operand) (within : ∀ shape ∈ some, shape ∈ shapes) :
    productFrom total some first = productFrom total some second := by
  induction alike generalizing total some with
  | nil => rfl
  | cons head _ ih =>
      cases some with
      | nil => rfl
      | cons shape others =>
          obtain ⟨here, rest⟩ := List.forall_mem_cons.mp within
          rw [productFrom, productFrom, head.score shape here, ih _ others rest]

theorem exactForm_alike (some : List Operand) (within : ∀ shape ∈ some, shape ∈ shapes) :
    exactForm some first = exactForm some second := by
  rw [exactForm, exactForm, alike.length_eq, product, product, productFrom_alike alike .exact some within]

end Alike

theorem implicitForm_alike (i : Instruction) (first second : List Text)
    (alike : List.Forall₂ (Alike i.shapes) first second) : implicitForm i first = implicitForm i second := by
  unfold implicitForm
  split
  · next shape _ shaped =>
      rw [exactForm_alike alike [shape] (by simp [shaped])]
  · rfl

theorem explicitForm_alike (i : Instruction) (first second : List Text)
    (alike : List.Forall₂ (Alike i.shapes) first second) : explicitForm i first = explicitForm i second := by
  simp only [explicitForm]
  rcases shaped : i.shapes with _ | ⟨shape, _ | ⟨other, others⟩⟩
  · rfl
  · rw [shaped] at alike
    -- Only two operands, the accumulator and another, are looked at.
    rcases alike with _ | ⟨head, _ | ⟨next, _ | ⟨third, rest⟩⟩⟩
    · rfl
    · rfl
    · simp only [head.accumulator, next.score shape List.mem_cons_self]
    · rfl
  · rfl

theorem scoreOf_alike (i : Instruction) (mnemonic : Text) (first second : List Text)
    (alike : List.Forall₂ (Alike i.shapes) first second) :
    scoreOf i ⟨mnemonic, first⟩ = scoreOf i ⟨mnemonic, second⟩ := by
  simp only [scoreOf, any_isEmpty_alike alike, alike.length_eq,
    exactForm_alike alike i.shapes (fun _ listed => listed), implicitForm_alike i first second alike,
    explicitForm_alike i first second alike]

/-- For an instruction of a table, balanced text is the same in brackets as in parentheses. -/
theorem alike_brackets (i : Instruction) (shaped : i.shapes = i.operands.map Operand.ofText) (s : Text)
    (parentheses : Operand.balanced '(' ')' 0 s = true) (brackets : Operand.balanced '[' ']' 0 s = true) :
    Alike i.shapes (('(' : UInt8) :: s ++ [(')' : UInt8)]) (('[' : UInt8) :: s ++ [(']' : UInt8)]) where
  isEmpty := rfl
  accumulator := by
    have first := Operand.beq_bare _ (by decide : (('(' : UInt8), (')' : UInt8)) ∈ Operand.delimiters)
      (s ++ [(')' : UInt8)]) "A" (by decide)
    have second := Operand.beq_bare _ (by decide : (('[' : UInt8), (']' : UInt8)) ∈ Operand.delimiters)
      (s ++ [(']' : UInt8)]) "A" (by decide)
    exact first.trans second.symm
  score := by
    intro shape listed
    rw [shaped] at listed
    obtain ⟨word, _, rfl⟩ := List.mem_map.mp listed
    have first := Operand.score_delimited word (('(' : UInt8), (')' : UInt8)) (by decide) s parentheses
    have second := Operand.score_delimited word (('[' : UInt8), (']' : UInt8)) (by decide) s brackets
    exact first.trans second.symm

/-- An operand in parentheses may be written in brackets, whatever is inside, if both kinds are balanced
in it. -/
theorem scoreOf_brackets (patterns : List Pattern) (i : Instruction)
    (member : i ∈ (Catalog.ofPatterns patterns).all) (mnemonic : Text) (before after : List Text) (s : Text)
    (parentheses : Operand.IsBalanced '(' ')' 0 s) (brackets : Operand.IsBalanced '[' ']' 0 s) :
    scoreOf i ⟨mnemonic, before ++ (('(' : UInt8) :: s ++ [(')' : UInt8)]) :: after⟩ =
      scoreOf i ⟨mnemonic, before ++ (('[' : UInt8) :: s ++ [(']' : UInt8)]) :: after⟩ := by
  have alike := alike_brackets i (Catalog.ofPatterns_shapes patterns i member) s
    ((Operand.balanced_iff '(' ')' (by decide) 0 s).mpr parentheses)
    ((Operand.balanced_iff '[' ']' (by decide) 0 s).mpr brackets)
  have same : ∀ operands, List.Forall₂ (Alike i.shapes) operands operands := fun operands =>
    List.forall₂_same.mpr fun operand _ => .refl i.shapes operand
  exact scoreOf_alike i mnemonic _ _ (List.rel_append (same before) (.cons alike (same after)))

def fetchIndexed : Pattern := Catalog.steady "S" "LD A,(IX+o)" 19 21 5 "DD 7E o" 3

/-- Both kinds of delimiter are inside. -/
theorem scoreOf_brackets_nested :
    Operand.IsBalanced '(' ')' 0 "IX+[(2)]" ∧ Operand.IsBalanced '[' ']' 0 "IX+[(2)]" ∧
      scoreOf (.ofPattern fetchIndexed) ⟨"LD", ["A", "(IX+[(2)])"]⟩ = .exact ∧
      scoreOf (.ofPattern fetchIndexed) ⟨"LD", ["A", "[IX+[(2)]]"]⟩ = .exact := by
  have parentheses := (Operand.balanced_iff '(' ')' (by decide) 0 "IX+[(2)]").mp (by decide)
  have brackets := (Operand.balanced_iff '[' ']' (by decide) 0 "IX+[(2)]").mp (by decide)
  have written : scoreOf (.ofPattern fetchIndexed) ⟨"LD", ["A", "(IX+[(2)])"]⟩ = .exact := by decide +kernel
  refine ⟨parentheses, brackets, written, ?_⟩
  have listed : Instruction.ofPattern fetchIndexed ∈ (Catalog.ofPatterns [fetchIndexed]).all := by decide +kernel
  exact (scoreOf_brackets [fetchIndexed] _ listed "LD" ["A"] [] "IX+[(2)]" parentheses brackets).symm.trans written

end Matcher

end Z80Cost
