import Z80Cost.Proofs.Operand
import Z80Cost.Proofs.Source.Statement

/-!
What may be written for an operand of the table: plain text for a number, a register of a class, an
index register with an offset. Two checks on the table's side, `suits` and `excludes`, decide for all
these writings at once that an operand takes each of them without doubt, or none of them.
-/

namespace Z80Cost

open Operand IndexRegister

inductive Filling where
  | plain
  /-- Any plain text in parentheses or brackets. -/
  | address
  /-- The register with or without an offset, in parentheses or brackets. -/
  | indexed (index : IndexRegister)
  | oneOf (texts : List Text)
  deriving DecidableEq

/-- The bytes that separate, quote or enclose. -/
def reserved : List UInt8 := [',', '"', '\'', '(', ')', '[', ']']

/-- Text of a number, a label or an expression that nothing else can be meant by. -/
structure IsPlain (s : Text) : Prop where
  nonempty : s ≠ []
  trimmed : s.trim = s
  free : ∀ b ∈ s, b ∉ reserved
  unregistered : s ∉ registers
  unindexed : ∀ index rest, s = IndexRegister.name index ++ rest → ¬ IsOffset rest

theorem unindexed_iff (s : Text) :
    (∀ index rest, s = IndexRegister.name index ++ rest → ¬ IsOffset rest) ↔
      isBaseOf .ix s = false ∧ isBaseOf .iy s = false := by
  have unbased : ∀ index, isBaseOf index s = false ↔
      ∀ rest, s = IndexRegister.name index ++ rest → ¬ IsOffset rest := by
    intro index
    rw [Bool.eq_false_iff, ne_eq, isBaseOf_iff]
    exact ⟨fun none rest whole offset => none ⟨rest, whole, offset⟩,
      fun none ⟨rest, whole, offset⟩ => none rest whole offset⟩
  rw [unbased, unbased]
  exact ⟨fun all => ⟨all .ix, all .iy⟩, fun ⟨first, second⟩ index => by cases index <;> assumption⟩

theorem isPlain_iff (s : Text) :
    IsPlain s ↔ s ≠ [] ∧ s.trim = s ∧ s.all (fun b => !reserved.contains b) = true ∧ s ∉ registers ∧
      isBaseOf .ix s = false ∧ isBaseOf .iy s = false := by
  rw [← unindexed_iff]
  simp only [List.all_eq_true, Bool.not_eq_true', List.contains_eq_mem, decide_eq_false_iff_not]
  constructor
  · rintro ⟨nonempty, trimmed, free, unregistered, unindexed⟩
    exact ⟨nonempty, trimmed, free, unregistered, unindexed⟩
  · rintro ⟨nonempty, trimmed, free, unregistered, unindexed⟩
    exact ⟨nonempty, trimmed, free, unregistered, unindexed⟩

instance : DecidablePred IsPlain := fun s => decidable_of_iff _ (isPlain_iff s).symm

namespace Filling

def ofText (word : Text) : Filling :=
  if word ∈ (["n", "nn", "o", "b"] : List Text) then plain
  else if word ∈ (["(n)", "(nn)"] : List Text) then address
  else if word = "(IX+o)" then indexed ix
  else if word = "(IY+o)" then indexed iy
  else if word = "r" then oneOf ["B", "C", "D", "E", "H", "L"]
  else if word = "IXh" then oneOf ["IXH", "HX", "XH"]
  else if word = "IXl" then oneOf ["IXL", "LX", "XL"]
  else if word = "IYh" then oneOf ["IYH", "HY", "YH"]
  else if word = "IYl" then oneOf ["IYL", "LY", "YL"]
  else if word = "p" then oneOf ["B", "C", "D", "E", "IXH", "HX", "XH", "IXL", "LX", "XL"]
  else if word = "q" then oneOf ["B", "C", "D", "E", "IYH", "HY", "YH", "IYL", "LY", "YL"]
  else oneOf [word]

def Admits : Filling → Text → Prop
  | plain, s => IsPlain s
  | address, s => ∃ pair ∈ delimiters, ∃ t, IsPlain t ∧ s = pair.1 :: t ++ [pair.2]
  | indexed index, s => ∃ pair ∈ delimiters, ∃ offset, IsOffset offset ∧
      (∀ b ∈ offset, b ≠ ',' ∧ b ≠ '"' ∧ b ≠ '\'') ∧ balanced pair.1 pair.2 0 offset = true ∧
      s = pair.1 :: (index.name ++ offset) ++ [pair.2]
  | oneOf texts, s => s ∈ texts

def Writes (word s : Text) : Prop := (ofText word).Admits s

/-- Whether an operand takes every text of a filling without doubt. -/
def suits : Filling → Operand → Bool
  | plain, direct .immediate => true
  | address, indirect .immediate => true
  | indexed index, indirect (.indexed other) => index == other
  | oneOf texts, operand => texts.all fun s => operand.score s == .exact
  | _, _ => false

/-- Whether a shape takes nothing but registers. -/
def refusesPlain : Shape → Bool
  | .verbatim spelling => registers.contains spelling
  | .immediate | .literal _ _ => false
  | _ => true

/-- Whether an operand takes no text of a filling without doubt. -/
def excludes : Filling → Operand → Bool
  | plain, direct shape => refusesPlain shape
  | plain, indirect _ => true
  | address, indirect shape => refusesPlain shape
  | indexed index, indirect (.verbatim spelling) => !index.isBaseOf spelling
  | indexed _, direct (.verbatim spelling) => !delimiters.any fun pair => spelling.head? == some pair.1
  | oneOf texts, operand => texts.all fun s => operand.score s != .exact
  | _, _ => false

theorem isRegister_plain (s : Text) (valid : IsPlain s) : isRegister s = false := by
  obtain ⟨first, second⟩ := (unindexed_iff s).mp valid.unindexed
  have unlisted : registers.contains s = false := by simpa using valid.unregistered
  simp only [isRegister, unlisted, first, second, Bool.or_self]

theorem inner_plain (s : Text) (valid : IsPlain s) : inner? s = none := by
  refine inner_undelimited s fun b first => ?_
  have free := valid.free b (List.mem_of_mem_head? first)
  refine ⟨?_, ?_⟩ <;> rintro rfl <;> exact free (by decide)

theorem immediateScore_plain (s : Text) (valid : IsPlain s) : immediateScore s = .exact := by
  simp [immediateScore, inner_plain s valid, isRegister_plain s valid]

/-- Delimiters around plain text are balanced. -/
theorem inner_address (pair : UInt8 × UInt8) (member : pair ∈ delimiters) (s : Text)
    (valid : IsPlain s) : inner? (pair.1 :: s ++ [pair.2]) = some s := by
  have absent : ∀ b ∈ reserved, b ∉ s := fun b kept present => valid.free b present kept
  have listed : pair.1 ∈ reserved ∧ pair.2 ∈ reserved := by
    rcases (mem_delimiters pair).mp member with rfl | rfl <;> decide
  rw [inner_delimited pair.1 pair.2 member s
    (balanced_of_free _ _ s (absent _ listed.1) (absent _ listed.2)), valid.trimmed]

/-- A shape that refuses plain text takes only registers without doubt. -/
theorem isRegister_of_score (shape : Shape) (refuses : refusesPlain shape = true) (s : Text)
    (fits : shape.score s = .exact) : isRegister s = true := by
  have listed : ∀ texts : List Text, (∀ t ∈ texts, t ∈ registers) → s ∈ texts → isRegister s = true := by
    intro texts within member
    simp [isRegister, within s member]
  cases shape with
  | immediate | literal => simp [refusesPlain] at refuses
  | verbatim spelling =>
      obtain rfl : s = spelling := by simpa [Shape.score] using fits
      simp only [refusesPlain] at refuses
      simp only [isRegister, refuses, Bool.true_or]
  | register => exact listed singles (by decide) (by simpa [Shape.score] using fits)
  | indexed index =>
      have based : index.isBaseOf s = true := by simpa [Shape.score] using fits
      cases index <;> simp [isRegister, based]
  | high index =>
      refine listed index.highs ?_ (by simpa [Shape.score] using fits)
      cases index <;> decide
  | low index =>
      refine listed index.lows ?_ (by simpa [Shape.score] using fits)
      cases index <;> decide
  | half index =>
      refine listed (index.highs ++ index.lows) ?_ (by simpa [Shape.score, isHalf] using fits)
      cases index <;> decide
  | registerOrHalf index =>
      refine listed (singlesBesideHalf ++ (index.highs ++ index.lows)) ?_
        (by simpa [Shape.score, isHalf] using fits)
      cases index <;> decide

theorem endsIn_free (index : IndexRegister) (s : Text) (free : ∀ b ∈ s, b ∉ reserved) :
    index.endsIn s = false := by
  have ends : ∀ t : Text, ∀ b ∈ t, b ∈ reserved → Text.endsWith t s = false := by
    intro t b member listed
    refine Bool.eq_false_iff.mpr fun found => ?_
    exact free b (((Text.endsWith_iff t s).mp found).subset member) listed
  have parenthesis : ('(' : UInt8) ∈ reserved := by decide
  have bracket : ('[' : UInt8) ∈ reserved := by decide
  rw [endsIn, ends _ '(' (by cases index <;> decide) parenthesis,
    ends _ '[' (by cases index <;> decide) bracket, Bool.or_self]

/-- What ends in delimited text and has no delimiter inside is all of it. -/
theorem delimited_of_suffix (opening closing first last : UInt8) (s t : Text) (listed : opening ∈ reserved)
    (free : ∀ b ∈ s, b ∉ reserved) (ends : opening :: t ++ [closing] <:+ first :: s ++ [last]) : s = t := by
  obtain ⟨front, whole⟩ := ends
  cases front with
  | nil =>
      obtain ⟨_, rest⟩ := List.cons.inj whole
      exact (List.append_inj_left' rest rfl).symm
  | cons b front =>
      -- Then the opening delimiter would stand inside `s`.
      obtain ⟨_, rest⟩ := List.cons.inj whole
      have shifted : (front ++ opening :: t) ++ [closing] = s ++ [last] := by simpa using rest
      have inside : front ++ opening :: t = s := List.append_inj_left' shifted rfl
      exact absurd listed (free opening (by simp [← inside]))

theorem endsIn_address (index : IndexRegister) (pair : UInt8 × UInt8) (s : Text) (valid : IsPlain s) :
    index.endsIn (pair.1 :: s ++ [pair.2]) = false := by
  have named : s ≠ index.name := fun same => valid.unregistered (by rw [same]; cases index <;> decide)
  have ends : ∀ opening ∈ reserved, ∀ closing, Text.endsWith (opening :: index.name ++ [closing])
      (pair.1 :: s ++ [pair.2]) = false := by
    intro opening listed closing
    refine Bool.eq_false_iff.mpr fun found => named ?_
    exact delimited_of_suffix opening closing _ _ s index.name listed valid.free
      ((Text.endsWith_iff _ _).mp found)
  have parentheses := ends '(' (by decide) ')'
  have brackets := ends '[' (by decide) ']'
  rw [endsIn, Bool.or_eq_false_iff]
  exact ⟨parentheses, brackets⟩

/-- An index register with its offset is found again inside its delimiters. -/
theorem inner_indexed (index : IndexRegister) (pair : UInt8 × UInt8) (member : pair ∈ delimiters)
    (offset : Text) (valid : IsOffset offset) (even : balanced pair.1 pair.2 0 offset = true) :
    ∃ inside, inner? (pair.1 :: (index.name ++ offset) ++ [pair.2]) = some inside ∧
      index.isBaseOf inside = true := by
  have whole : balanced pair.1 pair.2 0 (index.name ++ offset) = true := by
    rcases (mem_delimiters pair).mp member with rfl | rfl <;> cases index <;> exact even
  have trimmed : Text.trim (index.name ++ offset) = index.name ++ offset.trimRight := by
    have second : ∀ b, Text.isSolid b → Text.trimRight (b :: offset) = b :: offset.trimRight :=
      fun b solid => Text.trimRight_append_cons [] offset b solid
    cases index with
    | ix => exact (Text.trim_cons _ 'I' (by decide)).trans (congrArg _ (second 'X' (by decide)))
    | iy => exact (Text.trim_cons _ 'I' (by decide)).trans (congrArg _ (second 'Y' (by decide)))
  have kept : IsOffset offset.trimRight := by
    intro b first
    obtain ⟨cut, whole⟩ := Text.trimRight_isPrefix offset
    refine valid b ?_
    rw [← whole, List.head?_append, Option.mem_def.mp first]
    rfl
  exact ⟨_, inner_delimited pair.1 pair.2 member _ whole,
    (isBaseOf_iff index _).mpr ⟨offset.trimRight, trimmed, kept⟩⟩

theorem exact_of_suits (filling : Filling) (operand : Operand) (s : Text)
    (suited : filling.suits operand = true) (admitted : filling.Admits s) : operand.score s = .exact := by
  match filling, operand with
  | plain, direct .immediate => exact immediateScore_plain s admitted
  | address, indirect .immediate =>
      obtain ⟨pair, member, t, valid, rfl⟩ := admitted
      simp only [score, isOffsetFirst, inner_address pair member t valid, Shape.score,
        immediateScore_plain t valid, Bool.false_eq_true, ↓reduceIte]
  | indexed index, indirect (.indexed other) =>
      obtain rfl : index = other := by simpa [suits] using suited
      obtain ⟨pair, member, offset, valid, _, even, rfl⟩ := admitted
      obtain ⟨inside, found, based⟩ := inner_indexed index pair member offset valid even
      simp only [score, found, Shape.score, based, Score.ofBool, ↓reduceIte, ite_self]
  | oneOf texts, operand =>
      simp only [suits, List.all_eq_true, beq_iff_eq] at suited
      exact suited s admitted

theorem inexact_of_excludes (filling : Filling) (operand : Operand) (s : Text)
    (excluded : filling.excludes operand = true) (admitted : filling.Admits s) :
    operand.score s ≠ .exact := by
  -- Such a shape takes registers only, and plain text is none.
  have unmatched : ∀ shape t, refusesPlain shape = true → IsPlain t → shape.score t ≠ .exact := by
    intro shape t refuses valid fits
    have register := isRegister_of_score shape refuses t fits
    rw [isRegister_plain t valid] at register
    contradiction
  match filling, operand with
  | plain, direct shape => exact unmatched shape s excluded admitted
  | plain, indirect shape =>
      have behind : isOffsetFirst shape s = false := by
        cases shape <;> simp [isOffsetFirst, endsIn_free _ s admitted.free]
      simp [score, behind, inner_plain s admitted, Score.rejected_ne_exact]
  | address, indirect shape =>
      obtain ⟨pair, member, t, valid, rfl⟩ := admitted
      -- An index register at the end would be all that is inside, and that is a register.
      have behind : isOffsetFirst shape (pair.1 :: t ++ [pair.2]) = false := by
        cases shape <;> simp only [isOffsetFirst, endsIn_address _ pair t valid]
      simp only [score, behind, inner_address pair member t valid, Bool.false_eq_true, ↓reduceIte]
      exact unmatched shape t excluded valid
  | indexed index, indirect (.verbatim spelling) =>
      obtain ⟨pair, member, offset, valid, _, even, rfl⟩ := admitted
      obtain ⟨inside, found, based⟩ := inner_indexed index pair member offset valid even
      simp only [score, isOffsetFirst, found, Shape.score, Bool.false_eq_true, ↓reduceIte, ne_eq,
        Score.ofBool_eq_exact, beq_iff_eq]
      rintro rfl
      simp [excludes, based] at excluded
  | indexed index, direct (.verbatim spelling) =>
      obtain ⟨pair, member, offset, _, _, _, rfl⟩ := admitted
      simp only [score, Shape.score, ne_eq, Score.ofBool_eq_exact, beq_iff_eq]
      rintro rfl
      simp only [excludes, Bool.not_eq_true', List.any_eq_false] at excluded
      exact excluded pair member (by simp)
  | oneOf texts, operand =>
      simp only [excludes, List.all_eq_true, bne_iff_ne] at excluded
      exact excluded s admitted

/-- Whether the texts of a filling are read back as they are written. -/
def isReadable : Filling → Bool
  | oneOf texts => texts.all fun s =>
      !s.isEmpty && s.trim == s && !s.contains (',' : UInt8) &&
        (s == "AF'" || s.all fun b => b != '"' && b != '\'')
  | _ => true

theorem literalless_shadow : Source.Literalless "AF'" := by
  rintro ⟨delimiter, last, beforeLast⟩ outside
  obtain rfl : delimiter = none := outside
  exact ⟨rfl, rfl⟩

theorem isOperand_delimited (pair : UInt8 × UInt8) (member : pair ∈ delimiters) (s : Text)
    (free : ∀ b ∈ s, b ≠ ',' ∧ b ≠ '"' ∧ b ≠ '\'') :
    Source.Statement.IsOperand (pair.1 :: s ++ [pair.2]) := by
  obtain ⟨firstSolid, first⟩ : Text.isSolid pair.1 ∧ pair.1 ≠ ',' ∧ pair.1 ≠ '"' ∧ pair.1 ≠ '\'' := by
    rcases (mem_delimiters pair).mp member with rfl | rfl <;> decide
  obtain ⟨lastSolid, last⟩ : Text.isSolid pair.2 ∧ pair.2 ≠ ',' ∧ pair.2 ≠ '"' ∧ pair.2 ≠ '\'' := by
    rcases (mem_delimiters pair).mp member with rfl | rfl <;> decide
  have all : ∀ b ∈ pair.1 :: s ++ [pair.2], b ≠ ',' ∧ b ≠ '"' ∧ b ≠ '\'' := by
    intro b listed
    simp only [List.cons_append, List.mem_cons, List.mem_append, List.not_mem_nil, or_false] at listed
    rcases listed with rfl | inside | rfl
    · exact first
    · exact free b inside
    · exact last
  refine ⟨by simp, ?_, fun comma => (all _ comma).1 rfl, ?_⟩
  · rw [List.cons_append, Text.trim_cons _ _ firstSolid, Text.trimRight_concat _ _ lastSolid]
  · exact Source.literalless_of_no_quote _ fun b listed => (all b listed).2

theorem isOperand_of_admits (filling : Filling) (s : Text) (readable : filling.isReadable = true)
    (admitted : filling.Admits s) : Source.Statement.IsOperand s := by
  have unreserved : ∀ t, IsPlain t → ∀ b ∈ t, b ≠ ',' ∧ b ≠ '"' ∧ b ≠ '\'' := by
    intro t valid b member
    have free := valid.free b member
    refine ⟨?_, ?_, ?_⟩ <;> rintro rfl <;> exact free (by decide)
  cases filling with
  | plain =>
      have free := unreserved s admitted
      exact ⟨admitted.nonempty, admitted.trimmed, fun comma => (free _ comma).1 rfl,
        Source.literalless_of_no_quote s fun b member => (free b member).2⟩
  | address =>
      obtain ⟨pair, member, t, valid, rfl⟩ := admitted
      exact isOperand_delimited pair member t (unreserved t valid)
  | indexed index =>
      obtain ⟨pair, member, offset, _, free, _, rfl⟩ := admitted
      have named : ∀ b ∈ index.name, b ≠ ',' ∧ b ≠ '"' ∧ b ≠ '\'' := by
        cases index <;> decide +kernel
      refine isOperand_delimited pair member _ fun b inside => ?_
      exact (List.mem_append.mp inside).elim (named b) (free b)
  | oneOf texts =>
      simp only [isReadable, List.all_eq_true] at readable
      have checked := readable s admitted
      simp only [Bool.and_eq_true, Bool.or_eq_true, beq_iff_eq, List.all_eq_true, bne_iff_ne,
        Bool.not_eq_true', List.isEmpty_eq_false_iff, List.contains_eq_mem, decide_eq_false_iff_not]
        at checked
      obtain ⟨⟨⟨nonempty, trimmed⟩, comma⟩, rfl | unquoted⟩ := checked
      · exact ⟨nonempty, trimmed, comma, literalless_shadow⟩
      · exact ⟨nonempty, trimmed, comma, Source.literalless_of_no_quote s unquoted⟩

end Filling

end Z80Cost
