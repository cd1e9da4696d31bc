import Mathlib.Data.List.Forall2
import Z80Cost.Proofs.Source.Spelling

/-!
Two lines that are read alike. They may differ in bytes outside literals that are the same letter, in the
number of blanks between words, and in bytes inside literals; a `Likeness` says in which of these. Every
pass over a line keeps the likeness, and in canonical spelling only the insides of literals are left
of it.
-/

namespace Z80Cost.Source

/-- What two lines may differ in. -/
structure Likeness where
  /-- Bytes that stand for each other outside literals. -/
  outside : UInt8 → UInt8 → Prop
  /-- Whether there may be more or fewer blanks in one place. -/
  stretches : Bool
  /-- Bytes that stand for each other inside literals. -/
  inside : UInt8 → UInt8 → Prop
  outside_refl : ∀ b, outside b b
  outside_upper : ∀ b c, outside b c → Text.upperByte b = Text.upperByte c
  inside_refl : ∀ b, inside b b

namespace Likeness

/-- What is left in canonical spelling: nothing but the insides of literals. -/
def settled (like : Likeness) : Likeness :=
  { like with
    outside := Eq
    stretches := false
    outside_refl := fun _ => rfl
    outside_upper := fun _ _ => congrArg Text.upperByte }

/-- A blank of which there may be more or fewer. -/
def isGap (like : Likeness) (mark : Mark) : Bool :=
  like.stretches && (mark.isOutside ' ' || mark.isOutside '\t' || mark.isOutside '\r')

/-- Two marked lines that are alike from some place on; `delimiter` is that of the literal they are in. -/
inductive Holds (like : Likeness) : (delimiter : Option UInt8) → List Mark → List Mark → Prop
  | nil (delimiter : Option UInt8) : Holds like delimiter [] []
  | outside (b c : UInt8) (s t : List Mark) (same : like.outside b c) (rest : Holds like none s t) :
      Holds like none (Mark.outside b :: s) (Mark.outside c :: t)
  | gap (b c : Mark) (s t : List Mark) (first : like.isGap b = true) (second : like.isGap c = true)
      (rest : Holds like none s t) : Holds like none (b :: s) (c :: t)
  | longer (b c : Mark) (s t : List Mark) (first : like.isGap b = true) (second : like.isGap c = true)
      (rest : Holds like none (c :: s) t) : Holds like none (b :: c :: s) t
  | shorter (b c : Mark) (s t : List Mark) (first : like.isGap b = true) (second : like.isGap c = true)
      (rest : Holds like none s (c :: t)) : Holds like none s (b :: c :: t)
  | opening (q : UInt8) (s t : List Mark) (quote : isQuote q = true) (rest : Holds like (some q) s t) :
      Holds like none (⟨q, true⟩ :: s) (⟨q, true⟩ :: t)
  | inside (q b c : UInt8) (s t : List Mark) (first : b ≠ q) (second : c ≠ q) (same : like.inside b c)
      (rest : Holds like (some q) s t) : Holds like (some q) (⟨b, true⟩ :: s) (⟨c, true⟩ :: t)
  | closing (q : UInt8) (s t : List Mark) (rest : Holds like none s t) :
      Holds like (some q) (⟨q, true⟩ :: s) (⟨q, true⟩ :: t)

variable {like : Likeness}

theorem Holds.isEmpty {delimiter : Option UInt8} {s t : List Mark} (alike : like.Holds delimiter s t) :
    s.isEmpty = t.isEmpty := by
  induction alike with
  | longer b c s t first second rest ih => exact ih
  | shorter b c s t first second rest ih => exact ih
  | nil | outside | gap | opening | inside | closing => rfl

/-- A property of marks that neither case nor the choice of a blank decides, and that no quote at the
start of a literal has. -/
structure Insensitive (p : Mark → Bool) : Prop where
  upper : ∀ b c, Text.upperByte b = Text.upperByte c → p (Mark.outside b) = p (Mark.outside c)
  tab : p (Mark.outside '\t') = p (Mark.outside ' ')
  return_ : p (Mark.outside '\r') = p (Mark.outside ' ')
  quote : ∀ q, isQuote q = true → p ⟨q, true⟩ = false

theorem gap_cases (mark : Mark) (gap : like.isGap mark = true) :
    mark = Mark.outside ' ' ∨ mark = Mark.outside '\t' ∨ mark = Mark.outside '\r' := by
  obtain ⟨byte, quoted⟩ := mark
  simp only [isGap, Mark.isOutside, Bool.and_eq_true, Bool.or_eq_true, Bool.not_eq_true', beq_iff_eq] at gap
  obtain ⟨_, (⟨rfl, rfl⟩ | ⟨rfl, rfl⟩) | ⟨rfl, rfl⟩⟩ := gap <;> simp [Mark.outside]

theorem Insensitive.gap {p : Mark → Bool} (blind : Insensitive p) (mark : Mark) (gap : like.isGap mark = true) :
    p mark = p (Mark.outside ' ') := by
  rcases gap_cases mark gap with rfl | rfl | rfl
  · rfl
  · exact blind.tab
  · exact blind.return_

theorem Insensitive.gaps {p : Mark → Bool} (blind : Insensitive p) (b c : Mark) (first : like.isGap b = true)
    (second : like.isGap c = true) : p b = p c :=
  (blind.gap b first).trans (blind.gap c second).symm

theorem insensitive_isGap : Insensitive like.isGap where
  upper := by
    intro b c same
    simp only [isGap, Mark.isOutside, Mark.outside, Text.beq_caseless b c ' ' same (by decide),
      Text.beq_caseless b c '\t' same (by decide), Text.beq_caseless b c '\r' same (by decide)]
  tab := rfl
  return_ := rfl
  quote := fun q _ => by simp [isGap, Mark.isOutside]

theorem insensitive_blank : Insensitive Mark.isBlank where
  upper := by
    intro b c same
    simp only [Mark.isBlank, Mark.outside, Text.beq_caseless b c ' ' same (by decide),
      Text.beq_caseless b c '\t' same (by decide), Text.beq_caseless b c '\r' same (by decide),
      Text.beq_caseless b c '\n' same (by decide)]
  tab := rfl
  return_ := rfl
  quote := fun q _ => rfl

theorem insensitive_isBlank : Insensitive (Label.isBlank ·.byte) where
  upper := by
    intro b c same
    simp only [Label.isBlank, Mark.outside, Text.beq_caseless b c ' ' same (by decide),
      Text.beq_caseless b c '\t' same (by decide), Text.beq_caseless b c '\n' same (by decide),
      Text.beq_caseless b c '\r' same (by decide), Text.beq_caseless b c 0x0C same (by decide)]
  tab := rfl
  return_ := rfl
  quote := fun q quote => by rcases quote_cases q quote with rfl | rfl <;> rfl

theorem insensitive_isNameByte : Insensitive (Label.isNameByte ·.byte) where
  upper := by
    intro b c same
    have blank : Label.isBlank b = Label.isBlank c := insensitive_isBlank.upper b c same
    simp only [Label.isNameByte, Mark.outside, blank, Text.beq_caseless b c ':' same (by decide),
      Text.beq_caseless b c ';' same (by decide), Text.beq_caseless b c ',' same (by decide),
      Text.beq_caseless b c '\'' same (by decide), Text.beq_caseless b c '"' same (by decide),
      Text.beq_caseless b c '(' same (by decide), Text.beq_caseless b c ')' same (by decide)]
  tab := rfl
  return_ := rfl
  quote := fun q quote => by rcases quote_cases q quote with rfl | rfl <;> rfl

/-- A byte that lines are cut at: no letter, no quote, no blank. -/
def isSymbol (b : UInt8) : Bool := Text.isCaseless b && !isQuote b && !Label.isBlank b

theorem symbol_not_blank {symbol : UInt8} (cuts : isSymbol symbol = true) (b : UInt8)
    (blank : Label.isBlank b = true) : (b == symbol) = false := by
  rw [beq_eq_false_iff_ne]
  rintro rfl
  simp [isSymbol, blank] at cuts

theorem isBreak_of_isSymbol {symbol : UInt8} (cuts : isSymbol symbol = true) : isBreak symbol = true := by
  simp only [isSymbol, Bool.and_eq_true, Bool.not_eq_true'] at cuts
  have same : Text.upperByte symbol = symbol := (Text.upperByte_eq_caseless _ _ cuts.1.1).mpr rfl
  have letter : ∀ b, Text.isCaseless b = false → symbol ≠ b := by
    rintro b cased rfl
    simp [cased] at cuts
  simp [isBreak, cuts.1.2, same, letter 'A' rfl, letter 'F' rfl]

section Symbol
variable {symbol : UInt8} (cuts : isSymbol symbol = true)
include cuts

theorem insensitive_symbol : Insensitive (·.byte == symbol) where
  upper := by
    intro b c same
    simp only [isSymbol, Bool.and_eq_true] at cuts
    exact Text.beq_caseless b c symbol same cuts.1.1
  tab := (symbol_not_blank cuts '\t' rfl).trans (symbol_not_blank cuts ' ' rfl).symm
  return_ := (symbol_not_blank cuts '\r' rfl).trans (symbol_not_blank cuts ' ' rfl).symm
  quote := by
    intro q quote
    rw [beq_eq_false_iff_ne]
    rintro rfl
    simp [isSymbol, quote] at cuts

theorem symbol_not_gap (mark : Mark) (gap : like.isGap mark = true) : (mark.byte == symbol) = false :=
  symbol_not_blank cuts mark.byte (insensitive_isBlank.gap mark gap)

end Symbol

section Front
variable {p : Mark → Bool} (blind : Insensitive p)
include blind

theorem Holds.head {delimiter : Option UInt8} {s t : List Mark} (alike : like.Holds delimiter s t)
    (outside : delimiter = none) : s.head?.any p = t.head?.any p := by
  induction alike with
  | nil => rfl
  | outside b c s t same => exact blind.upper b c (like.outside_upper b c same)
  | gap b c s t first second => exact blind.gaps b c first second
  | longer b c s t first second rest ih => exact (blind.gaps b c first second).trans (ih rfl)
  | shorter b c s t first second rest ih => exact (ih rfl).trans (blind.gaps c b second first)
  | opening => rfl
  | inside | closing => contradiction

theorem Holds.dropWhile {delimiter : Option UInt8} {s t : List Mark} (alike : like.Holds delimiter s t)
    (outside : delimiter = none) : like.Holds none (s.dropWhile p) (t.dropWhile p) := by
  induction alike with
  | nil => exact .nil none
  | outside b c s t same rest ih =>
      have agree := blind.upper b c (like.outside_upper b c same)
      rw [List.dropWhile_cons, List.dropWhile_cons, agree]
      split
      · exact ih rfl
      · exact .outside b c s t same rest
  | gap b c s t first second rest ih =>
      rw [List.dropWhile_cons, List.dropWhile_cons, blind.gaps b c first second]
      split
      · exact ih rfl
      · exact .gap b c s t first second rest
  | longer b c s t first second rest ih =>
      -- All blanks of a run are dropped or none.
      have later := ih rfl
      rw [List.dropWhile_cons] at later ⊢
      rw [blind.gaps b c first second]
      split
      · next dropped => rwa [List.dropWhile_cons]
      · next kept =>
          rw [if_neg kept] at later
          exact .longer b c s _ first second later
  | shorter b c s t first second rest ih =>
      have later := ih rfl
      rw [List.dropWhile_cons] at later ⊢
      rw [blind.gaps b c first second]
      split
      · next dropped => rwa [List.dropWhile_cons]
      · next kept =>
          rw [if_neg kept] at later
          exact .shorter b c _ t first second later
  | opening q s t quote rest =>
      rw [List.dropWhile_cons, List.dropWhile_cons, blind.quote q quote]
      exact .opening q s t quote rest
  | inside | closing => contradiction

end Front

/-- Behind a symbol two lines are still alike. -/
theorem Holds.tail {symbol : UInt8} (cuts : isSymbol symbol = true) {s t : List Mark} (alike : like.Holds none s t)
    (found : t.head?.any (·.byte == symbol) = true) : like.Holds none s.tail t.tail := by
  have agree := alike.head (insensitive_symbol cuts) rfl
  cases alike with
  | nil => exact .nil none
  | outside b c s t same rest => exact rest
  | gap b c s t first second rest => exact rest
  | longer b c s t first second rest =>
      rw [found] at agree
      exact absurd ((symbol_not_gap cuts b first).symm.trans agree) (by simp)
  | shorter b c s t first second rest => exact absurd (symbol_not_gap cuts b first) (by simpa using found)
  | opening q s t quote rest => exact absurd ((insensitive_symbol cuts).quote q quote) (by simpa using found)

/-! Comments -/

theorem startsWith_cons (h : UInt8) (marker : Text) (s : List Mark) :
    startsWith (h :: marker) s = (s.head?.any (·.byte == h) && startsWith marker s.tail) := by
  cases s with
  | nil => rfl
  | cons mark s => rw [startsWith, BEq.comm (a := h)]; rfl

theorem Holds.startsWith (marker : Text) (symbols : marker.all isSymbol = true) {s t : List Mark}
    (alike : like.Holds none s t) : startsWith marker s = startsWith marker t := by
  induction marker generalizing s t with
  | nil => rfl
  | cons h marker ih =>
      rw [List.all_cons, Bool.and_eq_true] at symbols
      rw [startsWith_cons, startsWith_cons, alike.head (insensitive_symbol symbols.1) rfl]
      cases found : t.head?.any (·.byte == h) with
      | false => rfl
      | true => exact congrArg (true && ·) (ih symbols.2 (alike.tail symbols.1 found))

section Comments
variable {markers : List Text} (symbols : ∀ marker ∈ markers, marker ≠ [] ∧ marker.all isSymbol = true)
include symbols

theorem Holds.startsComment {b c : Mark} {s t : List Mark} (alike : like.Holds none (b :: s) (c :: t))
    (quoted : b.quoted = c.quoted) : startsComment markers (b :: s) = startsComment markers (c :: t) := by
  rw [Source.startsComment, Source.startsComment, quoted]
  congr 1
  rw [Bool.eq_iff_iff, List.any_eq_true, List.any_eq_true]
  refine exists_congr fun marker => and_congr_right fun member => ?_
  rw [alike.startsWith marker (symbols marker member).2]

theorem startsComment_blank (mark : Mark) (s : List Mark) (blank : Label.isBlank mark.byte = true) :
    startsComment markers (mark :: s) = false := by
  rw [startsComment, Bool.and_eq_false_iff]
  right
  rw [List.any_eq_false]
  intro marker member
  obtain ⟨nonempty, each⟩ := symbols marker member
  obtain ⟨h, rest, rfl⟩ := List.exists_cons_of_ne_nil nonempty
  rw [List.all_cons, Bool.and_eq_true] at each
  simp [startsWith_cons, symbol_not_blank each.1 mark.byte blank]

theorem startsComment_gap (mark : Mark) (s : List Mark) (gap : like.isGap mark = true) :
    startsComment markers (mark :: s) = false :=
  startsComment_blank symbols mark s (insensitive_isBlank.gap mark gap)

theorem Holds.code {delimiter : Option UInt8} {s t : List Mark} (alike : like.Holds delimiter s t) :
    like.Holds delimiter (code markers s) (code markers t) := by
  induction alike with
  | nil delimiter => exact .nil delimiter
  | outside b c s t same rest ih =>
      rw [Source.code, Source.code, (Holds.outside b c s t same rest).startsComment symbols rfl]
      split
      · exact .nil none
      · exact .outside b c _ _ same ih
  | gap b c s t first second rest ih =>
      rw [Source.code, Source.code, startsComment_gap symbols b s first, startsComment_gap symbols c t second]
      exact .gap b c _ _ first second ih
  | longer b c s t first second rest ih =>
      rw [Source.code, startsComment_gap symbols b _ first]
      rw [Source.code, startsComment_gap symbols c s second] at ih ⊢
      exact .longer b c _ _ first second ih
  | shorter b c s t first second rest ih =>
      rw [Source.code, startsComment_gap symbols b _ first]
      rw [Source.code, startsComment_gap symbols c t second] at ih ⊢
      exact .shorter b c _ _ first second ih
  | opening q s t quote rest ih => exact .opening q _ _ quote ih
  | inside q b c s t first second same rest ih => exact .inside q b c _ _ first second same ih
  | closing q s t rest ih => exact .closing q _ _ ih

theorem endsInColon_withoutComment (rule : LabelRule) (line : Text) (colon : Label.EndsInColon rule line) :
    Label.EndsInColon rule (withoutComment markers line) := by
  refine colon.imp_right ?_
  rintro ⟨b, first, blank⟩
  obtain ⟨rest, rfl⟩ := List.head?_eq_some_iff.mp first
  refine ⟨b, ?_, blank⟩
  rw [withoutComment_eq, marks_eq, marksFrom, Source.code, startsComment_blank symbols _ _ blank]
  rfl

end Comments

/-- Alike but for blanks at the front. -/
def Aligned (like : Likeness) (s t : List Mark) : Prop :=
  like.Holds none (s.dropWhile like.isGap) (t.dropWhile like.isGap)

theorem Holds.aligned {s t : List Mark} (alike : like.Holds none s t) : like.Aligned s t :=
  alike.dropWhile insensitive_isGap rfl

section Optional
variable {α β : Type} {r : α → α → Prop} {x y : Option α} (related : Option.Rel r x y)
include related

theorem rel_bind {r' : β → β → Prop} {f : α → Option β} (each : ∀ a b, r a b → Option.Rel r' (f a) (f b)) :
    Option.Rel r' (x.bind f) (y.bind f) := by
  cases related with
  | some same => exact each _ _ same
  | none => exact .none

theorem rel_getD {r' : α → α → Prop} (each : ∀ a b, r a b → r' a b) {a b : α} (otherwise : r' a b) :
    r' (x.getD a) (y.getD b) := by
  cases related with
  | some same => exact each _ _ same
  | none => exact otherwise

end Optional

theorem Holds.afterName {s t : List Mark} (alike : like.Holds none s t) :
    Option.Rel (like.Holds none) (Label.marksAfterName? s) (Label.marksAfterName? t) := by
  rw [Label.marksAfterName?, Label.marksAfterName?, alike.head insensitive_isNameByte rfl]
  split
  · exact .some (alike.dropWhile insensitive_isNameByte rfl)
  · exact .none

theorem marksAfterColons_eq (s : List Mark) :
    Label.marksAfterColons? s =
      if s.head?.any (·.byte == (':' : UInt8)) then
        some (if s.tail.head?.any (·.byte == (':' : UInt8)) then s.tail.tail else s.tail)
      else none := by
  cases s with
  | nil => rfl
  | cons mark s =>
      have first : (mark :: s).head?.any (·.byte == (':' : UInt8)) = decide (mark.byte = ':') := rfl
      rw [Label.marksAfterColons?, first, List.drop_one, List.tail_cons]
      simp only [decide_eq_true_eq]

theorem Holds.afterColons {s t : List Mark} (alike : like.Holds none s t) :
    Option.Rel (like.Holds none) (Label.marksAfterColons? s) (Label.marksAfterColons? t) := by
  have colon : isSymbol ':' = true := by decide
  rw [marksAfterColons_eq, marksAfterColons_eq, alike.head (insensitive_symbol colon) rfl]
  split
  · next first =>
      have behind := alike.tail colon first
      rw [behind.head (insensitive_symbol colon) rfl]
      refine .some ?_
      split
      · next second => exact behind.tail colon second
      · exact behind
  · exact .none

theorem Holds.afterIndented {s t : List Mark} (alike : like.Holds none s t) :
    Option.Rel (like.Holds none) (Label.marksAfterIndented? s) (Label.marksAfterIndented? t) :=
  rel_bind (alike.dropWhile insensitive_isBlank rfl).afterName fun _ _ => Holds.afterColons

theorem dropWhile_tail {α : Type} (p : α → Bool) (s : List α) (first : s.head?.any p = true) :
    s.dropWhile p = s.tail.dropWhile p := by
  cases s with
  | nil => rfl
  | cons a s => exact (List.dropWhile_cons).trans (if_pos first)

/-- Behind one blank two lines may differ in the blanks that are left. -/
theorem Holds.tail_aligned {s t : List Mark} (alike : like.Holds none s t)
    (blank : t.head?.any (Label.isBlank ·.byte) = true) : like.Aligned s.tail t.tail := by
  cases alike with
  | nil => exact .nil none
  | outside b c s t same rest => exact rest.aligned
  | gap b c s t first second rest => exact rest.aligned
  | longer b c s t first second rest =>
      -- The other run may be used up, so what is left of this one must not count.
      have gap := (rest.head insensitive_isGap rfl).symm.trans second
      rw [Aligned, ← dropWhile_tail _ t gap]
      exact rest.aligned
  | shorter b c s t first second rest =>
      have gap := (rest.head insensitive_isGap rfl).trans second
      rw [Aligned, ← dropWhile_tail _ s gap]
      exact rest.aligned
  | opening q s t quote rest => exact absurd (insensitive_isBlank.quote q quote) (by simpa using blank)

theorem marksAfterBlank_eq (s : List Mark) :
    Label.marksAfterBlank? s =
      if s.isEmpty then some [] else if s.head?.any (Label.isBlank ·.byte) then some s.tail else none := by
  cases s <;> rfl

theorem Holds.afterBlank {s t : List Mark} (alike : like.Holds none s t) :
    Option.Rel like.Aligned (Label.marksAfterBlank? s) (Label.marksAfterBlank? t) := by
  rw [marksAfterBlank_eq, marksAfterBlank_eq, alike.isEmpty, alike.head insensitive_isBlank rfl]
  split
  · exact .some (.nil none)
  · split
    · next blank => exact .some (alike.tail_aligned blank)
    · exact .none

theorem Holds.afterLabel (rule : LabelRule) {s t : List Mark} (alike : like.Holds none s t) :
    like.Aligned ((Label.marksAfter? rule s).getD s) ((Label.marksAfter? rule t).getD t) := by
  cases rule with
  | colon => exact rel_getD alike.afterIndented (fun _ _ => Holds.aligned) alike.aligned
  | column => exact rel_getD (rel_bind alike.afterIndented fun _ _ => Holds.afterBlank) (fun _ _ => id) alike.aligned

section Parts
variable {separator : UInt8} (cuts : isSymbol separator = true)
include cuts

theorem isOutside_gap (mark : Mark) (gap : like.isGap mark = true) : mark.isOutside separator = false := by
  rw [Mark.isOutside, symbol_not_gap cuts mark gap, Bool.and_false]

theorem splitOnP_gap (mark : Mark) (s : List Mark) (gap : like.isGap mark = true) :
    (mark :: s).splitOnP (·.isOutside separator) =
      (s.splitOnP (·.isOutside separator)).modifyHead (mark :: ·) := by
  rw [List.splitOnP_cons_eq_if_modifyHead, isOutside_gap cuts mark gap]
  rfl

/-- The first part of two lines starts where the lines do, and the others start outside literals. -/
theorem Holds.parts {delimiter : Option UInt8} {s t : List Mark} (alike : like.Holds delimiter s t) :
    ∃ first others first' others', s.splitOnP (·.isOutside separator) = first :: others ∧
      t.splitOnP (·.isOutside separator) = first' :: others' ∧ like.Holds delimiter first first' ∧
      List.Forall₂ (like.Holds none) others others' := by
  induction alike with
  | nil delimiter => exact ⟨[], [], [], [], List.splitOnP_nil, List.splitOnP_nil, .nil delimiter, .nil⟩
  | outside b c s t same rest ih =>
      obtain ⟨first, others, first', others', split, split', front, behind⟩ := ih
      have agree : (Mark.outside b).isOutside separator = (Mark.outside c).isOutside separator :=
        (insensitive_symbol cuts).upper b c (like.outside_upper b c same)
      rw [List.splitOnP_cons_eq_if_modifyHead, List.splitOnP_cons_eq_if_modifyHead, agree, split, split']
      cases (Mark.outside c).isOutside separator with
      | true => exact ⟨[], first :: others, [], first' :: others', rfl, rfl, .nil none, .cons front behind⟩
      | false => exact ⟨_, others, _, others', rfl, rfl, .outside b c _ _ same front, behind⟩
  | gap b c s t left right rest ih =>
      obtain ⟨first, others, first', others', split, split', front, behind⟩ := ih
      rw [splitOnP_gap cuts b s left, splitOnP_gap cuts c t right, split, split']
      exact ⟨_, others, _, others', rfl, rfl, .gap b c _ _ left right front, behind⟩
  | longer b c s t left right rest ih =>
      obtain ⟨first, others, first', others', split, split', front, behind⟩ := ih
      -- No separator is blank, so the first part starts with the blanks that the line starts with.
      obtain ⟨word, words, parts⟩ := List.exists_cons_of_ne_nil (List.splitOnP_ne_nil (·.isOutside separator) s)
      rw [splitOnP_gap cuts b _ left, split]
      rw [splitOnP_gap cuts c s right, parts, List.modifyHead_cons, List.cons.injEq] at split
      obtain ⟨rfl, rfl⟩ := split
      exact ⟨_, words, first', others', rfl, split', .longer b c _ _ left right front, behind⟩
  | shorter b c s t left right rest ih =>
      obtain ⟨first, others, first', others', split, split', front, behind⟩ := ih
      obtain ⟨word, words, parts⟩ := List.exists_cons_of_ne_nil (List.splitOnP_ne_nil (·.isOutside separator) t)
      rw [splitOnP_gap cuts b _ left, split']
      rw [splitOnP_gap cuts c t right, parts, List.modifyHead_cons, List.cons.injEq] at split'
      obtain ⟨rfl, rfl⟩ := split'
      exact ⟨first, others, _, words, split, rfl, .shorter b c _ _ left right front, behind⟩
  | opening q s t quote rest ih =>
      obtain ⟨first, others, first', others', split, split', front, behind⟩ := ih
      rw [List.splitOnP_cons_eq_if_modifyHead, List.splitOnP_cons_eq_if_modifyHead, split, split']
      exact ⟨_, others, _, others', rfl, rfl, .opening q _ _ quote front, behind⟩
  | inside q b c s t left right same rest ih =>
      obtain ⟨first, others, first', others', split, split', front, behind⟩ := ih
      rw [List.splitOnP_cons_eq_if_modifyHead, List.splitOnP_cons_eq_if_modifyHead, split, split']
      exact ⟨_, others, _, others', rfl, rfl, .inside q b c _ _ left right same front, behind⟩
  | closing q s t rest ih =>
      obtain ⟨first, others, first', others', split, split', front, behind⟩ := ih
      rw [List.splitOnP_cons_eq_if_modifyHead, List.splitOnP_cons_eq_if_modifyHead, split, split']
      exact ⟨_, others, _, others', rfl, rfl, .closing q _ _ front, behind⟩

/-- Blanks at the front of a line are at the front of its first part. -/
theorem splitOnP_gaps (like : Likeness) (s : List Mark) : ∃ first bare others,
    s.splitOnP (·.isOutside separator) = first :: others ∧
      (s.dropWhile like.isGap).splitOnP (·.isOutside separator) = bare :: others ∧
      first.dropWhile like.isGap = bare.dropWhile like.isGap := by
  induction s with
  | nil => exact ⟨[], [], [], List.splitOnP_nil, List.splitOnP_nil, rfl⟩
  | cons mark s ih =>
      rw [List.dropWhile_cons]
      split
      · next gap =>
          obtain ⟨first, bare, others, split, rest, same⟩ := ih
          refine ⟨mark :: first, bare, others, ?_, rest, ?_⟩
          · rw [splitOnP_gap cuts mark s gap, split, List.modifyHead_cons]
          · rw [List.dropWhile_cons, if_pos gap, same]
      · obtain ⟨first, others, parts⟩ :=
          List.exists_cons_of_ne_nil (List.splitOnP_ne_nil (·.isOutside separator) (mark :: s))
        exact ⟨first, first, others, parts, parts, rfl⟩

theorem Aligned.parts {s t : List Mark} (aligned : like.Aligned s t) :
    List.Forall₂ like.Aligned (s.splitOnP (·.isOutside separator)) (t.splitOnP (·.isOutside separator)) := by
  obtain ⟨first, bare, others, split, behind, same⟩ := splitOnP_gaps cuts like s
  obtain ⟨first', bare', others', split', behind', same'⟩ := splitOnP_gaps cuts like t
  obtain ⟨_, _, _, _, parts, parts', front, rest⟩ := Holds.parts cuts aligned
  rw [behind, List.cons.injEq] at parts
  rw [behind', List.cons.injEq] at parts'
  obtain ⟨rfl, rfl⟩ := parts
  obtain ⟨rfl, rfl⟩ := parts'
  rw [split, split']
  refine .cons ?_ (rest.imp fun _ _ => Holds.aligned)
  rw [Aligned, same, same']
  exact front.aligned

theorem Aligned.splitOutside {s t : Text} (aligned : like.Aligned (marks s) (marks t)) :
    List.Forall₂ (fun s t => like.Aligned (marks s) (marks t)) (splitOutside separator s)
      (splitOutside separator t) := by
  have separates := isBreak_of_isSymbol cuts
  have parts := aligned.parts cuts
  rw [Cut.marks separator separates s _ (cut_splitOutside separator separates s),
    Cut.marks separator separates t _ (cut_splitOutside separator separates t)] at parts
  rwa [List.forall₂_map_left_iff, List.forall₂_map_right_iff] at parts

end Parts

/-! Canonical spelling -/

theorem isBlank_gap (mark : Mark) (gap : like.isGap mark = true) : mark.isBlank = true :=
  insensitive_blank.gap mark gap

theorem tidyFrom_blank (started apart : Bool) (s : List Mark) (blank : s.head?.any Mark.isBlank = true) :
    tidyFrom started apart s = tidyFrom started true s := by
  cases s with
  | nil => rfl
  | cons mark s =>
      have first : mark.isBlank = true := blank
      rw [tidyFrom, tidyFrom, if_pos first, if_pos first]

theorem Holds.space {s t : List Mark} (alike : like.Holds none s t) (spaced : Bool) :
    like.Holds none ((if spaced then [Mark.outside ' '] else []) ++ s)
      ((if spaced then [Mark.outside ' '] else []) ++ t) := by
  cases spaced with
  | false => exact alike
  | true => exact .outside ' ' ' ' s t (like.outside_refl ' ') alike

theorem Holds.tidyFrom {delimiter : Option UInt8} {s t : List Mark} (alike : like.Holds delimiter s t)
    (started apart : Bool) (together : delimiter.isSome = true → apart = false) :
    like.settled.Holds delimiter (tidyFrom started apart s) (tidyFrom started apart t) := by
  induction alike generalizing started apart with
  | nil delimiter => exact .nil delimiter
  | outside b c s t same rest ih =>
      have upper := like.outside_upper b c same
      rw [Source.tidyFrom, Source.tidyFrom, insensitive_blank.upper b c upper]
      split
      · exact ih started true (by simp)
      · exact (Holds.outside _ _ _ _ upper (ih true false (by simp))).space (started && apart)
  | gap b c s t first second rest ih =>
      rw [Source.tidyFrom, Source.tidyFrom, if_pos (isBlank_gap b first), if_pos (isBlank_gap c second)]
      exact ih started true (by simp)
  | longer b c s t first second rest ih =>
      -- Behind one blank or behind several, the next word is set apart once.
      have blank := (rest.head insensitive_blank rfl).symm.trans (isBlank_gap c second)
      rw [Source.tidyFrom, if_pos (isBlank_gap b first), tidyFrom_blank started apart t blank]
      exact ih started true (by simp)
  | shorter b c s t first second rest ih =>
      have blank := (rest.head insensitive_blank rfl).trans (isBlank_gap c second)
      have skipped : Source.tidyFrom started apart (b :: c :: t) = Source.tidyFrom started true (c :: t) :=
        if_pos (isBlank_gap b first)
      rw [tidyFrom_blank started apart s blank, skipped]
      exact ih started true (by simp)
  | opening q s t quote rest ih =>
      exact (Holds.opening q _ _ quote (ih true false (by simp))).space (started && apart)
  | inside q b c s t first second same rest ih =>
      rw [together rfl]
      have later : like.settled.Holds (some q) _ _ :=
        .inside q b c _ _ first second same (ih true false (by simp))
      cases started <;> exact later
  | closing q s t rest ih =>
      rw [together rfl]
      have later := Holds.closing q _ _ (ih true false (by simp))
      cases started <;> exact later

theorem tidyFrom_gaps (like : Likeness) (apart : Bool) (s : List Mark) :
    tidyFrom false apart s = tidyFrom false false (s.dropWhile like.isGap) := by
  induction s generalizing apart with
  | nil => rfl
  | cons mark s ih =>
      rw [List.dropWhile_cons]
      split
      · next gap => rw [tidyFrom, if_pos (isBlank_gap mark gap), ih]
      · rfl

theorem Aligned.tidy {s t : List Mark} (aligned : like.Aligned s t) :
    like.settled.Holds none (tidy s) (tidy t) := by
  rw [Source.tidy, Source.tidy, tidyFrom_gaps like false s, tidyFrom_gaps like false t]
  exact Holds.tidyFrom aligned false false (by simp)

/-- The same byte, read by two scans that are alike. -/
theorem Holds.same {first second : Scan} (scans : first.Alike second) (b : UInt8) {s t : List Mark}
    (rest : like.Holds (first.next b).delimiter s t) :
    like.Holds first.delimiter (⟨b, first.quotes b⟩ :: s) (⟨b, second.quotes b⟩ :: t) := by
  rw [← scans.quotes b]
  cases held : first.delimiter with
  | none =>
      cases opens : first.opens b with
      | true =>
          have opened : (first.next b).delimiter = some b := by simp [Scan.next, held, opens]
          have quoted : first.quotes b = true := by simp [Scan.quotes, opens]
          rw [opened] at rest
          rw [quoted]
          exact .opening b s t (first.isQuote_of_opens b opens) rest
      | false =>
          have still : (first.next b).delimiter = none := by simp [Scan.next, held, opens]
          have outside : first.quotes b = false := (first.quotes_eq_false b).mpr ⟨held, opens⟩
          rw [still] at rest
          rw [outside]
          exact .outside b b s t (like.outside_refl b) rest
  | some q =>
      have quoted : first.quotes b = true := by simp [Scan.quotes, held]
      rw [quoted]
      by_cases closing : b = q
      · subst closing
        have closed : (first.next b).delimiter = none := by simp [Scan.next, held]
        rw [closed] at rest
        exact .closing b s t rest
      · have still : (first.next b).delimiter = some q := by simp [Scan.next, held, closing]
        rw [still] at rest
        exact .inside q b b s t closing closing (like.inside_refl b) rest

theorem Holds.endsInColon (rule : LabelRule) {line line' : Text} (alike : like.Holds none (marks line) (marks line'))
    (colon : Label.EndsInColon rule line) : Label.EndsInColon rule line' := by
  have start : ∀ line : Text, line.head?.any Label.isBlank = (marks line).head?.any (Label.isBlank ·.byte) := by
    intro line
    have first : (bytes (marks line)).head? = (marks line).head?.map Mark.byte := List.head?_map
    rw [bytes_marks] at first
    rw [first, Option.any_map]
  refine colon.imp_right fun blank => ?_
  have same := alike.head insensitive_isBlank rfl
  rw [← start, ← start] at same
  exact (Option.any_eq_true _ _).mp (same.symm.trans ((Option.any_eq_true _ _).mpr blank))

end Likeness

theorem marksFrom_isEmpty (scan : Scan) (s : Text) : (marksFrom scan s).isEmpty = s.isEmpty := by
  cases s <;> rfl

namespace Dialect

theorem all_symbols (dialect : Dialect) (known : dialect ∈ all) :
    (∀ marker ∈ dialect.comments, marker ≠ [] ∧ marker.all Likeness.isSymbol = true) ∧
      ∀ separator ∈ dialect.separator, Likeness.isSymbol separator = true := by
  have symbols : all.all (fun dialect => dialect.separator.all Likeness.isSymbol) = true := by decide
  constructor
  · simp only [all, List.mem_cons, List.not_mem_nil, or_false] at known
    rcases known with rfl | rfl | rfl <;> decide
  · exact (Option.all_eq_true _ _).mp (List.all_eq_true.mp symbols dialect known)

/-- The statements of two lines, as written, differ in the insides of literals only. -/
theorem written_alike (dialect : Dialect) (known : dialect ∈ all) (like : Likeness) (raw raw' : Text)
    (colon : Label.EndsInColon dialect.label raw) (alike : like.Holds none (marks raw) (marks raw')) :
    List.Forall₂ (fun s t => like.settled.Holds none (marks s) (marks t))
      (dialect.written (Label.remove dialect.label (withoutComment dialect.comments raw)))
      (dialect.written (Label.remove dialect.label (withoutComment dialect.comments raw'))) := by
  obtain ⟨symbols, cuts⟩ := dialect.all_symbols known
  have code : like.Holds none (marks (withoutComment dialect.comments raw))
      (marks (withoutComment dialect.comments raw')) := by
    rw [marks_withoutComment, marks_withoutComment]
    exact alike.code symbols
  have first := Likeness.endsInColon_withoutComment symbols dialect.label raw colon
  have second := code.endsInColon dialect.label first
  have line : like.Aligned (marks (Label.remove dialect.label (withoutComment dialect.comments raw)))
      (marks (Label.remove dialect.label (withoutComment dialect.comments raw'))) := by
    rw [(Label.marks_remove _ _ first).1, (Label.marks_remove _ _ second).1]
    exact code.afterLabel dialect.label
  generalize Label.remove dialect.label (withoutComment dialect.comments raw) = bare at line
  generalize Label.remove dialect.label (withoutComment dialect.comments raw') = bare' at line
  have parts : List.Forall₂ (fun s t => like.Aligned (marks s) (marks t)) (dialect.parts bare)
      (dialect.parts bare') := by
    rw [Dialect.parts, Dialect.parts]
    cases chosen : dialect.separator with
    | none => exact .cons line .nil
    | some separator =>
        exact line.splitOutside (cuts separator chosen)
  rw [written, written]
  apply List.rel_filter
  · intro s t same
    have empty := same.isEmpty
    rw [marks_eq, marks_eq, marksFrom_isEmpty, marksFrom_isEmpty] at empty
    simp only [empty]
  · rw [List.forall₂_map_left_iff, List.forall₂_map_right_iff]
    refine parts.imp fun s t aligned => ?_
    rw [(marks_clean s).1, (marks_clean t).1]
    exact aligned.tidy

end Dialect

end Z80Cost.Source
