import Mathlib.Data.List.TakeWhile
import Z80Cost.Proofs.Text.Trim
import Z80Cost.Source.Statement

/-!
What a line is cut at counts outside literals only. Texts whose literals are closed are marked one by
one, so a statement written with one space and commas is read back as it was.
-/

namespace Z80Cost.Source

def marksFrom (scan : Scan) : Text → List Mark
  | [] => []
  | b :: s => ⟨b, scan.quotes b⟩ :: marksFrom (scan.next b) s

def scanAfter (scan : Scan) (s : Text) : Scan := s.foldl Scan.next scan

theorem marksOnto_eq (done : List Mark) (scan : Scan) (s : Text) :
    marksOnto done scan s = (marksFrom scan s).reverse ++ done := by
  induction s generalizing done scan with
  | nil => rfl
  | cons b s ih => simp [marksOnto, marksFrom, ih]

theorem marks_eq (s : Text) : marks s = marksFrom {} s := by
  simp [marks, marksOnto_eq]

theorem marksFrom_append (scan : Scan) (s t : Text) :
    marksFrom scan (s ++ t) = marksFrom scan s ++ marksFrom (scanAfter scan s) t := by
  induction s generalizing scan with
  | nil => rfl
  | cons b s ih => simp [marksFrom, scanAfter, ih]

theorem bytes_marksFrom (scan : Scan) (s : Text) : bytes (marksFrom scan s) = s := by
  induction s generalizing scan with
  | nil => rfl
  | cons b s ih =>
      rw [marksFrom, bytes, List.map_cons]
      exact congrArg (b :: ·) (ih (scan.next b))

theorem bytes_marks (s : Text) : bytes (marks s) = s := by
  rw [marks_eq, bytes_marksFrom]

def Mark.outside (b : UInt8) : Mark := ⟨b, false⟩

/-- Outside a literal, the text opens none. -/
def Literalless (s : Text) : Prop :=
  ∀ scan : Scan, scan.delimiter = none →
    marksFrom scan s = s.map Mark.outside ∧ (scanAfter scan s).delimiter = none

theorem literalless_nil : Literalless [] := fun _ outside => ⟨rfl, outside⟩

theorem literalless_of_no_quote (s : Text) (unquoted : ∀ b ∈ s, b ≠ '"' ∧ b ≠ '\'') :
    Literalless s := by
  induction s with
  | nil => exact literalless_nil
  | cons b s ih =>
      have rest := ih fun c member => unquoted c (List.mem_cons_of_mem b member)
      -- The scan still remembers the bytes it passed, so it is general.
      intro scan outside
      obtain ⟨double, single⟩ := unquoted b List.mem_cons_self
      have shut : scan.opens b = false := by simp [Scan.opens, double, single]
      have free : (scan.next b).delimiter = none := by simp [Scan.next, outside, shut]
      obtain ⟨marked, ends⟩ := rest (scan.next b) free
      refine ⟨?_, ends⟩
      simp [marksFrom, Scan.quotes, outside, shut, marked, Mark.outside]

theorem literalless_of_all (s : Text) (unquoted : s.all (fun b => b != ('"' : UInt8) && b != ('\'' : UInt8)) = true) :
    Literalless s :=
  literalless_of_no_quote s fun b member => by simpa using List.all_eq_true.mp unquoted b member

theorem marks_literalless (s : Text) (plain : Literalless s) : marks s = s.map Mark.outside := by
  rw [marks_eq]
  exact (plain {} rfl).1

/-- Wherever it begins outside literals and not right after the register pair `AF`, the text is marked
alike, and it ends outside literals. -/
def Balanced (s : Text) : Prop :=
  ∀ scan : Scan, scan.delimiter = none → scan.afterPair = false →
    marksFrom scan s = marks s ∧ (scanAfter scan s).delimiter = none

theorem balanced_literalless (s : Text) (plain : Literalless s) : Balanced s := by
  intro scan outside _
  rw [marks_literalless s plain]
  exact plain scan outside

/-- A byte that opens no literal and does not end the register pair `AF`. -/
def isApart (b : UInt8) : Bool := b != '"' && b != '\'' && Text.upperByte b != 'F'

section Separated
variable (s t : Text) (b : UInt8) (first : Balanced s) (second : Balanced t) (apart : isApart b = true)
include first second apart

theorem marksFrom_separated (scan : Scan) (outside : scan.delimiter = none) (fresh : scan.afterPair = false) :
    marksFrom scan (s ++ b :: t) = marks s ++ Mark.outside b :: marks t ∧
      (scanAfter scan (s ++ b :: t)).delimiter = none := by
  simp only [isApart, Bool.and_eq_true, bne_iff_ne] at apart
  obtain ⟨⟨double, single⟩, other⟩ := apart
  obtain ⟨before, between⟩ := first scan outside fresh
  have shut : (scanAfter scan s).opens b = false := by simp [Scan.opens, double, single]
  have free : ((scanAfter scan s).next b).delimiter = none := by simp [Scan.next, between, shut]
  have passed : ((scanAfter scan s).next b).afterPair = false := by
    simp [Scan.next, Scan.afterPair, other]
  obtain ⟨after, ends⟩ := second ((scanAfter scan s).next b) free passed
  constructor
  · rw [marksFrom_append, before, marksFrom, after]
    simp [Scan.quotes, between, shut, Mark.outside]
  · rw [scanAfter, List.foldl_append]
    exact ends

theorem marks_separated : marks (s ++ b :: t) = marks s ++ Mark.outside b :: marks t := by
  rw [marks_eq]
  exact (marksFrom_separated s t b first second apart {} rfl (by decide)).1

theorem balanced_separated : Balanced (s ++ b :: t) := by
  intro scan outside fresh
  rw [marks_separated s t b first second apart]
  exact marksFrom_separated s t b first second apart scan outside fresh

end Separated

theorem join_cons_cons (first second : Text) (others : List Text) :
    Text.join "," (first :: second :: others) =
      first ++ (',' : UInt8) :: Text.join "," (second :: others) := by
  have comma : (("," : String) : Text) = [(',' : UInt8)] := by decide
  rw [Text.join, List.intercalate_cons_cons, comma, List.append_assoc]
  rfl

theorem balanced_join (parts : List Text) (each : ∀ part ∈ parts, Balanced part) :
    Balanced (Text.join "," parts) ∧
      marks (Text.join "," parts) = [Mark.outside ','].intercalate (parts.map marks) := by
  induction parts with
  | nil => exact ⟨balanced_literalless [] literalless_nil, rfl⟩
  | cons part rest ih =>
      obtain ⟨here, later⟩ := List.forall_mem_cons.mp each
      cases rest with
      | nil => simpa [Text.join] using here
      | cons next rest =>
          obtain ⟨others, marked⟩ := ih later
          have comma : isApart ',' = true := by decide
          rw [join_cons_cons]
          refine ⟨balanced_separated _ _ ',' here others comma, ?_⟩
          rw [marks_separated _ _ ',' here others comma, marked]
          simp only [List.map_cons, List.intercalate_cons_cons, List.append_assoc, List.singleton_append]

theorem splitOutside_eq (separator : UInt8) (s : Text) :
    splitOutside separator s = ((marks s).splitOn (Mark.outside separator)).map bytes := by
  have same : (fun mark : Mark => mark.isOutside separator) = (· == Mark.outside separator) := by
    funext mark
    obtain ⟨b, quoted⟩ := mark
    rw [Bool.eq_iff_iff, beq_iff_eq]
    simp [Mark.isOutside, Mark.outside, and_comm]
  rw [splitOutside, same, List.splitOn_eq_splitOnP]

theorem splitOutside_free (separator : UInt8) (s : Text) (free : Mark.outside separator ∉ marks s) :
    splitOutside separator s = [s] := by
  rw [splitOutside_eq, List.splitOn_eq_singleton free, List.map_singleton, bytes_marks]

theorem splitOutside_join (parts : List Text) (some : parts ≠ []) (each : ∀ part ∈ parts, Balanced part)
    (free : ∀ part ∈ parts, Mark.outside ',' ∉ marks part) :
    splitOutside ',' (Text.join "," parts) = parts := by
  have marked : ∀ part ∈ parts.map marks, Mark.outside ',' ∉ part := by
    intro part member
    obtain ⟨source, inside, rfl⟩ := List.mem_map.mp member
    exact free source inside
  have same : bytes ∘ marks = id := by
    funext part
    exact bytes_marks part
  rw [splitOutside_eq, (balanced_join parts each).2,
    List.splitOn_intercalate _ marked (by simpa using some), List.map_map, same, List.map_id]

namespace Statement

/-- What an operand is like that is read back as it was written. -/
structure IsOperand (s : Text) : Prop where
  nonempty : s ≠ []
  trimmed : s.trim = s
  comma_free : (',' : UInt8) ∉ s
  literalless : Literalless s

/-- The same of an operand that may hold literals. -/
structure IsField (s : Text) : Prop where
  nonempty : s ≠ []
  trimmed : s.trim = s
  comma_free : Mark.outside ',' ∉ marks s
  balanced : Balanced s

theorem IsOperand.isField {s : Text} (valid : IsOperand s) : IsField s where
  nonempty := valid.nonempty
  trimmed := valid.trimmed
  comma_free := by
    rw [marks_literalless s valid.literalless]
    simpa [Mark.outside] using valid.comma_free
  balanced := balanced_literalless s valid.literalless

theorem solid_comma : Text.isSolid ',' = true := by decide

theorem join_trimRight (operands : List Text) (each : ∀ operand ∈ operands, operand.trimRight = operand) :
    (Text.join "," operands).trimRight = Text.join "," operands := by
  induction operands with
  | nil => rfl
  | cons first rest ih =>
      have others := ih fun other member => each other (List.mem_cons_of_mem first member)
      cases rest with
      | nil => simpa [Text.join] using each first List.mem_cons_self
      | cons second rest =>
          rw [join_cons_cons, Text.trimRight_append_cons _ _ _ solid_comma, others]

theorem join_trimmed (operands : List Text) (each : ∀ operand ∈ operands, operand.trim = operand) :
    (Text.join "," operands).trim = Text.join "," operands := by
  have right := join_trimRight operands fun operand member =>
    (Text.trim_fixed operand (each operand member)).2
  have left : (Text.join "," operands).trimLeft = Text.join "," operands := by
    cases operands with
    | nil => rfl
    | cons first rest =>
        have start := (Text.trim_fixed first (each first List.mem_cons_self)).1
        cases rest with
        | nil => simpa [Text.join] using start
        | cons second rest =>
            rw [join_cons_cons, Text.trimLeft_append_cons _ _ _ solid_comma, start]
  rw [Text.trim, left, right]

theorem join_ne_nil (operands : List Text) (some : operands ≠ [])
    (each : ∀ operand ∈ operands, IsField operand) : Text.join "," operands ≠ [] := by
  cases operands with
  | nil => exact absurd rfl some
  | cons first rest =>
      cases rest with
      | nil => simpa [Text.join] using (each first List.mem_cons_self).nonempty
      | cons second rest => simp [join_cons_cons]

theorem operandsOf_join (operands : List Text) (some : operands ≠ [])
    (each : ∀ operand ∈ operands, IsField operand) : operandsOf (Text.join "," operands) = operands := by
  have parts : splitOutside ',' (Text.join "," operands) = operands :=
    splitOutside_join operands some (fun operand member => (each operand member).balanced)
      fun operand member => (each operand member).comma_free
  have kept : operands.map Text.trim = operands := by
    refine (List.map_congr_left fun operand member => ?_).trans (List.map_id operands)
    exact (each operand member).trimmed
  have nonempty : (Text.join "," operands).isEmpty = false := by
    simpa using join_ne_nil operands some each
  simp [operandsOf, nonempty, parts, kept]

/-- What a mnemonic is like that is read back as it was written. -/
structure IsMnemonic (s : Text) : Prop where
  nonempty : s ≠ []
  solid : ∀ b ∈ s, Text.isSolid b

theorem space_free (s : Text) (free : (' ' : UInt8) ∉ s) : ∀ b ∈ s, (b != (' ' : UInt8)) = true :=
  fun _ member => bne_iff_ne.mpr fun same => free (same ▸ member)

theorem ofText_space (s mnemonic rest : Text) (whole : s.trim = mnemonic ++ (' ' : UInt8) :: rest)
    (free : (' ' : UInt8) ∉ mnemonic) : ofText s = ⟨mnemonic, operandsOf (Text.trim rest)⟩ := by
  have word := space_free mnemonic free
  have first : (mnemonic ++ (' ' : UInt8) :: rest).takeWhile (· != (' ' : UInt8)) = mnemonic := by
    rw [List.takeWhile_append_of_pos word, List.takeWhile_cons_of_neg (by simp), List.append_nil]
  have behind : (mnemonic ++ (' ' : UInt8) :: rest).dropWhile (· != (' ' : UInt8)) = (' ' : UInt8) :: rest := by
    rw [List.dropWhile_append_of_pos word, List.dropWhile_cons_of_neg (by simp)]
  simp only [ofText, whole, first, behind]

theorem ofText_bare (s : Text) (free : (' ' : UInt8) ∉ s.trim) : ofText s = ⟨s.trim, []⟩ := by
  have none : s.trim.dropWhile (· != (' ' : UInt8)) = [] := List.dropWhile_eq_nil_iff.mpr (space_free s.trim free)
  simp only [ofText, none]

theorem ofText_cases (s : Text) : ((' ' : UInt8) ∉ s.trim ∧ ofText s = ⟨s.trim, []⟩) ∨
    ∃ mnemonic rest, s.trim = mnemonic ++ (' ' : UInt8) :: rest ∧ (' ' : UInt8) ∉ mnemonic ∧
      ofText s = ⟨mnemonic, operandsOf (Text.trim rest)⟩ := by
  by_cases free : (' ' : UInt8) ∈ s.trim
  · right
    obtain ⟨mnemonic, rest, whole, first⟩ := List.eq_append_cons_of_mem free
    exact ⟨mnemonic, rest, whole, first, ofText_space s mnemonic rest whole first⟩
  · exact .inl ⟨free, ofText_bare s free⟩

theorem mnemonic_space_free (mnemonic : Text) (valid : IsMnemonic mnemonic) : (' ' : UInt8) ∉ mnemonic := by
  have blank : Text.isSolid ' ' = false := by decide
  exact fun member => by simp [valid.solid _ member] at blank

theorem mnemonic_trimLeft (mnemonic rest : Text) (valid : IsMnemonic mnemonic) :
    (mnemonic ++ rest).trimLeft = mnemonic ++ rest := by
  cases mnemonic with
  | nil => exact absurd rfl valid.nonempty
  | cons b mnemonic => exact Text.trimLeft_cons _ b (valid.solid b List.mem_cons_self)

section Ended
variable (s mnemonic rest : Text) (b : UInt8) (ends : b = ' ' ∨ b = '\t') (whole : s.trim = mnemonic ++ b :: rest)
include ends whole

/-- Behind the blank that ends a mnemonic there is more than white space, and none at the end. -/
theorem trim_behind : Text.trim rest ≠ [] ∧ Text.trim rest = Text.trimLeft rest := by
  have behind : s.trim = (mnemonic ++ [b]) ++ rest := by simp [whole]
  have nonempty : rest ≠ [] := by
    rintro rfl
    have blank : [b] ∈ Text.blanks := by rcases ends with rfl | rfl <;> decide
    exact Text.trim_not_ends s [b] blank ⟨mnemonic, whole.symm⟩
  exact ⟨Text.trim_tail_ne_nil s _ rest behind nonempty, Text.trim_tail s _ rest behind⟩

/-- No white space reaches over that blank, so what follows may change. -/
theorem trimLeft_mnemonic (other : Text) :
    Text.trimLeft (mnemonic ++ (' ' : UInt8) :: other) = mnemonic ++ (' ' : UInt8) :: other := by
  have listed : ∀ c : UInt8, c = ' ' ∨ c = '\t' →
      [c] ∈ Text.blanks ∧ ∀ blank ∈ Text.blanks, c ∈ blank → blank.length ≤ 1 := by
    rintro c (rfl | rfl) <;> decide
  have nonempty : mnemonic ≠ [] := by
    rintro rfl
    apply Text.trim_not_starts s _ (listed b ends).1
    rw [whole]
    exact List.prefix_append [b] rest
  have front : ∀ c : UInt8, c = ' ' ∨ c = '\t' → ∀ t,
      Text.leading Text.blanks (mnemonic ++ c :: t) = Text.leading Text.blanks mnemonic := by
    intro c blank t
    apply Text.leading_append_cons
    intro mark member holds
    exact ((listed c blank).2 mark member holds).trans (List.length_pos_iff.mpr nonempty)
  apply Text.dropLeading_of_leading
  rw [front ' ' (.inl rfl), ← front b ends rest, ← whole]
  exact Text.leading_eq_zero _ _ (Text.trim_not_starts s)

theorem trim_mnemonic (other : Text) (trimmed : other.trim = other) (some : other ≠ []) :
    Text.trim (mnemonic ++ (' ' : UInt8) :: other) = mnemonic ++ (' ' : UInt8) :: other := by
  have right := (Text.trim_fixed other trimmed).2
  rw [Text.trim, trimLeft_mnemonic s mnemonic rest b ends whole other, Text.trimRight_space, right, if_neg some]

end Ended

/-- What follows a mnemonic and a space are the operands, if it is more than blanks. -/
theorem ofText_mnemonic (mnemonic rest : Text) (valid : IsMnemonic mnemonic) :
    ofText (mnemonic ++ (' ' : UInt8) :: rest) = ⟨mnemonic, operandsOf (Text.trim rest.trimRight)⟩ := by
  have free := mnemonic_space_free mnemonic valid
  have line : Text.trim (mnemonic ++ (' ' : UInt8) :: rest) =
      if rest.trimRight = [] then mnemonic else mnemonic ++ (' ' : UInt8) :: rest.trimRight := by
    rw [Text.trim, mnemonic_trimLeft mnemonic _ valid, Text.trimRight_space, Text.trimRight_solid mnemonic valid.solid]
  by_cases blank : rest.trimRight = []
  · rw [if_pos blank] at line
    rw [ofText_bare _ (by rwa [line]), line, blank]
    rfl
  · rw [if_neg blank] at line
    exact ofText_space _ mnemonic rest.trimRight line free

/-- A statement is read back from its mnemonic, a space and its operands between commas. -/
theorem ofText_fields (mnemonic : Text) (operands : List Text) (valid : IsMnemonic mnemonic)
    (each : ∀ operand ∈ operands, IsField operand) :
    ofText (mnemonic ++ (' ' : UInt8) :: Text.join "," operands) = ⟨mnemonic, operands⟩ := by
  have trimmed := join_trimmed operands fun operand member => (each operand member).trimmed
  rw [ofText_mnemonic mnemonic _ valid, (Text.trim_fixed _ trimmed).2, trimmed]
  cases operands with
  | nil => rfl
  | cons first others => rw [operandsOf_join (first :: others) (List.cons_ne_nil first others) each]

theorem ofText_join (mnemonic : Text) (operands : List Text) (valid : IsMnemonic mnemonic)
    (each : ∀ operand ∈ operands, IsOperand operand) :
    ofText (mnemonic ++ (' ' : UInt8) :: Text.join "," operands) = ⟨mnemonic, operands⟩ :=
  ofText_fields mnemonic operands valid fun operand member => (each operand member).isField

end Statement

end Z80Cost.Source
