import Z80Cost.Proofs.Source.Breaks

/-!
Canonical spelling from the left: a blank is remembered and becomes one space in front of the next
word. A statement in canonical spelling is marked as the text that it spells, blanks and case apart.
-/

namespace Z80Cost.Source

def Mark.respelled (mark : Mark) : Mark := ⟨mark.spelled, mark.quoted⟩

/-- The marks in canonical spelling; `started` behind the first word, `apart` behind a blank. -/
def tidyFrom (started apart : Bool) : List Mark → List Mark
  | [] => []
  | mark :: marked =>
      if mark.isBlank then tidyFrom started true marked
      else (if started && apart then [Mark.outside ' '] else []) ++ mark.respelled :: tidyFrom true false marked

def tidy (marked : List Mark) : List Mark := tidyFrom false false marked

/-- Words in canonical spelling, a space in front of each. -/
def spaced (words : List (List Mark)) : List Mark :=
  words.flatMap fun word => Mark.outside ' ' :: word.map Mark.respelled

theorem tidyFrom_started (marked : List Mark) :
    ∃ word words, marked.splitOnP (·.isBlank) = word :: words ∧
      tidyFrom true false marked = word.map Mark.respelled ++ spaced (words.filter (!·.isEmpty)) ∧
      tidyFrom true true marked = spaced ((word :: words).filter (!·.isEmpty)) := by
  induction marked with
  | nil => exact ⟨[], [], List.splitOnP_nil, rfl, rfl⟩
  | cons mark marked ih =>
      obtain ⟨word, words, split, glued, behind⟩ := ih
      rw [List.splitOnP_cons_eq_if_modifyHead, split]
      cases blank : mark.isBlank with
      | true =>
          refine ⟨[], word :: words, rfl, ?_, ?_⟩
          · simp only [tidyFrom, blank, ↓reduceIte, behind, List.map_nil, List.nil_append]
          · simp [tidyFrom, blank, behind]
      | false =>
          refine ⟨mark :: word, words, rfl, ?_, ?_⟩
          · simp [tidyFrom, blank, glued]
          · simp [tidyFrom, blank, glued, spaced]

theorem space_eq : Text.ofString " " = [(' ' : UInt8)] := by decide

theorem join_spaced (word : List Mark) (words : List (List Mark)) :
    Text.join " " ((word :: words).map (·.map Mark.spelled)) = bytes (word.map Mark.respelled ++ spaced words) := by
  have spelled : ∀ marked : List Mark, bytes (marked.map Mark.respelled) = marked.map Mark.spelled := by
    intro marked
    simp [bytes, Mark.respelled]
  induction words generalizing word with
  | nil => simp [Text.join, spaced, spelled]
  | cons next words ih =>
      rw [List.map_cons, List.map_cons, Text.join, List.intercalate_cons_cons, ← Text.join, ← List.map_cons,
        ih next, space_eq]
      simp [spaced, bytes, Mark.respelled, Mark.outside]

theorem tidyFrom_fresh (apart : Bool) (marked : List Mark) :
    bytes (tidyFrom false apart marked) =
      Text.join " " (((marked.splitOnP (·.isBlank)).filter (!·.isEmpty)).map (·.map Mark.spelled)) := by
  induction marked generalizing apart with
  | nil => rfl
  | cons mark marked ih =>
      rw [List.splitOnP_cons_eq_if_modifyHead]
      cases blank : mark.isBlank with
      | true => simpa [tidyFrom, blank] using ih true
      | false =>
          obtain ⟨word, words, split, glued, _⟩ := tidyFrom_started marked
          have solid : ((mark :: word) :: words).filter (!·.isEmpty) =
              (mark :: word) :: words.filter (!·.isEmpty) := rfl
          rw [split, if_neg (by simp), List.modifyHead_cons, solid, join_spaced]
          simp [tidyFrom, blank, glued]

theorem clean_eq (s : Text) : clean s = bytes (tidy (marks s)) := (tidyFrom_fresh false (marks s)).symm

theorem Scan.Alike.symm {first second : Scan} (alike : first.Alike second) : second.Alike first where
  delimiter := alike.delimiter.symm
  quote := fun q inside => alike.quote q (alike.delimiter.trans inside)
  pair := fun outside => (alike.pair (alike.delimiter.trans outside)).symm
  half := fun outside => (alike.half (alike.delimiter.trans outside)).symm

theorem Scan.Alike.trans {first second third : Scan} (alike : first.Alike second) (next : second.Alike third) :
    first.Alike third where
  delimiter := alike.delimiter.trans next.delimiter
  quote := alike.quote
  pair := fun outside => (alike.pair outside).trans (next.pair (alike.delimiter.symm.trans outside))
  half := fun outside => (alike.half outside).trans (next.half (alike.delimiter.symm.trans outside))

theorem isLower_upperByte (b : UInt8) : Text.isLower (Text.upperByte b) = false := by
  cases lower : Text.isLower b with
  | false => simp [Text.upperByte, lower]
  | true =>
      have bounds : 0x61 ≤ b ∧ b ≤ 0x7A := by simpa [Text.isLower] using lower
      have upper : Text.isLower (b - 0x20) = false := by
        simp only [Text.isLower, Bool.and_eq_false_iff, decide_eq_false_iff_not]
        left
        grind
      simpa [Text.upperByte, lower] using upper

theorem upperByte_upperByte (b : UInt8) : Text.upperByte (Text.upperByte b) = Text.upperByte b := by
  rw [Text.upperByte.eq_def (Text.upperByte b), isLower_upperByte]
  rfl

/-- Where the scan of a text and that of its canonical spelling stand: alike, or behind a blank that
is not yet spelled. -/
structure Spells (started apart : Bool) (scan spelling : Scan) : Prop where
  together : apart = false → scan.Alike spelling
  behind : apart = true → scan.Alike {} ∧ spelling.delimiter = none
  fresh : started = false → spelling.Alike {}

theorem isBreak_of_blank (mark : Mark) (blank : mark.isBlank = true) :
    mark.quoted = false ∧ isBreak mark.byte = true := by
  simp only [Mark.isBlank, Bool.and_eq_true, Bool.not_eq_true', Bool.or_eq_true, beq_iff_eq] at blank
  refine ⟨blank.1, ?_⟩
  rcases blank.2 with ((same | same) | same) | same <;> rw [same] <;> decide

section Spelling
variable {started apart : Bool} {scan spelling : Scan} (spells : Spells started apart scan spelling)
include spells

theorem Spells.outside (closed : scan.delimiter = none) : spelling.delimiter = none := by
  cases held : apart with
  | false => exact (spells.together held).delimiter.symm.trans closed
  | true => exact (spells.behind held).2

theorem Spells.blank (b : UInt8) (closed : scan.delimiter = none) (cut : isBreak b = true) :
    Spells started true (scan.next b) spelling where
  together := by simp
  behind := fun _ => ⟨next_break scan b closed cut, spells.outside closed⟩
  fresh := spells.fresh

/-- Once the space in front of a word is spelled, the scans are alike. -/
theorem Spells.word :
    scan.Alike (scanAfter spelling (bytes (if started && apart then [Mark.outside ' '] else []))) := by
  cases held : apart with
  | false =>
      rw [Bool.and_false]
      exact spells.together held
  | true =>
      obtain ⟨restarted, closed⟩ := spells.behind held
      cases first : started with
      | false => exact restarted.trans (spells.fresh first).symm
      | true => exact restarted.trans (next_break spelling ' ' closed (by decide)).symm

end Spelling

theorem Scan.Alike.respelled {scan spelling : Scan} (alike : scan.Alike spelling) (b : UInt8) :
    (Mark.respelled ⟨b, scan.quotes b⟩).quoted = spelling.quotes (Mark.respelled ⟨b, scan.quotes b⟩).byte ∧
      (scan.next b).Alike (spelling.next (Mark.respelled ⟨b, scan.quotes b⟩).byte) := by
  cases quoted : scan.quotes b with
  | true =>
      refine ⟨?_, alike.next b⟩
      exact quoted.symm.trans (alike.quotes b)
  | false =>
      obtain ⟨closed, shut⟩ := (scan.quotes_eq_false b).mp quoted
      have same : Text.upperByte b = Text.upperByte (Text.upperByte b) := (upperByte_upperByte b).symm
      refine ⟨Eq.symm ?_, alike.next_outside b (Text.upperByte b) closed same⟩
      refine (spelling.quotes_eq_false _).mpr ⟨alike.delimiter.symm.trans closed, ?_⟩
      exact (alike.opens b _ closed same).symm.trans shut

theorem marksFrom_tidyFrom (started apart : Bool) (scan spelling : Scan) (s : Text)
    (spells : Spells started apart scan spelling) :
    marksFrom spelling (bytes (tidyFrom started apart (marksFrom scan s))) =
        tidyFrom started apart (marksFrom scan s) ∧
      (scanAfter spelling (bytes (tidyFrom started apart (marksFrom scan s)))).delimiter.isSome =
        (scanAfter scan s).delimiter.isSome := by
  induction s generalizing started apart scan spelling with
  | nil =>
      refine ⟨rfl, ?_⟩
      cases held : apart with
      | false => exact congrArg Option.isSome (spells.together held).delimiter.symm
      | true =>
          obtain ⟨restarted, closed⟩ := spells.behind held
          change spelling.delimiter.isSome = scan.delimiter.isSome
          rw [restarted.delimiter, closed]
  | cons b s ih =>
      rw [marksFrom, tidyFrom]
      split
      · next blank =>
          obtain ⟨outside, cut⟩ := isBreak_of_blank _ blank
          have closed := ((scan.quotes_eq_false b).mp outside).1
          exact ih started true _ spelling (spells.blank b closed cut)
      · have alike := spells.word
        generalize gap : (if started && apart then [Mark.outside ' '] else []) = space at alike
        have spaced : marksFrom spelling (bytes space) = space := by
          rw [← gap]
          split
          · next both =>
              have closed := (spells.behind (by simp_all)).2
              simp [bytes, marksFrom, Mark.outside, Scan.quotes, closed, Scan.opens_other _ ' ' (by decide)]
          · rfl
        obtain ⟨quoted, onward⟩ := alike.respelled b
        obtain ⟨marked, ends⟩ := ih true false _ _ ⟨fun _ => onward, by simp, by simp⟩
        have whole : ∀ rest : List Mark, bytes (space ++ Mark.respelled ⟨b, scan.quotes b⟩ :: rest) =
            bytes space ++ (Mark.respelled ⟨b, scan.quotes b⟩).byte :: bytes rest := by
          intro rest
          simp [bytes]
        rw [whole]
        refine ⟨?_, ?_⟩
        · rw [marksFrom_append, spaced, marksFrom, marked, ← quoted]
        · rw [scanAfter_append]
          exact ends

/-- In canonical spelling a text has the marks that it had, respelled, and it leaves a literal open if
it did. -/
theorem marks_clean (s : Text) : marks (clean s) = tidy (marks s) ∧ isOpen (clean s) = isOpen s := by
  have start : Spells false false {} {} := ⟨fun _ => Scan.alike_start, by simp, fun _ => Scan.alike_start⟩
  rw [clean_eq, isOpen, isOpen, marks_eq s, marks_eq, tidy]
  exact marksFrom_tidyFrom false false {} {} s start

end Z80Cost.Source
