import Z80Cost.Proofs.Source.Return

/-!
Bytes at which a line can be cut. Behind a byte outside literals that is no quote and no letter of the
register pair `AF`, a scan reads on as at the start of a line. So the pieces of a line that comments,
labels and separators leave are marked as they were in the line.
-/

namespace Z80Cost

namespace Text

/-- A byte that no other byte is a spelling of. -/
def isCaseless (b : UInt8) : Bool := !isUpper b && !isLower b

theorem upperByte_lower (b : UInt8) (lower : isLower b = true) : isUpper (upperByte b) = true := by
  have bounds : 0x61 ≤ b ∧ b ≤ 0x7A := by simpa [isLower] using lower
  have upper : 0x41 ≤ b - 0x20 ∧ b - 0x20 ≤ 0x5A := by grind
  simp [upperByte, lower, isUpper, upper]

theorem upperByte_eq_caseless (b c : UInt8) (caseless : isCaseless c = true) : upperByte b = c ↔ b = c := by
  simp only [isCaseless, Bool.and_eq_true, Bool.not_eq_true'] at caseless
  cases lower : isLower b with
  | false => simp [upperByte, lower]
  | true =>
      constructor
      · rintro rfl
        rw [upperByte_lower b lower] at caseless
        simp at caseless
      · rintro rfl
        rw [lower] at caseless
        simp at caseless

/-- Bytes that differ in case only are the same caseless byte, or none of them is it. -/
theorem beq_caseless (b c h : UInt8) (same : upperByte b = upperByte c) (caseless : isCaseless h = true) :
    (b == h) = (c == h) := by
  rw [Bool.eq_iff_iff, beq_iff_eq, beq_iff_eq, ← upperByte_eq_caseless b h caseless, same,
    upperByte_eq_caseless c h caseless]

end Text

namespace Source

def isQuote (b : UInt8) : Bool := b == '"' || b == '\''

theorem quote_cases (q : UInt8) (quote : isQuote q = true) : q = '"' ∨ q = '\'' := by
  simpa [isQuote] using quote

namespace Scan

/-- Two scans in the same literal; outside literals, what they remember of the register pair `AF`
is the same. -/
structure Alike (first second : Scan) : Prop where
  delimiter : first.delimiter = second.delimiter
  quote : ∀ q, first.delimiter = some q → isQuote q = true
  pair : first.delimiter = none → first.afterPair = second.afterPair
  half : first.delimiter = none → (Text.upperByte first.last == 'A') = (Text.upperByte second.last == 'A')

theorem alike_start : ({} : Scan).Alike {} where
  delimiter := rfl
  quote := by simp
  pair := fun _ => rfl
  half := fun _ => rfl

theorem isQuote_of_opens (scan : Scan) (b : UInt8) (opens : scan.opens b = true) : isQuote b = true := by
  simp only [Scan.opens, Bool.or_eq_true, Bool.and_eq_true] at opens
  rw [isQuote, Bool.or_eq_true]
  exact opens.imp_right And.left

theorem opens_other (scan : Scan) (b : UInt8) (other : isQuote b = false) : scan.opens b = false :=
  Bool.eq_false_iff.mpr fun opens => by simp [isQuote_of_opens scan b opens] at other

theorem quotes_eq_false (scan : Scan) (b : UInt8) :
    scan.quotes b = false ↔ scan.delimiter = none ∧ scan.opens b = false := by
  rw [Scan.quotes, Bool.or_eq_false_iff, Option.isSome_eq_false_iff, Option.isNone_iff_eq_none]

/-- A quote is no letter: it has one spelling. -/
theorem eq_of_opens (scan : Scan) (b c : UInt8) (opens : scan.opens b = true)
    (same : Text.upperByte b = Text.upperByte c) : b = c := by
  rcases quote_cases b (isQuote_of_opens scan b opens) with rfl | rfl
  · exact ((Text.upperByte_eq_caseless c '"' (by decide)).mp same.symm).symm
  · exact ((Text.upperByte_eq_caseless c '\'' (by decide)).mp same.symm).symm

/-- A quote ends no part of the register pair. -/
theorem upperByte_quote (q : UInt8) (quote : isQuote q = true) :
    (Text.upperByte q == 'A') = false ∧ (Text.upperByte q == 'F') = false := by
  rcases quote_cases q quote with rfl | rfl <;> decide

section
variable {first second : Scan} (alike : first.Alike second)
include alike

theorem Alike.opens (b c : UInt8) (outside : first.delimiter = none)
    (same : Text.upperByte b = Text.upperByte c) : first.opens b = second.opens c := by
  simp only [Scan.opens, alike.pair outside, Text.beq_caseless b c '"' same (by decide),
    Text.beq_caseless b c '\'' same (by decide)]

theorem Alike.next_outside (b c : UInt8) (outside : first.delimiter = none)
    (same : Text.upperByte b = Text.upperByte c) : (first.next b).Alike (second.next c) := by
  have outside' := alike.delimiter.symm.trans outside
  have opens := alike.opens b c outside same
  refine ⟨?_, ?_, ?_, ?_⟩
  · simp only [Scan.next, outside, outside', ← opens]
    split
    · next quoted => rw [eq_of_opens first b c quoted same]
    · rfl
  · intro q inside
    simp only [Scan.next, outside] at inside
    split at inside
    · next quoted =>
        obtain rfl := Option.some.inj inside
        exact isQuote_of_opens first b quoted
    · contradiction
  · intro _
    simp only [Scan.next, Scan.afterPair, alike.half outside, same]
  · intro _
    simp only [Scan.next, same]

theorem Alike.next_inside (q b c : UInt8) (inside : first.delimiter = some q) (other : b ≠ q) (other' : c ≠ q) :
    (first.next b).Alike (second.next c) := by
  have inside' := alike.delimiter.symm.trans inside
  have still : (first.next b).delimiter = some q := by simp [Scan.next, inside, other]
  have still' : (second.next c).delimiter = some q := by simp [Scan.next, inside', other']
  refine ⟨still.trans still'.symm, ?_, ?_, ?_⟩
  · intro p held
    rw [still] at held
    exact Option.some.inj held ▸ alike.quote q inside
  · intro outside
    rw [still] at outside
    contradiction
  · intro outside
    rw [still] at outside
    contradiction

theorem Alike.next_closing (q : UInt8) (inside : first.delimiter = some q) :
    (first.next q).Alike (second.next q) := by
  have inside' := alike.delimiter.symm.trans inside
  have apart := upperByte_quote q (alike.quote q inside)
  have closed : (first.next q).delimiter = none := by simp [Scan.next, inside]
  have closed' : (second.next q).delimiter = none := by simp [Scan.next, inside']
  refine ⟨closed.trans closed'.symm, ?_, ?_, ?_⟩
  · intro p held
    rw [closed] at held
    contradiction
  · intro _
    simp only [Scan.next, Scan.afterPair, apart.2, Bool.and_false]
  · intro _
    rfl

theorem Alike.next (b : UInt8) : (first.next b).Alike (second.next b) := by
  cases held : first.delimiter with
  | none => exact alike.next_outside b b held rfl
  | some q =>
      by_cases closing : b = q
      · subst closing
        exact alike.next_closing b held
      · exact alike.next_inside q b b held closing closing

theorem Alike.quotes (b : UInt8) : first.quotes b = second.quotes b := by
  rw [Scan.quotes, Scan.quotes, ← alike.delimiter]
  cases held : first.delimiter with
  | none => rw [alike.opens b b held rfl]
  | some q => rfl

end

end Scan

theorem marksFrom_alike (first second : Scan) (alike : first.Alike second) (s : Text) :
    marksFrom first s = marksFrom second s ∧ (scanAfter first s).Alike (scanAfter second s) := by
  induction s generalizing first second with
  | nil => exact ⟨rfl, alike⟩
  | cons b s ih =>
      obtain ⟨marked, ends⟩ := ih _ _ (alike.next b)
      refine ⟨?_, ends⟩
      rw [marksFrom, marksFrom, marked, alike.quotes b]

/-- A byte that a scan outside literals restarts behind. -/
def isBreak (b : UInt8) : Bool := !isQuote b && Text.upperByte b != 'A' && Text.upperByte b != 'F'

theorem isQuote_of_isBreak (b : UInt8) (cut : isBreak b = true) : isQuote b = false := by
  simp only [isBreak, Bool.and_eq_true, Bool.not_eq_true'] at cut
  exact cut.1.1

theorem next_break (scan : Scan) (b : UInt8) (outside : scan.delimiter = none) (cut : isBreak b = true) :
    (scan.next b).Alike {} := by
  simp only [isBreak, Bool.and_eq_true, Bool.not_eq_true', bne, Bool.not_eq_true'] at cut
  obtain ⟨⟨unquoted, first⟩, second⟩ := cut
  have closed : (scan.next b).delimiter = none := by
    simp [Scan.next, outside, Scan.opens_other scan b unquoted]
  refine ⟨closed, ?_, ?_, ?_⟩
  · simp [closed]
  · intro _
    simp only [Scan.next, Scan.afterPair, second, Bool.and_false]
    decide
  · intro _
    simp only [Scan.next, first]
    decide

theorem isOpen_eq_false (s : Text) : isOpen s = false ↔ (scanAfter {} s).delimiter = none := by
  rw [isOpen, Option.isSome_eq_false_iff, Option.isNone_iff_eq_none]

theorem scanAfter_append (scan : Scan) (s t : Text) : scanAfter scan (s ++ t) = scanAfter (scanAfter scan s) t :=
  List.foldl_append

theorem scanAfter_break (scan : Scan) (s : Text) (b : UInt8) (outside : (scanAfter scan s).delimiter = none)
    (cut : isBreak b = true) : (scanAfter scan (s ++ [b])).Alike {} := by
  rw [scanAfter_append]
  exact next_break _ b outside cut

section Break
variable (s t : Text) (b : UInt8) (closed : isOpen s = false) (cut : isBreak b = true)
include closed cut

theorem marks_break : marks (s ++ b :: t) = marks s ++ Mark.outside b :: marks t := by
  have outside := (isOpen_eq_false s).mp closed
  have unquoted := isQuote_of_isBreak b cut
  have fresh := next_break (scanAfter {} s) b outside cut
  rw [marks_eq, marks_eq, marks_eq, marksFrom_append, marksFrom, (marksFrom_alike _ _ fresh t).1]
  simp [Scan.quotes, outside, Scan.opens_other _ b unquoted, Mark.outside]

theorem isOpen_break : isOpen (s ++ b :: t) = isOpen t := by
  have fresh := next_break (scanAfter {} s) b ((isOpen_eq_false s).mp closed) cut
  rw [isOpen, isOpen, scanAfter_append]
  exact congrArg Option.isSome (marksFrom_alike _ _ fresh t).2.delimiter

end Break

theorem bytes_outside (s : Text) : bytes (s.map Mark.outside) = s := by
  simp [bytes, Mark.outside, Function.comp_def]

theorem marks_front (s : Text) (front rest : List Mark) (whole : marks s = front ++ rest) :
    s = bytes front ++ bytes rest ∧ marks (bytes front) = front := by
  have same : s = bytes front ++ bytes rest := by
    rw [← bytes_marks s, whole, bytes, List.map_append]
    rfl
  refine ⟨same, ?_⟩
  rw [same, marks_eq, marksFrom_append] at whole
  rw [marks_eq]
  refine List.append_inj_left whole ?_
  rw [← List.length_map Mark.byte, ← bytes, bytes_marksFrom, bytes, List.length_map]

/-- A mark tells what the scan of the bytes in front of it makes of its byte. -/
theorem quoted_behind (s : Text) (front rest : List Mark) (mark : Mark) (whole : marks s = front ++ mark :: rest) :
    mark.quoted = (scanAfter {} (bytes front)).quotes mark.byte := by
  obtain ⟨same, faithful⟩ := marks_front s front (mark :: rest) whole
  rw [same, marks_eq, marksFrom_append, ← marks_eq, faithful] at whole
  rw [← (List.cons.inj (List.append_cancel_left whole)).1]

/-- What stands before a byte outside literals leaves no literal open. -/
theorem isOpen_front (s : Text) (front rest : List Mark) (mark : Mark) (whole : marks s = front ++ mark :: rest)
    (outside : mark.quoted = false) : isOpen (bytes front) = false := by
  rw [quoted_behind s front rest mark whole, Scan.quotes, Bool.or_eq_false_iff] at outside
  exact outside.1

/-- At a break outside literals, the marks on both sides are those of their bytes. -/
theorem marks_split (s : Text) (front rest : List Mark) (mark : Mark) (whole : marks s = front ++ mark :: rest)
    (outside : mark.quoted = false) (cut : isBreak mark.byte = true) :
    marks (bytes front) = front ∧ isOpen (bytes front) = false ∧ marks (bytes rest) = rest ∧
      isOpen (bytes rest) = isOpen s := by
  obtain ⟨same, faithful⟩ := marks_front s front (mark :: rest) whole
  have closed := isOpen_front s front rest mark whole outside
  have split := marks_break (bytes front) (bytes rest) mark.byte closed cut
  have spelled : s = bytes front ++ mark.byte :: bytes rest := same
  refine ⟨faithful, closed, ?_, ?_⟩
  · rw [← spelled, whole, faithful] at split
    exact (List.cons.inj (List.append_cancel_left split)).2.symm
  · rw [spelled, isOpen_break _ _ _ closed cut]

/-- A text and its parts between separators outside literals. -/
inductive Cut (separator : UInt8) : Text → List Text → Prop
  | last (s : Text) (free : Mark.outside separator ∉ marks s) : Cut separator s [s]
  | more (s t : Text) (parts : List Text) (closed : isOpen s = false)
      (free : Mark.outside separator ∉ marks s) (rest : Cut separator t parts) :
      Cut separator (s ++ separator :: t) (s :: parts)

section Separator
variable (separator : UInt8) (separates : isBreak separator = true)
include separates

theorem splitOutside_break (s t : Text) (closed : isOpen s = false) :
    splitOutside separator (s ++ separator :: t) = splitOutside separator s ++ splitOutside separator t := by
  have here : (Mark.outside separator).isOutside separator = true := by simp [Mark.isOutside, Mark.outside]
  rw [splitOutside, marks_break s t separator closed separates, List.splitOnP_append_cons _ _ here,
    List.map_append]
  rfl

theorem cut_splitOutside (s : Text) : Cut separator s (splitOutside separator s) := by
  by_cases free : Mark.outside separator ∉ marks s
  · rw [splitOutside_free separator s free]
    exact .last s free
  · -- The line up to the first separator is one part, and what follows is shorter.
    obtain ⟨front, rest, whole, first⟩ := List.eq_append_cons_of_mem (Decidable.not_not.mp free)
    obtain ⟨faithful, closed, _, _⟩ := marks_split s front rest _ whole rfl separates
    have same : s = bytes front ++ separator :: bytes rest := (marks_front s front _ whole).1
    have shorter : (bytes rest).length < s.length := by
      rw [same, List.length_append, List.length_cons]
      omega
    have later := cut_splitOutside (bytes rest)
    rw [← faithful] at first
    rw [same, splitOutside_break separator separates _ _ closed, splitOutside_free separator _ first]
    exact .more _ _ _ closed first later
termination_by s.length

theorem Cut.marks (s : Text) (parts : List Text) (cut : Cut separator s parts) :
    (Source.marks s).splitOnP (·.isOutside separator) = parts.map Source.marks := by
  have here : (Mark.outside separator).isOutside separator = true := by simp [Mark.isOutside, Mark.outside]
  have other : ∀ s, Mark.outside separator ∉ Source.marks s →
      ∀ mark ∈ Source.marks s, mark.isOutside separator = false := by
    rintro s free ⟨b, quoted⟩ member
    refine Bool.eq_false_iff.mpr fun found => free ?_
    simp only [Mark.isOutside, Bool.and_eq_true, Bool.not_eq_true', beq_iff_eq] at found
    rwa [Mark.outside, ← found.1, ← found.2]
  induction cut with
  | last s free => rw [List.splitOnP_eq_singleton (other s free), List.map_singleton]
  | more s t parts closed free _ ih =>
      rw [marks_break s t separator closed separates,
        List.splitOnP_append_cons_of_forall_mem (other s free) _ here, ih, List.map_cons]

/-- The parts of a cut are what the line is split into. -/
theorem Cut.splitOutside (s : Text) (parts : List Text) (cut : Cut separator s parts) :
    Source.splitOutside separator s = parts := by
  have same : bytes ∘ Source.marks = id := funext bytes_marks
  rw [Source.splitOutside, cut.marks separator separates, List.map_map, same, List.map_id]

theorem Cut.closed (s : Text) (parts : List Text) (cut : Cut separator s parts) (closed : isOpen s = false) :
    ∀ part ∈ parts, isOpen part = false := by
  induction cut with
  | last s => simpa using closed
  | more s t parts before _ _ ih =>
      rw [isOpen_break s t separator before separates] at closed
      exact List.forall_mem_cons.mpr ⟨before, ih closed⟩

end Separator

/-! Comments -/

def code (markers : List Text) : List Mark → List Mark
  | [] => []
  | mark :: marked => if startsComment markers (mark :: marked) then [] else mark :: code markers marked

theorem codeOnto_eq (markers : List Text) (done : Text) (marked : List Mark) :
    codeOnto markers done marked = (bytes (code markers marked)).reverse ++ done := by
  induction marked generalizing done with
  | nil => rfl
  | cons mark marked ih =>
      rw [codeOnto, code]
      split
      · rfl
      · simp [ih, bytes]

theorem withoutComment_eq (markers : List Text) (s : Text) :
    withoutComment markers s = bytes (code markers (marks s)) := by
  rw [withoutComment, codeOnto_eq, List.append_nil, List.reverse_reverse]

/-- A comment starts outside literals. -/
theorem code_cases (markers : List Text) (marked : List Mark) :
    code markers marked = marked ∨
      ∃ mark rest, marked = code markers marked ++ mark :: rest ∧ mark.quoted = false := by
  induction marked with
  | nil => exact .inl rfl
  | cons mark marked ih =>
      rw [code]
      split
      · next starts =>
          simp only [startsComment, Bool.and_eq_true, Bool.not_eq_true'] at starts
          exact .inr ⟨mark, marked, rfl, starts.1⟩
      · rcases ih with whole | ⟨first, rest, split, outside⟩
        · exact .inl (congrArg (mark :: ·) whole)
        · exact .inr ⟨first, rest, congrArg (mark :: ·) split, outside⟩

theorem withoutComment_isPrefix (markers : List Text) (s : Text) : withoutComment markers s <+: s := by
  rw [withoutComment_eq]
  rcases code_cases markers (marks s) with whole | ⟨mark, rest, split, _⟩
  · exact ⟨[], by rw [whole, bytes_marks, List.append_nil]⟩
  · exact ⟨_, (marks_front s _ _ split).1.symm⟩

theorem marks_withoutComment (markers : List Text) (s : Text) :
    marks (withoutComment markers s) = code markers (marks s) := by
  rw [withoutComment_eq]
  rcases code_cases markers (marks s) with whole | ⟨mark, rest, split, _⟩
  · rw [whole, bytes_marks]
  · exact (marks_front s _ _ split).2

theorem isOpen_withoutComment (markers : List Text) (s : Text) (closed : isOpen s = false) :
    isOpen (withoutComment markers s) = false := by
  rw [withoutComment_eq]
  rcases code_cases markers (marks s) with whole | ⟨mark, rest, split, outside⟩
  · rwa [whole, bytes_marks]
  · exact isOpen_front s _ rest mark split outside

theorem startsWith_append_cons (head : Text) (front rest : List Mark) (mark : Mark) (free : mark.byte ∉ head) :
    startsWith head (front ++ mark :: rest) = startsWith head front := by
  induction front generalizing head with
  | nil =>
      cases head with
      | nil => rfl
      | cons h head =>
          have other : h ≠ mark.byte := fun same => free (same ▸ List.mem_cons_self)
          simp [startsWith, other]
  | cons first front ih =>
      cases head with
      | nil => rfl
      | cons h head =>
          rw [List.cons_append, startsWith, startsWith, ih head fun inside => free (List.mem_cons_of_mem h inside)]

/-- A comment that starts in the front of a line ends it, and without one the rest is looked at, if no
comment mark goes beyond the byte between. -/
theorem code_append_cons (markers : List Text) (front rest : List Mark) (mark : Mark)
    (free : ∀ marker ∈ markers, mark.byte ∉ marker.tail) :
    (code markers front = front → code markers (front ++ mark :: rest) = front ++ code markers (mark :: rest)) ∧
      (code markers front ≠ front → code markers (front ++ mark :: rest) = code markers front) := by
  induction front with
  | nil => exact ⟨fun _ => rfl, fun cut => absurd rfl cut⟩
  | cons first front ih =>
      have same : startsComment markers (first :: (front ++ mark :: rest)) =
          startsComment markers (first :: front) := by
        rw [startsComment, startsComment]
        congr 1
        rw [Bool.eq_iff_iff, List.any_eq_true, List.any_eq_true]
        refine exists_congr fun marker => and_congr_right fun member => ?_
        cases marker with
        | nil => rfl
        | cons h tail =>
            rw [startsWith, startsWith, startsWith_append_cons tail front rest mark (free _ member)]
      rw [List.cons_append, code, code, same]
      split
      · exact ⟨fun whole => absurd whole.symm (List.cons_ne_nil first front), fun _ => rfl⟩
      · constructor
        · intro whole
          exact congrArg (first :: ·) (ih.1 (List.cons.inj whole).2)
        · intro cut
          exact congrArg (first :: ·) (ih.2 fun whole => cut (congrArg (first :: ·) whole))

/-! Labels -/

namespace Label

def marksAfterName? (marked : List Mark) : Option (List Mark) :=
  if marked.head?.any (isNameByte ·.byte) then some (marked.dropWhile (isNameByte ·.byte)) else none

def marksAfterColons? : List Mark → Option (List Mark)
  | [] => none
  | mark :: marked =>
      if mark.byte = ':' then
        some (if marked.head?.any (·.byte == (':' : UInt8)) then marked.drop 1 else marked)
      else none

def marksAfterBlank? : List Mark → Option (List Mark)
  | [] => some []
  | mark :: marked => if isBlank mark.byte then some marked else none

def marksAfterIndented? (marked : List Mark) : Option (List Mark) :=
  (marksAfterName? (marked.dropWhile (isBlank ·.byte))).bind marksAfterColons?

def marksAfter? (rule : LabelRule) (marked : List Mark) : Option (List Mark) :=
  match rule with
  | .colon => marksAfterIndented? marked
  | .column => (marksAfterIndented? marked).bind marksAfterBlank?

theorem afterName_bytes (marked : List Mark) : afterName? (bytes marked) = (marksAfterName? marked).map bytes := by
  rw [afterName?, marksAfterName?, bytes, List.dropWhile_map, List.head?_map, Option.any_map]
  split <;> rfl

theorem afterColons_bytes (marked : List Mark) :
    afterColons? (bytes marked) = (marksAfterColons? marked).map bytes := by
  cases marked with
  | nil => rfl
  | cons mark marked =>
      simp only [bytes, List.map_cons, afterColons?, marksAfterColons?]
      split
      · cases marked with
        | nil => rfl
        | cons next marked => by_cases colon : next.byte = ':' <;> simp [colon, bytes]
      · rfl

theorem afterBlank_bytes (marked : List Mark) :
    afterBlank? (bytes marked) = (marksAfterBlank? marked).map bytes := by
  cases marked with
  | nil => rfl
  | cons mark marked =>
      simp only [bytes, List.map_cons, afterBlank?, marksAfterBlank?]
      split <;> rfl

theorem afterIndented_bytes (marked : List Mark) :
    (afterName? ((bytes marked).dropWhile isBlank)).bind afterColons? = (marksAfterIndented? marked).map bytes := by
  have unblanked : (bytes marked).dropWhile isBlank = bytes (marked.dropWhile (isBlank ·.byte)) := by
    rw [bytes, List.dropWhile_map]
    rfl
  rw [unblanked, afterName_bytes, marksAfterIndented?]
  cases marksAfterName? (marked.dropWhile (isBlank ·.byte)) with
  | none => rfl
  | some rest => exact afterColons_bytes rest

/-- Whether the label of a line, if it has one, ends in a colon. -/
def EndsInColon (rule : LabelRule) (line : Text) : Prop :=
  rule = .colon ∨ ∃ b ∈ line.head?, isBlank b = true

theorem after_bytes (rule : LabelRule) (marked : List Mark) (colon : EndsInColon rule (bytes marked)) :
    after? rule (bytes marked) = (marksAfter? rule marked).map bytes := by
  cases rule with
  | colon => exact afterIndented_bytes marked
  | column =>
      obtain ⟨b, first, blank⟩ := colon.resolve_left (by simp)
      -- A name does not start with a blank.
      have unnamed : afterName? (bytes marked) = none := by
        have other : isNameByte b = false := by simp [isNameByte, blank]
        rw [afterName?, Option.mem_def.mp first]
        simp [other]
      simp only [after?, unnamed, marksAfter?, afterIndented_bytes]
      cases marksAfterIndented? marked with
      | none => rfl
      | some rest => exact afterBlank_bytes rest

/-- What is behind a label: the label holds no quote and ends in a break. -/
def Behind (marked rest : List Mark) : Prop :=
  ∃ front mark, marked = front ++ mark :: rest ∧ (∀ other ∈ front, isQuote other.byte = false) ∧
    isBreak mark.byte = true

theorem isQuote_of_isBlank (b : UInt8) (blank : isBlank b = true) : isQuote b = false := by
  refine Bool.eq_false_iff.mpr fun quote => ?_
  rcases quote_cases b quote with rfl | rfl <;> revert blank <;> decide

theorem isQuote_of_isNameByte (b : UInt8) (named : isNameByte b = true) : isQuote b = false := by
  refine Bool.eq_false_iff.mpr fun quote => ?_
  rcases quote_cases b quote with rfl | rfl <;> revert named <;> decide

theorem isBreak_of_isBlank (b : UInt8) (blank : isBlank b = true) : isBreak b = true := by
  simp only [isBlank, Bool.or_eq_true, beq_iff_eq] at blank
  rcases blank with (((rfl | rfl) | rfl) | rfl) | rfl <;> decide

theorem marksAfterName_split (marked rest : List Mark) (found : marksAfterName? marked = some rest) :
    ∃ name, marked = name ++ rest ∧ ∀ mark ∈ name, isNameByte mark.byte = true := by
  simp only [marksAfterName?, Option.ite_none_right_eq_some] at found
  obtain ⟨_, rfl⟩ := found.imp_right Option.some.inj
  exact ⟨_, List.takeWhile_append_dropWhile.symm, List.all_eq_true.mp List.all_takeWhile⟩

theorem marksAfterColons_behind (marked rest : List Mark) (found : marksAfterColons? marked = some rest) :
    Behind marked rest := by
  have colon : isQuote ':' = false ∧ isBreak ':' = true := by decide
  cases marked with
  | nil => contradiction
  | cons mark marked =>
      rw [marksAfterColons?, Option.ite_none_right_eq_some] at found
      obtain ⟨first, rfl⟩ := found.imp_right Option.some.inj
      cases marked with
      | nil => exact ⟨[], mark, rfl, by simp, first ▸ colon.2⟩
      | cons next marked =>
          by_cases second : next.byte = ':'
          · exact ⟨[mark], next, by simp [second], by simp [first, colon.1], second ▸ colon.2⟩
          · exact ⟨[], mark, by simp [second], by simp, first ▸ colon.2⟩

theorem Behind.append (front marked rest : List Mark) (behind : Behind marked rest)
    (unquoted : ∀ mark ∈ front, isQuote mark.byte = false) : Behind (front ++ marked) rest := by
  obtain ⟨middle, mark, rfl, between, cut⟩ := behind
  refine ⟨front ++ middle, mark, (List.append_assoc _ _ _).symm, ?_, cut⟩
  intro other member
  exact (List.mem_append.mp member).elim (unquoted other) (between other)

theorem marksAfterIndented_behind (marked rest : List Mark) (found : marksAfterIndented? marked = some rest) :
    Behind marked rest := by
  obtain ⟨colons, named, ends⟩ := Option.bind_eq_some_iff.mp found
  obtain ⟨name, split, each⟩ := marksAfterName_split _ _ named
  rw [← List.takeWhile_append_dropWhile (p := (isBlank ·.byte)) (l := marked), split]
  apply Behind.append
  · apply (marksAfterColons_behind colons rest ends).append
    exact fun mark member => isQuote_of_isNameByte _ (each mark member)
  · exact fun mark member => isQuote_of_isBlank _ (List.all_eq_true.mp List.all_takeWhile mark member)

theorem marksAfter_behind (rule : LabelRule) (marked rest : List Mark)
    (found : marksAfter? rule marked = some rest) : Behind marked rest := by
  cases rule with
  | colon => exact marksAfterIndented_behind marked rest found
  | column =>
      obtain ⟨colons, indented, ends⟩ := Option.bind_eq_some_iff.mp found
      obtain ⟨front, mark, rfl, unquoted, cut⟩ := marksAfterIndented_behind marked colons indented
      cases colons with
      | nil =>
          obtain rfl := Option.some.inj ends
          exact ⟨front, mark, rfl, unquoted, cut⟩
      | cons blank colons =>
          rw [marksAfterBlank?, Option.ite_none_right_eq_some] at ends
          obtain ⟨isBlank, rfl⟩ := ends.imp_right Option.some.inj
          refine ⟨front ++ [mark], blank, by simp, ?_, isBreak_of_isBlank _ isBlank⟩
          intro other member
          rcases List.mem_append.mp member with before | last
          · exact unquoted other before
          · rw [List.mem_singleton.mp last]
            exact isQuote_of_isBreak mark.byte cut

/-- The break at the end of a label is outside literals. -/
theorem Behind.outside (s : Text) (rest : List Mark) (behind : Behind (marks s) rest) :
    ∃ front mark, marks s = front ++ mark :: rest ∧ Literalless (bytes front) ∧ mark.quoted = false ∧
      isBreak mark.byte = true := by
  obtain ⟨front, mark, whole, unquoted, cut⟩ := behind
  have plain : Literalless (bytes front) := by
    apply literalless_of_no_quote
    intro b member
    obtain ⟨other, inside, rfl⟩ := List.mem_map.mp member
    simpa [isQuote] using unquoted other inside
  refine ⟨front, mark, whole, plain, ?_, cut⟩
  have closed := (plain {} rfl).2
  rw [quoted_behind s front rest mark whole, Scan.quotes, closed,
    Scan.opens_other _ _ (isQuote_of_isBreak mark.byte cut)]
  rfl

/-- Without its label, a line is marked as before. -/
theorem marks_remove (rule : LabelRule) (line : Text) (colon : EndsInColon rule line) :
    marks (remove rule line) = (marksAfter? rule (marks line)).getD (marks line) ∧
      isOpen (remove rule line) = isOpen line := by
  have after := after_bytes rule (marks line)
  rw [bytes_marks] at after
  rw [remove, after colon]
  cases found : marksAfter? rule (marks line) with
  | none => exact ⟨rfl, rfl⟩
  | some rest =>
      obtain ⟨front, mark, whole, _, outside, cut⟩ := (marksAfter_behind rule _ rest found).outside
      exact (marks_split line front rest mark whole outside cut).2.2

end Label

end Source

end Z80Cost
