import Mathlib.Data.List.Induction
import Z80Cost.Instruction.Z80
import Z80Cost.Proofs.Meter.Lines
import Z80Cost.Proofs.Source.Return

/-!
A source text and the same text read as a stream are metered alike. The stream keeps blank lines and
carriage returns at the end that the text loses before it is split; neither holds a statement, and no
statement in front of them is read differently.
-/

namespace Z80Cost

open Source (Statement)

namespace Meter

/-- Two statements of one line that are read as the same. -/
structure Twin where
  line : Nat
  first : Text
  second : Text
  same : Statement.ofText first = Statement.ofText second

namespace Twin

def left (twin : Twin) : Nat × Text := (twin.line, twin.first)

def right (twin : Twin) : Nat × Text := (twin.line, twin.second)

end Twin

def readAs (entry : Nat × Text) : Nat × Statement := (entry.1, .ofText entry.2)

theorem exists_twins (first second : List (Nat × Text)) (alike : first.map readAs = second.map readAs) :
    ∃ twins : List Twin, first = twins.map Twin.left ∧ second = twins.map Twin.right := by
  induction first generalizing second with
  | nil =>
      obtain rfl : second = [] := by simpa using alike.symm
      exact ⟨[], rfl, rfl⟩
  | cons a first ih =>
      cases second with
      | nil => contradiction
      | cons b second =>
          obtain ⟨line, s⟩ := a
          obtain ⟨line', t⟩ := b
          obtain ⟨here, rest⟩ := List.cons.inj alike
          obtain ⟨same_line, same⟩ := Prod.mk.inj here
          obtain rfl : line = line' := same_line
          obtain ⟨twins, rfl, rfl⟩ := ih second rest
          exact ⟨⟨line, s, t, same⟩ :: twins, rfl, rfl⟩

theorem expand_twins (repetition : Source.Repetition) (limit : Int64) (twins : List Twin) :
    ∃ expanded : Option (List Twin),
      Source.expand? repetition Prod.snd limit (twins.map Twin.left) = expanded.map (List.map Twin.left) ∧
      Source.expand? repetition Prod.snd limit (twins.map Twin.right) = expanded.map (List.map Twin.right) := by
  refine ⟨Source.expand? repetition Twin.first limit twins, Source.expand_map _ _ _ _ _, ?_⟩
  rw [Source.expand_map, Source.expand_congr repetition Twin.first Twin.second limit Twin.same]
  rfl

theorem resultsOf_twin (m : Meter) (twin : Twin) : m.resultsOf twin.first = m.resultsOf twin.second := by
  rw [resultsOf, resultsOf, twin.same]

/-- What two reports on one source have in common. -/
structure Concur (short long : Report) : Prop where
  lines : short.lines ≤ long.lines
  totals : short.totals = long.totals
  results : short.statements.map (fun listed => (listed.line, listed.results)) =
    long.statements.map fun listed => (listed.line, listed.results)

theorem reportOn_twins (m : Meter) (few many : Nat) (fewer : few ≤ many) (twins : List Twin) :
    Concur (m.reportOn few (twins.map Twin.left)) (m.reportOn many (twins.map Twin.right)) := by
  refine ⟨fewer, ?_, ?_⟩
  · simp only [reportOn, cost, List.map_map]
    refine congrArg _ (List.map_congr_left fun twin _ => ?_)
    exact congrArg Totals.ofResults (m.resultsOf_twin twin)
  · simp only [reportOn, List.map_map]
    refine List.map_congr_left fun twin _ => ?_
    exact congrArg (Prod.mk twin.line) (m.resultsOf_twin twin)

theorem countP_twins (m : Meter) (twins : List Twin) :
    ((twins.map Twin.left).map Prod.snd).countP m.isCode =
      ((twins.map Twin.right).map Prod.snd).countP m.isCode := by
  simp only [List.map_map, List.countP_map]
  refine List.countP_congr fun twin _ => ?_
  simp only [Function.comp_apply, Twin.left, Twin.right, isCode, m.resultsOf_twin twin]

/-- Sources whose statements are read alike expand to statements that are. -/
theorem lines_twins (m : Meter) (first second : List Text)
    (alike : (numbered m.dialect first).map readAs = (numbered m.dialect second).map readAs)
    (report : Report) (metered : m.lines second = .ok report) :
    ∃ twins : List Twin,
      Source.expand? m.dialect.repetition Prod.snd m.maxCode (numbered m.dialect first) =
        some (twins.map Twin.left) ∧
      exceeds (((twins.map Twin.left).map Prod.snd).countP m.isCode) m.maxCode = false ∧
      report = m.reportOn second.length (twins.map Twin.right) := by
  obtain ⟨_, entries, found, few, rfl⟩ := (lines_eq_ok m second report).mp metered
  obtain ⟨twins, left, right⟩ := exists_twins _ _ alike
  obtain ⟨expanded, before, after⟩ := expand_twins m.dialect.repetition m.maxCode twins
  rw [right, after, Option.map_eq_some_iff] at found
  obtain ⟨out, rfl, rfl⟩ := found
  rw [← countP_twins] at few
  exact ⟨out, by rw [left, before]; rfl, few, rfl⟩

theorem lines_agree (m : Meter) (first second : List Text)
    (alike : (numbered m.dialect first).map readAs = (numbered m.dialect second).map readAs)
    (fewer : first.length ≤ second.length) (long : Report) (metered : m.lines second = .ok long) :
    ∃ short, m.lines first = .ok short ∧ Concur short long := by
  have bounded := ((lines_eq_ok m second long).mp metered).1
  obtain ⟨twins, found, few, rfl⟩ := lines_twins m first second alike long metered
  have within := exceeds_mono m.maxLines _ _ fewer bounded
  refine ⟨_, (lines_eq_ok m first _).mpr ⟨within, _, found, few, rfl⟩, ?_⟩
  exact reportOn_twins m _ _ fewer twins

theorem exceeds_unlimited (n : Nat) (limit : Int64) (none : limit ≤ 0) : exceeds n limit = false := by
  simp [exceeds, Int64.not_lt.mpr none]

theorem lines_unlimited (m : Meter) (first second : List Text) (none : m.maxLines ≤ 0)
    (alike : (numbered m.dialect first).map readAs = (numbered m.dialect second).map readAs)
    (report : Report) (metered : m.lines second = .ok report) : ∃ other, m.lines first = .ok other := by
  obtain ⟨twins, found, few, _⟩ := lines_twins m first second alike report metered
  exact ⟨_, (lines_eq_ok m first _).mpr ⟨exceeds_unlimited _ _ none, _, found, few, rfl⟩⟩

/-- The lines, and after them blank lines and carriage returns, one at a time. -/
inductive Padded (lines : List Text) : List Text → Prop
  | same : Padded lines lines
  | blank {read : List Text} : Padded lines read → Padded lines (read ++ [[]])
  | returned {front : List Text} {last : Text} : Padded lines (front ++ [last]) →
      Padded lines (front ++ [last ++ [('\r' : UInt8)]])

theorem Padded.length_le {lines read : List Text} (padded : Padded lines read) : lines.length ≤ read.length := by
  induction padded with
  | same => exact Nat.le_refl _
  | blank _ ih =>
      rw [List.length_append]
      omega
  | returned _ ih => simpa using ih

theorem statements_nil (dialect : Source.Dialect) : dialect.statements [] = [] := by
  have unlabelled : ∀ rule, Source.Label.remove rule [] = [] := by
    intro rule
    cases rule <;> rfl
  have empty : Source.withoutComment dialect.comments [] = [] := rfl
  have spelled : Source.clean [] = [] := rfl
  have split : ∀ separator, Source.splitOutside separator [] = [[]] := fun _ => rfl
  rw [Source.Dialect.statements_eq, empty, unlabelled, Source.Dialect.written, Source.Dialect.parts]
  cases dialect.separator with
  | none => simp [spelled]
  | some separator => simp [split, spelled]

theorem numbered_concat (dialect : Source.Dialect) (source : List Text) (raw : Text) :
    numbered dialect (source ++ [raw]) =
      numbered dialect source ++ (dialect.statements raw).map fun s => (source.length + 1, s) := by
  simp [numbered, List.zipIdx_append, Nat.add_comm]

theorem Padded.numbered_alike {lines read : List Text} (dialect : Source.Dialect)
    (free : ∀ marker ∈ dialect.comments, ('\r' : UInt8) ∉ marker.tail) (padded : Padded lines read) :
    (numbered dialect lines).map readAs = (numbered dialect read).map readAs := by
  induction padded with
  | same => rfl
  | blank _ ih => rw [ih, numbered_concat, statements_nil, List.map_nil, List.append_nil]
  | @returned front last _ ih =>
      have same := congrArg (List.map (Prod.mk (front.length + 1)))
        (Source.Dialect.statements_return dialect free last)
      rw [List.map_map, List.map_map] at same
      rw [ih, numbered_concat, numbered_concat, List.map_append, List.map_append, List.map_map, List.map_map]
      exact congrArg _ same.symm

/-! Splitting a text -/

theorem withoutReturn_concat (line : Text) : withoutReturn (line ++ [('\r' : UInt8)]) = line := by
  simp [withoutReturn, Text.before?]

theorem withoutReturn_other (line : Text) (other : line.getLast? ≠ some ('\r' : UInt8)) :
    withoutReturn line = line := by
  simp [withoutReturn, Text.before?, other]

theorem withoutReturn_cons (b : UInt8) (line : Text) (more : line = [] → b ≠ '\r') :
    withoutReturn (b :: line) = b :: withoutReturn line := by
  rcases List.eq_nil_or_concat line with rfl | ⟨front, c, rfl⟩
  · exact withoutReturn_other [b] (by simpa using more rfl)
  · rw [List.concat_eq_append]
    by_cases returned : c = '\r'
    · rw [returned, withoutReturn_concat, ← List.cons_append, withoutReturn_concat]
    · have other : ∀ line : Text, (line ++ [c]).getLast? ≠ some ('\r' : UInt8) := by simpa using returned
      rw [withoutReturn_other _ (other front), ← List.cons_append, withoutReturn_other _ (other (b :: front))]

/-- The text with each carriage return before a line feed left out. -/
def lineFeeds : Text → Text
  | [] => []
  | b :: s => if b = '\r' ∧ s.head? = some ('\n' : UInt8) then lineFeeds s else b :: lineFeeds s

theorem lineFeedsOnto_eq (done s : Text) : lineFeedsOnto done s = (lineFeeds s).reverse ++ done := by
  induction s generalizing done with
  | nil => rfl
  | cons b s ih =>
      rw [lineFeedsOnto, lineFeeds]
      split
      · exact ih done
      · rw [ih, List.reverse_cons, List.append_assoc, List.singleton_append]

/-- A text starts with a line feed exactly if its first line is empty and not its last. -/
theorem head_of_splitOn (s : Text) (front : List Text) (last : Text)
    (parts : s.splitOn ('\n' : UInt8) = front ++ [last]) :
    s.head? = some ('\n' : UInt8) ↔ front.head? = some [] := by
  cases s with
  | nil =>
      cases front with
      | nil => simp
      | cons first front => simp at parts
  | cons b s =>
      obtain ⟨line, rest, split⟩ := List.exists_cons_of_ne_nil (List.splitOn_ne_nil ('\n' : UInt8) s)
      rw [List.splitOn_cons_eq_if_modifyHead, split] at parts
      by_cases feed : b = '\n'
      · cases front with
        | nil => simp [feed] at parts
        | cons first front => simp_all
      · cases front with
        | nil => simp [feed]
        | cons first front =>
            rw [if_neg (by simpa using feed)] at parts
            obtain ⟨rfl, _⟩ := List.cons.inj parts
            simp [feed]

theorem lineFeeds_splitOn (s : Text) : ∃ front last, s.splitOn ('\n' : UInt8) = front ++ [last] ∧
    (lineFeeds s).splitOn ('\n' : UInt8) = front.map withoutReturn ++ [last] := by
  induction s with
  | nil => exact ⟨[], [], rfl, rfl⟩
  | cons b s ih =>
      obtain ⟨front, last, before, after⟩ := ih
      rw [List.splitOn_cons_eq_if_modifyHead, before]
      simp only [lineFeeds, head_of_splitOn s front last before]
      by_cases feed : b = '\n'
      · subst feed
        have kept : ('\n' : UInt8) ≠ '\r' := by decide
        refine ⟨[] :: front, last, rfl, ?_⟩
        rw [if_neg fun both => kept both.1, List.splitOn_cons_eq_if_modifyHead, after]
        rfl
      · have longer : (b :: lineFeeds s).splitOn ('\n' : UInt8) =
            (front.map withoutReturn ++ [last]).modifyHead (b :: ·) := by
          rw [List.splitOn_cons_eq_if_modifyHead, after, if_neg (by simpa using feed)]
        rw [if_neg (by simpa using feed)]
        cases front with
        | nil =>
            refine ⟨[], b :: last, rfl, ?_⟩
            rw [if_neg (by simp), longer]
            rfl
        | cons first front =>
            refine ⟨(b :: first) :: front, last, rfl, ?_⟩
            rw [List.map_cons]
            split
            · next both =>
                -- The carriage return is all there is of its line, and is dropped with it.
                obtain ⟨rfl, empty⟩ := both
                obtain rfl : first = [] := by simpa using empty
                exact after
            · next apart =>
                have more : first = [] → b ≠ '\r' := by
                  rintro rfl rfl
                  exact apart ⟨rfl, rfl⟩
                rw [longer, withoutReturn_cons b first more]
                rfl

theorem splitOn_concat (s : Text) (b : UInt8) (other : b ≠ '\n') : ∃ front last,
    s.splitOn ('\n' : UInt8) = front ++ [last] ∧ (s ++ [b]).splitOn ('\n' : UInt8) = front ++ [last ++ [b]] := by
  rw [List.splitOn_eq_splitOnP, List.splitOn_eq_splitOnP]
  exact Source.splitOnP_concat _ s b (by simpa using other)

theorem rawLines_of_parts (s : Text) (front : List Text) (last : Text)
    (parts : s.splitOn ('\n' : UInt8) = front ++ [last]) :
    rawLines s = if last = [] then front else front ++ [last] := by
  simp [rawLines, parts]

/-- A text that ends in no line end is split alike. -/
theorem splitSource_concat (s : Text) (b : UInt8) (other : isLineEnd b = false) :
    splitSource (s ++ [b]) = (rawLines (s ++ [b])).map withoutReturn := by
  obtain ⟨noReturn, noFeed⟩ : b ≠ '\r' ∧ b ≠ '\n' := by simpa [isLineEnd] using other
  have body : withoutLineEnds (s ++ [b]) = s ++ [b] := by simp [withoutLineEnds, other]
  obtain ⟨front, last, _, parts⟩ := splitOn_concat s b noFeed
  obtain ⟨front', last', before, after⟩ := lineFeeds_splitOn (s ++ [b])
  obtain ⟨rfl, same⟩ := List.append_inj' (before.symm.trans parts) rfl
  obtain rfl := List.singleton_inj.mp same
  have ends : (last ++ [b]).getLast? ≠ some ('\r' : UInt8) := by simpa using noReturn
  rw [splitSource, body, if_neg (by simp), lineFeedsOnto_eq, List.append_nil, List.reverse_reverse, after,
    rawLines_of_parts _ _ _ parts, if_neg (by simp), List.map_append, List.map_singleton,
    withoutReturn_other _ ends]

theorem splitSource_lineEnd (s : Text) (b : UInt8) (ends : isLineEnd b = true) :
    splitSource (s ++ [b]) = splitSource s := by
  have body : withoutLineEnds (s ++ [b]) = withoutLineEnds s := by
    rw [withoutLineEnds, List.reverse_concat, List.dropWhile_cons_of_pos ends, withoutLineEnds]
  rw [splitSource, body, splitSource]

/-- One more line end leaves the lines, adds a blank one or puts a carriage return behind the last. -/
theorem padded_lineEnd (lines : List Text) (s : Text) (b : UInt8) (ends : isLineEnd b = true)
    (padded : Padded lines ((rawLines s).map withoutReturn)) :
    Padded lines ((rawLines (s ++ [b])).map withoutReturn) := by
  have blank : withoutReturn [] = [] := rfl
  rcases (by simpa [isLineEnd] using ends : b = '\r' ∨ b = '\n') with rfl | rfl
  · obtain ⟨front, last, before, after⟩ := splitOn_concat s '\r' (by decide)
    rw [rawLines_of_parts _ _ _ before] at padded
    rw [rawLines_of_parts _ _ _ after, if_neg (by simp), List.map_append, List.map_singleton,
      withoutReturn_concat]
    split at padded
    · next empty =>
        rw [empty]
        exact padded.blank
    · rw [List.map_append, List.map_singleton] at padded
      by_cases returned : last.getLast? = some ('\r' : UInt8)
      · obtain ⟨line, rfl⟩ := List.getLast?_eq_some_iff.mp returned
        rw [withoutReturn_concat] at padded
        exact padded.returned
      · rwa [withoutReturn_other last returned] at padded
  · obtain ⟨front, last, before, _⟩ := splitOn_concat s '\r' (by decide)
    have after : (s ++ [('\n' : UInt8)]).splitOn ('\n' : UInt8) = front ++ [last] ++ [[]] := by
      rw [List.splitOn_append_cons_self, before, List.splitOn_nil]
    rw [rawLines_of_parts _ _ _ before] at padded
    rw [rawLines_of_parts _ _ _ after, if_pos rfl, List.map_append, List.map_singleton]
    split at padded
    · next empty =>
        rw [empty, blank]
        exact padded.blank
    · rwa [List.map_append, List.map_singleton] at padded

theorem splitSource_padded (s : Text) : Padded (splitSource s) ((rawLines s).map withoutReturn) := by
  -- From the end of the text: behind its last other byte every line end only pads the lines.
  induction s using List.reverseRecOn with
  | nil => exact .same
  | append_singleton s b ih =>
      cases ends : isLineEnd b with
      | false =>
          rw [splitSource_concat s b ends]
          exact .same
      | true =>
          rw [splitSource_lineEnd s b ends]
          exact padded_lineEnd _ s b ends ih

theorem read_ok_iff (m : Meter) (s : Text)
    (short : ∀ line ∈ s.splitOn ('\n' : UInt8), line.length < maxLineLength) (report : Report) :
    m.read { bytes := s } = .ok report ↔ m.lines ((rawLines s).map withoutReturn) = .ok report := by
  have each : ∀ line ∈ rawLines s, line.length < maxLineLength := by
    intro line member
    apply short
    simp only [rawLines] at member
    split at member
    · exact (List.dropLast_prefix _).mem member
    · exact member
  have readable : (rawLines s).takeWhile (·.length < maxLineLength) = rawLines s := by
    have all : ∀ line ∈ rawLines s, decide (line.length < maxLineLength) = true := by simpa using each
    rw [← List.append_nil (rawLines s), List.takeWhile_append_of_pos all]
    rfl
  simp only [read, readable, Nat.lt_irrefl, ↓reduceIte]
  by_cases long : exceeds (rawLines s).length m.maxLines = true
  · simp [long, lines]
  · simp [long]

section Agreement
variable (m : Meter) (free : ∀ marker ∈ m.dialect.comments, ('\r' : UInt8) ∉ marker.tail) (s : Text)
  (short : ∀ line ∈ s.splitOn ('\n' : UInt8), line.length < maxLineLength)
include free short

theorem source_of_read (read : Report) (metered : m.read { bytes := s } = .ok read) :
    ∃ source, m.source s = .ok source ∧ source.totals = read.totals ∧
      source.statements.map (fun listed => (listed.line, listed.results)) =
        read.statements.map (fun listed => (listed.line, listed.results)) ∧
      source.lines ≤ read.lines := by
  have padded := splitSource_padded s
  rw [read_ok_iff m s short] at metered
  obtain ⟨source, found, concur⟩ :=
    lines_agree m _ _ (padded.numbered_alike m.dialect free) padded.length_le read metered
  exact ⟨source, found, concur.totals, concur.results, concur.lines⟩

theorem read_iff_source (unlimited : m.maxLines ≤ 0) :
    (∃ read, m.read { bytes := s } = .ok read) ↔ ∃ source, m.source s = .ok source := by
  have alike := (splitSource_padded s).numbered_alike m.dialect free
  simp only [read_ok_iff m s short]
  constructor
  · rintro ⟨read, metered⟩
    exact lines_unlimited m _ _ unlimited alike read metered
  · rintro ⟨source, metered⟩
    exact lines_unlimited m _ _ unlimited alike.symm source metered

end Agreement

/-- A text is metered wherever its stream is, with the same totals and the same results line by line. A
carriage return inside a comment mark would tell the two apart: the one behind the last line completes
the mark in the stream alone. -/
theorem source_agrees_read (m : Meter)
    (free : ∀ marker ∈ m.dialect.comments, ('\r' : UInt8) ∉ marker.tail) (s : Text)
    (short : ∀ line ∈ s.splitOn ('\n' : UInt8), line.length < 0x100000) :
    (∀ read, m.read { bytes := s } = .ok read → ∃ source, m.source s = .ok source ∧
      source.totals = read.totals ∧
      source.statements.map (fun listed => (listed.line, listed.results)) =
        read.statements.map (fun listed => (listed.line, listed.results)) ∧
      source.lines ≤ read.lines) ∧
    (m.maxLines ≤ 0 → ((∃ read, m.read { bytes := s } = .ok read) ↔ ∃ source, m.source s = .ok source)) :=
  ⟨source_of_read m free s short, read_iff_source m free s short⟩

/-- No dialect that can be chosen has such a mark. -/
theorem source_agrees_read_chosen (m : Meter) (known : m.dialect ∈ Source.Dialect.all) (s : Text)
    (short : ∀ line ∈ s.splitOn ('\n' : UInt8), line.length < maxLineLength) :
    (∀ read, m.read { bytes := s } = .ok read → ∃ source, m.source s = .ok source ∧
      source.totals = read.totals ∧
      source.statements.map (fun listed => (listed.line, listed.results)) =
        read.statements.map (fun listed => (listed.line, listed.results)) ∧
      source.lines ≤ read.lines) ∧
    (m.maxLines ≤ 0 → ((∃ read, m.read { bytes := s } = .ok read) ↔ ∃ source, m.source s = .ok source)) := by
  have free := Source.Dialect.all_free m.dialect known
  exact ⟨source_of_read m free s short, read_iff_source m free s short⟩

def sjasmplusMeter : Meter where
  matcher := { catalog := .ofPatterns [Catalog.steady "S" "NOP" 4 5 1 "00" 1] }
  dialect := .sjasmplus

/-- Carriage returns within a line, behind an open literal and on blank lines. -/
def returns : Text := " nop\r: nop\r\n db 2,'a\r\r\n\r\r\n\n\r"

theorem source_agrees_read_returns :
    (∀ marker ∈ sjasmplusMeter.dialect.comments, ('\r' : UInt8) ∉ marker.tail) ∧
      (∀ line ∈ returns.splitOn ('\n' : UInt8), line.length < 0x100000) ∧
      ∃ read source, sjasmplusMeter.read { bytes := returns } = .ok read ∧
        sjasmplusMeter.source returns = .ok source ∧ source.totals = read.totals ∧
        source.statements.map (fun listed => (listed.line, listed.results)) =
          read.statements.map (fun listed => (listed.line, listed.results)) ∧
        read.lines = 5 ∧ read.totals.bytes = (["00", "00", "02", "n"] : List Text) := by
  have free := Source.Dialect.all_free sjasmplusMeter.dialect (by decide)
  have short : ∀ line ∈ returns.splitOn ('\n' : UInt8), line.length < 0x100000 := by decide +kernel
  have metered : (sjasmplusMeter.read { bytes := returns }).toOption.map
      (fun read => (read.lines, read.totals.bytes)) =
        some (5, (["00", "00", "02", "n"] : List Text)) := by
    decide +kernel
  obtain ⟨read, found, outcome⟩ := Option.map_eq_some_iff.mp metered
  obtain ⟨lines, bytes⟩ := Prod.mk.inj outcome
  have success : sjasmplusMeter.read { bytes := returns } = .ok read := by
    cases result : sjasmplusMeter.read { bytes := returns } with
    | error fault => simp [result, Except.toOption] at found
    | ok report =>
        rw [result, Except.toOption, Option.some.injEq] at found
        rw [found]
  obtain ⟨source, same, totals, results, _⟩ := (source_agrees_read sjasmplusMeter free returns short).1 read success
  exact ⟨free, short, read, source, success, same, totals, results, lines, bytes⟩

end Meter

end Z80Cost
