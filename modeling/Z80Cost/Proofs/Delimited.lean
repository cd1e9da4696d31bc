import Z80Cost.Delimited

/-!
Tables without quotes. A row is its fields with separators between; empty lines and comments may stand
anywhere, lines end in either way and the last one need not end at all. Reading gives the fields of each
row, in order.
-/

namespace Z80Cost.Delimited

/-- A byte that stands for itself wherever it is in a field. -/
def IsPlainByte (b : UInt8) : Prop := b ≠ ';' ∧ b ≠ '"' ∧ b ≠ '\r' ∧ b ≠ '\n'

instance decidableIsPlainByte (b : UInt8) : Decidable (IsPlainByte b) := inferInstanceAs (Decidable (_ ∧ _ ∧ _ ∧ _))

/-- Fields that can be written as they are. The first byte tells the line from a comment. -/
structure IsRow (fields : List Text) : Prop where
  plain : ∀ field ∈ fields, ∀ b ∈ field, IsPlainByte b
  starts : ∃ b s more, fields = (b :: s) :: more ∧ b ≠ '#'

def rowText (fields : List Text) : Text := Text.join [(';' : UInt8)] fields

/-- The rows of one line: one or none. -/
inductive Line : List (List Text) → Text → Prop
  | row (fields : List Text) : Line [fields] (rowText fields)
  | empty : Line [] []
  | comment (note : Text) (single : ('\n' : UInt8) ∉ note) : Line [] ('#' :: note)

def lineFeed : Text := [('\n' : UInt8)]

def returnAndFeed : Text := [('\r' : UInt8), ('\n' : UInt8)]

/-- The rows of the lines of a text. -/
inductive Written : List (List Text) → Text → Prop
  | done : Written [] []
  | last (rows : List (List Text)) (s : Text) (line : Line rows s) : Written rows s
  | line (rows more : List (List Text)) (s ending rest : Text) (line : Line rows s)
      (ends : ending = lineFeed ∨ ending = returnAndFeed) (others : Written more rest) :
      Written (rows ++ more) (s ++ ending ++ rest)

theorem rowText_singleton (field : Text) : rowText [field] = field := by
  rw [rowText, Text.join, List.intercalate_singleton]

theorem rowText_cons (first second : Text) (more : List Text) :
    rowText (first :: second :: more) = first ++ ([(';' : UInt8)] ++ rowText (second :: more)) := by
  rw [rowText, Text.join, List.intercalate_cons_cons, List.append_assoc]
  rfl

theorem mem_rowText (b : UInt8) (fields : List Text) (member : b ∈ rowText fields) :
    b = ';' ∨ ∃ field ∈ fields, b ∈ field := by
  induction fields with
  | nil => contradiction
  | cons first more ih =>
      cases more with
      | nil => exact .inr ⟨first, List.mem_cons_self, by rwa [rowText_singleton] at member⟩
      | cons second more =>
          rw [rowText_cons, List.mem_append, List.mem_append, List.mem_singleton] at member
          rcases member with here | separator | later
          · exact .inr ⟨first, List.mem_cons_self, here⟩
          · exact .inl separator
          · rcases ih later with separator | ⟨field, inside, within⟩
            · exact .inl separator
            · exact .inr ⟨field, List.mem_cons_of_mem first inside, within⟩

theorem lineEndsOnto_eq (done s : Text) : lineEndsOnto done s = lineEndsOnto [] s ++ done := by
  induction s generalizing done with
  | nil => rfl
  | cons b s ih =>
      simp only [lineEndsOnto]
      split
      · exact ih done
      · rw [ih (b :: done), ih [b], List.append_assoc]
        rfl

theorem lineEnds_cons (b : UInt8) (s : Text) :
    lineEnds (b :: s) =
      if b = '\r' ∧ (s.isEmpty ∨ s.head? = some ('\n' : UInt8)) then lineEnds s else b :: lineEnds s := by
  simp only [lineEnds, lineEndsOnto]
  split
  · rfl
  · rw [lineEndsOnto_eq [b]]
    simp

theorem lineEnds_plain (s rest : Text) (plain : ('\r' : UInt8) ∉ s) : lineEnds (s ++ rest) = s ++ lineEnds rest := by
  induction s with
  | nil => rfl
  | cons b s ih =>
      obtain ⟨first, others⟩ := not_or.mp (mt List.mem_cons.mpr plain)
      rw [List.cons_append, lineEnds_cons, if_neg (fun hit => first hit.1.symm), ih others, List.cons_append]

/-- A line keeps to itself, though its last carriage return may be taken for a part of the line end. -/
theorem lineEnds_note (note rest : Text) (single : ('\n' : UInt8) ∉ note) :
    ∃ kept, ('\n' : UInt8) ∉ kept ∧ lineEnds (note ++ rest) = kept ++ lineEnds rest := by
  induction note with
  | nil => exact ⟨[], by simp, rfl⟩
  | cons b note ih =>
      obtain ⟨first, others⟩ := not_or.mp (mt List.mem_cons.mpr single)
      obtain ⟨kept, free, same⟩ := ih others
      rw [List.cons_append, lineEnds_cons, same]
      split
      · exact ⟨kept, free, rfl⟩
      · exact ⟨b :: kept, by simp [first, free], rfl⟩

theorem lineEnds_ending (ending rest : Text) (ends : ending = lineFeed ∨ ending = returnAndFeed) :
    lineEnds (ending ++ rest) = lineFeed ++ lineEnds rest := by
  rcases ends with rfl | rfl
  · exact lineEnds_plain lineFeed rest (by decide)
  · change lineEnds (('\r' : UInt8) :: (lineFeed ++ rest)) = _
    rw [lineEnds_cons, if_pos ⟨rfl, .inr rfl⟩]
    exact lineEnds_plain lineFeed rest (by decide)

/-- Reading `s` brings a cursor to another one and yields the records that end in it, whatever follows. -/
def Reads (c : Cursor) (s : Text) (found : List Record) (next : Cursor) : Prop :=
  ∀ records rest, recordsOnto ';' '#' records c (s ++ rest) = recordsOnto ';' '#' (found.reverse ++ records) next rest

theorem Reads.append {c middle next : Cursor} {s t : Text} {found more : List Record}
    (first : Reads c s found middle) (second : Reads middle t more next) : Reads c (s ++ t) (found ++ more) next := by
  intro records rest
  rw [List.append_assoc, first, second, List.reverse_append, List.append_assoc]

theorem reads_nil (c : Cursor) : Reads c [] [] c := fun _ _ => rfl

theorem reads_step (c next : Cursor) (b : UInt8) (goes : ∀ last, step ';' '#' c b last = .go next) :
    Reads c [b] [] next := by
  intro records rest
  rw [List.singleton_append, recordsOnto, goes]
  rfl

def Cursor.atLine (line : Nat) : Cursor := { start := line, line := line }

/-- The line in hand holds `record` so far, and no quote is open. -/
structure Cursor.Holds (c : Cursor) (record : Record) : Prop where
  open_field : c.mode = .fieldStart ∨ c.mode = .plain
  line : c.line = record.line
  record : c.record = record

theorem record_eq (c : Cursor) : c.record = ⟨c.start, c.fields.reverse ++ [c.field.reverse]⟩ := by
  simp [Cursor.record]

section Records
variable {c : Cursor} {line : Nat} {parts : List Text} {field : Text}

theorem Cursor.Holds.keep (holds : c.Holds ⟨line, parts ++ [field]⟩) (b : UInt8) :
    (c.keep .plain b).Holds ⟨line, parts ++ [field ++ [b]]⟩ := by
  have held := holds.record
  rw [record_eq, Record.mk.injEq] at held
  obtain ⟨start, split⟩ := held
  obtain ⟨before, last⟩ := List.append_inj' split rfl
  refine ⟨.inr rfl, holds.line, ?_⟩
  simp [record_eq, Cursor.keep, start, before, List.singleton_inj.mp last]

theorem Cursor.Holds.endField (holds : c.Holds ⟨line, parts⟩) : c.endField.Holds ⟨line, parts ++ [[]]⟩ := by
  have held := holds.record
  rw [record_eq, Record.mk.injEq] at held
  refine ⟨.inl rfl, holds.line, ?_⟩
  simp [record_eq, Cursor.endField, held.1, ← held.2]

theorem step_plain (holds : c.Holds ⟨line, parts⟩) (b : UInt8) (quoteless : b ≠ '"') (last : Bool) :
    step ';' '#' c b last = plainStep ';' c b := by
  rcases holds.open_field with mode | mode
  · simp [step, mode, fieldStep, quoteless]
  · simp [step, mode]

theorem reads_field (holds : c.Holds ⟨line, parts ++ [field]⟩) (s : Text)
    (plain : ∀ b ∈ s, IsPlainByte b) :
    ∃ next, Reads c s [] next ∧ next.Holds ⟨line, parts ++ [field ++ s]⟩ := by
  induction s generalizing c field with
  | nil => exact ⟨c, reads_nil c, by simpa using holds⟩
  | cons b s ih =>
      obtain ⟨⟨unseparated, quoteless, _, inside⟩, others⟩ := List.forall_mem_cons.mp plain
      obtain ⟨next, reads, held⟩ := ih (holds.keep b) others
      have first : Reads c [b] [] (c.keep .plain b) := by
        apply reads_step
        intro last
        rw [step_plain holds b quoteless, plainStep, if_neg unseparated, if_neg inside, if_neg quoteless]
      exact ⟨next, first.append reads, by simpa using held⟩

theorem reads_separator (holds : c.Holds ⟨line, parts⟩) : Reads c [';'] [] c.endField := by
  apply reads_step
  intro last
  rw [step_plain holds ';' (by decide), plainStep, if_pos rfl]

theorem reads_fields (holds : c.Holds ⟨line, parts ++ [field]⟩) (s : Text) (more : List Text)
    (plain : ∀ field ∈ s :: more, ∀ b ∈ field, IsPlainByte b) :
    ∃ next, Reads c (rowText (s :: more)) [] next ∧
      next.Holds ⟨line, parts ++ (field ++ s) :: more⟩ := by
  induction more generalizing c parts field s with
  | nil =>
      rw [rowText_singleton]
      exact reads_field holds s (plain s List.mem_cons_self)
  | cons second more ih =>
      obtain ⟨here, others⟩ := List.forall_mem_cons.mp plain
      obtain ⟨middle, read, held⟩ := reads_field holds s here
      obtain ⟨next, reads, complete⟩ := ih held.endField second others
      rw [rowText_cons]
      refine ⟨next, read.append ((reads_separator held).append reads), ?_⟩
      simpa using complete

end Records

/-- Wherever it stands, a line yields some records by its end. -/
def IsLine (line : Nat) (s : Text) (found : List Record) : Prop :=
  ∃ next, Reads (.atLine line) s [] next ∧ Reads next lineFeed found (.atLine (line + 1)) ∧
    ∀ records, recordsOnto ';' '#' records next [] = (found.reverse ++ records, none)

theorem isLine_row (line : Nat) (fields : List Text) (valid : IsRow fields) :
    IsLine line (rowText fields) [⟨line, fields⟩] := by
  obtain ⟨b, s, more, rfl, code⟩ := valid.starts
  obtain ⟨⟨unseparated, quoteless, _, inside⟩, others⟩ := List.forall_mem_cons.mp (valid.plain _ List.mem_cons_self)
  have first : Reads (.atLine line) [b] [] ((Cursor.atLine line).keep .plain b) := by
    apply reads_step
    intro last
    simp [step, Cursor.atLine, code, inside, fieldStep, quoteless, plainStep, unseparated]
  have started : ((Cursor.atLine line).keep .plain b).Holds ⟨line, [] ++ [[b]]⟩ := ⟨.inr rfl, rfl, rfl⟩
  have plain : ∀ field ∈ s :: more, ∀ b ∈ field, IsPlainByte b := by
    rw [List.forall_mem_cons]
    exact ⟨others, fun field member => valid.plain field (List.mem_cons_of_mem _ member)⟩
  obtain ⟨next, reads, held⟩ := reads_fields started s more plain
  have whole : rowText ((b :: s) :: more) = [b] ++ rowText (s :: more) := by
    cases more with
    | nil => rw [rowText_singleton, rowText_singleton, List.singleton_append]
    | cons second more =>
        rw [rowText_cons, rowText_cons]
        rfl
  refine ⟨next, ?_, ?_, ?_⟩
  · rw [whole]
    exact first.append reads
  · intro records rest
    have ends : step ';' '#' next '\n' rest.isEmpty = .finish next.record next.nextLine :=
      step_plain held '\n' (by decide) rest.isEmpty
    have later : next.nextLine = .atLine (line + 1) := by rw [Cursor.nextLine, held.line, Cursor.atLine]
    rw [lineFeed, List.singleton_append, recordsOnto, ends, held.record, later]
    rfl
  · intro records
    have ends : atEnd next = .ok (some next.record) := by
      rcases held.open_field with mode | mode
      · simp [atEnd, mode]
      · simp [atEnd, mode]
    rw [recordsOnto, ends, held.record]
    rfl

theorem isLine_empty (line : Nat) : IsLine line [] [] :=
  ⟨.atLine line, reads_nil _, fun _ _ => rfl, fun _ => rfl⟩

theorem reads_note (c : Cursor) (comment : c.mode = .comment) (note : Text) (single : ('\n' : UInt8) ∉ note) :
    ∃ next, Reads c note [] next ∧ next.mode = .comment ∧ next.line = c.line := by
  induction note generalizing c with
  | nil => exact ⟨c, reads_nil c, comment, rfl⟩
  | cons b note ih =>
      obtain ⟨first, others⟩ := not_or.mp (mt List.mem_cons.mpr single)
      obtain ⟨next, reads, mode, line⟩ := ih (c.pass .comment) rfl others
      have passed : Reads c [b] [] (c.pass .comment) := by
        apply reads_step
        intro last
        simp [step, comment, Ne.symm first]
      exact ⟨next, passed.append reads, mode, line⟩

theorem isLine_comment (line : Nat) (note : Text) (single : ('\n' : UInt8) ∉ note) :
    IsLine line ('#' :: note) [] := by
  obtain ⟨next, reads, mode, same⟩ := reads_note ((Cursor.atLine line).pass .comment) rfl note single
  have first : Reads (.atLine line) ['#'] [] ((Cursor.atLine line).pass .comment) := reads_step _ _ _ fun _ => rfl
  refine ⟨next, first.append reads, ?_, ?_⟩
  · have later : next.nextLine = .atLine (line + 1) := by rw [Cursor.nextLine, same]; rfl
    apply reads_step
    intro last
    simp [step, mode, later]
  · intro records
    simp [recordsOnto, atEnd, mode]

theorem line_feeds (rows : List (List Text)) (s rest : Text) (line : Line rows s)
    (valid : ∀ fields ∈ rows, IsRow fields) :
    ∃ kept, lineEnds (s ++ rest) = kept ++ lineEnds rest ∧
      ∀ n, ∃ found, IsLine n kept found ∧ found.map Record.fields = rows := by
  cases line with
  | row fields =>
      have row := valid fields List.mem_cons_self
      refine ⟨_, lineEnds_plain _ rest ?_, fun n => ⟨_, isLine_row n fields row, rfl⟩⟩
      intro inside
      rcases mem_rowText _ fields inside with separator | ⟨field, member, within⟩
      · exact absurd separator (by decide)
      · exact (row.plain field member _ within).2.2.1 rfl
  | empty => exact ⟨[], rfl, fun n => ⟨[], isLine_empty n, rfl⟩⟩
  | comment note single =>
      obtain ⟨kept, free, same⟩ := lineEnds_note note rest single
      refine ⟨'#' :: kept, ?_, fun n => ⟨[], isLine_comment n kept free, rfl⟩⟩
      have mark : ('#' : UInt8) ≠ '\r' := by decide
      rw [List.cons_append, lineEnds_cons, if_neg (fun hit => mark hit.1), same, List.cons_append]

/-- What is laid out as rows is read as these rows. -/
theorem recordsOnto_written (rows : List (List Text)) (s : Text) (written : Written rows s)
    (valid : ∀ fields ∈ rows, IsRow fields) (n : Nat) (records : List Record) :
    ∃ found : List Record, recordsOnto ';' '#' records (.atLine n) (lineEnds s) = (found.reverse ++ records, none) ∧
      found.map Record.fields = rows := by
  induction written generalizing n records with
  | done => exact ⟨[], rfl, rfl⟩
  | last rows s line =>
      obtain ⟨kept, same, reads⟩ := line_feeds rows s [] line valid
      obtain ⟨found, ⟨next, reads, _, ends⟩, fields⟩ := reads n
      refine ⟨found, ?_, fields⟩
      rw [List.append_nil] at same
      rw [same, reads]
      exact ends records
  | line rows more s ending rest line ends others ih =>
      obtain ⟨kept, same, reads⟩ := line_feeds rows s (ending ++ rest) line
        fun fields member => valid fields (List.mem_append_left more member)
      obtain ⟨found, ⟨next, reads, feeds, _⟩, fields⟩ := reads n
      obtain ⟨later, outcome, laterFields⟩ := ih (fun fields member => valid fields (List.mem_append_right rows member))
        (n + 1) (found.reverse ++ records)
      refine ⟨found ++ later, ?_, by rw [List.map_append, fields, laterFields]⟩
      rw [List.append_assoc, same, lineEnds_ending ending rest ends, reads, feeds]
      simpa using outcome

theorem records_written (rows : List (List Text)) (s : Text) (written : Written rows s)
    (valid : ∀ fields ∈ rows, IsRow fields) :
    ∃ found, records ';' '#' s = (found, none) ∧ found.map Record.fields = rows := by
  obtain ⟨found, outcome, fields⟩ := recordsOnto_written rows s written valid 1 []
  refine ⟨found, ?_, fields⟩
  have start : ({} : Cursor) = .atLine 1 := rfl
  simp [records, start, outcome]

end Z80Cost.Delimited
