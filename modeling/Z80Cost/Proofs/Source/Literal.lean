import Z80Cost.Proofs.Source.Line

/-!
Literals as they are written. A delimiter inside is doubled, which to a scan of the line is the end of
one literal and the start of the next: between its first and its last delimiter every byte of the
literal is quoted, whatever it is.
-/

namespace Z80Cost.Source

inductive Quote where
  | single
  | double
  deriving DecidableEq

def Quote.byte : Quote → UInt8
  | single => '\''
  | double => '"'

theorem Quote.delimits (quote : Quote) : quote.byte = '\'' ∨ quote.byte = '"' := by
  cases quote with
  | single => exact .inl rfl
  | double => exact .inr rfl

structure Literal where
  quote : Quote
  content : Text
  deriving DecidableEq

def Mark.inside (b : UInt8) : Mark := ⟨b, true⟩

namespace Literal

/-- The bytes with each delimiter doubled. -/
def doubled (quote : Quote) (content : Text) : Text :=
  content.flatMap fun b => if b = quote.byte then [b, b] else [b]

def written (literal : Literal) : Text :=
  literal.quote.byte :: (doubled literal.quote literal.content ++ [literal.quote.byte])

theorem doubled_cons (quote : Quote) (b : UInt8) (content : Text) :
    doubled quote (b :: content) =
      if b = quote.byte then b :: b :: doubled quote content else b :: doubled quote content := by
  rw [doubled, List.flatMap_cons]
  split <;> rfl

theorem opens_quote (quote : Quote) (scan : Scan) (fresh : scan.afterPair = false) :
    scan.opens quote.byte = true := by
  cases quote with
  | single => simp [Scan.opens, Quote.byte, fresh]
  | double => simp [Scan.opens, Quote.byte]

/-- A delimiter does not end the register pair `AF`. -/
theorem next_fresh (quote : Quote) (scan : Scan) : (scan.next quote.byte).afterPair = false := by
  have other : Text.upperByte quote.byte ≠ 'F' := by cases quote <;> decide
  simp [Scan.afterPair, Scan.next, other]

theorem next_opening (quote : Quote) (scan : Scan) (outside : scan.delimiter = none)
    (fresh : scan.afterPair = false) : (scan.next quote.byte).delimiter = some quote.byte := by
  simp [Scan.next, outside, opens_quote quote scan fresh]

theorem next_closing (quote : Quote) (scan : Scan) (inside : scan.delimiter = some quote.byte) :
    (scan.next quote.byte).delimiter = none := by
  simp [Scan.next, inside]

theorem next_inside (quote : Quote) (scan : Scan) (b : UInt8) (inside : scan.delimiter = some quote.byte)
    (other : b ≠ quote.byte) : (scan.next b).delimiter = some quote.byte := by
  simp [Scan.next, inside, other]

theorem marksFrom_doubled (quote : Quote) (content : Text) (scan : Scan)
    (inside : scan.delimiter = some quote.byte) :
    marksFrom scan (doubled quote content ++ [quote.byte]) =
        (doubled quote content ++ [quote.byte]).map Mark.inside ∧
      (scanAfter scan (doubled quote content ++ [quote.byte])).delimiter = none := by
  induction content generalizing scan with
  | nil =>
      constructor
      · simp [doubled, marksFrom, Scan.quotes, inside, Mark.inside]
      · exact next_closing quote scan inside
  | cons b content ih =>
      rw [doubled_cons]
      by_cases same : b = quote.byte
      · -- The literal ends here and another one starts right behind it.
        have closed := next_closing quote scan inside
        have fresh := next_fresh quote scan
        obtain ⟨marked, ends⟩ := ih _ (next_opening quote _ closed fresh)
        rw [if_pos same, same]
        refine ⟨?_, ends⟩
        simp only [List.cons_append, marksFrom, marked, Scan.quotes, inside, Option.isSome_some,
          Bool.true_or, opens_quote quote _ fresh, Bool.or_true, List.map_cons, Mark.inside]
      · obtain ⟨marked, ends⟩ := ih _ (next_inside quote scan b inside same)
        rw [if_neg same]
        refine ⟨?_, ends⟩
        simp only [List.cons_append, marksFrom, marked, Scan.quotes, inside, Option.isSome_some,
          Bool.true_or, List.map_cons, Mark.inside]

section Written
variable (literal : Literal)

theorem marksFrom_written (scan : Scan) (outside : scan.delimiter = none) (fresh : scan.afterPair = false) :
    marksFrom scan literal.written = literal.written.map Mark.inside ∧
      (scanAfter scan literal.written).delimiter = none := by
  have opened := next_opening literal.quote scan outside fresh
  obtain ⟨marked, ends⟩ := marksFrom_doubled literal.quote literal.content _ opened
  refine ⟨?_, ends⟩
  simp only [written, marksFrom, marked, Scan.quotes, opens_quote literal.quote scan fresh, Bool.or_true,
    List.map_cons, Mark.inside]

theorem marks_written : marks literal.written = literal.written.map Mark.inside := by
  rw [marks_eq]
  exact (literal.marksFrom_written {} rfl (by decide)).1

theorem balanced_written : Balanced literal.written := by
  intro scan outside fresh
  rw [marks_written]
  exact literal.marksFrom_written scan outside fresh

/-- A literal is an operand, whatever blanks and commas it holds. -/
theorem isField_written : Statement.IsField literal.written where
  nonempty := List.cons_ne_nil _ _
  trimmed := by
    have solid : Text.isSolid literal.quote.byte = true := by cases literal.quote <;> decide
    rw [written, Text.trim_cons _ _ solid, Text.trimRight_concat _ _ solid]
  comma_free := by
    rw [marks_written]
    simp [Mark.inside, Mark.outside]
  balanced := literal.balanced_written

end Written

def list (literals : List Literal) : Text := Text.join "," (literals.map written)

theorem list_cons_cons (literal next : Literal) (rest : List Literal) :
    list (literal :: next :: rest) = literal.written ++ (',' : UInt8) :: list (next :: rest) :=
  join_cons_cons _ _ _

section List
variable (literals : List Literal)

theorem balanced_list : Balanced (list literals) := by
  apply (balanced_join _ _).1
  intro part member
  obtain ⟨literal, _, rfl⟩ := List.mem_map.mp member
  exact literal.balanced_written

theorem marks_list (mark : Mark) (member : mark ∈ marks (list literals)) :
    mark.quoted = true ∨ mark = Mark.outside ',' := by
  have quoted : ∀ literal : Literal, mark ∈ marks literal.written → mark.quoted = true := by
    intro literal inside
    rw [marks_written] at inside
    obtain ⟨b, _, rfl⟩ := List.mem_map.mp inside
    rfl
  induction literals with
  | nil => exact absurd member List.not_mem_nil
  | cons literal rest ih =>
      cases rest with
      | nil =>
          left
          apply quoted literal
          simpa [list, Text.join] using member
      | cons next rest =>
          have comma : isApart ',' = true := by decide
          rw [list_cons_cons, marks_separated _ _ ',' literal.balanced_written
            (balanced_list (next :: rest)) comma] at member
          rcases List.mem_append.mp member with here | behind
          · exact .inl (quoted literal here)
          · rcases List.mem_cons.mp behind with separator | later
            · exact .inr separator
            · exact ih later

theorem isOperandText_list (some : literals ≠ []) : IsOperandText (list literals) where
  nonempty := by
    apply Statement.join_ne_nil
    · simpa using some
    · intro operand member
      obtain ⟨literal, _, rfl⟩ := List.mem_map.mp member
      exact literal.isField_written
  balanced := balanced_list literals
  outside := by
    intro b member
    right
    simpa [Mark.outside] using marks_list literals _ member

theorem spelled_list : spelled (list literals) = list literals := by
  have kept : ∀ mark ∈ marks (list literals), mark.spelled = mark.byte := by
    intro mark member
    rcases marks_list literals mark member with quoted | rfl
    · simp [Mark.spelled, quoted]
    · rfl
  rw [spelled, List.map_congr_left kept]
  exact bytes_marks _

theorem ofText_list (mnemonic : Text) (valid : Statement.IsMnemonic mnemonic) :
    Statement.ofText (mnemonic ++ (' ' : UInt8) :: list literals) = ⟨mnemonic, literals.map written⟩ := by
  apply Statement.ofText_fields mnemonic _ valid
  intro operand member
  obtain ⟨literal, _, rfl⟩ := List.mem_map.mp member
  exact literal.isField_written

end List

end Literal

end Z80Cost.Source
