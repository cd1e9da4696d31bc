import Z80Cost.Proofs.Source.Line
import Z80Cost.Proofs.Source.Spelling

/-!
What the literals of a line hold. No pass over a line touches the insides of its literals, so the
statements of a line hold, in order, what the line holds in front of its comment.
-/

namespace Z80Cost.Source

/-- Whether `b` is strictly inside a literal. -/
def Scan.holds (scan : Scan) (b : UInt8) : Bool := scan.delimiter.any (· != b)

/-- The bytes strictly inside literals, in order. -/
def insidesFrom (scan : Scan) : Text → Text
  | [] => []
  | b :: s => if scan.holds b then b :: insidesFrom (scan.next b) s else insidesFrom (scan.next b) s

def insides (s : Text) : Text := insidesFrom {} s

theorem Scan.holds_outside (scan : Scan) (b : UInt8) (outside : scan.delimiter = none) : scan.holds b = false := by
  rw [Scan.holds, outside]
  rfl

theorem insidesFrom_append (scan : Scan) (s t : Text) :
    insidesFrom scan (s ++ t) = insidesFrom scan s ++ insidesFrom (scanAfter scan s) t := by
  induction s generalizing scan with
  | nil => rfl
  | cons b s ih =>
      rw [List.cons_append, insidesFrom, insidesFrom, ih]
      split <;> rfl

theorem insidesFrom_alike (first second : Scan) (alike : first.Alike second) (s : Text) :
    insidesFrom first s = insidesFrom second s := by
  induction s generalizing first second with
  | nil => rfl
  | cons b s ih =>
      rw [insidesFrom, insidesFrom, ih _ _ (alike.next b), Scan.holds, Scan.holds, alike.delimiter]

def literalBytes (marked : List Mark) : Text := bytes (marked.filter (·.quoted))

/-- The bytes of literals without their delimiters, from all their bytes. -/
def contents : (delimiter : Option UInt8) → Text → Text
  | _, [] => []
  | none, q :: s => contents (some q) s
  | some q, b :: s => if b = q then contents none s else b :: contents (some q) s

theorem insidesFrom_eq (scan : Scan) (s : Text) :
    insidesFrom scan s = contents scan.delimiter (literalBytes (marksFrom scan s)) := by
  induction s generalizing scan with
  | nil =>
      cases scan.delimiter <;> rfl
  | cons b s ih =>
      rw [insidesFrom, ih, marksFrom]
      cases held : scan.delimiter with
      | none =>
          -- Of the bytes outside, a quote that opens a literal belongs to it, but not to its insides.
          rw [if_neg (by simp [scan.holds_outside b held])]
          cases opens : scan.opens b <;>
            simp [literalBytes, bytes, Scan.quotes, Scan.next, held, opens, contents]
      | some q =>
          by_cases closing : b = q
          · simp [Scan.holds, literalBytes, bytes, Scan.quotes, Scan.next, held, closing, contents]
          · have inside : q ≠ b := fun same => closing same.symm
            simp [Scan.holds, literalBytes, bytes, Scan.quotes, Scan.next, held, closing, inside, contents]

theorem insides_eq (s : Text) : insides s = contents none (literalBytes (marks s)) := by
  rw [insides, insidesFrom_eq, marks_eq]

theorem literalBytes_tidyFrom (started apart : Bool) (marked : List Mark) :
    literalBytes (tidyFrom started apart marked) = literalBytes marked := by
  induction marked generalizing started apart with
  | nil => rfl
  | cons mark marked ih =>
      obtain ⟨b, quoted⟩ := mark
      rw [tidyFrom]
      split
      · next blank =>
          have outside : quoted = false := (isBreak_of_blank _ blank).1
          rw [ih, literalBytes, literalBytes, List.filter_cons_of_neg (by simp [outside])]
      · have rest := ih true false
        simp only [literalBytes, bytes] at rest
        cases quoted <;> cases started <;> cases apart <;>
          simp [literalBytes, bytes, Mark.respelled, Mark.spelled, Mark.outside, rest]

theorem insides_clean (s : Text) : insides (clean s) = insides s := by
  rw [insides_eq, insides_eq, (marks_clean s).1, tidy, literalBytes_tidyFrom]

theorem insidesFrom_literalless (s : Text) (plain : Literalless s) (scan : Scan) (outside : scan.delimiter = none) :
    insidesFrom scan s = [] := by
  rw [insidesFrom_eq, (plain scan outside).1, outside]
  have unquoted : (s.map Mark.outside).filter (·.quoted) = [] := by
    simp [List.filter_map, Function.comp_def, Mark.outside]
  rw [literalBytes, unquoted]
  rfl

def Unquoted (s : Text) : Prop := ∀ b ∈ s, isQuote b = false

instance decidableUnquoted (s : Text) : Decidable (Unquoted s) :=
  decidable_of_iff (s.all (!isQuote ·) = true) (by simp [Unquoted])

theorem Unquoted.append {s t : Text} (first : Unquoted s) (second : Unquoted t) : Unquoted (s ++ t) :=
  fun b member => (List.mem_append.mp member).elim (first b) (second b)

theorem Unquoted.literalless {s : Text} (unquoted : Unquoted s) : Literalless s := by
  apply literalless_of_no_quote
  intro b member
  simpa [isQuote] using unquoted b member

theorem Unquoted.insides {s : Text} (unquoted : Unquoted s) : insides s = [] :=
  insidesFrom_literalless s unquoted.literalless {} rfl

theorem insides_break (s t : Text) (b : UInt8) (closed : isOpen s = false) (cut : isBreak b = true) :
    insides (s ++ b :: t) = insides s ++ insides t := by
  have outside := (isOpen_eq_false s).mp closed
  rw [insides, insidesFrom_append, insidesFrom, if_neg (by simp [Scan.holds_outside _ b outside]),
    insidesFrom_alike _ _ (next_break _ b outside cut) t]
  rfl

/-- A front of a text that can be left away: it holds no quote and does not end in a part of the
register pair `AF`. -/
structure IsLead (front : Text) : Prop where
  unquoted : Unquoted front
  ends : ∀ b ∈ front.getLast?, isBreak b = true

namespace IsLead
variable {front : Text} (lead : IsLead front)
include lead

theorem scan : (scanAfter {} front).Alike {} := by
  rcases List.eq_nil_or_concat front with rfl | ⟨before, b, rfl⟩
  · exact Scan.alike_start
  · rw [List.concat_eq_append] at lead ⊢
    have plain : Unquoted before := fun c inside => lead.unquoted c (List.mem_append_left [b] inside)
    exact scanAfter_break {} before b (plain.literalless {} rfl).2 (lead.ends b (by simp))

theorem isOpen (s : Text) : isOpen (front ++ s) = isOpen s := by
  rw [Source.isOpen, Source.isOpen, scanAfter_append]
  exact congrArg Option.isSome (marksFrom_alike _ _ lead.scan s).2.delimiter

theorem marks (s : Text) : marks (front ++ s) = front.map Mark.outside ++ marks s := by
  have plain := marks_literalless front lead.unquoted.literalless
  rw [marks_eq, marksFrom_append, ← marks_eq, plain, (marksFrom_alike _ _ lead.scan s).1, ← marks_eq]

theorem insides (s : Text) : insides (front ++ s) = insides s := by
  have none : Source.insides front = [] := lead.unquoted.insides
  rw [Source.insides, insidesFrom_append, insidesFrom_alike _ _ lead.scan s]
  exact congrArg (· ++ Source.insides s) none

end IsLead

/-- Text without quotes neither opens a literal nor closes one. -/
theorem scanAfter_unquoted (scan : Scan) (quote : ∀ q, scan.delimiter = some q → isQuote q = true) (t : Text)
    (unquoted : Unquoted t) : (scanAfter scan t).delimiter = scan.delimiter := by
  induction t generalizing scan with
  | nil => rfl
  | cons b t ih =>
      obtain ⟨first, others⟩ := List.forall_mem_cons.mp unquoted
      have still : (scan.next b).delimiter = scan.delimiter := by
        cases held : scan.delimiter with
        | none => simp [Scan.next, held, scan.opens_other b first]
        | some q =>
            have other : b ≠ q := by
              rintro rfl
              simp [quote b held] at first
            simp [Scan.next, held, other]
      exact (ih _ (still ▸ quote) others).trans still

theorem isOpen_unquoted (s t : Text) (unquoted : Unquoted t) : isOpen (s ++ t) = isOpen s := by
  have quote := (marksFrom_alike {} {} Scan.alike_start s).2.quote
  rw [isOpen, isOpen, scanAfter_append, scanAfter_unquoted _ quote t unquoted]

theorem insides_unquoted (s t : Text) (unquoted : Unquoted t) (closed : isOpen s = false) :
    insides (s ++ t) = insides s := by
  rw [insides, insidesFrom_append,
    insidesFrom_literalless t unquoted.literalless _ ((isOpen_eq_false s).mp closed), List.append_nil]
  rfl

/-! Passes over a line -/

theorem Label.insides_remove (rule : LabelRule) (line : Text) (colon : EndsInColon rule line) :
    insides (remove rule line) = insides line := by
  have after := after_bytes rule (marks line)
  rw [bytes_marks] at after
  rw [remove, after colon]
  cases found : marksAfter? rule (marks line) with
  | none => rfl
  | some rest =>
      obtain ⟨front, mark, whole, plain, _, cut⟩ := (marksAfter_behind rule _ rest found).outside
      have closed : isOpen (bytes front) = false := (isOpen_eq_false _).mpr (plain {} rfl).2
      have split := insides_break (bytes front) (bytes rest) mark.byte closed cut
      have empty : insides (bytes front) = [] := insidesFrom_literalless _ plain {} rfl
      rw [empty, List.nil_append] at split
      rw [(marks_front line front _ whole).1]
      exact split.symm

theorem Cut.insides (separator : UInt8) (separates : isBreak separator = true) (s : Text) (parts : List Text)
    (cut : Cut separator s parts) : parts.flatMap Source.insides = Source.insides s := by
  induction cut with
  | last s free => rw [List.flatMap_cons, List.flatMap_nil, List.append_nil]
  | more s t parts closed free rest ih => rw [List.flatMap_cons, ih, insides_break s t separator closed separates]

theorem insides_splitOutside (separator : UInt8) (separates : isBreak separator = true) (s : Text) :
    (splitOutside separator s).flatMap insides = insides s :=
  Cut.insides separator separates s _ (cut_splitOutside separator separates s)

theorem closed_splitOutside (separator : UInt8) (separates : isBreak separator = true) (s : Text)
    (closed : isOpen s = false) : ∀ part ∈ splitOutside separator s, isOpen part = false :=
  Cut.closed separator separates s _ (cut_splitOutside separator separates s) closed

theorem flatMap_nonempty (parts : List Text) :
    (parts.filter (!·.isEmpty)).flatMap insides = parts.flatMap insides := by
  induction parts with
  | nil => rfl
  | cons part parts ih =>
      cases part with
      | nil => exact ih
      | cons b part => exact congrArg (insides (b :: part) ++ ·) ih

namespace Dialect

section Written
variable (dialect : Dialect) (separates : ∀ separator ∈ dialect.separator, isBreak separator = true) (line : Text)
include separates

theorem insides_written : (dialect.written line).flatMap insides = insides line := by
  have cleaned : ∀ parts : List Text, (parts.map clean).flatMap insides = parts.flatMap insides := by
    intro parts
    simp only [List.flatMap_map, insides_clean]
  rw [written, flatMap_nonempty, cleaned, parts]
  cases chosen : dialect.separator with
  | none => simp
  | some separator => exact insides_splitOutside separator (separates separator chosen) line

theorem closed_written (closed : isOpen line = false) : ∀ s ∈ dialect.written line, isOpen s = false := by
  intro s member
  obtain ⟨part, inside, rfl⟩ := List.mem_map.mp (List.mem_filter.mp member).1
  rw [(marks_clean part).2]
  rw [parts] at inside
  cases chosen : dialect.separator with
  | none =>
      rw [chosen, List.mem_singleton] at inside
      rwa [inside]
  | some separator =>
      rw [chosen] at inside
      exact closed_splitOutside separator (separates separator chosen) line closed part inside

end Written

end Dialect

theorem isBreak_of_not_solid (b : UInt8) (blank : Text.isSolid b = false) : isBreak b = true := by
  have each : (Text.blanks.flatten).all isBreak = true := by decide
  simp only [Text.isSolid, List.all_eq_false, Bool.not_eq_true', Bool.not_eq_false] at blank
  obtain ⟨text, member, inside⟩ := blank
  exact List.all_eq_true.mp each b (List.mem_flatten.mpr ⟨text, member, List.contains_iff_mem.mp inside⟩)

theorem isLead_blank (front : Text) (blank : ∀ b ∈ front, Text.isSolid b = false) : IsLead front where
  unquoted := fun b member => isQuote_of_isBreak b (isBreak_of_not_solid b (blank b member))
  ends := fun b last => isBreak_of_not_solid b (blank b (List.mem_of_getLast? last))

/-- A word and the space behind it. -/
theorem isLead_space (word : Text) (unquoted : Unquoted word) : IsLead (word ++ " ") where
  unquoted := unquoted.append (by decide)
  ends := by
    simp only [space_eq, List.getLast?_concat, Option.mem_some_iff]
    rintro b rfl
    decide

theorem append_space (word rest : Text) : word ++ (' ' : UInt8) :: rest = word ++ " " ++ rest := by
  rw [space_eq, List.append_assoc, List.singleton_append]

theorem Statement.text_operands (mnemonic : Text) (operands : List Text) (some : operands ≠ []) :
    (⟨mnemonic, operands⟩ : Statement).text = mnemonic ++ (' ' : UInt8) :: Text.join "," operands := by
  obtain ⟨first, others, rfl⟩ := List.exists_cons_of_ne_nil some
  exact (append_space mnemonic _).symm

theorem contents_trimLeft (s : Text) : isOpen s.trimLeft = isOpen s ∧ insides s.trimLeft = insides s := by
  obtain ⟨front, whole, blank⟩ := Text.trimLeft_split s
  have lead := isLead_blank front blank
  have sameOpen := lead.isOpen s.trimLeft
  have sameInsides := lead.insides s.trimLeft
  rw [← whole] at sameOpen sameInsides
  exact ⟨sameOpen.symm, sameInsides.symm⟩

theorem contents_trimRight (s : Text) (closed : isOpen s = false) :
    isOpen s.trimRight = false ∧ insides s.trimRight = insides s := by
  obtain ⟨back, whole, blank⟩ := Text.trimRight_split s
  have unquoted := (isLead_blank back blank).unquoted
  have sameOpen := isOpen_unquoted s.trimRight back unquoted
  rw [← whole, closed] at sameOpen
  have sameInsides := insides_unquoted s.trimRight back unquoted sameOpen.symm
  rw [← whole] at sameInsides
  exact ⟨sameOpen.symm, sameInsides.symm⟩

theorem contents_trim (s : Text) (closed : isOpen s = false) : isOpen s.trim = false ∧ insides s.trim = insides s := by
  obtain ⟨sameOpen, sameInsides⟩ := contents_trimLeft s
  obtain ⟨stillClosed, still⟩ := contents_trimRight s.trimLeft (sameOpen.trans closed)
  exact ⟨stillClosed, still.trans sameInsides⟩

theorem marks_isPrefix (s t : Text) (starts : s <+: t) : marks s <+: marks t := by
  obtain ⟨rest, rfl⟩ := starts
  rw [marks_eq, marks_eq, marksFrom_append]
  exact List.prefix_append _ _

/-- Trimming takes nothing out of the middle. -/
theorem marks_trim (s : Text) : marks s.trim <:+: marks s := by
  obtain ⟨front, whole, blank⟩ := Text.trimLeft_split s
  have marked := (isLead_blank front blank).marks s.trimLeft
  rw [← whole] at marked
  have behind : marks s.trimLeft <:+ marks s := ⟨_, marked.symm⟩
  exact (marks_isPrefix _ _ (Text.trimRight_isPrefix s.trimLeft)).isInfix.trans behind.isInfix

section Trimmed
variable (b : UInt8) (s : Text) (free : Mark.outside b ∉ marks s)
include free

theorem free_trimRight : Mark.outside b ∉ marks s.trimRight :=
  fun member => free ((marks_isPrefix _ _ (Text.trimRight_isPrefix s)).subset member)

theorem free_trim : Mark.outside b ∉ marks s.trim :=
  fun member => free ((marks_trim s).subset member)

end Trimmed

namespace Statement

theorem contents_operandsOf (s : Text) (closed : isOpen s = false) :
    (∀ operand ∈ operandsOf s, isOpen operand = false) ∧ (operandsOf s).flatMap insides = insides s := by
  have comma : isBreak ',' = true := by decide
  have parts := closed_splitOutside ',' comma s closed
  cases s with
  | nil => exact ⟨by simp [operandsOf], rfl⟩
  | cons b s =>
      rw [operandsOf, if_neg (by simp)]
      constructor
      · intro operand member
        obtain ⟨part, inside, rfl⟩ := List.mem_map.mp member
        exact (contents_trim part (parts part inside)).1
      · have same : ∀ part ∈ splitOutside ',' (b :: s), insides part.trim = insides part :=
          fun part inside => (contents_trim part (parts part inside)).2
        rw [List.flatMap_map, List.flatMap_def, List.map_congr_left same, ← List.flatMap_def,
          insides_splitOutside ',' comma (b :: s)]

/-- A mnemonic without quotes leaves all literals to the operands. -/
theorem contents_ofText (s : Text) (closed : isOpen s = false) (plain : Unquoted (ofText s).mnemonic) :
    (∀ operand ∈ (ofText s).operands, isOpen operand = false) ∧ (ofText s).operands.flatMap insides = insides s := by
  obtain ⟨stillClosed, still⟩ := contents_trim s closed
  rcases ofText_cases s with ⟨_, read⟩ | ⟨mnemonic, rest, whole, _, read⟩
  · rw [read] at plain ⊢
    refine ⟨by simp, ?_⟩
    rw [← still, Unquoted.insides plain]
    rfl
  · rw [read] at plain ⊢
    have lead := isLead_space mnemonic plain
    rw [whole, append_space] at stillClosed still
    rw [lead.isOpen] at stillClosed
    rw [lead.insides] at still
    obtain ⟨trimmed, kept⟩ := contents_trim rest stillClosed
    obtain ⟨each, all⟩ := contents_operandsOf (Text.trim rest) trimmed
    exact ⟨each, all.trans (kept.trans still)⟩

end Statement

namespace Statement

theorem registerList_eq (statement : Statement) :
    statement.registerList? =
      if 2 ≤ statement.operands.length ∧ (statement.mnemonic = "PUSH" ∨ statement.mnemonic = "POP") ∧
          statement.operands.all (!·.isEmpty) = true then
        some (statement.operands.map fun register => statement.mnemonic ++ " " ++ register)
      else none := by
  obtain ⟨mnemonic, operands⟩ := statement
  rcases operands with _ | ⟨first, _ | ⟨second, others⟩⟩
  · rfl
  · rfl
  · simp [registerList?]

/-- The register pairs with their halves, high first. -/
def registerPairs : List (Text × Text × Text) := [("BC", "B", "C"), ("DE", "D", "E"), ("HL", "H", "L")]

theorem mem_registerPairs (pair high low : Text) (found : halves? pair = some (high, low)) :
    (pair, high, low) ∈ registerPairs := by
  have one : ∀ known first second : Text, (known, first, second) ∈ registerPairs → pair = known →
      some (first, second) = some (high, low) → (pair, high, low) ∈ registerPairs := by
    rintro known first second listed rfl same
    rwa [← Option.some.inj same]
  simp only [halves?, beq_iff_eq] at found
  split at found
  · next same => exact one _ _ _ (by decide) same found
  · split at found
    · next same => exact one _ _ _ (by decide) same found
    · split at found
      · next same => exact one _ _ _ (by decide) same found
      · contradiction

/-- A load between register pairs goes half by half, and only `SUB` from `HL` is composed besides. -/
theorem composed_cases (statement : Statement) (statements : List Text)
    (composed : statement.composed? = some statements) :
    (∃ target ∈ registerPairs, ∃ source ∈ registerPairs, statement.operands = [target.1, source.1] ∧
      statements = ["LD " ++ target.2.1 ++ "," ++ source.2.1, "LD " ++ target.2.2 ++ "," ++ source.2.2]) ∨
    ∃ source ∈ [("BC" : Text), "DE", "HL", "SP"], statement.operands = [("HL" : Text), source] ∧
      statements = [("OR A" : Text), "SBC HL," ++ source] := by
  simp only [composed?] at composed
  split at composed
  · next target source operands =>
      split at composed
      · split at composed
        · next first second =>
            have listed := mem_registerPairs _ _ _ first
            have listed' := mem_registerPairs _ _ _ second
            exact .inl ⟨_, listed, _, listed', operands, (Option.some.inj composed).symm⟩
        · contradiction
      · split at composed
        · next known =>
            simp only [Bool.and_eq_true, Bool.or_eq_true, beq_iff_eq] at known
            obtain ⟨⟨_, rfl⟩, register⟩ := known
            refine .inr ⟨source, ?_, operands, (Option.some.inj composed).symm⟩
            rcases register with ((rfl | rfl) | rfl) | rfl <;> decide
        · contradiction
  · contradiction

theorem composed_unquoted (statement : Statement) (statements : List Text)
    (composed : statement.composed? = some statements) :
    (∀ operand ∈ statement.operands, Unquoted operand) ∧ ∀ s ∈ statements, Unquoted s := by
  have loads : ∀ target ∈ registerPairs, ∀ source ∈ registerPairs,
      (∀ operand ∈ [target.1, source.1], Unquoted operand) ∧
        ∀ s ∈ ["LD " ++ target.2.1 ++ "," ++ source.2.1, "LD " ++ target.2.2 ++ "," ++ source.2.2], Unquoted s := by
    decide +kernel
  have differences : ∀ source ∈ [("BC" : Text), "DE", "HL", "SP"],
      (∀ operand ∈ [("HL" : Text), source], Unquoted operand) ∧
        ∀ s ∈ [("OR A" : Text), "SBC HL," ++ source], Unquoted s := by
    decide +kernel
  rcases statement.composed_cases statements composed with
    ⟨target, listed, source, listed', operands, rfl⟩ | ⟨source, listed, operands, rfl⟩
  · rw [operands]
    exact loads target listed source listed'
  · rw [operands]
    exact differences source listed

end Statement

namespace Dialect

theorem unquoted_shorthand (mnemonic : Text) (short : mnemonic ∈ shorthands) : Unquoted mnemonic := by
  simp only [shorthands, List.mem_cons, List.not_mem_nil, or_false] at short
  rcases short with rfl | rfl | rfl | rfl <;> decide

theorem spellOut_eq (dialect : Dialect) (s : Text) :
    dialect.spellOut s =
      (if dialect.registerLists then (Statement.ofText s).registerList? else none).getD
        ((if dialect.composedInstructions then (Statement.ofText s).composed? else none).getD [s]) := by
  simp only [spellOut]
  split
  · next statements list => rw [list, Option.getD_some]
  · next list =>
      rw [list, Option.getD_none]
      split
      · next statements composed => rw [composed, Option.getD_some]
      · next composed => rw [composed, Option.getD_none]

/-- Shorthands are spelled out without loss. -/
theorem insides_spellOut (dialect : Dialect) (s : Text) (closed : isOpen s = false) :
    (dialect.spellOut s).flatMap insides = insides s := by
  by_cases short : (Statement.ofText s).mnemonic ∈ shorthands
  · have plain := unquoted_shorthand _ short
    obtain ⟨_, all⟩ := Statement.contents_ofText s closed plain
    rw [spellOut_eq]
    cases list : (if dialect.registerLists then (Statement.ofText s).registerList? else none) with
    | some statements =>
        have found := (Option.ite_none_right_eq_some.mp list).2
        rw [Statement.registerList_eq, Option.ite_none_right_eq_some] at found
        rw [Option.getD_some, ← Option.some.inj found.2, List.flatMap_map, ← all]
        simp only [(isLead_space _ plain).insides]
    | none =>
        cases composed : (if dialect.composedInstructions then (Statement.ofText s).composed? else none) with
        | some statements =>
            have found := (Option.ite_none_right_eq_some.mp composed).2
            obtain ⟨registers, plainStatements⟩ := Statement.composed_unquoted _ _ found
            have empty : ∀ texts : List Text, (∀ text ∈ texts, Unquoted text) → texts.flatMap insides = [] :=
              fun texts each => List.flatMap_eq_nil_iff.mpr fun text member => (each text member).insides
            exact (empty _ plainStatements).trans ((empty _ registers).symm.trans all)
        | none => exact List.append_nil _
  · rw [spellOut_other dialect s short, List.flatMap_cons, List.flatMap_nil, List.append_nil]

/-- The statements of a line hold, in order, what the literals of the line hold in front of its comment. -/
theorem insides_statements (dialect : Dialect) (separates : ∀ separator ∈ dialect.separator, isBreak separator = true)
    (raw : Text) (colon : Label.EndsInColon dialect.label (withoutComment dialect.comments raw))
    (closed : isOpen raw = false) :
    (dialect.statements raw).flatMap insides = insides (withoutComment dialect.comments raw) := by
  have code := isOpen_withoutComment dialect.comments raw closed
  have line := (Label.marks_remove dialect.label _ colon).2.trans code
  have each := dialect.closed_written separates _ line
  rw [statements_eq, List.flatMap_assoc]
  have whole : ∀ s ∈ dialect.written (Label.remove dialect.label (withoutComment dialect.comments raw)),
      (dialect.spellOut s).flatMap insides = insides s := fun s member => dialect.insides_spellOut s (each s member)
  rw [List.flatMap_def, List.map_congr_left whole, ← List.flatMap_def, dialect.insides_written separates,
    Label.insides_remove dialect.label _ colon]

end Dialect

end Z80Cost.Source
