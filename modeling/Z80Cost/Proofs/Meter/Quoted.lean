import Z80Cost.Instruction.Z80
import Z80Cost.Meter
import Z80Cost.Proofs.Directive.Unquoting
import Z80Cost.Proofs.Instruction.Catalog
import Z80Cost.Proofs.Instruction.Hexadecimal

/-!
Quoted data. A byte list of literals is metered as the bytes that the literals hold, in every dialect:
no pass over the line changes a byte inside its delimiters, and unquoting undoes how it was written.
-/

namespace Z80Cost

open Source (Quote Literal)

namespace Directive

theorem byteTokens_written (literal : Literal) :
    byteTokens literal.written = literal.content.map Pattern.hexText := by
  simp only [byteTokens, unquote_written]

def byteName : Text := "DB"

theorem isMnemonic_byteName : Source.Statement.IsMnemonic byteName :=
  ⟨by decide, List.all_eq_true.mp (by decide)⟩

def ofLiterals (literals : List Literal) : Directive where
  kind := .byte
  text := byteName ++ (' ' : UInt8) :: Literal.list literals
  data := (literals.flatMap Literal.content).map Pattern.hexText

section Literals
variable (literals : List Literal)

theorem ofText_literals :
    Source.Statement.ofText (ofLiterals literals).text = ⟨byteName, literals.map Literal.written⟩ :=
  Literal.ofText_list literals byteName isMnemonic_byteName

theorem byteTokens_literals :
    (literals.map Literal.written).flatMap byteTokens = (ofLiterals literals).data := by
  simp only [ofLiterals, List.flatMap_map, byteTokens_written, List.map_flatMap]

theorem text_literals (some : literals ≠ []) :
    (⟨byteName, literals.map Literal.written⟩ : Source.Statement).text = (ofLiterals literals).text := by
  obtain ⟨first, rest, rfl⟩ := List.exists_cons_of_ne_nil some
  have separator : Text.ofString " " = [(' ' : UInt8)] := by decide
  simp [Source.Statement.text, separator, ofLiterals, Literal.list]

theorem meter_literals (catalog : Option Catalog) (policy : StoragePolicy) (some : literals ≠ []) :
    meter? catalog policy ⟨byteName, literals.map Literal.written⟩ =
      .some [.directive (ofLiterals literals)] := by
  have kind : kind? byteName = .some .byte := by decide
  have complete : (literals.map Literal.written).any List.isEmpty = false := by
    simp [Literal.written]
  have defined : ofLiterals literals =
      ⟨.byte, (⟨byteName, literals.map Literal.written⟩ : Source.Statement).text,
        (literals.map Literal.written).flatMap byteTokens⟩ := by
    rw [text_literals literals some, byteTokens_literals]
    rfl
  rw [defined]
  obtain ⟨first, rest, rfl⟩ := List.exists_cons_of_ne_nil some
  simp only [meter?, kind, complete]
  rfl

end Literals

end Directive

/-- No instruction is named like a data definition. -/
theorem Catalog.z80_data_free : ∀ i ∈ z80.all, Directive.kind? i.mnemonic = none := by
  decide +kernel

theorem Catalog.z80_candidates_data (mnemonic : Text) (data : (Directive.kind? mnemonic).isSome) :
    (z80.candidates mnemonic).isEmpty = true := by
  rw [z80, ofPatterns, candidates_ofInstructions, List.isEmpty_iff, List.filter_eq_nil_iff]
  intro i member named
  have other := z80_data_free i member
  rw [of_decide_eq_true named] at other
  simp [other] at data

theorem Matcher.meter_literals (m : Matcher) (builtin : m.catalog = Catalog.z80) (literals : List Literal)
    (some : literals ≠ []) :
    m.meter (.ofText (Directive.ofLiterals literals).text) = [.directive (.ofLiterals literals)] := by
  have data := Catalog.z80_candidates_data Directive.byteName (by decide)
  rw [Directive.ofText_literals, Matcher.meter, builtin, if_pos data,
    Directive.meter_literals literals _ _ some]
  rfl

/-- A line of literals is one statement of every dialect. -/
theorem Source.Dialect.statements_literals (dialect : Dialect) (known : dialect ∈ all)
    (literals : List Literal) (some : literals ≠ []) :
    dialect.statements (" db " ++ Literal.list literals) = [(Directive.ofLiterals literals).text] := by
  have line : Text.ofString " db " ++ Literal.list literals = indented "db" (Literal.list literals) := by
    have front : Text.ofString " db " = (' ' : UInt8) :: (Text.ofString "db" ++ [(' ' : UInt8)]) := by decide
    simp [front, indented]
  have isName : Text.IsWordText "db" := ⟨by decide, List.all_eq_true.mp (by decide)⟩
  have upper : (Text.ofString "db").upper = Directive.byteName := by decide
  have plain : Directive.byteName ∉ shorthands := by decide
  rw [line, statements_spelled dialect known _ _ isName (Literal.isOperandText_list literals some),
    Literal.spelled_list, upper]
  apply spellOut_other
  rw [Literal.ofText_list literals _ Directive.isMnemonic_byteName]
  exact plain

namespace Meter

/-- Literals of any bytes are metered as these bytes. -/
theorem statement_literals (m : Meter) (builtin : m.matcher.catalog = Catalog.z80)
    (known : m.dialect ∈ Source.Dialect.all) (line : Nat) (literals : List Literal) (some : literals ≠ []) :
    ∃ d : Directive,
      m.statement line (" db " ++ Literal.list literals) =
        [⟨line, "DB " ++ Literal.list literals, [.directive d]⟩] ∧
      d.kind = .byte ∧
      d.data = (literals.flatMap Literal.content).map
        (fun b => [Text.upperDigit (b.toNat / 16), Text.upperDigit (b.toNat % 16)]) ∧
      (Metered.directive d).size = .ofNat (literals.flatMap Literal.content).length := by
  have text : Text.ofString "DB " ++ Literal.list literals = (Directive.ofLiterals literals).text := by
    have front : Text.ofString "DB " = Directive.byteName ++ [(' ' : UInt8)] := by decide
    rw [front, List.append_assoc]
    rfl
  refine ⟨.ofLiterals literals, ?_, rfl, ?_, ?_⟩
  · rw [statement, Source.Dialect.statements_literals m.dialect known literals some, List.map_singleton,
      m.matcher.meter_literals builtin literals some, text]
  · apply List.map_congr_left
    intro b _
    exact Pattern.hexText_digits b
  · rw [Metered.size, Directive.ofLiterals, List.length_map]

/-- What a line is cut at elsewhere: comment marks, separators, commas, blanks and both delimiters. -/
def mixed : List Literal :=
  [⟨.single, "AF'"⟩, ⟨.double, "x;y//z:\"|, 'Q"⟩, ⟨.single, []⟩, ⟨.double, [0xC2, 0x85, 0xFF]⟩]

theorem statement_literals_mixed :
    Source.Dialect.sjasmplus ∈ Source.Dialect.all ∧ mixed ≠ [] ∧
      Literal.list mixed = Text.ofString "'AF''',\"x;y//z:\"\"|, 'Q\",'',\"" ++ [0xC2, 0x85, 0xFF] ++
        Text.ofString "\"" ∧
      ∃ d : Directive,
        ({ matcher := { catalog := .z80 }, dialect := .sjasmplus } : Meter).statement 1
            (" db " ++ Literal.list mixed) = [⟨1, "DB " ++ Literal.list mixed, [.directive d]⟩] ∧
        d.kind = .byte ∧
        d.data = (["41", "46", "27", "78", "3B", "79", "2F", "2F", "7A", "3A", "22", "7C", "2C", "20", "27",
          "51", "C2", "85", "FF"] : List Text) ∧
        (Metered.directive d).size = 19 := by
  obtain ⟨d, listed, kind, data, size⟩ := statement_literals
    { matcher := { catalog := .z80 }, dialect := .sjasmplus } rfl (by decide) 1 mixed (by decide)
  refine ⟨by decide, by decide, by decide, d, listed, kind, data.trans ?_, size.trans ?_⟩
  · decide
  · decide

end Meter

end Z80Cost
