import Mathlib.Data.List.TakeWhile
import Z80Cost.Proofs.Source.Breaks

/-!
Text behind a statement separator. The label is looked for in the whole line, and its name may hold the
separator `|`: a colon behind the separator makes a label of all that stands before it. Where none does,
the statements before the separator stay, whatever follows.
-/

namespace Z80Cost.Source

namespace Label

/-- A label goes over a separator: in front of it there is at most a name, and behind it a name goes on
and ends in a colon. -/
def Spans (front rest : Text) : Prop :=
  (∀ b ∈ front.dropWhile isBlank, isNameByte b = true) ∧ (rest.dropWhile isNameByte).head? = some (':' : UInt8)

instance decidableSpans (front rest : Text) : Decidable (Spans front rest) :=
  decidable_of_iff
    ((front.dropWhile isBlank).all isNameByte = true ∧ (rest.dropWhile isNameByte).head? = some (':' : UInt8))
    (and_congr_left' List.all_eq_true)

section Separated
variable (front rest : Text)

theorem dropBlanks_separated : (front ++ ('|' : UInt8) :: rest).dropWhile isBlank =
    front.dropWhile isBlank ++ ('|' : UInt8) :: rest := by
  have solid : ¬ isBlank '|' = true := by decide
  rw [List.dropWhile_append]
  split
  · next gone => rw [List.isEmpty_iff.mp gone, List.dropWhile_cons_of_neg solid, List.nil_append]
  · rfl

/-- The separator is a byte of the name. -/
theorem afterName_named (named : ∀ b ∈ front, isNameByte b = true) :
    afterName? (front ++ ('|' : UInt8) :: rest) = some (rest.dropWhile isNameByte) := by
  have bar : isNameByte '|' = true := by decide
  have starts : (front ++ ('|' : UInt8) :: rest).head?.any isNameByte = true := by
    cases front with
    | nil => exact bar
    | cons b front => exact named b List.mem_cons_self
  rw [afterName?, if_pos starts, List.dropWhile_append_of_pos named, List.dropWhile_cons_of_pos bar]

theorem afterColons_separated (some : front ≠ []) : afterColons? (front ++ ('|' : UInt8) :: rest) =
    (afterColons? front).map (· ++ ('|' : UInt8) :: rest) := by
  obtain ⟨b, front, rfl⟩ := List.exists_cons_of_ne_nil some
  rw [List.cons_append, afterColons?, afterColons?]
  split
  · cases front with
    | nil => rfl
    | cons c front => by_cases colon : c = ':' <;> simp [colon]
  · rfl

/-- Where something else than a name is in front, the label ends before it. -/
theorem afterName_unnamed (other : ¬ ∀ b ∈ front, isNameByte b = true) :
    (afterName? (front ++ ('|' : UInt8) :: rest)).bind afterColons? =
      ((afterName? front).bind afterColons?).map (· ++ ('|' : UInt8) :: rest) := by
  have remains : front.dropWhile isNameByte ≠ [] := by
    rwa [ne_eq, List.dropWhile_eq_nil_iff]
  have onward : (front ++ ('|' : UInt8) :: rest).dropWhile isNameByte =
      front.dropWhile isNameByte ++ ('|' : UInt8) :: rest := by
    rw [List.dropWhile_append, if_neg (by simpa using remains)]
  have first : (front ++ ('|' : UInt8) :: rest).head? = front.head? := by
    cases front with
    | nil => exact absurd rfl remains
    | cons b front => rfl
  rw [afterName?, afterName?, onward, first]
  split
  · exact afterColons_separated _ rest remains
  · rfl

theorem after_separated : after? .colon (front ++ ('|' : UInt8) :: rest) =
    if (front.dropWhile isBlank).all isNameByte then afterColons? (rest.dropWhile isNameByte)
    else (after? .colon front).map (· ++ ('|' : UInt8) :: rest) := by
  rw [after?, dropBlanks_separated, after?]
  split
  · next named => rw [afterName_named _ rest (List.all_eq_true.mp named), Option.bind_some]
  · next other => exact afterName_unnamed _ rest (mt List.all_eq_true.mpr other)

theorem after_named (named : ∀ b ∈ front.dropWhile isBlank, isNameByte b = true) : after? .colon front = none := by
  have gone : (front.dropWhile isBlank).dropWhile isNameByte = [] := List.dropWhile_eq_nil_iff.mpr named
  rw [after?, afterName?, gone]
  split <;> rfl

theorem afterColons_eq_none (s : Text) (other : s.head? ≠ some (':' : UInt8)) : afterColons? s = none := by
  cases s with
  | nil => rfl
  | cons b s => exact if_neg fun colon => other (by rw [colon]; rfl)

theorem remove_separated (apart : ¬ Spans front rest) :
    remove .colon (front ++ ('|' : UInt8) :: rest) = remove .colon front ++ ('|' : UInt8) :: rest := by
  rw [remove, remove, after_separated]
  split
  · next all =>
      have named := List.all_eq_true.mp all
      rw [after_named front named, afterColons_eq_none _ fun colon => apart ⟨named, colon⟩]
      rfl
  · cases after? .colon front <;> rfl

/-- A label over the separator takes all that is in front of it. -/
theorem remove_spanned (spans : Spans front rest) :
    remove .colon (front ++ ('|' : UInt8) :: rest) = remove .colon (('|' : UInt8) :: rest) := by
  obtain ⟨named, colon⟩ := spans
  obtain ⟨tail, same⟩ := List.head?_eq_some_iff.mp colon
  have whole := after_separated front rest
  have bare := after_separated [] rest
  rw [if_pos (List.all_eq_true.mpr named), same] at whole
  rw [List.nil_append, if_pos (by simp), same] at bare
  rw [remove, remove, whole, bare]
  rfl

end Separated

end Label

theorem code_semicolon (front rest : List Mark) (free : ∀ mark ∈ front, mark.byte ≠ (';' : UInt8)) :
    code [";"] (front ++ rest) = front ++ code [";"] rest := by
  induction front with
  | nil => rfl
  | cons mark front ih =>
      obtain ⟨here, later⟩ := List.forall_mem_cons.mp free
      have semicolon : Text.ofString ";" = [(';' : UInt8)] := by decide
      have uncommented : startsComment [";"] (mark :: (front ++ rest)) = false := by
        simp [startsComment, semicolon, startsWith, Ne.symm here]
      rw [List.cons_append, code, uncommented, ih later]
      rfl

theorem withoutComment_separated (s t : Text) (closed : isOpen s = false) :
    (withoutComment [";"] s = s → withoutComment [";"] (s ++ ('|' : UInt8) :: t) =
        s ++ ('|' : UInt8) :: withoutComment [";"] t) ∧
      (withoutComment [";"] s ≠ s → withoutComment [";"] (s ++ ('|' : UInt8) :: t) = withoutComment [";"] s) := by
  have free : ∀ marker ∈ ([";"] : List Text), (Mark.outside '|').byte ∉ marker.tail := by decide
  have bar : ∀ marked, code [";"] (Mark.outside '|' :: marked) = Mark.outside '|' :: code [";"] marked :=
    fun marked => code_semicolon [Mark.outside '|'] marked (by decide)
  have split := code_append_cons [";"] (marks s) (marks t) (Mark.outside '|') free
  rw [← marks_break s t '|' closed (by decide)] at split
  constructor
  · intro uncommented
    have whole : code [";"] (marks s) = marks s := by rw [← marks_withoutComment, uncommented]
    rw [withoutComment_eq, split.1 whole, bar, bytes, List.map_append, List.map_cons, ← bytes, ← bytes,
      bytes_marks, ← withoutComment_eq]
    rfl
  · intro commented
    have cut : code [";"] (marks s) ≠ marks s := by
      intro whole
      rw [withoutComment_eq, whole, bytes_marks] at commented
      exact commented rfl
    rw [withoutComment_eq, split.2 cut, ← withoutComment_eq]

/-- A name and a colon are in front of every comment. -/
theorem withoutComment_named (name rest : Text) (named : ∀ b ∈ name, Label.isNameByte b = true) :
    ∃ code, withoutComment [";"] (name ++ (':' : UInt8) :: rest) = name ++ (':' : UInt8) :: code := by
  have plain : ∀ b ∈ name ++ [(':' : UInt8)], isQuote b = false ∧ b ≠ ';' := by
    intro b member
    rcases List.mem_append.mp member with inside | last
    · refine ⟨Label.isQuote_of_isNameByte b (named b inside), ?_⟩
      rintro rfl
      exact absurd (named _ inside) (by decide)
    · rw [List.mem_singleton.mp last]
      decide
  have unquoted : Literalless (name ++ [(':' : UInt8)]) :=
    literalless_of_no_quote _ fun b member => by simpa [isQuote] using (plain b member).1
  have marked := (unquoted {} rfl).1
  have free : ∀ mark ∈ (name ++ [(':' : UInt8)]).map Mark.outside, mark.byte ≠ (';' : UInt8) := by
    intro mark member
    obtain ⟨b, inside, rfl⟩ := List.mem_map.mp member
    exact (plain b inside).2
  refine ⟨bytes (code [";"] (marksFrom (scanAfter {} (name ++ [(':' : UInt8)])) rest)), ?_⟩
  have split : name ++ (':' : UInt8) :: rest = (name ++ [(':' : UInt8)]) ++ rest := by simp
  rw [split, withoutComment_eq, marks_eq, marksFrom_append, marked, code_semicolon _ _ free, bytes,
    List.map_append, ← bytes, ← bytes, bytes_outside, List.append_assoc]
  rfl

theorem withoutComment_blank_named (s : Text) (named : ∀ b ∈ s.dropWhile Label.isBlank, Label.isNameByte b = true) :
    withoutComment [";"] s = s := by
  have free : ∀ mark ∈ marks s, mark.byte ≠ (';' : UInt8) := by
    intro mark member semicolon
    have inside : (';' : UInt8) ∈ s := by
      rw [← bytes_marks s, ← semicolon]
      exact List.mem_map_of_mem member
    rw [← List.takeWhile_append_dropWhile (p := Label.isBlank) (l := s), List.mem_append] at inside
    rcases inside with blank | name
    · exact absurd (List.mem_takeWhile_imp blank) (by decide)
    · exact absurd (named _ name) (by decide)
  have whole := code_semicolon (marks s) [] free
  rw [List.append_nil] at whole
  rw [withoutComment_eq, whole, code, List.append_nil, bytes_marks]

theorem spans_withoutComment (s t : Text) : Label.Spans s (withoutComment [";"] t) ↔ Label.Spans s t := by
  refine and_congr_right fun _ => ⟨fun colon => ?_, fun colon => ?_⟩
  · obtain ⟨comment, whole⟩ := withoutComment_isPrefix [";"] t
    obtain ⟨rest, same⟩ := List.head?_eq_some_iff.mp colon
    rw [← whole, List.dropWhile_append, same]
    rfl
  · obtain ⟨rest, same⟩ := List.head?_eq_some_iff.mp colon
    have named : ∀ b ∈ t.takeWhile Label.isNameByte, Label.isNameByte b = true := fun b => List.mem_takeWhile_imp
    obtain ⟨code, kept⟩ := withoutComment_named _ rest named
    rw [← same, List.takeWhile_append_dropWhile] at kept
    have solid : ¬ Label.isNameByte ':' = true := by decide
    rw [kept, List.dropWhile_append_of_pos named, List.dropWhile_cons_of_neg solid]
    rfl

namespace Dialect

theorem statements_plain (dialect : Dialect) (lists : dialect.registerLists = false)
    (composed : dialect.composedInstructions = false) (raw : Text) : dialect.statements raw =
      dialect.written (Label.remove dialect.label (withoutComment dialect.comments raw)) := by
  have kept : ∀ s, dialect.spellOut s = [s] := fun s => by simp [spellOut, lists, composed]
  rw [statements_eq, funext kept, List.flatMap_singleton']

theorem written_separated (s t : Text) (closed : isOpen s = false) :
    tniasm.written (s ++ ('|' : UInt8) :: t) = tniasm.written s ++ tniasm.written t := by
  have split : tniasm.parts (s ++ ('|' : UInt8) :: t) = tniasm.parts s ++ tniasm.parts t :=
    splitOutside_break '|' (by decide) s t closed
  rw [written, split, List.map_append, List.filter_append]
  rfl

/-- Where no label goes over a separator, the statements before it are the first of the line; where one
does, they are lost. -/
theorem statements_separated (front rest : Text) (closed : isOpen front = false) :
    (¬ Label.Spans front rest →
        tniasm.statements front <+: tniasm.statements (front ++ ('|' : UInt8) :: rest)) ∧
      (Label.Spans front rest →
        tniasm.statements (front ++ ('|' : UInt8) :: rest) = tniasm.statements (('|' : UInt8) :: rest)) := by
  have read : ∀ raw, tniasm.statements raw = tniasm.written (Label.remove .colon (withoutComment [";"] raw)) :=
    statements_plain tniasm rfl rfl
  obtain ⟨uncommented, commented⟩ := withoutComment_separated front rest closed
  constructor
  · intro apart
    rw [read, read]
    by_cases whole : withoutComment [";"] front = front
    · have still : ¬ Label.Spans front (withoutComment [";"] rest) := mt (spans_withoutComment front rest).mp apart
      have ends := (Label.marks_remove .colon front (.inl rfl)).2
      rw [uncommented whole, whole, Label.remove_separated _ _ still,
        written_separated _ _ (ends.trans closed)]
      exact List.prefix_append _ _
    · exact ⟨[], by rw [commented whole, List.append_nil]⟩
  · intro spans
    have whole : withoutComment [";"] front = front := withoutComment_blank_named front spans.1
    have bare := (withoutComment_separated [] rest rfl).1 rfl
    have still := (spans_withoutComment front rest).mpr spans
    rw [read, read, uncommented whole, Label.remove_spanned _ _ still]
    exact congrArg (fun line => tniasm.written (Label.remove .colon line)) bare.symm

/-- A label before the separator keeps one behind it from reaching back; without it, the statement in
front is taken for a part of the label. -/
theorem statements_separated_labels :
    [Text.ofString "NOP"] <+: tniasm.statements "x: nop|y: halt" ∧
      tniasm.statements "nop|y: halt" = tniasm.statements "|y: halt" := by
  have first : tniasm.statements "x: nop" = [Text.ofString "NOP"] := by decide +kernel
  have kept := (statements_separated "x: nop" "y: halt" (by decide)).1 (by decide)
  have lost := (statements_separated "nop" "y: halt" (by decide)).2 (by decide)
  rw [first] at kept
  exact ⟨kept, lost⟩

/-- The statement before the separator is gone. -/
theorem statements_label_over_separator : isOpen "nop" = false ∧
    ¬ tniasm.statements "nop" <+: tniasm.statements (("nop" : Text) ++ ('|' : UInt8) :: ("x: halt" : Text)) := by
  have before : tniasm.statements "nop" = [Text.ofString "NOP"] := by decide +kernel
  have after : tniasm.statements (("nop" : Text) ++ ('|' : UInt8) :: ("x: halt" : Text)) = [Text.ofString "HALT"] := by
    decide +kernel
  refine ⟨by decide, ?_⟩
  rw [before, after]
  decide

end Dialect

end Z80Cost.Source
