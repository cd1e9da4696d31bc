import Z80Cost.Meter
import Z80Cost.Proofs.Source.Nesting

/-!
Metering depends on the texts of the statements alone, and their lines are carried along: what a
source is metered to is what its numbered texts expand to, within the limits, each with its results.
-/

namespace Z80Cost.Meter

def texts (m : Meter) (source : List Text) : List Text := source.flatMap m.dialect.statements

def resultsOf (m : Meter) (s : Text) : List Metered := m.matcher.meter (.ofText s)

def isCode (m : Meter) (s : Text) : Bool := !(m.resultsOf s).isEmpty

def cost (m : Meter) (statements : List Text) : Totals :=
  .sum (statements.map fun s => .ofResults (m.resultsOf s))

/-- The statements of a source, each with its line. -/
def numbered (dialect : Source.Dialect) (source : List Text) : List (Nat × Text) :=
  (source.zipIdx 1).flatMap fun entry => (dialect.statements entry.1).map fun s => (entry.2, s)

theorem numbered_texts (m : Meter) (source : List Text) :
    (numbered m.dialect source).map Prod.snd = m.texts source := by
  have lines := congrArg (List.flatMap m.dialect.statements) (List.zipIdx_map_fst 1 source)
  rw [List.flatMap_map] at lines
  simp only [numbered, List.map_flatMap, List.map_map, Function.comp_def, List.map_id', texts]
  exact lines

def listed (m : Meter) (entry : Nat × Text) : Listed := ⟨entry.1, entry.2, m.resultsOf entry.2⟩

theorem listing_eq (m : Meter) (source : List Text) :
    m.listing source = (numbered m.dialect source).map m.listed := by
  simp only [numbered, List.map_flatMap, List.map_map]
  rfl

theorem countP_listed (m : Meter) (entries : List (Nat × Text)) :
    (entries.map m.listed).countP Listed.isCode = (entries.map Prod.snd).countP m.isCode := by
  rw [List.countP_map, List.countP_map]
  rfl

theorem totals_listed (m : Meter) (entries : List (Nat × Text)) :
    totals (entries.map m.listed) = m.cost (entries.map Prod.snd) := by
  rw [totals, cost, List.map_map, List.map_map]
  rfl

/-- The report on the statements that a source of some lines expands to. -/
def reportOn (m : Meter) (lines : Nat) (entries : List (Nat × Text)) : Report :=
  ⟨lines, entries.map m.listed, m.cost (entries.map Prod.snd)⟩

theorem lines_eq (m : Meter) (source : List Text) :
    m.lines source =
      if exceeds source.length m.maxLines then .error (.lineCount source.length m.maxLines)
      else
        match Source.expand? m.dialect.repetition Prod.snd m.maxCode (numbered m.dialect source) with
        | none => .error (.blocks (Source.effectiveLimit m.maxCode))
        | some entries =>
            if exceeds ((entries.map Prod.snd).countP m.isCode) m.maxCode then .error (.moreCode m.maxCode)
            else .ok (m.reportOn source.length entries) := by
  have relabelled := Source.expand_map m.listed m.dialect.repetition Listed.text m.maxCode
    (numbered m.dialect source)
  have text : Listed.text ∘ m.listed = Prod.snd := rfl
  rw [← listing_eq, text] at relabelled
  rw [lines, relabelled]
  cases Source.expand? m.dialect.repetition Prod.snd m.maxCode (numbered m.dialect source) with
  | none => rfl
  | some entries => simp only [Option.map_some, countP_listed, totals_listed, reportOn]

theorem expand_texts (m : Meter) (source : List Text) :
    Source.expand? m.dialect.repetition id m.maxCode (m.texts source) =
      (Source.expand? m.dialect.repetition Prod.snd m.maxCode (numbered m.dialect source)).map
        (List.map Prod.snd) := by
  rw [← numbered_texts, Source.expand_map]
  rfl

theorem lines_refused (m : Meter) (source : List Text) (short : exceeds source.length m.maxLines = false)
    (refused : Source.expand? m.dialect.repetition id m.maxCode (m.texts source) = none) :
    m.lines source = .error (.blocks (Source.effectiveLimit m.maxCode)) := by
  rw [expand_texts, Option.map_eq_none_iff] at refused
  simp [lines_eq, short, refused]

theorem lines_expanded (m : Meter) (source expanded : List Text)
    (short : exceeds source.length m.maxLines = false)
    (found : Source.expand? m.dialect.repetition id m.maxCode (m.texts source) = some expanded) :
    ∃ statements, m.lines source =
      if exceeds (expanded.countP m.isCode) m.maxCode then .error (.moreCode m.maxCode)
      else .ok ⟨source.length, statements, m.cost expanded⟩ := by
  rw [expand_texts, Option.map_eq_some_iff] at found
  obtain ⟨entries, found, rfl⟩ := found
  refine ⟨entries.map m.listed, ?_⟩
  simp only [lines_eq, short, found, reportOn, Bool.false_eq_true, ↓reduceIte]

theorem lines_eq_ok (m : Meter) (source : List Text) (report : Report) :
    m.lines source = .ok report ↔
      exceeds source.length m.maxLines = false ∧ ∃ entries,
        Source.expand? m.dialect.repetition Prod.snd m.maxCode (numbered m.dialect source) = some entries ∧
        exceeds ((entries.map Prod.snd).countP m.isCode) m.maxCode = false ∧
        report = m.reportOn source.length entries := by
  rw [lines_eq]
  by_cases long : exceeds source.length m.maxLines = true
  · simp [long]
  · cases Source.expand? m.dialect.repetition Prod.snd m.maxCode (numbered m.dialect source) with
    | none => simp [long]
    | some entries =>
        by_cases much : exceeds ((entries.map Prod.snd).countP m.isCode) m.maxCode = true
        · simp only [long, much, Bool.false_eq_true, ↓reduceIte, reduceCtorEq, Option.some.injEq,
            exists_eq_left', Bool.true_eq_false, false_and, and_false]
        · simp only [long, much, Bool.false_eq_true, ↓reduceIte, Except.ok.injEq, Option.some.injEq,
            exists_eq_left', true_and]
          exact eq_comm

theorem lines_ok_iff (m : Meter) (source : List Text) (sums : Totals) :
    (∃ report, m.lines source = .ok report ∧ report.totals = sums) ↔
      exceeds source.length m.maxLines = false ∧
        ∃ expanded, Source.expand? m.dialect.repetition id m.maxCode (m.texts source) = some expanded ∧
          exceeds (expanded.countP m.isCode) m.maxCode = false ∧ m.cost expanded = sums := by
  simp only [lines_eq_ok, expand_texts, Option.map_eq_some_iff]
  constructor
  · rintro ⟨_, ⟨short, entries, found, few, rfl⟩, same⟩
    exact ⟨short, _, ⟨entries, found, rfl⟩, few, same⟩
  · rintro ⟨short, _, ⟨entries, found, rfl⟩, few, same⟩
    exact ⟨_, ⟨short, entries, found, few, rfl⟩, same⟩

theorem exceeds_mono (limit : Int64) (few many : Nat) (less : few ≤ many)
    (within : exceeds many limit = false) : exceeds few limit = false := by
  simp only [exceeds, Bool.and_eq_false_iff, decide_eq_false_iff_not] at within ⊢
  rcases within with none | bounded
  · exact .inl none
  · exact .inr (by omega)

end Z80Cost.Meter
