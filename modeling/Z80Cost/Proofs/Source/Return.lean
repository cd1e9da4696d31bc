import Z80Cost.Proofs.Source.Statement
import Z80Cost.Source.Dialect

/-!
A carriage return at the end of a line changes none of its statements. It is blank outside literals;
in a literal that the line leaves open it lengthens the last word, and reading the statement trims it
off again. Comment marks, labels and separators in front of it stay what they are.
-/

namespace Z80Cost

namespace Text

theorem trimRight_return (s : Text) : trimRight (s ++ [('\r' : UInt8)]) = trimRight s := by
  unfold trimRight
  rw [List.reverse_concat]
  rfl

theorem trim_return (s : Text) : trim (s ++ [('\r' : UInt8)]) = trim s := by
  have short : ∀ mark ∈ blanks, ('\r' : UInt8) ∈ mark → mark.length ≤ 1 := by decide
  have left := dropLeading_append_mark blanks '\r' (fun _ => rfl) short 0 s [] (Nat.zero_le _)
  simp only [trim, trimLeft, left]
  split
  · next none => rw [none]; rfl
  · exact trimRight_return _

end Text

namespace Source

theorem Statement.ofText_return (s : Text) : ofText (s ++ [('\r' : UInt8)]) = ofText s := by
  simp only [ofText, Text.trim_return]

theorem splitOnP_concat {α : Type} (p : α → Bool) (l : List α) (x : α) (other : p x = false) :
    ∃ front last, l.splitOnP p = front ++ [last] ∧ (l ++ [x]).splitOnP p = front ++ [last ++ [x]] := by
  induction l with
  | nil =>
      refine ⟨[], [], List.splitOnP_nil, ?_⟩
      simp [List.splitOnP_cons_eq_if_modifyHead, other]
  | cons a l ih =>
      obtain ⟨front, last, before, after⟩ := ih
      rw [List.cons_append, List.splitOnP_cons_eq_if_modifyHead, List.splitOnP_cons_eq_if_modifyHead, before,
        after]
      split
      · exact ⟨[] :: front, last, rfl, rfl⟩
      · cases front with
        | nil => exact ⟨[], a :: last, rfl, rfl⟩
        | cons first front => exact ⟨(a :: first) :: front, last, rfl, rfl⟩

theorem splitOnP_separated {α : Type} (p : α → Bool) (l : List α) (x : α) (separates : p x = true) :
    (l ++ [x]).splitOnP p = l.splitOnP p ++ [[]] := by
  rw [List.splitOnP_append_cons l [] separates, List.splitOnP_nil]

/-- Behind an element that is no separator, the last part is not empty. -/
theorem splitOnP_last (α : Type) (p : α → Bool) (l : List α) (x : α) (other : p x = false)
    (front : List (List α)) (last : List α) (parts : (l ++ [x]).splitOnP p = front ++ [last]) : last ≠ [] := by
  obtain ⟨before, word, _, after⟩ := splitOnP_concat p l x other
  obtain ⟨_, same⟩ := List.append_inj' (parts.symm.trans after) rfl
  obtain rfl := List.singleton_inj.mp same
  simp

/-- Whether a literal is open behind the text. -/
def isOpen (s : Text) : Bool := (scanAfter {} s).delimiter.isSome

theorem marks_concat (s : Text) (b : UInt8) :
    marks (s ++ [b]) = marks s ++ [⟨b, (scanAfter {} s).quotes b⟩] := by
  rw [marks_eq, marks_eq, marksFrom_append]
  rfl

theorem marks_return (s : Text) : marks (s ++ [('\r' : UInt8)]) = marks s ++ [⟨'\r', isOpen s⟩] := by
  have shut : ∀ scan : Scan, scan.opens '\r' = false := fun scan => rfl
  rw [marks_concat, Scan.quotes, shut, Bool.or_false, isOpen]

/-- A literal that is open behind a text holds its last byte. -/
theorem marks_open (s : Text) (opened : isOpen s = true) : ∃ front b, marks s = front ++ [⟨b, true⟩] := by
  rcases List.eq_nil_or_concat s with rfl | ⟨front, b, rfl⟩
  · contradiction
  · rw [List.concat_eq_append] at opened ⊢
    refine ⟨marks front, b, ?_⟩
    rw [marks_concat]
    simp only [isOpen, scanAfter, List.foldl_append, List.foldl_cons, List.foldl_nil, Scan.next] at opened
    simp only [Scan.quotes, scanAfter]
    cases held : (front.foldl Scan.next {}).delimiter with
    | some quote => rfl
    | none =>
        simp only [held] at opened
        split at opened
        · next opens => simp [opens]
        · contradiction

theorem startsWith_concat (head : Text) (marked : List Mark) (mark : Mark) (free : mark.byte ∉ head) :
    startsWith head (marked ++ [mark]) = startsWith head marked := by
  induction marked generalizing head with
  | nil =>
      cases head with
      | nil => rfl
      | cons h head =>
          have other : h ≠ mark.byte := fun same => free (same ▸ List.mem_cons_self)
          simp [startsWith, other]
  | cons first marked ih =>
      cases head with
      | nil => rfl
      | cons h head =>
          have rest := ih head fun inside => free (List.mem_cons_of_mem h inside)
          rw [List.cons_append, startsWith, startsWith, rest]

theorem startsComment_concat (markers : List Text) (first : Mark) (marked : List Mark) (mark : Mark)
    (free : ∀ marker ∈ markers, mark.byte ∉ marker.tail) :
    startsComment markers (first :: marked ++ [mark]) = startsComment markers (first :: marked) := by
  have same : ∀ marker ∈ markers, startsWith marker (first :: marked ++ [mark]) =
      startsWith marker (first :: marked) := by
    intro marker member
    cases marker with
    | nil => rfl
    | cons h tail =>
        rw [List.cons_append, startsWith, startsWith, startsWith_concat tail marked mark (free _ member)]
  have any : markers.any (startsWith · (first :: marked ++ [mark])) =
      markers.any (startsWith · (first :: marked)) := by
    rw [Bool.eq_iff_iff, List.any_eq_true, List.any_eq_true]
    exact exists_congr fun marker => and_congr_right fun member => by rw [same marker member]
  rw [List.cons_append] at any ⊢
  rw [startsComment, startsComment, any]

/-- A text, perhaps with a carriage return behind it. -/
inductive Returned (s : Text) : Text → Prop
  | same : Returned s s
  | added : Returned s (s ++ [('\r' : UInt8)])

theorem codeOnto_return (markers : List Text) (free : ∀ marker ∈ markers, ('\r' : UInt8) ∉ marker.tail)
    (quoted : Bool) (code : Text) (marked : List Mark) :
    Returned (codeOnto markers code marked).reverse
      (codeOnto markers code (marked ++ [⟨'\r', quoted⟩])).reverse := by
  induction marked generalizing code with
  | nil =>
      simp only [List.nil_append, codeOnto]
      split
      · exact .same
      · rw [List.reverse_cons]
        exact .added
  | cons mark marked ih =>
      have comment := startsComment_concat markers mark marked ⟨'\r', quoted⟩ free
      rw [List.cons_append] at comment ⊢
      rw [codeOnto, codeOnto, comment]
      split
      · exact .same
      · exact ih (mark.byte :: code)

theorem withoutComment_return (markers : List Text) (free : ∀ marker ∈ markers, ('\r' : UInt8) ∉ marker.tail)
    (s : Text) : Returned (withoutComment markers s) (withoutComment markers (s ++ [('\r' : UInt8)])) := by
  rw [withoutComment, withoutComment, marks_return]
  exact codeOnto_return markers free (isOpen s) [] (marks s)

namespace Label

theorem afterName_return (s : Text) :
    afterName? (s ++ [('\r' : UInt8)]) = (afterName? s).map (· ++ [('\r' : UInt8)]) := by
  have stops : isNameByte '\r' = false := by decide
  cases s with
  | nil => rfl
  | cons b s =>
      have rest : (b :: s ++ [('\r' : UInt8)]).dropWhile isNameByte =
          (b :: s).dropWhile isNameByte ++ [('\r' : UInt8)] := by
        rw [List.dropWhile_append]
        split
        · next gone => simp [List.isEmpty_iff.mp gone, stops]
        · rfl
      simp only [afterName?, rest]
      by_cases named : isNameByte b = true <;> simp [named]

theorem afterColons_return (s : Text) :
    afterColons? (s ++ [('\r' : UInt8)]) = (afterColons? s).map (· ++ [('\r' : UInt8)]) := by
  cases s with
  | nil => rfl
  | cons b s =>
      simp only [List.cons_append, afterColons?]
      split
      · cases s with
        | nil => rfl
        | cons c s =>
            simp only [List.cons_append, List.head?_cons, List.drop_succ_cons, List.drop_zero, Option.map_some]
            split <;> rfl
      · rfl

/-- The rest behind a label further right, carriage return included. -/
theorem afterIndented_return (s : Text) :
    (afterName? ((s ++ [('\r' : UInt8)]).dropWhile isBlank)).bind afterColons? =
      ((afterName? (s.dropWhile isBlank)).bind afterColons?).map (· ++ [('\r' : UInt8)]) := by
  have blank : isBlank '\r' = true := by decide
  rw [List.dropWhile_append]
  split
  · next gone => simp [List.isEmpty_iff.mp gone, blank, afterName?]
  · rw [afterName_return]
    cases afterName? (s.dropWhile isBlank) with
    | none => rfl
    | some rest => exact afterColons_return rest

theorem afterBlank_return (s : Text) :
    (afterBlank? s = some [] ∧ afterBlank? (s ++ [('\r' : UInt8)]) = some []) ∨
      afterBlank? (s ++ [('\r' : UInt8)]) = (afterBlank? s).map (· ++ [('\r' : UInt8)]) := by
  cases s with
  | nil => exact .inl ⟨rfl, rfl⟩
  | cons b s =>
      right
      simp only [List.cons_append, afterBlank?]
      split <;> rfl

theorem after_return (rule : LabelRule) (s : Text) :
    (after? rule s = some [] ∧ after? rule (s ++ [('\r' : UInt8)]) = some []) ∨
      after? rule (s ++ [('\r' : UInt8)]) = (after? rule s).map (· ++ [('\r' : UInt8)]) := by
  cases rule with
  | colon => exact .inr (afterIndented_return s)
  | column =>
      simp only [after?, afterName_return, afterIndented_return]
      cases afterName? s with
      | some rest =>
          right
          simp only [Option.map_some, afterColons_return]
          cases afterColons? rest <;> rfl
      | none =>
          simp only [Option.map_none]
          cases (afterName? (s.dropWhile isBlank)).bind afterColons? with
          | none => exact .inr rfl
          | some rest => exact afterBlank_return rest

theorem remove_return (rule : LabelRule) (s : Text) :
    Returned (remove rule s) (remove rule (s ++ [('\r' : UInt8)])) := by
  rcases after_return rule s with ⟨before, after⟩ | after
  · rw [remove, remove, before, after]
    exact .same
  · rw [remove, remove, after]
    cases after? rule s with
    | none => exact .added
    | some rest => exact .added

end Label

theorem join_concat (words : List Text) (word tail : Text) :
    Text.join " " (words ++ [word ++ tail]) = Text.join " " (words ++ [word]) ++ tail := by
  simp only [Text.join]
  induction words with
  | nil => simp
  | cons first words ih =>
      cases words with
      | nil => simp [List.intercalate_cons_cons]
      | cons second words =>
          simp only [List.cons_append] at ih ⊢
          rw [List.intercalate_cons_cons, List.intercalate_cons_cons, ih, List.append_assoc _ _ tail]

theorem join_ne_nil_of_last (words : List Text) (word : Text) (some : word ≠ []) :
    Text.join " " (words ++ [word]) ≠ [] := by
  obtain ⟨b, rest, rfl⟩ := List.exists_cons_of_ne_nil some
  have split := join_concat words [] (b :: rest)
  rw [List.nil_append] at split
  simp [split]

/-- A statement keeps its spelling, or it ends in an open literal that the carriage return goes into. -/
theorem clean_return (s : Text) :
    clean (s ++ [('\r' : UInt8)]) = clean s ∨
      (clean s ≠ [] ∧ clean (s ++ [('\r' : UInt8)]) = clean s ++ [('\r' : UInt8)]) := by
  cases opened : isOpen s with
  | false =>
      left
      have blank : Mark.isBlank ⟨'\r', false⟩ = true := by decide
      simp only [clean, marks_return, opened, splitOnP_separated _ _ _ blank, List.filter_append]
      have dropped : [([] : List Mark)].filter (!·.isEmpty) = [] := rfl
      rw [dropped, List.append_nil]
  | true =>
      right
      obtain ⟨before, b, ends⟩ := marks_open s opened
      have solid : ∀ c, Mark.isBlank ⟨c, true⟩ = false := fun c => rfl
      obtain ⟨front, last, parts, longer⟩ := splitOnP_concat Mark.isBlank (marks s) ⟨'\r', true⟩ (solid _)
      have word : last ≠ [] := by
        rw [ends] at parts
        exact splitOnP_last Mark Mark.isBlank before ⟨b, true⟩ (solid b) front last parts
      have kept : [last].filter (!·.isEmpty) = [last] := by simp [word]
      have grown : [last ++ [⟨'\r', true⟩]].filter (!·.isEmpty) = [last ++ [(⟨'\r', true⟩ : Mark)]] := by simp
      simp only [clean, marks_return, opened, parts, longer, List.filter_append, kept, grown, List.map_append,
        List.map_cons, List.map_nil]
      exact ⟨join_ne_nil_of_last _ _ (by simpa using word), join_concat _ _ _⟩

namespace Dialect

/-- The statements of a line before shorthands are spelled out. -/
def written (dialect : Dialect) (line : Text) : List Text :=
  ((dialect.parts line).map clean).filter (!·.isEmpty)

/-- Parts that are read alike give the same statements. -/
theorem written_parts (front : List Text) (last : Text) :
    (((front ++ [last ++ [('\r' : UInt8)]]).map clean).filter (!·.isEmpty)).map Statement.ofText =
      (((front ++ [last]).map clean).filter (!·.isEmpty)).map Statement.ofText := by
  simp only [List.map_append, List.filter_append, List.map_cons, List.map_nil]
  congr 1
  rcases clean_return last with same | ⟨some, longer⟩
  · rw [same]
  · simp [longer, some, Statement.ofText_return]

theorem written_return (dialect : Dialect) (line : Text) :
    (dialect.written (line ++ [('\r' : UInt8)])).map Statement.ofText =
      (dialect.written line).map Statement.ofText := by
  unfold written parts
  cases dialect.separator with
  | none => exact written_parts [] line
  | some separator =>
      simp only [splitOutside, marks_return]
      cases separates : Mark.isOutside separator ⟨'\r', isOpen line⟩ with
      | true =>
          rw [splitOnP_separated _ _ _ separates]
          have empty : clean (bytes []) = [] := rfl
          simp [empty]
      | false =>
          obtain ⟨front, last, parts, longer⟩ :=
            splitOnP_concat (Mark.isOutside separator) (marks line) _ separates
          rw [parts, longer]
          simpa [bytes] using written_parts (front.map bytes) (bytes last)

/-- What a statement is spelled out to, as statements, is decided by the statement alone. -/
theorem spellOut_congr (dialect : Dialect) (s t : Text) (same : Statement.ofText s = Statement.ofText t) :
    (dialect.spellOut s).map Statement.ofText = (dialect.spellOut t).map Statement.ofText := by
  simp only [spellOut, same]
  split
  · rfl
  · split
    · rfl
    · simp [same]

theorem flatMap_spellOut_congr (dialect : Dialect) (first second : List Text)
    (same : first.map Statement.ofText = second.map Statement.ofText) :
    (first.flatMap dialect.spellOut).map Statement.ofText =
      (second.flatMap dialect.spellOut).map Statement.ofText := by
  induction first generalizing second with
  | nil =>
      obtain rfl : second = [] := by simpa using same.symm
      rfl
  | cons s first ih =>
      cases second with
      | nil => contradiction
      | cons t second =>
          obtain ⟨here, rest⟩ := List.cons.inj same
          simp only [List.flatMap_cons, List.map_append, spellOut_congr dialect s t here, ih second rest]

theorem statements_eq (dialect : Dialect) (raw : Text) :
    dialect.statements raw =
      (dialect.written (Label.remove dialect.label (withoutComment dialect.comments raw))).flatMap
        dialect.spellOut := rfl

/-- A carriage return at the end of a line changes none of the statements, as they are read. -/
theorem statements_return (dialect : Dialect)
    (free : ∀ marker ∈ dialect.comments, ('\r' : UInt8) ∉ marker.tail) (raw : Text) :
    (dialect.statements (raw ++ [('\r' : UInt8)])).map Statement.ofText =
      (dialect.statements raw).map Statement.ofText := by
  rw [statements_eq, statements_eq]
  apply flatMap_spellOut_congr
  have code := withoutComment_return dialect.comments free raw
  generalize withoutComment dialect.comments raw = line at code
  generalize withoutComment dialect.comments (raw ++ [('\r' : UInt8)]) = longer at code
  cases code with
  | same => rfl
  | added =>
      have rest := Label.remove_return dialect.label line
      generalize Label.remove dialect.label (line ++ [('\r' : UInt8)]) = longer at rest
      cases rest with
      | same => rfl
      | added => exact written_return dialect _

theorem all_free : ∀ dialect ∈ all, ∀ marker ∈ dialect.comments, ('\r' : UInt8) ∉ marker.tail := by decide

end Dialect

end Source

end Z80Cost
