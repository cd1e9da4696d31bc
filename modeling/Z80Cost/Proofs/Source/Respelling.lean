import Z80Cost.Proofs.Source.Likeness

/-!
What is irrelevant outside literals: the case of letters, the width and kind of blanks, and everything
from a semicolon on.
-/

namespace Z80Cost.Source

/-- Blanks that may stand for other such blanks. -/
def IsGap (run : Text) : Prop := run ≠ [] ∧ ∀ b ∈ run, b = ' ' ∨ b = '\t' ∨ b = '\r'

/-- A text and another spelling of it, read from `scan` on: outside literals, letters may be of the other
case and blanks may be others. -/
inductive Respelled : Scan → Text → Text → Prop
  | nil (scan : Scan) : Respelled scan [] []
  | same (scan : Scan) (b : UInt8) (s t : Text) (rest : Respelled (scan.next b) s t) :
      Respelled scan (b :: s) (b :: t)
  | letter (scan : Scan) (b c : UInt8) (s t : Text) (outside : scan.delimiter = none)
      (same : Text.upperByte b = Text.upperByte c) (rest : Respelled (scan.next b) s t) :
      Respelled scan (b :: s) (c :: t)
  | blanks (scan : Scan) (run other s t : Text) (outside : scan.delimiter = none) (first : IsGap run)
      (second : IsGap other) (rest : Respelled (scanAfter scan run) s t) :
      Respelled scan (run ++ s) (other ++ t)

namespace Likeness

def respelling : Likeness where
  outside := fun b c => Text.upperByte b = Text.upperByte c
  stretches := true
  inside := Eq
  outside_refl := fun _ => rfl
  outside_upper := fun _ _ => id
  inside_refl := fun _ => rfl

/-- In canonical spelling nothing is left of the difference. -/
theorem Holds.eq {delimiter : Option UInt8} {s t : List Mark} (alike : respelling.settled.Holds delimiter s t) :
    s = t := by
  have rigid : ∀ mark, respelling.settled.isGap mark = false := fun _ => rfl
  induction alike with
  | nil => rfl
  | outside b c s t same rest ih => rw [show b = c from same, ih]
  | gap b c s t first | longer b c s t first | shorter b c s t first =>
      rw [rigid] at first
      contradiction
  | opening q s t quote rest ih => rw [ih]
  | inside q b c s t first second same rest ih => rw [show b = c from same, ih]
  | closing q s t rest ih => rw [ih]

theorem Holds.letter {first second : Scan} (scans : first.Alike second) (b c : UInt8)
    (outside : first.delimiter = none) (same : Text.upperByte b = Text.upperByte c) {s t : List Mark}
    (rest : respelling.Holds (first.next b).delimiter s t) :
    respelling.Holds first.delimiter (⟨b, first.quotes b⟩ :: s) (⟨c, second.quotes c⟩ :: t) := by
  have opens := scans.opens b c outside same
  cases opened : first.opens b with
  | true =>
      obtain rfl := first.eq_of_opens b c opened same
      exact Holds.same scans b rest
  | false =>
      have still : (first.next b).delimiter = none := by simp [Scan.next, outside, opened]
      have unquoted : first.quotes b = false := (first.quotes_eq_false b).mpr ⟨outside, opened⟩
      have unquoted' : second.quotes c = false :=
        (second.quotes_eq_false c).mpr ⟨scans.delimiter.symm.trans outside, opens.symm.trans opened⟩
      rw [still] at rest
      rw [outside, unquoted, unquoted']
      exact .outside b c s t same rest

section Blanks
variable {s t : List Mark} (alike : respelling.Holds none s t)
include alike

theorem Holds.blank_run (b : Mark) (run : List Mark) (nonempty : run ≠ []) (first : respelling.isGap b = true)
    (others : ∀ mark ∈ run, respelling.isGap mark = true) : respelling.Holds none (b :: s) (run ++ t) := by
  induction run with
  | nil => contradiction
  | cons c run ih =>
      obtain ⟨second, others⟩ := List.forall_mem_cons.mp others
      cases run with
      | nil => exact .gap b c s t first second alike
      | cons next run => exact .shorter c next _ _ second (others next (by simp)) (ih (by simp) others)

/-- In front of two lines that are alike there may be blanks, as many as there are. -/
theorem Holds.run_run (first second : List Mark) (nonempty : first ≠ []) (nonempty' : second ≠ [])
    (left : ∀ mark ∈ first, respelling.isGap mark = true) (right : ∀ mark ∈ second, respelling.isGap mark = true) :
    respelling.Holds none (first ++ s) (second ++ t) := by
  induction first with
  | nil => contradiction
  | cons b first ih =>
      obtain ⟨blank, others⟩ := List.forall_mem_cons.mp left
      cases first with
      | nil => exact alike.blank_run b second nonempty' blank right
      | cons next first => exact .longer b next _ _ blank (others next (by simp)) (ih (by simp) others)

end Blanks

end Likeness

theorem IsGap.marks {run : Text} (gap : IsGap run) :
    ∀ mark ∈ run.map Mark.outside, Likeness.respelling.isGap mark = true := by
  intro mark member
  obtain ⟨b, inside, rfl⟩ := List.mem_map.mp member
  rcases gap.2 b inside with rfl | rfl | rfl <;> rfl

theorem scanAfter_gap (scan : Scan) (outside : scan.delimiter = none) (run : Text) (gap : IsGap run) :
    marksFrom scan run = run.map Mark.outside ∧ (scanAfter scan run).Alike {} := by
  obtain ⟨nonempty, each⟩ := gap
  have unquoted : ∀ b ∈ run, b ≠ '"' ∧ b ≠ '\'' := by
    intro b member
    rcases each b member with rfl | rfl | rfl <;> decide
  refine ⟨(literalless_of_no_quote run unquoted scan outside).1, ?_⟩
  obtain ⟨front, b, rfl⟩ := (List.eq_nil_or_concat run).resolve_left nonempty
  rw [List.concat_eq_append] at each unquoted ⊢
  have closed := (literalless_of_no_quote front (fun c inside => unquoted c (by simp [inside])) scan outside).2
  apply scanAfter_break scan front b closed
  rcases each b (by simp) with rfl | rfl | rfl <;> decide

theorem Respelled.holds {first : Scan} {s t : Text} (respelled : Respelled first s t) (second : Scan)
    (scans : first.Alike second) :
    Likeness.respelling.Holds first.delimiter (marksFrom first s) (marksFrom second t) := by
  induction respelled generalizing second with
  | nil first => exact .nil first.delimiter
  | same first b s t rest ih => exact Likeness.Holds.same scans b (ih _ (scans.next b))
  | letter first b c s t outside same rest ih =>
      exact Likeness.Holds.letter scans b c outside same (ih _ (scans.next_outside b c outside same))
  | blanks first run other s t outside left right rest ih =>
      obtain ⟨marked, ends⟩ := scanAfter_gap first outside run left
      obtain ⟨marked', ends'⟩ := scanAfter_gap second (scans.delimiter.symm.trans outside) other right
      have behind := ih _ (ends.trans ends'.symm)
      rw [ends.delimiter] at behind
      rw [marksFrom_append, marksFrom_append, marked, marked', outside]
      exact behind.run_run _ _ (by simpa using left.1) (by simpa using right.1) left.marks right.marks

theorem withoutComment_semicolon (markers : List Text) (s comment : Text) (closed : isOpen s = false)
    (listed : [(';' : UInt8)] ∈ markers) (free : ∀ marker ∈ markers, (';' : UInt8) ∉ marker.tail) :
    withoutComment markers (s ++ (';' : UInt8) :: comment) = withoutComment markers s := by
  have starts : code markers (Mark.outside ';' :: marks comment) = [] := by
    have found : startsComment markers (Mark.outside ';' :: marks comment) = true :=
      List.any_eq_true.mpr ⟨_, listed, rfl⟩
    rw [code, if_pos found]
  obtain ⟨whole, cut⟩ := code_append_cons markers (marks s) (marks comment) (Mark.outside ';') free
  rw [withoutComment_eq, withoutComment_eq, marks_break s comment ';' closed (by decide)]
  by_cases uncommented : code markers (marks s) = marks s
  · rw [whole uncommented, starts, List.append_nil, uncommented]
  · rw [cut uncommented]

namespace Dialect

/-- Letter case, the width of blanks, and a comment are irrelevant outside literals. -/
theorem statements_respelled (dialect : Dialect) (known : dialect ∈ all) (raw : Text) :
    (∀ other, Label.EndsInColon dialect.label raw → Respelled {} raw other →
        dialect.statements other = dialect.statements raw) ∧
      ∀ comment, isOpen raw = false →
        dialect.statements (raw ++ (';' : UInt8) :: comment) = dialect.statements raw := by
  constructor
  · intro other colon respelled
    have alike := respelled.holds {} Scan.alike_start
    rw [← marks_eq, ← marks_eq] at alike
    have written := dialect.written_alike known _ raw other colon alike
    rw [statements_eq, statements_eq]
    congr 1
    have equal := written.imp fun s t same => congrArg bytes same.eq
    simp only [bytes_marks] at equal
    rw [List.forall₂_eq_eq_eq] at equal
    exact equal.symm
  · intro comment closed
    have semicolon : [(';' : UInt8)] ∈ dialect.comments ∧
        ∀ marker ∈ dialect.comments, (';' : UInt8) ∉ marker.tail := by
      simp only [all, List.mem_cons, List.not_mem_nil, or_false] at known
      rcases known with rfl | rfl | rfl <;> decide
    rw [statements_eq, statements_eq, withoutComment_semicolon _ raw comment closed semicolon.1 semicolon.2]

/-- The apostrophe of the register pair opens no literal in either case, so blanks and comments behind it
count as such. -/
theorem statements_respelled_pair :
    sjasmplus.statements "\tEX  af,AF'\r" = sjasmplus.statements " ex Af,af' " ∧
      sjasmplus.statements " ex Af,af' ;'" = sjasmplus.statements " ex Af,af' " := by
  have respelled : Respelled {} " ex Af,af' " "\tEX  af,AF'\r" := by
    refine .blanks {} [' '] ['\t'] _ _ rfl (by simp [IsGap]) (by simp [IsGap]) ?_
    refine .letter _ 'e' 'E' _ _ rfl rfl (.letter _ 'x' 'X' _ _ rfl rfl ?_)
    refine .blanks _ [' '] [' ', ' '] _ _ rfl (by simp [IsGap]) (by simp [IsGap]) ?_
    refine .letter _ 'A' 'a' _ _ rfl rfl (.same _ 'f' _ _ (.same _ ',' _ _ ?_))
    refine .letter _ 'a' 'A' _ _ rfl rfl (.letter _ 'f' 'F' _ _ rfl rfl (.same _ '\'' _ _ ?_))
    exact .blanks _ [' '] ['\r'] [] [] rfl (by simp [IsGap]) (by simp [IsGap]) (.nil _)
  obtain ⟨spelling, comment⟩ := statements_respelled sjasmplus (by decide) " ex Af,af' "
  exact ⟨spelling _ (.inr ⟨' ', rfl, rfl⟩) respelled, comment "'" (by decide)⟩

end Dialect

end Z80Cost.Source
