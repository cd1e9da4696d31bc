import Z80Cost.Proofs.Source.Contents
import Z80Cost.Proofs.Source.Likeness

/-!
What literals hold never decides how a line is cut up. Two lines that differ strictly inside literals
only have as many statements as each other, which differ strictly inside literals only, and each
statement carries the bytes of its own line.
-/

namespace Z80Cost.Source

/-- Two texts that differ, from `scan` on, in bytes strictly inside literals only. -/
def RefilledFrom (scan : Scan) : Text → Text → Prop
  | [], [] => True
  | b :: s, c :: t => (b = c ∨ scan.holds b = true ∧ scan.holds c = true) ∧ RefilledFrom (scan.next b) s t
  | _, _ => False

def Refilled (s t : Text) : Prop := RefilledFrom {} s t

instance decidableRefilledFrom (scan : Scan) : ∀ s t, Decidable (RefilledFrom scan s t)
  | [], [] => isTrue trivial
  | b :: s, c :: t =>
      have := decidableRefilledFrom (scan.next b) s t
      inferInstanceAs (Decidable ((b = c ∨ scan.holds b = true ∧ scan.holds c = true) ∧
        RefilledFrom (scan.next b) s t))
  | [], _ :: _ => isFalse id
  | _ :: _, [] => isFalse id

instance decidableRefilled (s t : Text) : Decidable (Refilled s t) := decidableRefilledFrom {} s t

theorem Scan.holds_iff (scan : Scan) (b : UInt8) : scan.holds b = true ↔ ∃ q, scan.delimiter = some q ∧ b ≠ q := by
  rw [Scan.holds, Option.any_eq_true]
  simp only [bne_iff_ne, ne_comm]

theorem Scan.holds_both (scan : Scan) (b c : UInt8) (first : scan.holds b = true) (second : scan.holds c = true) :
    ∃ q, scan.delimiter = some q ∧ b ≠ q ∧ c ≠ q := by
  obtain ⟨q, inside, other⟩ := (scan.holds_iff b).mp first
  obtain ⟨_, same, other'⟩ := (scan.holds_iff c).mp second
  obtain rfl := Option.some.inj (inside.symm.trans same)
  exact ⟨q, inside, other, other'⟩

theorem Scan.Alike.next_refilled {first second : Scan} (scans : first.Alike second) (b c : UInt8)
    (same : b = c ∨ first.holds b = true ∧ first.holds c = true) : (first.next b).Alike (second.next c) := by
  rcases same with rfl | ⟨left, right⟩
  · exact scans.next b
  · obtain ⟨q, inside, other, other'⟩ := first.holds_both b c left right
    exact scans.next_inside q b c inside other other'

/-- Between literals, and at the end of one, there is no choice. -/
theorem Scan.eq_of_refilled (scan : Scan) (b c : UInt8) (closed : (scan.next b).delimiter = none)
    (same : b = c ∨ scan.holds b = true ∧ scan.holds c = true) : b = c := by
  refine same.resolve_right fun held => ?_
  obtain ⟨q, inside, other⟩ := (scan.holds_iff b).mp held.1
  simp [Scan.next, inside, other] at closed

theorem RefilledFrom.refl (scan : Scan) (s : Text) : RefilledFrom scan s s := by
  induction s generalizing scan with
  | nil => trivial
  | cons b s ih => exact ⟨.inl rfl, ih (scan.next b)⟩

theorem RefilledFrom.symm {first second : Scan} (scans : first.Alike second) {s t : Text}
    (refilled : RefilledFrom first s t) : RefilledFrom second t s := by
  fun_induction RefilledFrom first s t generalizing second with
  | case1 => trivial
  | case2 first b s c t ih =>
      obtain ⟨same, rest⟩ := refilled
      refine ⟨?_, ih (scans.next_refilled b c same) rest⟩
      rw [Scan.holds, Scan.holds, scans.delimiter, ← Scan.holds, ← Scan.holds] at same
      exact same.imp Eq.symm And.symm
  | case3 => contradiction

theorem Refilled.symm {s t : Text} (refilled : Refilled s t) : Refilled t s :=
  RefilledFrom.symm Scan.alike_start refilled

theorem RefilledFrom.alike {first second : Scan} (scans : first.Alike second) {s t : Text}
    (refilled : RefilledFrom first s t) : RefilledFrom second s t :=
  (refilled.symm scans).symm (scans.symm.trans scans)

theorem RefilledFrom.scanAfter {first second : Scan} (scans : first.Alike second) {s t : Text}
    (refilled : RefilledFrom first s t) : (scanAfter first s).Alike (scanAfter second t) := by
  fun_induction RefilledFrom first s t generalizing second with
  | case1 => exact scans
  | case2 first b s c t ih => exact ih (scans.next_refilled b c refilled.1) refilled.2
  | case3 => contradiction

theorem Refilled.isOpen {s t : Text} (refilled : Refilled s t) : isOpen t = isOpen s :=
  congrArg Option.isSome (RefilledFrom.scanAfter Scan.alike_start refilled).delimiter.symm

theorem RefilledFrom.length {scan : Scan} {s t : Text} (refilled : RefilledFrom scan s t) : s.length = t.length := by
  fun_induction RefilledFrom scan s t with
  | case1 => rfl
  | case2 scan b s c t ih => exact congrArg (· + 1) (ih refilled.2)
  | case3 => contradiction

theorem RefilledFrom.append {scan : Scan} {s t : Text} (refilled : RefilledFrom scan s t) {u v : Text}
    (behind : RefilledFrom (Source.scanAfter scan s) u v) : RefilledFrom scan (s ++ u) (t ++ v) := by
  fun_induction RefilledFrom scan s t with
  | case1 => exact behind
  | case2 scan b s c t ih => exact ⟨refilled.1, ih refilled.2 behind⟩
  | case3 => contradiction

theorem RefilledFrom.split {scan : Scan} (s u t : Text) (refilled : RefilledFrom scan (s ++ u) t) :
    ∃ front back, t = front ++ back ∧ RefilledFrom scan s front ∧ RefilledFrom (Source.scanAfter scan s) u back := by
  induction s generalizing scan t with
  | nil => exact ⟨[], t, rfl, trivial, refilled⟩
  | cons b s ih =>
      cases t with
      | nil => contradiction
      | cons c t =>
          obtain ⟨front, back, rfl, before, behind⟩ := ih t refilled.2
          exact ⟨c :: front, back, rfl, ⟨refilled.1, before⟩, behind⟩

theorem RefilledFrom.unquoted {scan : Scan} (outside : scan.delimiter = none) {s t : Text} (unquoted : Unquoted s)
    (refilled : RefilledFrom scan s t) : t = s := by
  fun_induction RefilledFrom scan s t with
  | case1 => rfl
  | case2 scan b s c t ih =>
      obtain ⟨first, others⟩ := List.forall_mem_cons.mp unquoted
      have still : (scan.next b).delimiter = none := by simp [Scan.next, outside, scan.opens_other b first]
      rw [scan.eq_of_refilled b c still refilled.1, ih still others refilled.2]
  | case3 => contradiction

theorem Refilled.unquoted {s t : Text} (refilled : Refilled s t) (unquoted : Unquoted s) : t = s :=
  RefilledFrom.unquoted rfl unquoted refilled

/-- Two texts agree up to the first quote. -/
theorem Refilled.front (front rest t : Text) (b : UInt8) (unquoted : Unquoted front)
    (refilled : Refilled (front ++ b :: rest) t) : ∃ rest', t = front ++ b :: rest' := by
  obtain ⟨front', back, rfl, before, behind⟩ := RefilledFrom.split front (b :: rest) t refilled
  obtain rfl := before.unquoted rfl unquoted
  cases back with
  | nil => contradiction
  | cons c back =>
      have outside := (unquoted.literalless {} rfl).2
      have same : b = c := behind.1.resolve_right fun held => by simp [Scan.holds_outside _ b outside] at held
      exact ⟨back, by rw [same]⟩

/-- Two texts that end outside literals agree from the last quote on. -/
theorem Refilled.back (front rest t : Text) (b : UInt8) (unquoted : Unquoted rest)
    (closed : Source.isOpen (front ++ b :: rest) = false) (refilled : Refilled (front ++ b :: rest) t) :
    ∃ front', t = front' ++ b :: rest ∧ front'.length = front.length := by
  have cut : front ++ b :: rest = front ++ [b] ++ rest := by simp
  rw [cut] at closed refilled
  rw [isOpen_unquoted _ rest unquoted, isOpen_eq_false] at closed
  obtain ⟨through, back, rfl, before, behind⟩ := RefilledFrom.split (front ++ [b]) rest t refilled
  obtain rfl := behind.unquoted closed unquoted
  obtain ⟨front', last, rfl, early, final⟩ := RefilledFrom.split front [b] through before
  rw [scanAfter_append] at closed
  rcases last with _ | ⟨c, _ | ⟨_, _⟩⟩
  · contradiction
  · have same : b = c := Scan.eq_of_refilled _ b c closed final.1
    exact ⟨front', by simp [same], early.length.symm⟩
  · exact absurd final.2 id

theorem IsLead.refilled {front : Text} (lead : IsLead front) (s t : Text) :
    Refilled (front ++ s) (front ++ t) ↔ Refilled s t := by
  constructor
  · intro refilled
    obtain ⟨front', back, whole, before, behind⟩ := RefilledFrom.split front s _ refilled
    obtain rfl := before.unquoted rfl lead.unquoted
    obtain rfl := List.append_cancel_left whole
    exact behind.alike lead.scan
  · intro refilled
    exact (RefilledFrom.refl {} front).append (RefilledFrom.alike lead.scan.symm refilled)

theorem exists_quote (s : Text) (quoted : ¬ Unquoted s) :
    ∃ front q rest, s = front ++ q :: rest ∧ Unquoted front ∧ isQuote q = true := by
  induction s with
  | nil => exact absurd (List.forall_mem_nil _) quoted
  | cons b s ih =>
      cases quote : isQuote b with
      | true => exact ⟨[], b, s, rfl, List.forall_mem_nil _, quote⟩
      | false =>
          have later : ¬ Unquoted s := fun others => quoted (List.forall_mem_cons.mpr ⟨quote, others⟩)
          obtain ⟨front, q, rest, rfl, unquoted, found⟩ := ih later
          exact ⟨b :: front, q, rest, rfl, List.forall_mem_cons.mpr ⟨quote, unquoted⟩, found⟩

theorem exists_last_quote (s : Text) (quoted : ¬ Unquoted s) :
    ∃ front q rest, s = front ++ q :: rest ∧ Unquoted rest ∧ isQuote q = true := by
  have reversed : ¬ Unquoted s.reverse :=
    fun unquoted => quoted fun b member => unquoted b (List.mem_reverse.mpr member)
  obtain ⟨front, q, rest, whole, unquoted, quote⟩ := exists_quote s.reverse reversed
  refine ⟨rest.reverse, q, front.reverse, ?_, fun b member => unquoted b (List.mem_reverse.mp member), quote⟩
  rw [← List.reverse_reverse s, whole]
  simp

theorem solid_quote (q : UInt8) (quote : isQuote q = true) : Text.isSolid q = true := by
  rcases quote_cases q quote with rfl | rfl <;> decide

theorem Refilled.trimLeft {s t : Text} (refilled : Refilled s t) : Refilled s.trimLeft t.trimLeft := by
  by_cases unquoted : Unquoted s
  · rw [refilled.unquoted unquoted]
    exact RefilledFrom.refl {} _
  · -- Nothing is trimmed behind the first quote, and in front of it the texts agree.
    obtain ⟨front, q, rest, rfl, plain, quote⟩ := exists_quote s unquoted
    obtain ⟨rest', rfl⟩ := refilled.front front rest t q plain
    obtain ⟨blanks, split, blank⟩ := Text.trimLeft_split front
    rw [Text.trimLeft_append_cons _ _ _ (solid_quote q quote), Text.trimLeft_append_cons _ _ _ (solid_quote q quote)]
    rw [split, List.append_assoc, List.append_assoc] at refilled
    exact ((isLead_blank blanks blank).refilled _ _).mp refilled

theorem Refilled.trimRight {s t : Text} (refilled : Refilled s t) (closed : Source.isOpen s = false) :
    Refilled s.trimRight t.trimRight := by
  by_cases unquoted : Unquoted s
  · rw [refilled.unquoted unquoted]
    exact RefilledFrom.refl {} _
  · obtain ⟨front, q, rest, rfl, plain, quote⟩ := exists_last_quote s unquoted
    obtain ⟨front', rfl, long⟩ := refilled.back front rest t q plain closed
    obtain ⟨blanks, split, _⟩ := Text.trimRight_split rest
    rw [Text.trimRight_append_cons _ _ _ (solid_quote q quote), Text.trimRight_append_cons _ _ _ (solid_quote q quote)]
    rw [split, ← List.cons_append, ← List.append_assoc, ← List.append_assoc] at refilled
    obtain ⟨kept, _, whole, before, _⟩ := RefilledFrom.split _ _ _ refilled
    have same : kept.length = (front' ++ q :: Text.trimRight rest).length := by
      simp [← before.length, long]
    rwa [(List.append_inj whole same.symm).1]

theorem Refilled.trim {s t : Text} (refilled : Refilled s t) (closed : Source.isOpen s = false) :
    Refilled s.trim t.trim :=
  refilled.trimLeft.trimRight ((contents_trimLeft s).1.trans closed)

/-! Marks -/

namespace Likeness

def refilling : Likeness where
  outside := Eq
  stretches := false
  inside := fun _ _ => True
  outside_refl := fun _ => rfl
  outside_upper := fun _ _ => congrArg Text.upperByte
  inside_refl := fun _ => trivial

end Likeness

theorem RefilledFrom.holds {first second : Scan} (scans : first.Alike second) {s t : Text}
    (refilled : RefilledFrom first s t) :
    Likeness.refilling.Holds first.delimiter (marksFrom first s) (marksFrom second t) := by
  fun_induction RefilledFrom first s t generalizing second with
  | case1 first => exact .nil first.delimiter
  | case2 first b s c t ih =>
      obtain ⟨same, rest⟩ := refilled
      have behind := ih (scans.next_refilled b c same) rest
      rcases same with rfl | ⟨left, right⟩
      · exact Likeness.Holds.same scans b behind
      · obtain ⟨q, inside, other, other'⟩ := first.holds_both b c left right
        have inside' := scans.delimiter.symm.trans inside
        have still : (first.next b).delimiter = some q := by simp [Scan.next, inside, other]
        have quoted : first.quotes b = true ∧ second.quotes c = true := by simp [Scan.quotes, inside, inside']
        rw [still] at behind
        rw [marksFrom, marksFrom, quoted.1, quoted.2, inside]
        exact .inside q b c _ _ other other' trivial behind
  | case3 => contradiction

theorem Likeness.Holds.uncons {first second : Scan} (b c : UInt8) (s t : List Mark)
    (alike : refilling.Holds first.delimiter (⟨b, first.quotes b⟩ :: s) (⟨c, second.quotes c⟩ :: t)) :
    (b = c ∨ first.holds b = true ∧ first.holds c = true) ∧ refilling.Holds (first.next b).delimiter s t := by
  have rigid : ∀ mark, refilling.isGap mark = false := fun _ => rfl
  generalize held : first.delimiter = delimiter at alike
  generalize left : (⟨b, first.quotes b⟩ : Mark) = mark at alike
  generalize right : (⟨c, second.quotes c⟩ : Mark) = mark' at alike
  cases alike with
  | outside b' c' s t same rest =>
      obtain ⟨rfl, unquoted⟩ := Mark.mk.inj left
      obtain ⟨rfl, _⟩ := Mark.mk.inj right
      have shut := ((first.quotes_eq_false b).mp unquoted).2
      refine ⟨.inl same, ?_⟩
      simpa [Scan.next, held, shut] using rest
  | gap b' c' s t gap | longer b' c' s t gap | shorter b' c' s t gap =>
      rw [rigid] at gap
      contradiction
  | opening q s t quote rest =>
      obtain ⟨rfl, quoted⟩ := Mark.mk.inj left
      have opens : first.opens b = true := by simpa [Scan.quotes, held] using quoted
      refine ⟨.inl (Mark.mk.inj right).1.symm, ?_⟩
      simpa [Scan.next, held, opens] using rest
  | inside q b' c' s t other other' same rest =>
      obtain ⟨rfl, _⟩ := Mark.mk.inj left
      obtain ⟨rfl, _⟩ := Mark.mk.inj right
      refine ⟨.inr ⟨(first.holds_iff b).mpr ⟨q, held, other⟩, (first.holds_iff c).mpr ⟨q, held, other'⟩⟩, ?_⟩
      simpa [Scan.next, held, other] using rest
  | closing q s t rest =>
      obtain ⟨rfl, _⟩ := Mark.mk.inj left
      obtain ⟨rfl, _⟩ := Mark.mk.inj right
      refine ⟨.inl rfl, ?_⟩
      simpa [Scan.next, held] using rest

theorem Likeness.Holds.refilledFrom {first second : Scan} (scans : first.Alike second) {s t : Text}
    (alike : refilling.Holds first.delimiter (marksFrom first s) (marksFrom second t)) :
    RefilledFrom first s t := by
  fun_induction RefilledFrom first s t generalizing second with
  | case1 => trivial
  | case2 first b s c t ih =>
      obtain ⟨same, rest⟩ := Holds.uncons b c _ _ alike
      exact ⟨same, ih (scans.next_refilled b c same) rest⟩
  | case3 s first t unempty uneven =>
      have empty := alike.isEmpty
      rw [marksFrom_isEmpty, marksFrom_isEmpty] at empty
      cases s with
      | nil => exact unempty rfl (List.isEmpty_iff.mp empty.symm)
      | cons b s =>
          cases t with
          | nil => contradiction
          | cons c t => exact uneven b s c t rfl rfl

theorem Refilled.holds {s t : Text} (refilled : Refilled s t) :
    Likeness.refilling.Holds none (marks s) (marks t) := by
  rw [marks_eq, marks_eq]
  exact RefilledFrom.holds Scan.alike_start refilled

theorem Likeness.Holds.refilled {s t : Text} (alike : refilling.Holds none (marks s) (marks t)) : Refilled s t := by
  rw [marks_eq, marks_eq] at alike
  exact Holds.refilledFrom Scan.alike_start alike

theorem Refilled.splitOutside {separator : UInt8} (cuts : Likeness.isSymbol separator = true) {s t : Text}
    (refilled : Refilled s t) : List.Forall₂ Refilled (splitOutside separator s) (splitOutside separator t) := by
  have still : ∀ marked : List Mark, marked.dropWhile Likeness.refilling.isGap = marked := by
    intro marked
    cases marked <;> rfl
  refine (refilled.holds.aligned.splitOutside cuts).imp fun s t aligned => ?_
  rw [Likeness.Aligned, still, still] at aligned
  exact aligned.refilled

theorem Refilled.isEmpty {s t : Text} (refilled : Refilled s t) : t.isEmpty = s.isEmpty := by
  have long := RefilledFrom.length refilled
  rw [Bool.eq_iff_iff, List.isEmpty_iff_length_eq_zero, List.isEmpty_iff_length_eq_zero, long]

theorem Refilled.operandsOf {s t : Text} (refilled : Refilled s t) (closed : Source.isOpen s = false) :
    List.Forall₂ Refilled (Statement.operandsOf s) (Statement.operandsOf t) := by
  rw [Statement.operandsOf, Statement.operandsOf, refilled.isEmpty]
  split
  · exact .nil
  · rw [List.forall₂_map_left_iff, List.forall₂_map_right_iff]
    have parts := closed_splitOutside ',' (by decide) s closed
    have both := (List.forall₂_and_left _ _).mpr ⟨parts, refilled.splitOutside (by decide)⟩
    exact both.imp fun s t related => related.2.trim related.1

/-- A mnemonic without quotes is the same in both texts. -/
theorem Refilled.ofText {s t : Text} (refilled : Refilled s t) (closed : Source.isOpen s = false)
    (plain : Unquoted (Statement.ofText s).mnemonic) :
    (Statement.ofText t).mnemonic = (Statement.ofText s).mnemonic ∧
      List.Forall₂ Refilled (Statement.ofText s).operands (Statement.ofText t).operands := by
  have line := refilled.trim closed
  rcases Statement.ofText_cases s with ⟨_, read⟩ | ⟨mnemonic, rest, whole, free, read⟩
  · rw [read] at plain
    have same : Statement.ofText t = Statement.ofText s := by
      simp only [Statement.ofText, line.unquoted plain]
    rw [same, read]
    exact ⟨rfl, .nil⟩
  · rw [read] at plain ⊢
    have lead := isLead_space mnemonic plain
    have stillClosed := (contents_trim s closed).1
    rw [whole] at line stillClosed
    obtain ⟨rest', whole'⟩ := line.front mnemonic rest _ ' ' plain
    rw [Statement.ofText_space t mnemonic rest' whole' free]
    rw [whole', append_space, append_space, lead.refilled] at line
    rw [append_space, lead.isOpen] at stillClosed
    exact ⟨rfl, (line.trim stillClosed).operandsOf (contents_trim rest stillClosed).1⟩

section Operands
variable {first second : List Text} (refilled : List.Forall₂ Refilled first second)
include refilled

theorem operands_unquoted (unquoted : ∀ operand ∈ first, Unquoted operand) : second = first := by
  induction refilled with
  | nil => rfl
  | cons same rest ih =>
      obtain ⟨plain, others⟩ := List.forall_mem_cons.mp unquoted
      rw [same.unquoted plain, ih others]

theorem operands_nonempty : second.all (!·.isEmpty) = first.all (!·.isEmpty) := by
  induction refilled with
  | nil => rfl
  | cons same rest ih => rw [List.all_cons, List.all_cons, same.isEmpty, ih]

end Operands

namespace Statement

section Related
variable (first second : Statement) (same : second.mnemonic = first.mnemonic)
  (operands : List.Forall₂ Refilled first.operands second.operands)
include same operands

theorem registerList_refilled (plain : Unquoted first.mnemonic) :
    Option.Rel (List.Forall₂ Refilled) first.registerList? second.registerList? := by
  rw [registerList_eq, registerList_eq, same, operands.length_eq, operands_nonempty operands]
  split
  · refine .some ?_
    rw [List.forall₂_map_left_iff, List.forall₂_map_right_iff]
    exact operands.imp fun s t refilled => ((isLead_space _ plain).refilled s t).mpr refilled
  · exact .none

theorem composed_refilled : second.composed? = first.composed? := by
  -- Registers hold no quotes: operands that differ are no registers on either side.
  by_cases registers : ∀ operand ∈ first.operands, Unquoted operand
  · have equal : second = first := by
      obtain ⟨mnemonic, _⟩ := first
      obtain ⟨mnemonic', _⟩ := second
      rw [Statement.mk.injEq]
      exact ⟨same, operands_unquoted operands registers⟩
    rw [equal]
  · have registers' : ¬ ∀ operand ∈ second.operands, Unquoted operand := by
      intro unquoted
      have back : List.Forall₂ Refilled second.operands first.operands := (operands.imp fun _ _ => Refilled.symm).flip
      exact registers (operands_unquoted back unquoted ▸ unquoted)
    have none : ∀ statement : Statement, (¬ ∀ operand ∈ statement.operands, Unquoted operand) →
        statement.composed? = Option.none := fun statement quoted =>
      Option.eq_none_iff_forall_ne_some.mpr fun statements composed => quoted (composed_unquoted _ _ composed).1
    rw [none first registers, none second registers']

end Related

end Statement

namespace Dialect

theorem spellOut_refilled (dialect : Dialect) (s t : Text) (closed : isOpen s = false) (refilled : Refilled s t) :
    List.Forall₂ Refilled (dialect.spellOut s) (dialect.spellOut t) := by
  have closed' : isOpen t = false := refilled.isOpen.trans closed
  by_cases short : (Statement.ofText s).mnemonic ∈ shorthands
  · have plain := unquoted_shorthand _ short
    obtain ⟨same, operands⟩ := refilled.ofText closed plain
    have list := Statement.registerList_refilled _ _ same operands plain
    have composed := Statement.composed_refilled _ _ same operands
    rw [spellOut_eq, spellOut_eq, composed]
    refine Likeness.rel_getD (r := List.Forall₂ Refilled) ?_ (fun _ _ => id) ?_
    · split
      · exact list
      · exact .none
    · cases (if dialect.composedInstructions then (Statement.ofText s).composed? else none) with
      | some statements => exact List.forall₂_same.mpr fun s _ => RefilledFrom.refl {} s
      | none => exact .cons refilled .nil
  · have short' : (Statement.ofText t).mnemonic ∉ shorthands := by
      intro found
      have same := (refilled.symm.ofText closed' (unquoted_shorthand _ found)).1
      exact short (same ▸ found)
    rw [spellOut_other dialect s short, spellOut_other dialect t short']
    exact .cons refilled .nil

/-- Lines that differ strictly inside literals only have statements that differ strictly inside literals
only, and what the literals of either line hold in front of its comment is carried over in order. -/
theorem statements_refilled (dialect : Dialect) (known : dialect ∈ all) (raw raw' : Text)
    (colon : Label.EndsInColon dialect.label raw) (closed : isOpen raw = false) (refilled : Refilled raw raw') :
    List.Forall₂ Refilled (dialect.statements raw) (dialect.statements raw') ∧
      ∀ line ∈ [raw, raw'], withoutComment dialect.comments line <+: line ∧
        (dialect.statements line).flatMap insides = insides (withoutComment dialect.comments line) := by
  obtain ⟨symbols, cuts⟩ := dialect.all_symbols known
  have separates : ∀ separator ∈ dialect.separator, isBreak separator = true :=
    fun separator chosen => Likeness.isBreak_of_isSymbol (cuts separator chosen)
  have code : ∀ line, Label.EndsInColon dialect.label line →
      Label.EndsInColon dialect.label (withoutComment dialect.comments line) :=
    Likeness.endsInColon_withoutComment symbols dialect.label
  constructor
  · have ends := isOpen_withoutComment dialect.comments raw closed
    have line := (Label.marks_remove dialect.label _ (code raw colon)).2.trans ends
    have written := (dialect.written_alike known _ raw raw' colon refilled.holds).imp
      fun _ _ => Likeness.Holds.refilled
    have both := (List.forall₂_and_left _ _).mpr ⟨dialect.closed_written separates _ line, written⟩
    rw [statements_eq, statements_eq]
    exact List.rel_flatMap both fun s t related => dialect.spellOut_refilled s t related.1 related.2
  · have carried : ∀ line, Label.EndsInColon dialect.label line → isOpen line = false →
        withoutComment dialect.comments line <+: line ∧
          (dialect.statements line).flatMap insides = insides (withoutComment dialect.comments line) :=
      fun line colon closed => ⟨withoutComment_isPrefix dialect.comments line,
        dialect.insides_statements separates line (code line colon) closed⟩
    have colon' := refilled.holds.endsInColon dialect.label colon
    have closed' := refilled.isOpen.trans closed
    rw [List.forall_mem_cons, List.forall_mem_singleton]
    exact ⟨carried raw colon closed, carried raw' colon' closed'⟩

/-- Inside literals a comma, a separator, a blank and a quote of the other kind are bytes like any other. -/
theorem statements_refilled_marks :
    List.Forall₂ Refilled (sjasmplus.statements " push 'a',bc:ex af,af':db \"-\",'x' ;'n'")
        (sjasmplus.statements " push ',',bc:ex af,af':db \":\",' ' ;'\"'") ∧
      ∀ line ∈ [Text.ofString " push 'a',bc:ex af,af':db \"-\",'x' ;'n'",
          Text.ofString " push ',',bc:ex af,af':db \":\",' ' ;'\"'"],
        withoutComment sjasmplus.comments line <+: line ∧
          (sjasmplus.statements line).flatMap insides = insides (withoutComment sjasmplus.comments line) :=
  statements_refilled sjasmplus (by decide) _ _ (.inr ⟨' ', rfl, rfl⟩) (by decide) (by decide)

end Dialect

end Z80Cost.Source
