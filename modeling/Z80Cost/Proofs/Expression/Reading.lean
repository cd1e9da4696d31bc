import Z80Cost.Proofs.Expression.Grammar
import Z80Cost.Proofs.Text.Trim
import Mathlib.Logic.Basic

/-!
Reading once from the left gives exactly the sentences of the grammar their values. A sentence
leaves some of its operators waiting, and these collapse to its value; what was read so far is
a context for each waiting operator followed by one operand.
-/

namespace Z80Cost.Expression

theorem readAll_skip (state : State) (skip : Nat) (s : Text) :
    state.readAll skip s = state.readAll 0 (s.drop skip) := by
  induction s generalizing skip with
  | nil => simp [State.readAll]
  | cons b s ih =>
      cases skip with
      | zero => rfl
      | succ skip => exact ih skip

theorem readAll_gap (state : State) (l s : Text) (gap : IsGap l) :
    state.readAll 0 (l ++ s) = state.readAll 0 s := by
  induction l with
  | nil => rfl
  | cons b l ih =>
      have blank := gap b List.mem_cons_self
      have rest := ih fun c member => gap c (List.mem_cons_of_mem b member)
      simp only [List.cons_append, State.readAll, blank, ↓reduceIte, rest]

theorem readAll_token (state next : State) (b : UInt8) (s : Text) (token : Token) (skip : Nat)
    (solid : ¬ (b = ' ' ∨ b = '\t')) (begins : state.token? b s = some (token, skip))
    (pushed : state.push token = some next) :
    state.readAll 0 (b :: s) = next.readAll 0 (s.drop skip) := by
  simp only [State.readAll, solid, ↓reduceIte, begins, pushed]
  exact readAll_skip next skip s

theorem readAll_stuck (state : State) (b : UInt8) (s : Text) (solid : ¬ (b = ' ' ∨ b = '\t'))
    (stuck : state.token? b s = none) : state.readAll 0 (b :: s) = none := by
  simp only [State.readAll, solid, ↓reduceIte, stuck]

theorem readAll_opening (waiting : List Pending) (s : Text) :
    (State.due waiting).readAll 0 (('(' : UInt8) :: s) = (State.due (.opening :: waiting)).readAll 0 s :=
  readAll_token (.due waiting) _ _ s .opening 0 (by decide) rfl rfl

theorem readAll_unary (op : Unary) (waiting : List Pending) (s : Text) :
    (State.due waiting).readAll 0 (op.symbol ++ s) =
      (State.due (.unary op :: waiting)).readAll 0 s := by
  cases op <;> exact readAll_token (.due waiting) _ _ s _ 0 (by decide) rfl rfl

theorem operatorToken_symbol (op : Binary) (s : Text) :
    ∃ b t skip, op.symbol ++ s = b :: t ∧ ¬ (b = ' ' ∨ b = '\t') ∧
      operatorToken? b t = some (.binary op, skip) ∧ t.drop skip = s := by
  cases op <;> exact ⟨_, _, _, rfl, by decide, rfl, rfl⟩

theorem readAll_binary (op : Binary) (v left : Int64) (waiting rest : List Pending) (s : Text)
    (collapsed : collapse op.rank v waiting = some (left, rest)) :
    (State.read v waiting).readAll 0 (op.symbol ++ s) =
      (State.due (.binary left op :: rest)).readAll 0 s := by
  have pushed : (State.read v waiting).push (.binary op) = some (.due (.binary left op :: rest)) := by
    simp only [State.push, collapsed]
  obtain ⟨b, t, skip, spelled, solid, begins, rest⟩ := operatorToken_symbol op s
  rw [spelled, readAll_token (.read v waiting) _ b t _ skip solid begins pushed, rest]

theorem readAll_closing (v w : Int64) (waiting rest : List Pending) (s : Text)
    (collapsed : collapse 0 v waiting = some (w, .opening :: rest)) :
    (State.read v waiting).readAll 0 ((')' : UInt8) :: s) = (State.read w rest).readAll 0 s := by
  have pushed : (State.read v waiting).push .closing = some (.read w rest) := by
    simp only [State.push, collapsed]
  exact readAll_token (.read v waiting) _ _ s .closing 0 (by decide) rfl pushed

theorem readAll_character (quote b : UInt8) (delimiter : quote = '\'' ∨ quote = '"')
    (other : b ≠ quote) (waiting : List Pending) (s : Text) :
    (State.due waiting).readAll 0 (quote :: b :: quote :: s) =
      (State.read (wrapped b.toNat) waiting).readAll 0 s := by
  have begins : operandToken? quote (b :: quote :: s) = some (.value (wrapped b.toNat), 2) := by
    rcases delimiter with rfl | rfl <;> simp [operandToken?, character?, other] <;> rfl
  exact readAll_token (.due waiting) _ _ _ _ 2 (by rcases delimiter with rfl | rfl <;> decide)
    begins rfl

theorem readAll_quote (quote : UInt8) (delimiter : quote = '\'' ∨ quote = '"')
    (waiting : List Pending) (s : Text) :
    (State.due waiting).readAll 0 (quote :: quote :: quote :: quote :: s) =
      (State.read (wrapped quote.toNat) waiting).readAll 0 s := by
  have begins : operandToken? quote (quote :: quote :: quote :: s) =
      some (.value (wrapped quote.toNat), 3) := by
    rcases delimiter with rfl | rfl <;> rfl
  exact readAll_token (.due waiting) _ _ _ _ 3 (by rcases delimiter with rfl | rfl <;> decide)
    begins rfl

theorem isLiteralByte_iff (b : UInt8) : isLiteralByte b = true ↔ InRun b := by
  simp [isLiteralByte, Text.isWord, Text.isDigit, Text.isUpper, Text.isLower, InRun, or_assoc]
  rfl

theorem isRadixMark_iff (b : UInt8) : isRadixMark b = true ↔ b ∈ radixMarks := by
  simp [isRadixMark, radixMarks, or_assoc]

theorem radixMark_not_literal (b : UInt8) (mark : isRadixMark b = true) : isLiteralByte b = false := by
  simp only [isRadixMark, Bool.or_eq_true, beq_iff_eq] at mark
  rcases mark with (((rfl | rfl) | rfl) | rfl) | rfl <;> decide

/-- No byte at the front could be part of a number before it. -/
def Ends (s : Text) : Prop := ∀ b ∈ s.head?, isLiteralByte b = false

theorem takeWhile_ends (w rest : Text) (run : ∀ b ∈ w, InRun b) (ends : Ends rest) :
    (w ++ rest).takeWhile isLiteralByte = w := by
  rw [List.takeWhile_append_of_pos fun b member => (isLiteralByte_iff b).mpr (run b member)]
  cases rest with
  | nil => simp
  | cons b rest => simp [ends b rfl]

theorem literal_run (w rest : Text) (run : IsRun w) (nonempty : w ≠ []) (ends : Ends rest) :
    literal (w ++ rest) = w := by
  rcases run with plain | ⟨mark, isMark, tail, rfl, plain⟩
  · cases w with
    | nil => exact absurd rfl nonempty
    | cons b w =>
        have inRun := (isLiteralByte_iff b).mpr (plain b List.mem_cons_self)
        have unmarked : isRadixMark b = false := by
          cases marked : isRadixMark b with
          | false => rfl
          | true => rw [radixMark_not_literal b marked] at inRun; contradiction
        simp only [literal, List.cons_append, unmarked]
        exact takeWhile_ends (b :: w) rest plain ends
  · simp only [List.cons_append, literal, (isRadixMark_iff mark).mpr isMark, ↓reduceIte,
      takeWhile_ends tail rest plain ends]

/-- The bytes that begin another token, or stand between tokens, begin no number. -/
theorem operandToken_literal (b : UInt8) (s : Text) (starts : isLiteralByte b ∨ isRadixMark b) :
    ¬ (b = ' ' ∨ b = '\t') ∧ operandToken? b s =
      (Numeral.read? (literal (b :: s))).map fun v => (.value v, (literal (b :: s)).length - 1) := by
  have differs : ∀ c : UInt8, isLiteralByte c = false → isRadixMark c = false → b ≠ c := by
    rintro c plain unmarked rfl
    simp [plain, unmarked] at starts
  constructor
  · simp only [not_or]
    exact ⟨differs _ (by decide) (by decide), differs _ (by decide) (by decide)⟩
  · simp only [operandToken?, differs '(' (by decide) (by decide), differs '-' (by decide) (by decide),
      differs '+' (by decide) (by decide), differs '~' (by decide) (by decide),
      differs '\'' (by decide) (by decide), differs '"' (by decide) (by decide), or_self, ↓reduceIte]

theorem read_nil : Numeral.read? [] = none := by decide

theorem readAll_number (w rest : Text) (v : Int64) (waiting : List Pending) (run : IsRun w)
    (reads : Numeral.read? w = some v) (ends : Ends rest) :
    (State.due waiting).readAll 0 (w ++ rest) = (State.read v waiting).readAll 0 rest := by
  cases w with
  | nil => rw [read_nil] at reads; contradiction
  | cons b w =>
      have starts : isLiteralByte b ∨ isRadixMark b := by
        rcases run with plain | ⟨mark, isMark, tail, same, _⟩
        · exact .inl ((isLiteralByte_iff b).mpr (plain b List.mem_cons_self))
        · obtain ⟨rfl, rfl⟩ := List.cons.inj same
          exact .inr ((isRadixMark_iff b).mpr isMark)
      have whole := literal_run (b :: w) rest run (List.cons_ne_nil b w) ends
      obtain ⟨solid, begins⟩ := operandToken_literal b (w ++ rest) starts
      rw [← List.cons_append, whole, reads] at begins
      have passed := readAll_token (.due waiting) (.read v waiting) b (w ++ rest) _ _ solid begins rfl
      simpa using passed

/-! Every sentence is read -/

/-- Nothing that waits binds an operand as tightly as `rank`. -/
def Loose (rank : Nat) : List Pending → Prop
  | .unary _ :: _ => False
  | .binary _ op :: _ => op.rank < rank
  | _ => True

theorem collapse_loose (rank : Nat) (v : Int64) (waiting : List Pending) (loose : Loose rank waiting) :
    collapse rank v waiting = some (v, waiting) := by
  cases waiting with
  | nil => rfl
  | cons pending waiting =>
      cases pending with
      | unary op => exact loose.elim
      | binary left op => simp only [collapse, Nat.not_le.mpr loose, ↓reduceIte]
      | opening => rfl

theorem loose_mono (rank : Nat) (waiting : List Pending) (loose : Loose rank waiting) :
    Loose (rank + 1) waiting := by
  cases waiting with
  | nil => trivial
  | cons pending waiting =>
      cases pending with
      | unary op => exact loose
      | binary left op => exact Nat.lt_succ_of_lt loose
      | opening => trivial

theorem ends_gap (l rest : Text) (gap : IsGap l) (ends : Ends rest) : Ends (l ++ rest) := by
  cases l with
  | nil => exact ends
  | cons b l =>
      intro c first
      obtain rfl : b = c := Option.some.inj first
      rcases gap b List.mem_cons_self with rfl | rfl <;> decide

theorem ends_symbol (op : Binary) (s : Text) : Ends (op.symbol ++ s) := by
  intro b first
  cases op <;> obtain rfl := Option.some.inj first <;> decide

/-- A sentence read from any context leaves operators that collapse to its value, as far as the
context lets it stand on its level. -/
theorem derives_readAll {n : Nat} {w : Text} {v : Int64} (derivation : Derives n w v) :
    ∀ (waiting : List Pending) (rest : Text), Ends rest → (n ≤ 6 → Loose n waiting) →
      ∃ u pending, (State.due waiting).readAll 0 (w ++ rest) = (State.read u pending).readAll 0 rest ∧
        ∀ rank ≤ n, collapse rank u pending = collapse rank v waiting := by
  -- What waits stays general: an operand of an operator is read with that operator on top.
  induction derivation with
  | @number w v run reads =>
      intro waiting rest ends _
      exact ⟨v, waiting, readAll_number w rest v waiting run reads ends, fun _ _ => rfl⟩
  | @character quote b delimiter other =>
      intro waiting rest _ _
      exact ⟨_, waiting, readAll_character quote b delimiter other waiting rest, fun _ _ => rfl⟩
  | @quote quote delimiter =>
      intro waiting rest _ _
      exact ⟨_, waiting, readAll_quote quote delimiter waiting rest, fun _ _ => rfl⟩
  | @group l w r v left inside right ih =>
      intro waiting rest _ _
      -- Inside, nothing further out is seen before the closing parenthesis collapses it all.
      have closes : Ends (r ++ (')' : UInt8) :: rest) := by
        refine ends_gap r _ right ?_
        intro b first
        obtain rfl := Option.some.inj first
        decide
      obtain ⟨u, pending, read, collapses⟩ := ih (.opening :: waiting) _ closes fun _ => trivial
      have collapsed : collapse 0 u pending = some (v, .opening :: waiting) := collapses 0 (by decide)
      refine ⟨v, waiting, ?_, fun _ _ => rfl⟩
      calc (State.due waiting).readAll 0 (('(' : UInt8) :: l ++ w ++ r ++ [(')' : UInt8)] ++ rest)
          = (State.due waiting).readAll 0 (('(' : UInt8) :: (l ++ (w ++ (r ++ (')' : UInt8) :: rest)))) := by
            simp
        _ = (State.due (.opening :: waiting)).readAll 0 (w ++ (r ++ (')' : UInt8) :: rest)) := by
            rw [readAll_opening, readAll_gap _ l _ left]
        _ = (State.read u pending).readAll 0 ((')' : UInt8) :: rest) := by
            rw [read, readAll_gap _ r _ right]
        _ = (State.read v waiting).readAll 0 rest := readAll_closing u v pending waiting rest collapsed
  | @unary op l w v gap operand ih =>
      intro waiting rest ends _
      obtain ⟨u, pending, read, collapses⟩ := ih (.unary op :: waiting) rest ends (by omega)
      refine ⟨u, pending, ?_, fun rank bound => ?_⟩
      · rw [List.append_assoc, List.append_assoc, readAll_unary, readAll_gap _ l _ gap, read]
      · rw [collapses rank bound, unary_value]
        rfl
  | @binary n op x l r y a b v level left before after right value ihx ihy =>
      intro waiting rest ends context
      obtain rfl := (mem_operatorsOf op n).mp level
      have tight : op.rank ≤ 6 := by cases op <;> decide
      have loose := context tight
      -- Reading the operator collapses its left operand; the right one is left to what follows.
      obtain ⟨u, pending, readLeft, collapsesLeft⟩ := ihx waiting (l ++ (op.symbol ++ (r ++ (y ++ rest))))
        (ends_gap l _ before (ends_symbol op _)) context
      have collapsed := (collapsesLeft op.rank (Nat.le_refl _)).trans (collapse_loose op.rank a waiting loose)
      obtain ⟨u', pending', readRight, collapsesRight⟩ := ihy (.binary a op :: waiting) rest ends
        fun _ => Nat.lt_succ_self op.rank
      refine ⟨u', pending', ?_, fun rank bound => ?_⟩
      · calc (State.due waiting).readAll 0 (x ++ l ++ op.symbol ++ r ++ y ++ rest)
            = (State.due waiting).readAll 0 (x ++ (l ++ (op.symbol ++ (r ++ (y ++ rest))))) := by simp
          _ = (State.read u pending).readAll 0 (op.symbol ++ (r ++ (y ++ rest))) := by
              rw [readLeft, readAll_gap _ l _ before]
          _ = (State.due (.binary a op :: waiting)).readAll 0 (y ++ rest) := by
              rw [readAll_binary op u a pending waiting _ collapsed, readAll_gap _ r _ after]
          _ = (State.read u' pending').readAll 0 rest := readRight
      · rw [collapsesRight rank (Nat.le_succ_of_le bound)]
        rw [binary_value] at value
        simp only [collapse, bound, ↓reduceIte, value]
  | @tighter n w v inner ih =>
      intro waiting rest ends context
      obtain ⟨u, pending, read, collapses⟩ := ih waiting rest ends
        fun bound => loose_mono n waiting (context (by omega))
      exact ⟨u, pending, read, fun rank bound => collapses rank (Nat.le_succ_of_le bound)⟩

/-! What was read is a sentence -/

/-- The text before the operand in hand, with what waits on it. An operator stands in it with its
left operand, which nothing outside it could take apart. -/
inductive Context : Text → List Pending → Prop
  | start {l : Text} (gap : IsGap l) : Context l []
  | opening {c l : Text} {waiting : List Pending} (outer : Context c waiting) (gap : IsGap l) :
      Context (c ++ (('(' : UInt8) :: l)) (.opening :: waiting)
  | unary {c l : Text} {op : Unary} {waiting : List Pending} (outer : Context c waiting)
      (gap : IsGap l) : Context (c ++ (op.symbol ++ l)) (.unary op :: waiting)
  | binary {c x l r : Text} {op : Binary} {a : Int64} {waiting : List Pending}
      (outer : Context c waiting) (loose : Loose op.rank waiting) (left : Derives op.rank x a)
      (before : IsGap l) (after : IsGap r) :
      Context (c ++ (x ++ l ++ op.symbol ++ r)) (.binary a op :: waiting)

/-- The text that a state has passed over. -/
def Reads (c : Text) : State → Prop
  | .due waiting => Context c waiting
  | .read v waiting => ∃ before x gap, c = before ++ x ++ gap ∧ Context before waiting ∧
      Derives 8 x v ∧ IsGap gap

def Spells : Token → Text → Prop
  | .value v, t => Derives 8 t v
  | .unary op, t => t = op.symbol
  | .binary op, t => t = op.symbol
  | .opening, t => t = [('(' : UInt8)]
  | .closing, t => t = [(')' : UInt8)]

theorem derives_mono {n : Nat} {w : Text} {v : Int64} (derivation : Derives n w v) (m : Nat)
    (bound : m ≤ n) : Derives m w v := by
  obtain ⟨k, rfl⟩ := Nat.exists_eq_add_of_le bound
  induction k with
  | zero => exact derivation
  | succ k ih => exact ih (.tighter derivation) (Nat.le_add_right m k)

theorem isGap_append (l r : Text) (left : IsGap l) (right : IsGap r) : IsGap (l ++ r) := by
  intro b member
  rcases List.mem_append.mp member with inLeft | inRight
  · exact left b inLeft
  · exact right b inRight

theorem isGap_nil : IsGap [] := by
  intro b member
  contradiction

theorem derives_one {w : Text} {v : Int64} (derivation : Derives 0 w v) : Derives 1 w v := by
  cases derivation with
  | binary level => contradiction
  | tighter inner => exact inner

theorem context_gap (c l : Text) (waiting : List Pending) (context : Context c waiting)
    (more : IsGap l) : Context (c ++ l) waiting := by
  cases context with
  | start gap => exact .start (isGap_append _ l gap more)
  | opening outer gap => simpa using Context.opening outer (isGap_append _ l gap more)
  | unary outer gap => simpa using Context.unary outer (isGap_append _ l gap more)
  | binary outer loose left before after =>
      simpa using Context.binary outer loose left before (isGap_append _ l after more)

/-- Collapsing takes operators and their left operands out of the context and into the operand. -/
theorem collapse_context (rank : Nat) (low : rank ≤ 6) {c : Text} {waiting : List Pending}
    (context : Context c waiting) :
    ∀ (n : Nat) (x : Text) (v w : Int64) (rest : List Pending), Derives n x v → rank ≤ n →
      (n ≤ 6 → Loose n waiting) → collapse rank v waiting = some (w, rest) →
      ∃ c' x', c ++ x = c' ++ x' ∧ Context c' rest ∧ Derives rank x' w ∧ Loose rank rest := by
  -- From the operand outwards: with each operator taken in, the operand is a longer sentence.
  induction context with
  | @start l gap =>
      intro n x v w rest derivation bound _ collapsed
      obtain ⟨rfl, rfl⟩ := Prod.mk.inj (Option.some.inj collapsed)
      exact ⟨l, x, rfl, .start gap, derives_mono derivation rank bound, trivial⟩
  | @opening c l waiting outer gap _ =>
      intro n x v w rest derivation bound _ collapsed
      obtain ⟨rfl, rfl⟩ := Prod.mk.inj (Option.some.inj collapsed)
      exact ⟨_, x, rfl, .opening outer gap, derives_mono derivation rank bound, trivial⟩
  | @unary c l op waiting outer gap ih =>
      intro n x v w rest derivation bound loose collapsed
      -- Only an operand at least as tight as a sign can stand right after one.
      have prefixed : 7 ≤ n := Decidable.byContradiction fun small => loose (by omega)
      have operand := derives_mono derivation 7 prefixed
      have signed : Derives 7 (op.symbol ++ l ++ x) (op.value v) := .unary gap operand
      rw [unary_value] at signed
      obtain ⟨c', x', same, inner, derived, stops⟩ :=
        ih 7 (op.symbol ++ l ++ x) (op.apply v) w rest signed (by omega) (by omega) collapsed
      exact ⟨c', x', by rw [← same]; simp, inner, derived, stops⟩
  | @binary c x₀ l r op a waiting outer inside left before after ih =>
      intro n x v w rest derivation bound loose collapsed
      -- An operator looser than `rank` ends the collapse; any other joins its two operands.
      by_cases tight : rank ≤ op.rank
      · have next : op.rank + 1 ≤ n := by
          have six : op.rank ≤ 6 := by cases op <;> decide
          rcases Nat.lt_or_ge 6 n with high | level
          · omega
          · exact loose level
        simp only [collapse, tight, ↓reduceIte] at collapsed
        cases applied : op.apply? a v with
        | none => simp [applied] at collapsed
        | some u =>
            rw [applied] at collapsed
            have joined : Derives op.rank (x₀ ++ l ++ op.symbol ++ r ++ x) u :=
              .binary ((mem_operatorsOf op op.rank).mpr rfl) left before after
                (derives_mono derivation (op.rank + 1) next) ((binary_value op a v).trans applied)
            obtain ⟨c', x', same, inner, derived, stops⟩ :=
              ih op.rank _ u w rest joined tight (fun _ => inside) collapsed
            exact ⟨c', x', by rw [← same]; simp, inner, derived, stops⟩
      · simp only [collapse, tight, ↓reduceIte, Option.some.injEq, Prod.mk.injEq] at collapsed
        obtain ⟨rfl, rfl⟩ := collapsed
        exact ⟨_, x, rfl, .binary outer inside left before after, derives_mono derivation rank bound,
          Nat.lt_of_not_le tight⟩

theorem push_reads (c t : Text) (state next : State) (token : Token) (reads : Reads c state)
    (spelled : Spells token t) (pushed : state.push token = some next) : Reads (c ++ t) next := by
  cases state with
  | due waiting =>
      cases token with
      | value v =>
          obtain rfl := Option.some.inj pushed
          exact ⟨c, t, [], by simp, reads, spelled, isGap_nil⟩
      | unary op =>
          obtain rfl := Option.some.inj pushed
          obtain rfl : t = op.symbol := spelled
          have stands : Context (c ++ (op.symbol ++ [])) (.unary op :: waiting) := .unary reads isGap_nil
          simpa [Reads] using stands
      | opening =>
          obtain rfl := Option.some.inj pushed
          obtain rfl : t = [('(' : UInt8)] := spelled
          exact Context.opening reads isGap_nil
      | binary op => contradiction
      | closing => contradiction
  | read v waiting =>
      obtain ⟨before, x, gap, rfl, context, operand, blank⟩ := reads
      cases token with
      | binary op =>
          obtain rfl : t = op.symbol := spelled
          simp only [State.push] at pushed
          split at pushed
          · next left rest collapsed =>
              obtain rfl := Option.some.inj pushed
              have low : op.rank ≤ 6 := by cases op <;> decide
              obtain ⟨c', x', same, inner, derived, loose⟩ := collapse_context op.rank low context 8 x v
                left rest operand (by omega) (by omega) collapsed
              have stands := Context.binary inner loose derived blank isGap_nil
              rw [same]
              simpa [Reads] using stands
          · contradiction
      | closing =>
          obtain rfl : t = [(')' : UInt8)] := spelled
          simp only [State.push] at pushed
          split at pushed
          · next w rest collapsed =>
              obtain rfl := Option.some.inj pushed
              obtain ⟨c', x', same, inner, derived, _⟩ := collapse_context 0 (by omega) context 8 x v
                w (.opening :: rest) operand (by omega) (by omega) collapsed
              cases inner with
              | @opening c l _ outer left =>
                  have grouped : Derives 8 (('(' : UInt8) :: l ++ x' ++ gap ++ [(')' : UInt8)]) w :=
                    .group left (derives_one derived) blank
                  refine ⟨c, _, [], ?_, outer, grouped, isGap_nil⟩
                  rw [same]
                  simp
          · contradiction
      | value w => contradiction
      | unary op => contradiction
      | opening => contradiction

theorem literal_isRun (b : UInt8) (s : Text) : IsRun (literal (b :: s)) := by
  have inRun : ∀ t : Text, ∀ c ∈ t.takeWhile isLiteralByte, InRun c := fun t c member =>
    (isLiteralByte_iff c).mp (List.all_eq_true.mp (List.all_takeWhile (l := t)) c member)
  by_cases marked : isRadixMark b
  · refine .inr ⟨b, (isRadixMark_iff b).mp marked, s.takeWhile isLiteralByte, ?_, inRun s⟩
    simp [literal, marked]
  · refine .inl ?_
    simpa [literal, marked] using inRun (b :: s)

theorem literal_isPrefix (b : UInt8) (s : Text) : literal (b :: s) <+: b :: s := by
  by_cases marked : isRadixMark b
  · simp [literal, marked, List.takeWhile_prefix]
  · simpa [literal, marked] using List.takeWhile_prefix isLiteralByte (l := b :: s)

theorem character_spells (quote : UInt8) (s : Text) (v : Int64) (skip : Nat)
    (delimiter : quote = '\'' ∨ quote = '"') (decoded : character? quote s = some (v, skip)) :
    Derives 8 (quote :: s.take skip) v ∧ skip ≤ s.length := by
  unfold character? at decoded
  split at decoded
  · next a b s =>
      split at decoded
      · next same =>
          subst same
          split at decoded
          · next c s =>
              split at decoded
              · next doubled =>
                  obtain ⟨rfl, rfl⟩ := doubled
                  obtain ⟨rfl, rfl⟩ := Prod.mk.inj (Option.some.inj decoded)
                  exact ⟨.quote delimiter, by simp⟩
              · contradiction
          · contradiction
      · next other =>
          split at decoded
          · next closed =>
              subst closed
              obtain ⟨rfl, rfl⟩ := Prod.mk.inj (Option.some.inj decoded)
              exact ⟨.character delimiter other, by simp⟩
          · contradiction
  · contradiction

theorem number_spells (b : UInt8) (s : Text) (v : Int64)
    (reads : Numeral.read? (literal (b :: s)) = some v) :
    Derives 8 (b :: s.take ((literal (b :: s)).length - 1)) v ∧
      (literal (b :: s)).length - 1 ≤ s.length := by
  have whole := List.prefix_iff_eq_take.mp (literal_isPrefix b s)
  have short := (literal_isPrefix b s).length_le
  cases size : (literal (b :: s)).length with
  | zero =>
      rw [List.length_eq_zero_iff.mp size, read_nil] at reads
      contradiction
  | succ n =>
      rw [size] at whole short
      refine ⟨?_, by simpa using short⟩
      have same : b :: s.take (n + 1 - 1) = literal (b :: s) := whole.symm
      rw [same]
      exact .number (literal_isRun b s) reads

theorem single_spells {b c : UInt8} {t token : Token} {skip : Nat} (s : Text) (same : b = c)
    (begins : some (t, 0) = some (token, skip)) (spelled : Spells t [c]) :
    Spells token (b :: s.take skip) ∧ skip ≤ s.length := by
  obtain ⟨rfl, rfl⟩ := Prod.mk.inj (Option.some.inj begins)
  exact ⟨by simpa [same] using spelled, Nat.zero_le _⟩

theorem double_spells {b c d : UInt8} {t token : Token} {skip : Nat} (s : Text)
    (same : b = c ∧ s.head? = some d) (begins : some (t, 1) = some (token, skip))
    (spelled : Spells t [c, d]) :
    Spells token (b :: s.take skip) ∧ skip ≤ s.length := by
  obtain ⟨rfl, rfl⟩ := Prod.mk.inj (Option.some.inj begins)
  obtain ⟨rest, rfl⟩ := List.head?_eq_some_iff.mp same.2
  exact ⟨by simpa [same.1] using spelled, by simp⟩

theorem operandToken_spells (b : UInt8) (s : Text) (token : Token) (skip : Nat)
    (begins : operandToken? b s = some (token, skip)) :
    Spells token (b :: s.take skip) ∧ skip ≤ s.length := by
  unfold operandToken? at begins
  -- One test after the other, each for a token of its own.
  rcases ite_eq_iff.mp begins with ⟨same, begins⟩ | ⟨_, begins⟩
  · exact single_spells s same begins rfl
  rcases ite_eq_iff.mp begins with ⟨same, begins⟩ | ⟨_, begins⟩
  · exact single_spells s same begins rfl
  rcases ite_eq_iff.mp begins with ⟨same, begins⟩ | ⟨_, begins⟩
  · exact single_spells s same begins rfl
  rcases ite_eq_iff.mp begins with ⟨same, begins⟩ | ⟨_, begins⟩
  · exact single_spells s same begins rfl
  rcases ite_eq_iff.mp begins with ⟨delimiter, begins⟩ | ⟨_, begins⟩
  · obtain ⟨⟨v, n⟩, decoded, found⟩ := Option.map_eq_some_iff.mp begins
    obtain ⟨rfl, rfl⟩ := Prod.mk.inj found
    exact character_spells b s v n delimiter decoded
  · obtain ⟨v, reads, found⟩ := Option.map_eq_some_iff.mp begins
    obtain ⟨rfl, rfl⟩ := Prod.mk.inj found
    exact number_spells b s v reads

theorem operatorToken_spells (b : UInt8) (s : Text) (token : Token) (skip : Nat)
    (begins : operatorToken? b s = some (token, skip)) :
    Spells token (b :: s.take skip) ∧ skip ≤ s.length := by
  unfold operatorToken? at begins
  rcases ite_eq_iff.mp begins with ⟨same, begins⟩ | ⟨_, begins⟩
  · exact single_spells s same begins rfl
  rcases ite_eq_iff.mp begins with ⟨same, begins⟩ | ⟨_, begins⟩
  · exact double_spells s same begins rfl
  rcases ite_eq_iff.mp begins with ⟨same, begins⟩ | ⟨_, begins⟩
  · exact double_spells s same begins rfl
  -- The operators of one byte are left.
  iterate 8
    rcases ite_eq_iff.mp begins with ⟨same, begins⟩ | ⟨_, begins⟩
    · exact single_spells s same begins rfl
  contradiction

theorem token_spells (state : State) (b : UInt8) (s : Text) (token : Token) (skip : Nat)
    (begins : state.token? b s = some (token, skip)) :
    Spells token (b :: s.take skip) ∧ skip ≤ s.length := by
  cases state with
  | due waiting => exact operandToken_spells b s token skip begins
  | read v waiting => exact operatorToken_spells b s token skip begins

theorem reads_gap (c l : Text) (state : State) (reads : Reads c state) (more : IsGap l) :
    Reads (c ++ l) state := by
  cases state with
  | due waiting => exact context_gap c l waiting reads more
  | read v waiting =>
      obtain ⟨before, x, gap, rfl, context, operand, blank⟩ := reads
      exact ⟨before, x, gap ++ l, by simp, context, operand, isGap_append gap l blank more⟩

theorem readAll_reads (state final : State) (c s : Text) (skip : Nat) (short : skip ≤ s.length)
    (reads : Reads (c ++ s.take skip) state) (read : state.readAll skip s = some final) :
    Reads (c ++ s) final := by
  -- A token is taken in at its first byte, so `c` runs ahead by the bytes still to be skipped.
  induction s generalizing state c skip with
  | nil =>
      obtain rfl : state = final := Option.some.inj (by simpa [State.readAll] using read)
      simpa using reads
  | cons b s ih =>
      rw [← List.singleton_append, ← List.append_assoc]
      cases skip with
      | succ skip =>
          refine ih state (c ++ [b]) skip (Nat.le_of_succ_le_succ short) ?_ read
          simpa using reads
      | zero =>
          have before : Reads c state := by simpa using reads
          rw [State.readAll] at read
          split at read
          · next blank =>
              have passed : IsGap [b] := by simpa [IsGap] using blank
              exact ih state (c ++ [b]) 0 (Nat.zero_le _) (by simpa using reads_gap c [b] state before passed)
                read
          · split at read
            · contradiction
            · next token skip begins =>
                obtain ⟨spelled, inside⟩ := token_spells state b s token skip begins
                split at read
                · contradiction
                · next next pushed =>
                    have taken := push_reads c _ state next token before spelled pushed
                    exact ih next (c ++ [b]) skip inside (by simpa using taken) read

theorem trim_gap_left (s l x : Text) (gap : IsGap l) (same : s.trim = l ++ x) : l = [] := by
  cases l with
  | nil => rfl
  | cons b l =>
      have blank : [b] ∈ Text.blanks := by
        rcases gap b List.mem_cons_self with rfl | rfl <;> decide
      exact absurd (by simp [same]) (Text.trim_not_starts s [b] blank)

theorem trim_gap_right (s l x : Text) (gap : IsGap l) (same : s.trim = x ++ l) : l = [] := by
  rcases List.eq_nil_or_concat l with rfl | ⟨l, b, rfl⟩
  · rfl
  · have blank : [b] ∈ Text.blanks := by
      rcases gap b (by simp) with rfl | rfl <;> decide
    exact absurd ⟨x ++ l, by simp [same]⟩ (Text.trim_not_ends s [b] blank)

theorem eval_of_derives (s : Text) (v : Int64) (derivation : Derives 1 s.trim v) :
    eval? s = some v := by
  obtain ⟨u, pending, read, collapses⟩ := derives_readAll derivation [] [] (by simp [Ends]) fun _ => trivial
  have collapsed : collapse 0 u pending = some (v, []) := collapses 0 (by decide)
  rw [List.append_nil] at read
  simp only [eval?, read, State.readAll, State.value?, collapsed]

theorem derives_of_eval (s : Text) (v : Int64) (evaluated : eval? s = some v) :
    Derives 1 s.trim v := by
  unfold eval? at evaluated
  split at evaluated
  · next state read =>
      have reads : Reads s.trim state :=
        readAll_reads (.due []) state [] s.trim 0 (Nat.zero_le _) (Context.start isGap_nil) read
      cases state with
      | due waiting => contradiction
      | read u waiting =>
          obtain ⟨before, x, gap, whole, context, operand, blank⟩ := reads
          simp only [State.value?] at evaluated
          split at evaluated
          · next w collapsed =>
              obtain rfl := Option.some.inj evaluated
              obtain ⟨c, y, same, outer, derived, _⟩ := collapse_context 0 (by omega) context 8 x u w []
                operand (by omega) (by omega) collapsed
              -- Nothing waits at the end, so the context is a gap, and trimming left none.
              cases outer with
              | start left =>
                  rw [same] at whole
                  obtain rfl := trim_gap_right s gap _ blank whole
                  rw [List.append_nil] at whole
                  obtain rfl := trim_gap_left s c y left whole
                  rw [whole]
                  exact derives_one derived
          · contradiction
  · contradiction

/-- Evaluation accepts exactly the sentences of the grammar, with their values; every other text
has no value. -/
theorem eval_iff_derives (s : Text) :
    (∀ v, eval? s = some v ↔ Derives 1 s.trim v) ∧
      (eval? s = none ↔ ∀ v, ¬ Derives 1 s.trim v) := by
  have exact : ∀ v, eval? s = some v ↔ Derives 1 s.trim v := fun v =>
    ⟨derives_of_eval s v, eval_of_derives s v⟩
  refine ⟨exact, ?_⟩
  rw [Option.eq_none_iff_forall_ne_some]
  exact forall_congr' fun v => not_congr (exact v)

end Z80Cost.Expression
