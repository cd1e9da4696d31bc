import Z80Cost.Proofs.Matcher.Accumulator
import Z80Cost.Proofs.Matcher.Brackets
import Z80Cost.Proofs.Source.Spelling

/-!
Numbers as operands. In whatever form it is written, a number is plain text and no name, so an operand
of the table that is a number itself takes it by its value, and every other takes all numbers or none.
The rows of `RST`, of `IM` and of `OUT` behind `(C)` take one number each or none, no two of them the
same: the value of a number alone selects the row.
-/

namespace Z80Cost

theorem isPlain_number (s : Text) (v : Int64) (number : Numeral.read? s = some v) (trimmed : s.trim = s) :
    IsPlain s := by
  have byte := Numeral.byte_of_read s v number
  rw [trimmed] at byte
  have foreign : reserved.all (fun b => !Numeral.isByte b) = true := by decide
  have unread : Operand.registers.all (fun name => (Numeral.read? name).isNone) = true := by decide +kernel
  refine ⟨?_, trimmed, ?_, ?_, ?_⟩
  · have nothing : Numeral.read? [] = none := by decide
    rintro rfl
    simp [nothing] at number
  · intro b member listed
    simpa [byte b member] using List.all_eq_true.mp foreign b listed
  · intro listed
    simpa [number] using List.all_eq_true.mp unread s listed
  · -- The name of an index register begins with a letter, and a number does not.
    rintro index rest rfl
    have front : ∃ name, index.name = ('I' : UInt8) :: name := by cases index <;> exact ⟨_, rfl⟩
    obtain ⟨name, begins⟩ := front
    rw [begins] at number
    have letter : Numeral.isFront (Text.upperByte 'I') = false := by decide
    simp [Numeral.front_of_read 'I' _ v (by decide) number] at letter

namespace Operand

open Filling

theorem read_verbatim (name : Text) (listed : name ∈ verbatims) : Numeral.read? name = none := by
  have unread : verbatims.all (fun name => (Numeral.read? name).isNone) = true := by decide +kernel
  exact Option.isNone_iff_eq_none.mp (List.all_eq_true.mp unread name listed)

def Shape.value? : Shape → Option Int64
  | .literal _ value => some value
  | _ => none

/-- The words that stand for a class or for themselves are no numbers. -/
theorem Shape.value_ofText (word : Text) : (Shape.ofText word).value? = Numeral.read? word := by
  unfold Shape.ofText
  iterate 11
    refine iteInduction (motive := fun shape : Shape => shape.value? = Numeral.read? word)
      (fun same => ?_) fun _ => ?_
    · obtain rfl := eq_of_beq same
      decide
  refine iteInduction (motive := fun shape : Shape => shape.value? = Numeral.read? word)
    (fun listed => ?_) fun _ => ?_
  · exact (read_verbatim word (List.contains_iff_mem.mp listed)).symm
  · cases Numeral.read? word <;> rfl

section Number
variable (s : Text) (v : Int64) (number : Numeral.read? s = some v) (trimmed : s.trim = s)
include number trimmed

/-- A number that is spelled like one of the table has its value. -/
theorem read_spelled (spelling : Text) (same : s = spelling.upper) : Numeral.read? spelling = some v := by
  have byte := Numeral.byte_of_read s v number
  rw [trimmed] at byte
  have solid : ∀ b ∈ spelling, Text.isSolid b = true := by
    intro b member
    have upper : Text.upperByte b ∈ s := same ▸ List.mem_map_of_mem member
    exact Numeral.isByte_solid b (Numeral.isByte_upperByte b (byte _ upper))
  have twice : spelling.upper.upper = spelling.upper := by
    simp [Text.upper, Source.upperByte_upperByte]
  rw [Numeral.read?, trimmed, same, twice] at number
  rw [Numeral.read?, Text.trim_solid spelling solid, number]

theorem Shape.score_number (shape : Shape) (spelled : shape.IsSpelled) (fixed : shape ≠ .immediate) :
    shape.score s = .ofBool (shape.value? == some v) := by
  have unregistered := isRegister_plain s (isPlain_number s v number trimmed)
  have refused : refusesPlain shape = true → shape.score s ≠ .exact := by
    intro refuses fits
    rw [isRegister_of_score shape refuses s fits] at unregistered
    contradiction
  cases shape with
  | immediate => contradiction
  | verbatim spelling =>
      have other : (s == spelling) = false := by
        rw [beq_eq_false_iff_ne]
        rintro rfl
        rw [read_verbatim s spelled] at number
        contradiction
      rw [Shape.score, other]
      rfl
  | literal spelling value =>
      rw [Shape.score, Shape.value?]
      by_cases same : s = spelling.upper
      · have value : Numeral.read? spelling = some v := read_spelled s v number trimmed spelling same
        obtain rfl := Option.some.inj (spelled.symm.trans value)
        rw [if_pos (beq_iff_eq.mpr same), beq_self_eq_true]
        rfl
      · have comm : (v == value) = (some value == some v) := by simp [Bool.beq_comm]
        rw [if_neg (by simpa using same), number, ← comm]
  | register | indexed _ | high _ | low _ | half _ | registerOrHalf _ =>
      have other := refused rfl
      rw [Shape.score, ne_eq, Score.ofBool_eq_exact, Bool.not_eq_true] at other
      rw [Shape.score, other]
      rfl

/-- What the table writes for an operand takes a number by its value, unless it takes all. -/
theorem score_number (word : Text) (fixed : ofText word ≠ .direct .immediate) :
    (ofText word).score s = .ofBool (Numeral.read? word == some v) := by
  have plain := isPlain_number s v number trimmed
  cases inside : parenthesized? word with
  | none =>
      have direct : ofText word = .direct (.ofText word) := by rw [ofText, inside]
      have shape : Shape.ofText word ≠ .immediate := fun same => fixed (direct.trans (same ▸ rfl))
      rw [direct, score, Shape.score_number s v number trimmed _ (Shape.ofText_isSpelled word) shape,
        Shape.value_ofText]
  | some inner =>
      have unread : Numeral.read? word = none := by
        cases word with
        | nil => rfl
        | cons b rest =>
            rw [parenthesized?, Option.ite_none_right_eq_some] at inside
            obtain ⟨⟨rfl, _⟩, _⟩ := inside
            exact read_delimited (('(' : UInt8), (')' : UInt8)) (by decide) rest
      have late : isOffsetFirst (.ofText inner) s = false := by
        cases Shape.ofText inner with
        | indexed index => exact endsIn_free index s plain.free
        | _ => rfl
      rw [ofText, inside, unread]
      simp only [score, late, inner_plain s plain]
      rfl

end Number

end Operand

namespace Instruction

/-- The number that an instruction takes behind other operands. -/
def numberBehind? (front : List Text) (i : Instruction) : Option Int64 :=
  if i.operands.dropLast = front then i.operands.getLast?.bind Numeral.read? else none

/-- Whether an instruction has one operand more than `front`, and for that takes one number behind
`front`, or none at all. -/
def settlesNumber (front : List Text) (i : Instruction) : Bool :=
  i.operands.dropLast.length == front.length && i.operands.getLast?.any fun word =>
    Operand.ofText word != .direct .immediate &&
      (i.operands.dropLast == front || (Numeral.read? word).isNone)

theorem numberBehind_eq_some_iff (front : List Text) (i : Instruction) (v : Int64) :
    i.numberBehind? front = some v ↔ ∃ word, i.operands = front ++ [word] ∧ Numeral.read? word = some v := by
  rw [numberBehind?, Option.ite_none_right_eq_some]
  constructor
  · rintro ⟨rfl, read⟩
    obtain ⟨word, last, value⟩ := Option.bind_eq_some_iff.mp read
    obtain ⟨words, whole⟩ := List.getLast?_eq_some_iff.mp last
    exact ⟨word, by rw [whole, List.dropLast_concat], value⟩
  · rintro ⟨word, whole, value⟩
    rw [whole, List.dropLast_concat, List.getLast?_concat]
    exact ⟨rfl, value⟩

end Instruction

namespace Matcher

theorem productFrom_concat (total : Score) (shapes : List Operand) (shape : Operand) (operands : List Text)
    (operand : Text) (length : shapes.length = operands.length) :
    productFrom total (shapes ++ [shape]) (operands ++ [operand]) =
      (productFrom total shapes operands).times (shape.score operand) := by
  induction shapes generalizing total operands with
  | nil =>
      obtain rfl := List.length_eq_zero_iff.mp length.symm
      rfl
  | cons first shapes ih =>
      cases operands with
      | nil => contradiction
      | cons next operands => exact ih _ operands (Nat.succ.inj length)

/-- The last operand is compared with the last of the instruction, those before it with the others. -/
theorem scoreOf_concat (i : Instruction) (shaped : i.shapes = i.operands.map Operand.ofText) (words front : List Text)
    (word s : Text) (whole : i.operands = words ++ [word]) (length : words.length = front.length)
    (filled : [] ∉ front ++ [s]) :
    scoreOf i ⟨i.mnemonic, front ++ [s]⟩ =
      (product (words.map Operand.ofText) front).times ((Operand.ofText word).score s) := by
  have none : (front ++ [s]).any List.isEmpty = false := by
    rw [List.any_eq_false]
    intro operand member blank
    exact filled (List.isEmpty_iff.mp blank ▸ member)
  have shapes : i.shapes = words.map Operand.ofText ++ [Operand.ofText word] := by simp [shaped, whole]
  have split := productFrom_concat .exact (words.map Operand.ofText) (.ofText word) front s (by simpa using length)
  simp [scoreOf, none, shapes, length, exactForm, product, split]

/-- Behind operands that fit, a number is taken by its value. -/
theorem scoreOf_number (i : Instruction) (shaped : i.shapes = i.operands.map Operand.ofText) (front : List Text)
    (settles : i.settlesNumber front = true) (filled : [] ∉ front)
    (fits : product (front.map Operand.ofText) front = .exact)
    (s : Text) (v : Int64) (number : Numeral.read? s = some v) (trimmed : s.trim = s) :
    scoreOf i ⟨i.mnemonic, front ++ [s]⟩ = .ofBool (i.numberBehind? front == some v) := by
  have nonempty := (isPlain_number s v number trimmed).nonempty
  rcases List.eq_nil_or_concat i.operands with none | ⟨words, word, whole⟩
  · simp [Instruction.settlesNumber, none] at settles
  rw [List.concat_eq_append] at whole
  simp only [Instruction.settlesNumber, whole, List.dropLast_concat, List.getLast?_concat, Option.any_some,
    Bool.and_eq_true, Bool.or_eq_true, beq_iff_eq, bne_iff_ne, Option.isNone_iff_eq_none] at settles
  obtain ⟨length, fixed, placed⟩ := settles
  rw [scoreOf_concat i shaped words front word s whole length (by simp [filled, nonempty.symm]),
    Operand.score_number s v number trimmed word fixed, Instruction.numberBehind?, whole, List.dropLast_concat,
    List.getLast?_concat, Option.bind_some]
  rcases placed with rfl | unread
  · rw [fits, Score.exact_times, if_pos rfl]
  · rw [unread, ite_self]
    exact Score.times_rejected _

theorem bestFrom_rejected (statement : Source.Statement) (best : Option Ranked) (rows : List Instruction)
    (all : ∀ i ∈ rows, scoreOf i statement = .rejected) : bestFrom statement best rows = best := by
  induction rows with
  | nil => rfl
  | cons i rest ih =>
      obtain ⟨here, later⟩ := List.forall_mem_cons.mp all
      have lowest := (Score.le_def _ _).mp (Score.rejected_le ((best.map Ranked.score).getD .rejected))
      simp only [bestFrom, here, Score.rejected_ne_exact, lowest, ↓reduceIte, Bool.false_eq_true]
      exact ih later

end Matcher

/-! The table of the Z80 -/

/-- A mnemonic, the operands behind it, and the numbers that may follow them. -/
structure NumberForm where
  mnemonic : Text
  front : List Text
  values : List Int64

namespace NumberForm

def restart : NumberForm := ⟨"RST", [], [0, 8, 16, 24, 32, 40, 48, 56]⟩

def interruptMode : NumberForm := ⟨"IM", [], [0, 1, 2]⟩

def output : NumberForm := ⟨"OUT", ["(C)"], [0]⟩

/-- Whether the row `i` of the table has the number `v` for its last operand, in whatever form. -/
def IsRow (form : NumberForm) (v : Int64) (i : Instruction) : Prop :=
  i ∈ Catalog.z80.all ∧ i.mnemonic = form.mnemonic ∧
    ∃ word, i.operands = form.front ++ [word] ∧ Numeral.read? word = some v

def rows (form : NumberForm) : List Instruction := Catalog.z80.all.filter (·.mnemonic = form.mnemonic)

def rowsOf (form : NumberForm) (v : Int64) : List Instruction :=
  form.rows.filter fun i => i.numberBehind? form.front == some v

/-- Whether the operands in front fit as they are written, every row of the mnemonic is of the standard
set and takes one number or none, and each of the values, and no other, is taken by one row. -/
def isListed (form : NumberForm) : Bool :=
  !form.front.contains [] && Matcher.product (form.front.map Operand.ofText) form.front == .exact &&
    form.rows.all (fun i => i.set == Platform.standardSet && i.settlesNumber form.front) &&
    form.rows.filterMap (·.numberBehind? form.front) == form.values &&
    form.values.all fun v => (form.rowsOf v).length == 1

theorem mem_rowsOf (form : NumberForm) (v : Int64) (i : Instruction) : i ∈ form.rowsOf v ↔ form.IsRow v i := by
  simp only [rowsOf, rows, IsRow, List.mem_filter, decide_eq_true_eq, beq_iff_eq, and_assoc,
    Instruction.numberBehind_eq_some_iff]

theorem isRow_ofPattern (form : NumberForm) (v : Int64) (pattern : Pattern)
    (listed : pattern ∈ Catalog.z80Patterns) (single : Instruction.ofPattern pattern ∈ pattern.expand)
    (same : (Instruction.ofPattern pattern).mnemonic = form.mnemonic)
    (taken : (Instruction.ofPattern pattern).numberBehind? form.front = some v) :
    form.IsRow v (.ofPattern pattern) :=
  ⟨List.mem_flatMap.mpr ⟨pattern, listed, single⟩, same, (Instruction.numberBehind_eq_some_iff _ _ v).mp taken⟩

-- Evaluated by the kernel: the mnemonics are few, but every row of the table is looked at.
set_option maxRecDepth 100000 in
theorem z80_listed : [restart, interruptMode, output].all isListed = true := by
  decide +kernel

section Listed
variable (form : NumberForm) (listed : form.isListed = true)
include listed

theorem front_fits : [] ∉ form.front ∧ Matcher.product (form.front.map Operand.ofText) form.front = .exact := by
  simp only [isListed, Bool.and_eq_true, Bool.not_eq_true', List.contains_eq_mem, decide_eq_false_iff_not,
    beq_iff_eq] at listed
  exact listed.1.1.1

theorem settled_of_mem (i : Instruction) (member : i ∈ form.rows) :
    i.set = Platform.standardSet ∧ i.settlesNumber form.front = true := by
  simp only [isListed, Bool.and_eq_true, List.all_eq_true, beq_iff_eq] at listed
  exact listed.1.1.2 i member

theorem value_mem (v : Int64) (i : Instruction) (member : i ∈ form.rows)
    (taken : i.numberBehind? form.front = some v) : v ∈ form.values := by
  simp only [isListed, Bool.and_eq_true, beq_iff_eq] at listed
  rw [← listed.1.2, List.mem_filterMap]
  exact ⟨i, member, taken⟩

theorem row_of_value (v : Int64) (member : v ∈ form.values) : ∃ i, form.rowsOf v = [i] := by
  simp only [isListed, Bool.and_eq_true, List.all_eq_true, beq_iff_eq] at listed
  exact List.length_eq_one_iff.mp (listed.2 v member)

end Listed

end NumberForm

namespace Matcher

section Selected
variable (form : NumberForm) (listed : form.isListed = true)
  (s : Text) (v : Int64) (number : Numeral.read? s = some v) (trimmed : s.trim = s)
include listed number trimmed

theorem scoreOf_row (i : Instruction) (member : i ∈ form.rows) :
    scoreOf i ⟨form.mnemonic, form.front ++ [s]⟩ = .ofBool (i.numberBehind? form.front == some v) := by
  obtain ⟨inTable, same⟩ := List.mem_filter.mp member
  have shaped := Catalog.ofPatterns_shapes Catalog.z80Patterns i inTable
  obtain ⟨filled, fits⟩ := form.front_fits listed
  rw [← of_decide_eq_true same]
  have settles := (form.settled_of_mem listed i member).2
  exact scoreOf_number i shaped form.front settles filled fits s v number trimmed

/-- A number is matched by the one row that has its value, or by none. -/
theorem best_numbered (m : Matcher) (builtin : m.catalog = Catalog.z80)
    (standard : Platform.standardSet ∈ m.enabledSets) :
    (v ∈ form.values → ∃ i, (∀ j, form.IsRow v j ↔ j = i) ∧
      m.best? ⟨form.mnemonic, form.front ++ [s]⟩ = some ⟨i, .exact⟩) ∧
    (v ∉ form.values → m.best? ⟨form.mnemonic, form.front ++ [s]⟩ = none) := by
  have candidates : (m.catalog.candidates form.mnemonic).filter m.isEnabled = form.rows := by
    rw [builtin, Catalog.z80, Catalog.ofPatterns, Catalog.candidates_ofInstructions]
    refine List.filter_eq_self.mpr fun i member => ?_
    rw [isEnabled, (form.settled_of_mem listed i member).1]
    simpa using standard
  have scores := scoreOf_row form listed s v number trimmed
  rw [best?, candidates]
  constructor
  · intro member
    obtain ⟨i, row⟩ := form.row_of_value listed v member
    refine ⟨i, fun j => ?_, bestFrom_find _ _ _ i ?_⟩
    · rw [← form.mem_rowsOf, row, List.mem_singleton]
    · have fitting :
          form.rows.filter (fun j => scoreOf j ⟨form.mnemonic, form.front ++ [s]⟩ = .exact) = [i] := by
        rw [← row]
        refine List.filter_congr fun j inside => ?_
        rw [scores j inside, Bool.eq_iff_iff, decide_eq_true_iff, Score.ofBool_eq_exact]
      rw [← List.head?_filter, fitting]
      rfl
  · intro other
    refine bestFrom_rejected _ _ _ fun i member => ?_
    have different : (i.numberBehind? form.front == some v) = false :=
      beq_eq_false_iff_ne.mpr fun taken => other (form.value_mem listed v i member taken)
    rw [scores i member, different]
    rfl

end Selected

section Line
variable (s : Text) (v : Int64) (number : Numeral.read? s = some v)
include number

theorem number_trimmed : Numeral.read? s.trim = some v ∧ s.trim.trim = s.trim ∧ s.trim ≠ [] := by
  have read := (Numeral.read_trim s).trans number
  exact ⟨read, Text.trim_trim s, (isPlain_number _ v read (Text.trim_trim s)).nonempty⟩

theorem number_comma_free : Source.Mark.outside ',' ∉ Source.marks s := by
  have foreign : Numeral.isByte ',' = false := by decide
  intro member
  have inside : (',' : UInt8) ∈ s := by
    rw [← Source.bytes_marks s]
    exact List.mem_map_of_mem member
  rw [Numeral.byte_of_read s v number ',' (Text.mem_trim s ',' Source.Statement.solid_comma inside)] at foreign
  contradiction

theorem number_trimRight : s.trimRight.trim = s.trim := by
  obtain ⟨_, _, nonempty⟩ := number_trimmed s v number
  obtain ⟨b, rest, whole⟩ := List.exists_cons_of_ne_nil nonempty
  have first : b ∈ s.trim := by simp [whole]
  refine Text.trim_trimRight s b (Numeral.isByte_solid b (Numeral.byte_of_read s v number b first)) ?_
  exact (Text.dropLeading_isSuffix _ 0 s).subset ((Text.trimRight_isPrefix _).subset first)

theorem ofText_number (mnemonic : Text) (valid : Source.Statement.IsMnemonic mnemonic) :
    .ofText (mnemonic ++ " " ++ s) = (⟨mnemonic, [s.trim]⟩ : Source.Statement) := by
  obtain ⟨_, _, nonempty⟩ := number_trimmed s v number
  rw [Source.Statement.ofText_lone mnemonic s valid (number_comma_free s v number), number_trimRight s v number,
    if_neg nonempty]

end Line

def outputZero : Instruction := .ofPattern (Catalog.steady "S" "OUT (C),0" 12 14 4 "ED 71" 2)

theorem outputZero_isRow : NumberForm.output.IsRow 0 outputZero :=
  NumberForm.isRow_ofPattern _ _ _ (by decide +kernel) (by decide) (by decide) (by decide)

/-- Fixed numbers are selected by value, in whatever form they are written: `RST` and `IM` by their
rows, and only zero behind `OUT (C),`. -/
theorem best_by_value (m : Matcher) (builtin : m.catalog = Catalog.z80)
    (standard : Platform.standardSet ∈ m.enabledSets) (s : Text) (v : Int64)
    (number : Numeral.read? s = some v) :
    ((v ∈ ([0, 8, 16, 24, 32, 40, 48, 56] : List Int64) →
        ∃ i, (∀ j, NumberForm.restart.IsRow v j ↔ j = i) ∧
          m.best? (.ofText ("RST " ++ s)) = some ⟨i, .exact⟩) ∧
      (v ∉ ([0, 8, 16, 24, 32, 40, 48, 56] : List Int64) → m.best? (.ofText ("RST " ++ s)) = none)) ∧
    ((v ∈ ([0, 1, 2] : List Int64) →
        ∃ i, (∀ j, NumberForm.interruptMode.IsRow v j ↔ j = i) ∧
          m.best? (.ofText ("IM " ++ s)) = some ⟨i, .exact⟩) ∧
      (v ∉ ([0, 1, 2] : List Int64) → m.best? (.ofText ("IM " ++ s)) = none)) ∧
    ((v = 0 → m.best? (.ofText ("OUT (C)," ++ s)) = some ⟨outputZero, .exact⟩) ∧
      (v ≠ 0 → m.best? (.ofText ("OUT (C)," ++ s)) = none)) := by
  obtain ⟨read, trimmed, _⟩ := number_trimmed s v number
  have listed := List.all_eq_true.mp NumberForm.z80_listed
  have selected (form : NumberForm) (member : form ∈ [NumberForm.restart, .interruptMode, .output]) :=
    best_numbered form (listed form member) s.trim v read trimmed m builtin standard
  refine ⟨?_, ?_, ?_⟩
  · have line : .ofText ("RST " ++ s) = (⟨"RST", [s.trim]⟩ : Source.Statement) :=
      ofText_number s v number "RST" ⟨by decide, List.all_eq_true.mp (by decide)⟩
    rw [line]
    exact selected .restart (by simp)
  · have line : .ofText ("IM " ++ s) = (⟨"IM", [s.trim]⟩ : Source.Statement) :=
      ofText_number s v number "IM" ⟨by decide, List.all_eq_true.mp (by decide)⟩
    rw [line]
    exact selected .interruptMode (by simp)
  · have operand : Source.Statement.IsOperand "(C)" :=
      ⟨by decide, by decide, by decide, Source.literalless_of_all _ (by decide)⟩
    have line : .ofText ("OUT (C)," ++ s) = (⟨"OUT", ["(C)", s.trim]⟩ : Source.Statement) := by
      rw [← number_trimRight s v number]
      exact Source.Statement.ofText_pair "OUT" s ⟨by decide, List.all_eq_true.mp (by decide)⟩ (number_comma_free s v number)
        "(C)" operand.isField
    obtain ⟨zero, other⟩ := selected .output (by simp)
    rw [line]
    constructor
    · rintro rfl
      obtain ⟨i, row, best⟩ := zero (by decide)
      rwa [(row outputZero).mp outputZero_isRow]
    · intro different
      exact other (by simpa [NumberForm.output] using different)

def restart24 : Instruction := .ofPattern (Catalog.steady "S" "RST 18H" 11 12 4 "DF" 1)

theorem restart24_isRow : NumberForm.restart.IsRow 24 restart24 :=
  NumberForm.isRow_ofPattern _ _ _ (by decide +kernel) (by decide) (by decide) (by decide)

/-- A binary number for a row in hexadecimal, which no other mnemonic takes. -/
theorem best_by_value_binary :
    Numeral.read? "\t%0011000 " = some 24 ∧
    ({ catalog := .z80, sets := ["N", "S"] } : Matcher).best? (.ofText "RST \t%0011000 ") =
      some ⟨restart24, .exact⟩ ∧
    ({ catalog := .z80, sets := ["N", "S"] } : Matcher).best? (.ofText "IM \t%0011000 ") = none ∧
    ({ catalog := .z80, sets := ["N", "S"] } : Matcher).best? (.ofText "OUT (C),\t%0011000 ") = none := by
  have number : Numeral.read? "\t%0011000 " = some 24 := by decide
  obtain ⟨⟨restarts, _⟩, ⟨_, modes⟩, ⟨_, outputs⟩⟩ :=
    best_by_value { catalog := .z80, sets := ["N", "S"] } rfl (by decide) "\t%0011000 " 24 number
  obtain ⟨i, row, best⟩ := restarts (by decide)
  obtain rfl := (row restart24).mp restart24_isRow
  exact ⟨number, best, modes (by decide), outputs (by decide)⟩

end Matcher

end Z80Cost
