import Z80Cost.Expression

/-!
The grammar of constant expressions and the value of each of its sentences. Operators stand on
levels: those of level 1 bind least, a prefix operator binds on level 7, and level 8 needs no
operator. Values are defined on integers and then cut to 64 bits.
-/

namespace Z80Cost.Expression

/-- The word that an integer leaves in 64 bits. -/
def wrapped (v : Int) : Int64 := Int64.ofInt v

def Unary.value : Unary → Int64 → Int64
  | .negate, a => wrapped (-a.toInt)
  | .keep, a => a
  | .complement, a => wrapped (-a.toInt - 1)

/-- The low six bits of a shift count. -/
def shiftCount (b : Int64) : Nat := (b.toBitVec &&& 63).toNat

/-- Division and remainder go toward zero; a right shift goes down, since it keeps the sign. -/
def Binary.value? : Binary → Int64 → Int64 → Option Int64
  | .multiply, a, b => some (wrapped (a.toInt * b.toInt))
  | .divide, a, b => if b.toInt = 0 then none else some (wrapped (a.toInt.tdiv b.toInt))
  | .remainder, a, b => if b.toInt = 0 then none else some (wrapped (a.toInt.tmod b.toInt))
  | .add, a, b => some (wrapped (a.toInt + b.toInt))
  | .subtract, a, b => some (wrapped (a.toInt - b.toInt))
  | .shiftLeft, a, b => some (wrapped (a.toInt * Int.pow 2 (shiftCount b)))
  | .shiftRight, a, b => some (wrapped (a.toInt / Int.pow 2 (shiftCount b)))
  | .and, a, b => some (.ofBitVec (a.toBitVec &&& b.toBitVec))
  | .xor, a, b => some (.ofBitVec (a.toBitVec ^^^ b.toBitVec))
  | .or, a, b => some (.ofBitVec (a.toBitVec ||| b.toBitVec))

theorem unary_value (op : Unary) (a : Int64) : op.value a = op.apply a := by
  cases op with
  | negate => simp [Unary.value, Unary.apply, wrapped]
  | keep => rfl
  | complement =>
      change wrapped (-a.toInt - 1) = ~~~a
      rw [wrapped, Int64.ofInt_eq_iff_bmod_eq_toInt, Int64.toInt_not]

theorem smod_shift_count (b : Int64) : (b.toBitVec.smod 64).toNat = shiftCount b := by
  have masked : shiftCount b = b.toBitVec.toNat % 64 := by
    simpa [shiftCount] using Nat.and_two_pow_sub_one_eq_mod b.toBitVec.toNat 6
  have remainder : (b.toBitVec.smod 64).toInt = b.toBitVec.toInt.fmod 64 := BitVec.toInt_smod
  rw [Int.fmod_eq_emod_of_nonneg _ (by decide), BitVec.toInt_eq_toNat_bmod,
    BitVec.toInt_eq_toNat_bmod] at remainder
  have word := b.toBitVec.isLt
  have rest := (b.toBitVec.smod 64).isLt
  simp only [Int.bmod] at remainder
  omega

theorem pow_two_cast (n : Nat) : Int.pow 2 n = (Nat.pow 2 n : Int) :=
  (Int.natCast_pow 2 n).symm

theorem wrapped_shiftLeft (a b : Int64) : wrapped (a.toInt * Int.pow 2 (shiftCount b)) = a <<< b := by
  have count : a.toBitVec <<< b.toBitVec.smod 64 = a.toBitVec <<< shiftCount b := by
    rw [← smod_shift_count]
    rfl
  have power : BitVec.ofInt 64 (Int.pow 2 (shiftCount b)) = BitVec.twoPow 64 (shiftCount b) := by
    rw [pow_two_cast, BitVec.ofInt_natCast]
    apply BitVec.eq_of_toNat_eq
    simp
  apply Int64.toBitVec_inj.mp
  rw [Int64.toBitVec_shiftLeft, count, BitVec.shiftLeft_eq_mul_twoPow, ← power, wrapped,
    Int64.toBitVec_ofInt, BitVec.ofInt_mul]
  simp

theorem wrapped_shiftRight (a b : Int64) : wrapped (a.toInt / Int.pow 2 (shiftCount b)) = a >>> b := by
  have count : a.toBitVec.sshiftRight' (b.toBitVec.smod 64) =
      a.toBitVec.sshiftRight (shiftCount b) := by
    rw [← smod_shift_count]
    rfl
  have shifted : (a >>> b).toInt = a.toInt / Int.pow 2 (shiftCount b) := by
    rw [← Int64.toInt_toBitVec, Int64.toBitVec_shiftRight, count, BitVec.toInt_sshiftRight,
      Int.shiftRight_eq_div_pow, pow_two_cast]
    rfl
  rw [← shifted, wrapped, Int64.ofInt_toInt]

theorem binary_value (op : Binary) (a b : Int64) : op.value? a b = op.apply? a b := by
  have zero : b.toInt = 0 ↔ b = 0 := by
    rw [← Int64.toInt_inj]
    rfl
  cases op with
  | multiply => simp [Binary.value?, Binary.apply?, wrapped]
  | divide =>
      have quotient : wrapped (a.toInt.tdiv b.toInt) = a / b := by
        rw [wrapped, Int64.ofInt_eq_iff_bmod_eq_toInt, Int64.toInt_div]
      simp only [Binary.value?, Binary.apply?, zero, quotient]
  | remainder =>
      have rest : wrapped (a.toInt.tmod b.toInt) = a % b := by
        rw [wrapped, ← Int64.toInt_mod, Int64.ofInt_toInt]
      simp only [Binary.value?, Binary.apply?, zero, rest]
  | add => simp [Binary.value?, Binary.apply?, wrapped]
  | subtract => simp [Binary.value?, Binary.apply?, wrapped]
  | shiftLeft => exact congrArg some (wrapped_shiftLeft a b)
  | shiftRight => exact congrArg some (wrapped_shiftRight a b)
  | and => rfl
  | xor => rfl
  | or => rfl

def Unary.symbol : Unary → Text
  | .negate => ['-']
  | .keep => ['+']
  | .complement => ['~']

def Binary.symbol : Binary → Text
  | .multiply => ['*']
  | .divide => ['/']
  | .remainder => ['%']
  | .add => ['+']
  | .subtract => ['-']
  | .shiftLeft => ['<', '<']
  | .shiftRight => ['>', '>']
  | .and => ['&']
  | .xor => ['^']
  | .or => ['|']

def operatorsOf : Nat → List Binary
  | 6 => [.multiply, .divide, .remainder]
  | 5 => [.add, .subtract]
  | 4 => [.shiftLeft, .shiftRight]
  | 3 => [.and]
  | 2 => [.xor]
  | 1 => [.or]
  | _ => []

/-- Spaces and tabs between tokens. -/
def IsGap (s : Text) : Prop := ∀ b ∈ s, b = ' ' ∨ b = '\t'

/-- Letters, digits, the underscore and the point. -/
def InRun (b : UInt8) : Prop :=
  ('0' ≤ b ∧ b ≤ '9') ∨ ('A' ≤ b ∧ b ≤ 'Z') ∨ ('a' ≤ b ∧ b ≤ 'z') ∨ b = '_' ∨ b = '.'

def radixMarks : Text := ['#', '$', '&', '%', '@']

/-- What a number is looked for in: a radix mark or none, then a run. -/
def IsRun (w : Text) : Prop :=
  (∀ b ∈ w, InRun b) ∨ ∃ mark ∈ radixMarks, ∃ tail, w = mark :: tail ∧ ∀ b ∈ tail, InRun b

/-- The sentences of each level with their values. Nothing that may follow a number inside an
expression could be part of its run, so the run is as long as it can be. -/
inductive Derives : Nat → Text → Int64 → Prop
  | number {w : Text} {v : Int64} (run : IsRun w) (reads : Numeral.read? w = some v) :
      Derives 8 w v
  | character {quote b : UInt8} (delimiter : quote = '\'' ∨ quote = '"') (other : b ≠ quote) :
      Derives 8 [quote, b, quote] (wrapped b.toNat)
  | quote {quote : UInt8} (delimiter : quote = '\'' ∨ quote = '"') :
      Derives 8 [quote, quote, quote, quote] (wrapped quote.toNat)
  | group {l w r : Text} {v : Int64} (left : IsGap l) (inside : Derives 1 w v) (right : IsGap r) :
      Derives 8 (('(' : UInt8) :: l ++ w ++ r ++ [(')' : UInt8)]) v
  | unary {op : Unary} {l w : Text} {v : Int64} (gap : IsGap l) (operand : Derives 7 w v) :
      Derives 7 (op.symbol ++ l ++ w) (op.value v)
  | binary {n : Nat} {op : Binary} {x l r y : Text} {a b v : Int64} (level : op ∈ operatorsOf n)
      (left : Derives n x a) (before : IsGap l) (after : IsGap r) (right : Derives (n + 1) y b)
      (value : op.value? a b = some v) : Derives n (x ++ l ++ op.symbol ++ r ++ y) v
  | tighter {n : Nat} {w : Text} {v : Int64} (inner : Derives (n + 1) w v) : Derives n w v

theorem mem_operatorsOf (op : Binary) (n : Nat) : op ∈ operatorsOf n ↔ op.rank = n := by
  constructor
  · intro member
    unfold operatorsOf at member
    split at member <;> cases op <;> simp at member <;> rfl
  · rintro rfl
    cases op <;> decide

end Z80Cost.Expression
