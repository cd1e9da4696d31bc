import Z80Cost.Text.Blank
import Z80Cost.Text.Integer

/-!
Numbers as assemblers write them, in eight forms. A number in several forms is read in the first:
only `0` before octal digits is in two, octal and decimal.
-/

namespace Z80Cost

inductive Numeral where
  /-- `0x1F` -/
  | hexPrefixed
  /-- `#1F`, `$1F` or `&1F` -/
  | hexMarked
  /-- `1FH`, with a decimal digit first -/
  | hexSuffixed
  /-- `017` or `@17` -/
  | octalMarked
  /-- `17O` -/
  | octalSuffixed
  /-- `%101` -/
  | binaryMarked
  /-- `101B` -/
  | binarySuffixed
  /-- `10` -/
  | decimal
  deriving DecidableEq

namespace Numeral

/-- The forms, those that are tried first in front. -/
def all : List Numeral :=
  [hexPrefixed, hexMarked, hexSuffixed, octalMarked, octalSuffixed, binaryMarked, binarySuffixed,
   decimal]

def radix : Numeral → Nat
  | hexPrefixed | hexMarked | hexSuffixed => 16
  | octalMarked | octalSuffixed => 8
  | binaryMarked | binarySuffixed => 2
  | decimal => 10

def isDigit (form : Numeral) (b : UInt8) : Bool :=
  match form.radix with
  | 2 => b == '0' || b == '1'
  | 8 => 0x30 ≤ b && b ≤ 0x37
  | 10 => Text.isDigit b
  | _ => Text.isDigit b || (0x41 ≤ b && b ≤ 0x46)

/-- What is left of an upper-case text without the form's marks, when it has them. -/
def unmarked? (form : Numeral) (s : Text) : Option Text :=
  match form with
  | hexPrefixed => Text.after? "0X" s
  | hexMarked =>
      match s with
      | b :: digits => if b = '#' ∨ b = '$' ∨ b = '&' then some digits else none
      | [] => none
  | hexSuffixed =>
      if s.head?.any Text.isDigit then Text.before? 'H' s else none
  | octalMarked =>
      match s with
      | b :: digits => if b = '0' ∨ b = '@' then some digits else none
      | [] => none
  | octalSuffixed => Text.before? 'O' s
  | binaryMarked => Text.after? "%" s
  | binarySuffixed => Text.before? 'B' s
  | decimal => some s

def digits? (form : Numeral) (s : Text) : Option Text :=
  (form.unmarked? s).filter fun digits => !digits.isEmpty && digits.all form.isDigit

/-- The value of digits below 2^63. -/
def value? (form : Numeral) (digits : Text) : Option Int64 :=
  match Integer.magnitude form.radix digits with
  | .ok n => if n < 0x8000000000000000 then some (Int64.ofNat n) else none
  | .error _ => none

/-- Reads an upper-case text in the first of `forms` that it has. -/
def readIn? (forms : List Numeral) (s : Text) : Option Int64 :=
  match forms with
  | [] => none
  | form :: others =>
      match form.digits? s with
      | some digits => form.value? digits
      | none => readIn? others s

/-- The number written as `s`, in either case and with white space around it. -/
def read? (s : Text) : Option Int64 := readIn? all s.trim.upper

end Numeral

end Z80Cost
