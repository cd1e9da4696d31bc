import Z80Cost.Text.Basic

/-!
Integers of 64 bits in text. Reading goes from the left and stops at the first fault: a byte that
is no digit, or a value that no longer fits.
-/

namespace Z80Cost

namespace Text

def ofNat (n : Nat) : Text := (Nat.toDigits 10 n).map Char.toUInt8

/-- A sign if negative, then decimal digits. -/
def ofInt (v : Int) : Text :=
  if v < 0 then '-' :: ofNat v.natAbs else ofNat v.natAbs

def ofInt64 (v : Int64) : Text := ofInt v.toInt

/-- The value of a digit or letter in either case; `none` for another byte. -/
def digit? (b : UInt8) : Option Nat :=
  if isDigit b then some (b.toNat - 0x30)
  else if isUpper b then some (b.toNat - 0x37)
  else if isLower b then some (b.toNat - 0x57)
  else none

end Text

namespace Integer

inductive Fault where
  | malformed
  | outOfRange
  deriving DecidableEq

def Fault.message : Fault → Text
  | .malformed => "invalid syntax"
  | .outOfRange => "value out of range"

/-- Digits of `radix` continue the value `n`; no value reaches 2^64. -/
def magnitudeFrom (radix : Nat) : (n : Nat) → Text → Except Fault Nat
  | n, [] => .ok n
  | n, b :: s =>
      match Text.digit? b with
      | none => .error .malformed
      | some d =>
          if radix ≤ d then .error .malformed
          else if 0x10000000000000000 ≤ n * radix + d then .error .outOfRange
          else magnitudeFrom radix (n * radix + d) s

def magnitude (radix : Nat) (s : Text) : Except Fault Nat :=
  if s.isEmpty then .error .malformed else magnitudeFrom radix 0 s

/-- A magnitude with its sign, if it fits 64 bits in two's complement. -/
def signed (negative : Bool) (n : Nat) : Except Fault Int64 :=
  if negative then
    if n ≤ 0x8000000000000000 then .ok (Int64.ofInt (-n)) else .error .outOfRange
  else
    if n < 0x8000000000000000 then .ok (Int64.ofNat n) else .error .outOfRange

/-- Reads an optional sign, then the rest by `body`. -/
def readSigned (body : Text → Except Fault Nat) : Text → Except Fault Int64
  | [] => .error .malformed
  | b :: s =>
      if b = '-' then body s >>= signed true
      else if b = '+' then body s >>= signed false
      else body (b :: s) >>= signed false

/-- An optional sign and decimal digits. -/
def read (s : Text) : Except Fault Int64 := readSigned (magnitude 10) s

/-! Numbers whose first digits tell their radix, with underscores between digits -/

/-- The radix that a leading `0b`, `0o`, `0x` or `0` announces, and the digits after it. A letter
needs a digit after it. -/
def radix (s : Text) : Nat × Text :=
  match s with
  | 0x30 :: letter :: d :: digits =>
      match Char.ofNat (Text.upperByte letter).toNat with
      | 'B' => (2, d :: digits)
      | 'O' => (8, d :: digits)
      | 'X' => (16, d :: digits)
      | _ => (8, letter :: d :: digits)
  | 0x30 :: digits => (8, digits)
  | digits => (10, digits)

/-- Whether every underscore stands between two digits, the last byte before the text being one
if `afterDigit`. -/
def separated : (afterDigit : Bool) → Text → Bool
  | afterDigit, [] => afterDigit
  | afterDigit, b :: s =>
      if b = '_' then afterDigit && separated false s else separated true s

/-- A radix mark counts as a digit before the first underscore. -/
def magnitudeMarked (s : Text) : Except Fault Nat :=
  if s.isEmpty then .error .malformed
  else
    let (base, digits) := radix s
    match magnitudeFrom base 0 (digits.filter (· != ('_' : UInt8))) with
    | .error fault => .error fault
    | .ok n =>
        if digits.contains ('_' : UInt8) && !separated (digits.length < s.length) digits then
          .error .malformed
        else .ok n

/-- An optional sign, an optional radix mark and digits. -/
def readMarked (s : Text) : Except Fault Int64 := readSigned magnitudeMarked s

end Integer

end Z80Cost
