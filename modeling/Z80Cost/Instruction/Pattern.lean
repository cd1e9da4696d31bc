import Z80Cost.Instruction.Timing
import Z80Cost.Operand
import Z80Cost.Source.Statement
import Z80Cost.Text.Quoted

/-!
Patterns are the rows of the instruction table; instructions are what they stand for. A pattern
whose one-byte opcode ends in `+r` stands for one instruction a register.
-/

namespace Z80Cost

structure Pattern where
  set : Text
  /-- Mnemonic and operands, as in `ADD A,(IX+o)`. -/
  text : Text
  timing : Timing
  /-- Hexadecimal bytes with placeholders, as in `DD 86 o`. -/
  opcode : Text
  /-- In bytes. -/
  size : Int64
  deriving DecidableEq

namespace Pattern

/-- Mnemonic and operands of a table text: the first space or tab ends the mnemonic, and every
comma separates operands. -/
def form (s : Text) : Source.Statement :=
  let line := s.trim
  match line.dropWhile (fun b => b != (' ' : UInt8) && b != ('\t' : UInt8)) with
  | [] => { mnemonic := line }
  | _ :: rest =>
      { mnemonic := line.takeWhile fun b => b != (' ' : UInt8) && b != ('\t' : UInt8)
        operands := (rest.splitOn (',' : UInt8)).map Text.trim }

end Pattern

structure Instruction where
  pattern : Pattern
  mnemonic : Text
  operands : List Text
  shapes : List Operand
  deriving DecidableEq

namespace Instruction

def ofPattern (pattern : Pattern) : Instruction :=
  let form := Pattern.form pattern.text
  { pattern, mnemonic := form.mnemonic, operands := form.operands
    shapes := form.operands.map Operand.ofText }

def set (i : Instruction) : Text := i.pattern.set
def text (i : Instruction) : Text := i.pattern.text
def timing (i : Instruction) : Timing := i.pattern.timing
def opcode (i : Instruction) : Text := i.pattern.opcode
def size (i : Instruction) : Int64 := i.pattern.size

end Instruction

namespace Pattern

/-- The registers that `r` stands for and their codes in an opcode. -/
def registerCodes : List (Text × UInt8) :=
  [("A", 7), ("B", 0), ("C", 1), ("D", 2), ("E", 3), ("H", 4), ("L", 5)]

def isHexDigit (b : UInt8) : Bool := Text.isDigit b || (0x41 ≤ b && b ≤ 0x46)

/-- The byte of two upper-case hexadecimal digits. -/
def hexByte? (high low : UInt8) : Option UInt8 :=
  if isHexDigit high && isHexDigit low then
    some (((Text.digit? high).getD 0 * 16 + (Text.digit? low).getD 0).toUInt8)
  else none

/-- Two upper-case hexadecimal digits. -/
def hexText (b : UInt8) : Text := Text.hexDigits Text.upperDigit 2 b.toNat

/-- The byte that a register code is added to, in an opcode such as `80+r`. -/
def registerBase? : Text → Option UInt8
  | [high, low, plus, r] => if plus = '+' ∧ r = 'r' then hexByte? high low else none
  | _ => none

/-- An operand of the pattern with `r` read as `register`. -/
def chosen (register operand : Text) : Text := if operand == "r" then register else operand

def forRegister (pattern : Pattern) (base : UInt8) (register : Text) (code : UInt8) : Pattern :=
  let form := Pattern.form pattern.text
  { pattern with
    text := { form with operands := form.operands.map (chosen register) }.text
    opcode := hexText (base + code) }

def expand (pattern : Pattern) : List Instruction :=
  match registerBase? pattern.opcode with
  | some base =>
      if pattern.size = 1 then
        registerCodes.map fun (register, code) =>
          .ofPattern (pattern.forRegister base register code)
      else [.ofPattern pattern]
  | none => [.ofPattern pattern]

end Pattern

end Z80Cost
