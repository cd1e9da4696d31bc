import Z80Cost.Numeral
import Z80Cost.Score

/-!
Operands of an instruction: what the table writes for them, and how well the operand of a statement
fits. Text alone cannot tell a number from a label or an expression, so an immediate takes anything;
a register in its place is a doubt.
-/

namespace Z80Cost

inductive IndexRegister where
  | ix
  | iy
  deriving DecidableEq

namespace IndexRegister

def name : IndexRegister → Text
  | ix => "IX"
  | iy => "IY"

def highs : IndexRegister → List Text
  | ix => ["IXH", "HX", "XH"]
  | iy => ["IYH", "HY", "YH"]

def lows : IndexRegister → List Text
  | ix => ["IXL", "LX", "XL"]
  | iy => ["IYL", "LY", "YL"]

def isHalf (index : IndexRegister) (s : Text) : Bool :=
  index.highs.contains s || index.lows.contains s

/-- Whether `s` is the register alone or with an offset: `IX`, `IX+5`, `IX-OFS`. -/
def isBaseOf (index : IndexRegister) (s : Text) : Bool :=
  match Text.after? index.name s with
  | some rest => !rest.head?.any Text.isWord
  | none => false

/-- Whether the register alone is in parentheses or brackets at the end, an offset before it or
not: `(IX)`, `5 (IX)`, `[IY]`. -/
def endsIn (index : IndexRegister) (s : Text) : Bool :=
  Text.endsWith ("(" ++ index.name ++ ")") s || Text.endsWith ("[" ++ index.name ++ "]") s

end IndexRegister

namespace Operand

inductive Shape where
  /-- A number, an address, an offset or a bit: anything that is not a register. -/
  | immediate
  /-- A register, a pair or a condition, letter by letter. -/
  | verbatim (spelling : Text)
  /-- `B`, `C`, `D`, `E`, `H` or `L` -/
  | register
  | indexed (index : IndexRegister)
  | high (index : IndexRegister)
  | low (index : IndexRegister)
  | half (index : IndexRegister)
  /-- `B`, `C`, `D`, `E` or a half of an index register. -/
  | registerOrHalf (index : IndexRegister)
  | literal (spelling : Text) (value : Int64)
  deriving DecidableEq

def verbatims : List Text :=
  ["A", "B", "C", "D", "E", "H", "L", "F", "I", "R",
   "AF", "AF'", "BC", "DE", "HL", "SP", "IX", "IY",
   "IXH", "IXL", "IYH", "IYL",
   "NZ", "Z", "NC", "PO", "PE", "P", "M"]

def registers : List Text :=
  ["A", "B", "C", "D", "E", "H", "L", "F", "I", "R",
   "AF", "AF'", "BC", "DE", "HL", "SP", "IX", "IY",
   "IXH", "HX", "XH", "IXL", "LX", "XL",
   "IYH", "HY", "YH", "IYL", "LY", "YL"]

def singles : List Text := ["B", "C", "D", "E", "H", "L"]

/-- The registers that stay themselves beside a half of an index register. -/
def singlesBesideHalf : List Text := ["B", "C", "D", "E"]

def Shape.ofText (s : Text) : Shape :=
  if s == "r" then .register
  else if s == "p" then .registerOrHalf .ix
  else if s == "q" then .registerOrHalf .iy
  else if s == "IX+o" then .indexed .ix
  else if s == "IY+o" then .indexed .iy
  else if s == "IXh" then .high .ix
  else if s == "IYh" then .high .iy
  else if s == "IXl" then .low .ix
  else if s == "IYl" then .low .iy
  else if s == "IXp" then .half .ix
  else if s == "IYp" then .half .iy
  else if verbatims.contains s then .verbatim s
  else match Numeral.read? s with
    | some value => .literal s value
    | none => .immediate

/-! Indirection -/

/-- Whether the delimiter in hand is closed before the end; `depth` are open. -/
def closesEarly (opening closing : UInt8) : (depth : Nat) → Text → Bool
  | _, [] => false
  | depth, b :: s =>
      if b = opening then closesEarly opening closing (depth + 1) s
      else if b = closing then
        (depth == 1 && !s.isEmpty) || closesEarly opening closing (depth - 1) s
      else closesEarly opening closing depth s

/-- What is inside the delimiters that enclose all of `s`, if they are `opening` and `closing`. -/
def enclosed? (opening closing : UInt8) (s : Text) : Option Text :=
  match s with
  | first :: rest =>
      if first = opening ∧ rest.getLast? = some closing
          ∧ closesEarly opening closing 0 s = false then
        some (Text.trim rest.dropLast)
      else none
  | [] => none

def inner? (s : Text) : Option Text :=
  match enclosed? '(' ')' s with
  | some t => some t
  | none => enclosed? '[' ']' s

/-! Scoring -/

def isRegister (s : Text) : Bool :=
  registers.contains s || IndexRegister.isBaseOf .ix s || IndexRegister.isBaseOf .iy s

/-- An immediate takes anything, with or without indirection; a register leaves a doubt. -/
def immediateScore (s : Text) : Score :=
  if isRegister ((inner? s).getD s) then .doubtful else .exact

def Shape.score : Shape → Text → Score
  | .immediate, s => immediateScore s
  | .verbatim spelling, s => .ofBool (s == spelling)
  | .register, s => .ofBool (singles.contains s)
  | .indexed index, s => .ofBool (index.isBaseOf s)
  | .high index, s => .ofBool (index.highs.contains s)
  | .low index, s => .ofBool (index.lows.contains s)
  | .half index, s => .ofBool (index.isHalf s)
  | .registerOrHalf index, s => .ofBool (singlesBesideHalf.contains s || index.isHalf s)
  | .literal spelling value, s =>
      if s == spelling.upper then .exact
      else match Numeral.read? s with
        | some v => .ofBool (v == value)
        | none => immediateScore s

end Operand

inductive Operand where
  | direct (shape : Operand.Shape)
  | indirect (shape : Operand.Shape)
  deriving DecidableEq

namespace Operand

def parenthesized? : Text → Option Text
  | b :: s =>
      if b = '(' ∧ 1 < s.length then Text.before? ')' s else none
  | [] => none

def ofText (s : Text) : Operand :=
  match parenthesized? s with
  | some inner => .indirect (.ofText inner)
  | none => .direct (.ofText s)

/-- Whether `s` names the memory at an index register, the offset in front. -/
def isOffsetFirst : Shape → Text → Bool
  | .indexed index, s => index.endsIn s
  | _, _ => false

def score : Operand → Text → Score
  | direct shape, s => shape.score s
  | indirect shape, s =>
      if isOffsetFirst shape s then .exact
      else match inner? s with
        | some inside => shape.score inside
        | none => .rejected

end Operand

end Z80Cost
