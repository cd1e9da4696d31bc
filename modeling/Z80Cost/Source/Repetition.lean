import Z80Cost.Expression
import Z80Cost.Source.Statement

/-!
The directives around a block that is repeated.
-/

namespace Z80Cost.Source

/-- The names that open and close a block, each also written with a dot in front. -/
structure Repetition where
  openers : List Text
  closers : List Text
  deriving DecidableEq

namespace Repetition

def rept : Repetition := ⟨["REPT"], ["ENDM"]⟩

def dup : Repetition := ⟨["DUP", "REPT"], ["EDUP", "ENDR"]⟩

def names (directive mnemonic : Text) : Bool :=
  mnemonic == directive || mnemonic == "." ++ directive

/-- How often a block is repeated: once unless its count has a positive value. -/
def count : List Text → Int64
  | [] => 1
  | operand :: _ =>
      match Expression.eval? operand with
      | some n => if 0 < n then n else 1
      | none => 1

/-- The count of the block that a statement opens: a count and a variable may follow the name. -/
def opens? (repetition : Repetition) (s : Text) : Option Int64 :=
  let statement := Statement.ofText s
  if repetition.openers.any (names · statement.mnemonic) && statement.operands.length ≤ 2 then
    some (count statement.operands)
  else none

def closes (repetition : Repetition) (s : Text) : Bool :=
  let statement := Statement.ofText s
  repetition.closers.any (names · statement.mnemonic) && statement.operands.isEmpty

end Repetition

end Z80Cost.Source
