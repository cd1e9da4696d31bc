import Z80Cost.Source.Statement

/-!
Statements that stand for several: a push or pop of a register list, and instructions that the
processor lacks.
-/

namespace Z80Cost.Source.Statement

/-- One statement for each register of a `PUSH` or `POP`. -/
def registerList? (statement : Statement) : Option (List Text) :=
  match statement.operands with
  | first :: second :: others =>
      let registers := first :: second :: others
      if (statement.mnemonic == "PUSH" || statement.mnemonic == "POP")
          && registers.all (!·.isEmpty) then
        some (registers.map fun register => statement.mnemonic ++ " " ++ register)
      else none
  | _ => none

/-- The halves of a register pair, high first. -/
def halves? (pair : Text) : Option (Text × Text) :=
  if pair == "BC" then some ("B", "C")
  else if pair == "DE" then some ("D", "E")
  else if pair == "HL" then some ("H", "L")
  else none

/-- `LD` between register pairs goes half by half; `SUB` from `HL` clears the carry first. -/
def composed? (statement : Statement) : Option (List Text) :=
  match statement.operands with
  | [target, source] =>
      if statement.mnemonic == "LD" then
        match halves? target, halves? source with
        | some (high, low), some (fromHigh, fromLow) =>
            some ["LD " ++ high ++ "," ++ fromHigh, "LD " ++ low ++ "," ++ fromLow]
        | _, _ => none
      else if statement.mnemonic == "SUB" && target == "HL"
          && (source == "BC" || source == "DE" || source == "HL" || source == "SP") then
        some ["OR A", "SBC HL," ++ source]
      else none
  | _ => none

end Z80Cost.Source.Statement
