import Z80Cost.Source.Quotation
import Z80Cost.Text.Blank

/-!
A statement is a mnemonic and its operands. In text, the first space ends the mnemonic and commas
outside literals separate the operands; a comma at the end leaves an empty operand.
-/

namespace Z80Cost.Source

structure Statement where
  mnemonic : Text
  operands : List Text := []
  deriving DecidableEq

namespace Statement

def operandsOf (s : Text) : List Text :=
  if s.isEmpty then [] else (splitOutside ',' s).map Text.trim

def ofText (s : Text) : Statement :=
  let line := s.trim
  match line.dropWhile (· != (' ' : UInt8)) with
  | [] => { mnemonic := line }
  | _ :: rest =>
      { mnemonic := line.takeWhile (· != (' ' : UInt8)), operands := operandsOf (Text.trim rest) }

def text (statement : Statement) : Text :=
  match statement.operands with
  | [] => statement.mnemonic
  | operands => statement.mnemonic ++ " " ++ Text.join "," operands

end Statement

end Z80Cost.Source
