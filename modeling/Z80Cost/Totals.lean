import Z80Cost.Directive

/-!
The cost of a sequence of statements. Costs add up; a statement that is metered as nothing costs
nothing and is no line of code.
-/

namespace Z80Cost

structure Totals where
  timing : Timing := {}
  /-- In bytes. -/
  size : Int64 := 0
  /-- Lines of code: statements that are metered as something. -/
  code : Int64 := 0
  /-- Opcode and data bytes in order, placeholders included. -/
  bytes : List Text := []
  deriving DecidableEq

namespace Totals

instance : Add Totals :=
  ⟨fun a b => ⟨a.timing + b.timing, a.size + b.size, a.code + b.code, a.bytes ++ b.bytes⟩⟩

def ofMetered (m : Metered) : Totals where
  timing := m.timing
  size := m.size
  bytes := m.bytes.words

def sum (costs : List Totals) : Totals := costs.foldr (· + ·) {}

def ofResults (results : List Metered) : Totals :=
  if results.isEmpty then {} else { sum (results.map ofMetered) with code := 1 }

end Totals

end Z80Cost
