import Z80Cost.Text.Integer

/-!
Execution time on three machines, each as the least and the greatest cost: they differ where a
condition decides. Sums are of 64-bit words and wrap around.
-/

namespace Z80Cost

structure Cycles where
  min : Int64 := 0
  max : Int64 := 0
  deriving DecidableEq

namespace Cycles

instance : Add Cycles := ⟨fun a b => ⟨a.min + b.min, a.max + b.max⟩⟩

def scale (cycles : Cycles) (n : Int64) : Cycles := ⟨cycles.min * n, cycles.max * n⟩

/-- One count, or the greater and the lesser. -/
def text (cycles : Cycles) : Text :=
  if cycles.min = cycles.max then Text.ofInt64 cycles.max
  else Text.ofInt64 cycles.max ++ "/" ++ Text.ofInt64 cycles.min

end Cycles

structure Timing where
  /-- T-states. -/
  z80 : Cycles := {}
  /-- T-states with the wait state after each opcode fetch. -/
  msx : Cycles := {}
  /-- Multiples of the time of a `NOP`. -/
  cpc : Cycles := {}
  deriving DecidableEq

instance : Add Timing := ⟨fun a b => ⟨a.z80 + b.z80, a.msx + b.msx, a.cpc + b.cpc⟩⟩

end Z80Cost
