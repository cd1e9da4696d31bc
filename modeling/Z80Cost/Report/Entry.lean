import Z80Cost.Meter

/-!
Entries of a report: the cost of one named source, or why it could not be metered.
-/

namespace Z80Cost

structure Entry where
  name : Text := []
  lines : Int64 := 0
  /-- Lines of code. -/
  code : Int64 := 0
  size : Int64 := 0
  timing : Timing := {}
  bytes : List Text := []
  /-- Why the source could not be metered; empty if it could. -/
  error : Text := []
  deriving DecidableEq

namespace Entry

def failed (e : Entry) : Bool := !e.error.isEmpty

def ofReport (name : Text) (report : Report) : Entry where
  name := name
  lines := Int64.ofNat report.lines
  code := report.totals.code
  size := report.totals.size
  timing := report.totals.timing
  bytes := report.totals.bytes

/-- By name, byte for byte; entries of one name keep their order. -/
def sorted (entries : List Entry) : List Entry :=
  entries.mergeSort fun a b => !decide (b.name < a.name)

/-- Adds the cost of an entry that was metered; no bytes are listed. -/
def add (total e : Entry) : Entry :=
  if e.failed then total
  else
    { total with
      lines := total.lines + e.lines, code := total.code + e.code, size := total.size + e.size
      timing := total.timing + e.timing }

def sum (name : Text) (entries : List Entry) : Entry := entries.foldl add { name }

end Entry

end Z80Cost
