import Z80Cost.Report.Entry

/-!
Metering of several sources. Each task leaves one entry, whatever happens to the others.
-/

namespace Z80Cost

/-- A named source, or why it could not be opened. Sources are taken to be independent: opening or reading one does
not change another, and each is read once, so that a value stands for it. -/
structure Task where
  name : Text
  source : Except Text Stream

/-- How a task went: its entry, or why there is none. -/
structure Outcome where
  name : Text
  result : Except Text Entry

namespace Outcome

def entry (outcome : Outcome) : Entry :=
  match outcome.result with
  | .ok e => e
  | .error cause => { name := outcome.name, error := cause }

def succeeded (outcome : Outcome) : Bool := outcome.result.isOk

def logLine (outcome : Outcome) : Text :=
  match outcome.result with
  | .ok e =>
      "  metered: " ++ outcome.name ++ " (" ++ Text.ofInt64 e.code ++ " LoC, " ++
        Text.ofInt64 e.size ++ " bytes)\n"
  | .error cause => "  FAILED: " ++ outcome.name ++ ": " ++ cause ++ "\n"

end Outcome

def Task.run (m : Meter) (task : Task) : Outcome where
  name := task.name
  result :=
    match task.source with
    | .error cause => .error cause
    | .ok stream =>
        match m.read stream with
        | .error fault => .error (task.name ++ ": " ++ fault.message)
        | .ok report => .ok (.ofReport task.name report)

structure Batch where
  /-- By name. -/
  entries : List Entry
  metered : Nat
  failed : Nat
  log : Text

def Batch.ofOutcomes (outcomes : List Outcome) : Batch where
  entries := Entry.sorted (outcomes.map Outcome.entry)
  metered := outcomes.countP Outcome.succeeded
  failed := outcomes.countP fun outcome => !outcome.succeeded
  log := outcomes.flatMap Outcome.logLine

def Batch.run (m : Meter) (tasks : List Task) : Batch := .ofOutcomes (tasks.map (·.run m))

end Z80Cost
