import Z80Cost.Report.Batch

/-!
Metering of several sources by several workers. The workers take tasks from one queue and count, log and
enter what comes of them, each in steps of its own; a schedule says which worker takes the next step.
-/

namespace Z80Cost

inductive Worker where
  | idle
  | metering (task : Task)
  /-- The outcome is counted; its line in the log is due. -/
  | counted (outcome : Outcome)
  /-- The line is written; the entry is due. -/
  | logged (outcome : Outcome)

structure Pool where
  queue : List Task
  workers : List Worker
  metered : Nat := 0
  failed : Nat := 0
  log : List Text := []
  /-- In the order in which they came. -/
  entries : List Entry := []

namespace Pool

def start (workers : Nat) (tasks : List Task) : Pool where
  queue := tasks
  workers := List.replicate workers .idle

/-- The next step of worker `i`; `none` if it has nothing to do. -/
def step? (m : Meter) (pool : Pool) (i : Nat) : Option Pool :=
  match pool.workers[i]? with
  | none => none
  | some .idle =>
      match pool.queue with
      | [] => none
      | task :: queue => some { pool with queue, workers := pool.workers.set i (.metering task) }
  | some (.metering task) =>
      let outcome := task.run m
      some { pool with
        workers := pool.workers.set i (.counted outcome)
        metered := if outcome.succeeded then pool.metered + 1 else pool.metered
        failed := if outcome.succeeded then pool.failed else pool.failed + 1 }
  | some (.counted outcome) =>
      some { pool with
        workers := pool.workers.set i (.logged outcome), log := pool.log ++ [outcome.logLine] }
  | some (.logged outcome) =>
      some { pool with
        workers := pool.workers.set i .idle, entries := pool.entries ++ [outcome.entry] }

/-- The steps of a schedule; `none` if it gives a step to a worker that has nothing to do. -/
def run? (m : Meter) (pool : Pool) (schedule : List Nat) : Option Pool := schedule.foldlM (step? m) pool

def isIdle : Worker → Bool
  | .idle => true
  | _ => false

/-- Whether every task is taken and every worker through with its last one. -/
def isDone (pool : Pool) : Bool := pool.queue.isEmpty && pool.workers.all isIdle

def batch (pool : Pool) : Batch where
  entries := Entry.sorted pool.entries
  metered := pool.metered
  failed := pool.failed
  log := pool.log.flatten

end Pool

end Z80Cost
