import Z80Cost.Instruction.Z80
import Z80Cost.Proofs.Report.Entry
import Z80Cost.Report.Pool

/-!
Schedules make no difference. Every task is counted, logged and entered once, whatever the order: at each of
the three stages, what is through and what is still due together are the tasks. A pool with a worker is
never stuck, and each step brings it nearer to its end.
-/

namespace Z80Cost

/-- The entry that a task leaves when it is metered alone. -/
def Task.entry (m : Meter) (task : Task) : Entry :=
  match task.source with
  | .error cause => { name := task.name, error := cause }
  | .ok stream =>
      match m.read stream with
      | .error fault => { name := task.name, error := task.name ++ ": " ++ fault.message }
      | .ok report => .ofReport task.name report

theorem Task.entry_run (m : Meter) (task : Task) : (task.run m).entry = task.entry m := by
  obtain ⟨name, source⟩ := task
  cases source with
  | error cause => rfl
  | ok stream =>
      simp only [run, entry, Outcome.entry]
      cases m.read stream with
      | error fault => rfl
      | ok report => rfl

theorem Task.entry_name (m : Meter) (task : Task) : (task.entry m).name = task.name := by
  unfold entry
  split
  · rfl
  · split
    · rfl
    · rfl

/-- A task that fails says why, if the opening of its source does. -/
theorem Task.succeeded_run (m : Meter) (task : Task) (told : ∀ cause, task.source = .error cause → cause ≠ []) :
    (!(task.run m).succeeded) = (task.entry m).failed := by
  obtain ⟨name, source⟩ := task
  cases source with
  | error cause =>
      have nonempty : cause.isEmpty = false := List.isEmpty_eq_false_iff.mpr (told cause rfl)
      simp only [run, entry, Outcome.succeeded, Entry.failed, nonempty]
      rfl
  | ok stream =>
      simp only [run, entry, Outcome.succeeded, Entry.failed]
      cases m.read stream with
      | ok report => rfl
      | error fault =>
          have nonempty : (name ++ Text.ofString ": " ++ fault.message).isEmpty = false := by
            have colon : Text.ofString ": " ≠ [] := by decide
            simp [colon]
          simp only [nonempty]
          rfl

namespace Pool

variable {m : Meter}

/-- What a step does, wherever its worker stands among the others. -/
inductive Step (m : Meter) : Pool → Pool → Prop where
  | take (task : Task) (queue : List Task) (before after : List Worker) (metered failed : Nat) (log : List Text)
      (entries : List Entry) :
      Step m ⟨task :: queue, before ++ .idle :: after, metered, failed, log, entries⟩
        ⟨queue, before ++ .metering task :: after, metered, failed, log, entries⟩
  | count (queue : List Task) (before after : List Worker) (task : Task) (metered failed : Nat) (log : List Text)
      (entries : List Entry) :
      Step m ⟨queue, before ++ .metering task :: after, metered, failed, log, entries⟩
        ⟨queue, before ++ .counted (task.run m) :: after, if (task.run m).succeeded then metered + 1 else metered,
          if (task.run m).succeeded then failed else failed + 1, log, entries⟩
  | log (queue : List Task) (before after : List Worker) (outcome : Outcome) (metered failed : Nat)
      (log : List Text) (entries : List Entry) :
      Step m ⟨queue, before ++ .counted outcome :: after, metered, failed, log, entries⟩
        ⟨queue, before ++ .logged outcome :: after, metered, failed, log ++ [outcome.logLine], entries⟩
  | enter (queue : List Task) (before after : List Worker) (outcome : Outcome) (metered failed : Nat)
      (log : List Text) (entries : List Entry) :
      Step m ⟨queue, before ++ .logged outcome :: after, metered, failed, log, entries⟩
        ⟨queue, before ++ .idle :: after, metered, failed, log, entries ++ [outcome.entry]⟩

theorem workers_split (workers : List Worker) (i : Nat) (worker : Worker) (here : workers[i]? = some worker) :
    ∃ before after, workers = before ++ worker :: after ∧
      ∀ other, workers.set i other = before ++ other :: after := by
  obtain ⟨inside, rfl⟩ := List.getElem?_eq_some_iff.mp here
  refine ⟨workers.take i, workers.drop (i + 1), ?_, ?_⟩
  · rw [List.getElem_cons_drop, List.take_append_drop]
  · intro other
    rw [List.set_eq_take_append_cons_drop, if_pos inside]

theorem step_of_step? (pool next : Pool) (i : Nat) (stepped : pool.step? m i = some next) : Step m pool next := by
  obtain ⟨queue, workers, metered, failed, log, entries⟩ := pool
  simp only [step?] at stepped
  cases here : workers[i]? with
  | none => simp [here] at stepped
  | some worker =>
      obtain ⟨before, after, split, replaced⟩ := workers_split workers i worker here
      rw [here] at stepped
      cases worker with
      | idle =>
          cases queue with
          | nil => contradiction
          | cons task queue =>
              rw [← Option.some.inj stepped, replaced, split]
              exact .take task queue before after metered failed log entries
      | metering task =>
          rw [← Option.some.inj stepped, replaced, split]
          exact .count queue before after task metered failed log entries
      | counted outcome =>
          rw [← Option.some.inj stepped, replaced, split]
          exact .log queue before after outcome metered failed log entries
      | logged outcome =>
          rw [← Option.some.inj stepped, replaced, split]
          exact .enter queue before after outcome metered failed log entries

/-! What is still due -/

/-- What is done about each outcome, one after the other. -/
inductive Stage where
  | counting
  | logging
  | entering

/-- The outcome in a worker's hands, if it has not passed the stage yet. -/
def outcomeDue (m : Meter) : Stage → Worker → List Outcome
  | _, .idle => []
  | _, .metering task => [task.run m]
  | .counting, .counted _ => []
  | .logging, .counted outcome => [outcome]
  | .entering, .counted outcome => [outcome]
  | .counting, .logged _ => []
  | .logging, .logged _ => []
  | .entering, .logged outcome => [outcome]

/-- The outcomes that are still to pass a stage. -/
def due (m : Meter) (stage : Stage) (queue : List Task) (workers : List Worker) : List Outcome :=
  workers.flatMap (outcomeDue m stage) ++ queue.map (Task.run m)

section Due
variable (stage : Stage) (passed outcomes : List Outcome) (queue : List Task) (before after : List Worker)

theorem perm_taken (task : Task)
    (all : (passed ++ due m stage (task :: queue) (before ++ .idle :: after)).Perm outcomes) :
    (passed ++ due m stage queue (before ++ .metering task :: after)).Perm outcomes := by
  have held : outcomeDue m stage (.metering task) = [task.run m] := by cases stage <;> rfl
  have free : outcomeDue m stage .idle = [] := by cases stage <;> rfl
  refine (List.Perm.append_left passed ?_).trans all
  simp only [due, List.flatMap_append, List.flatMap_cons, List.map_cons, held, free, List.nil_append,
    List.append_assoc, List.singleton_append]
  exact List.Perm.append_left _ List.perm_middle.symm

theorem perm_kept (worker next : Worker) (same : outcomeDue m stage next = outcomeDue m stage worker)
    (all : (passed ++ due m stage queue (before ++ worker :: after)).Perm outcomes) :
    (passed ++ due m stage queue (before ++ next :: after)).Perm outcomes := by
  simp only [due, List.flatMap_append, List.flatMap_cons, same] at all ⊢
  exact all

theorem perm_passed (worker next : Worker) (outcome : Outcome) (held : outcomeDue m stage worker = [outcome])
    (through : outcomeDue m stage next = [])
    (all : (passed ++ due m stage queue (before ++ worker :: after)).Perm outcomes) :
    (passed ++ [outcome] ++ due m stage queue (before ++ next :: after)).Perm outcomes := by
  rw [List.append_assoc]
  refine (List.Perm.append_left passed ?_).trans all
  simp only [due, List.flatMap_append, List.flatMap_cons, held, through, List.nil_append, List.append_assoc,
    List.singleton_append]
  exact List.perm_middle.symm

end Due

/-- At each stage, the outcomes that have passed it and those that are due are those of the tasks; the
counters, the log and the entries tell which have passed. -/
structure Accounted (m : Meter) (tasks : List Task) (counted logged entered : List Outcome) (pool : Pool) : Prop where
  counting : (counted ++ due m .counting pool.queue pool.workers).Perm (tasks.map (Task.run m))
  logging : (logged ++ due m .logging pool.queue pool.workers).Perm (tasks.map (Task.run m))
  entering : (entered ++ due m .entering pool.queue pool.workers).Perm (tasks.map (Task.run m))
  metered : pool.metered = counted.countP Outcome.succeeded
  failed : pool.failed = counted.countP fun outcome => !outcome.succeeded
  log : pool.log = logged.map Outcome.logLine
  entries : pool.entries = entered.map Outcome.entry

theorem accounted_start (workers : Nat) (tasks : List Task) : Accounted m tasks [] [] [] (start workers tasks) := by
  have all (stage : Stage) : due m stage tasks (List.replicate workers .idle) = tasks.map (Task.run m) := by
    simp [due, List.flatMap_replicate, outcomeDue]
  refine ⟨?_, ?_, ?_, rfl, rfl, rfl, rfl⟩
  · rw [start, all, List.nil_append]
  · rw [start, all, List.nil_append]
  · rw [start, all, List.nil_append]

theorem accounted_step (tasks : List Task) (counted logged entered : List Outcome) (pool next : Pool)
    (valid : Accounted m tasks counted logged entered pool) (step : Step m pool next) :
    ∃ counted logged entered, Accounted m tasks counted logged entered next := by
  obtain ⟨counting, logging, entering, metered, failed, log, entries⟩ := valid
  cases step with
  | take task queue before after =>
      refine ⟨counted, logged, entered, ?_, ?_, ?_, metered, failed, log, entries⟩
      · exact perm_taken .counting counted _ queue before after task counting
      · exact perm_taken .logging logged _ queue before after task logging
      · exact perm_taken .entering entered _ queue before after task entering
  | count queue before after task =>
      refine ⟨counted ++ [task.run m], logged, entered, ?_, ?_, ?_, ?_, ?_, log, entries⟩
      · exact perm_passed .counting counted _ queue before after _ _ _ rfl rfl counting
      · exact perm_kept .logging logged _ queue before after (.metering task) _ rfl logging
      · exact perm_kept .entering entered _ queue before after (.metering task) _ rfl entering
      · rw [List.countP_append, ← metered, List.countP_singleton]
        cases (task.run m).succeeded with
        | true => rfl
        | false => rfl
      · rw [List.countP_append, ← failed, List.countP_singleton]
        cases (task.run m).succeeded with
        | true => rfl
        | false => rfl
  | log queue before after outcome =>
      refine ⟨counted, logged ++ [outcome], entered, ?_, ?_, ?_, metered, failed, ?_, entries⟩
      · exact perm_kept .counting counted _ queue before after (.counted outcome) _ rfl counting
      · exact perm_passed .logging logged _ queue before after _ _ _ rfl rfl logging
      · exact perm_kept .entering entered _ queue before after (.counted outcome) _ rfl entering
      · rw [List.map_append, ← log]
        rfl
  | enter queue before after outcome =>
      refine ⟨counted, logged, entered ++ [outcome], ?_, ?_, ?_, metered, failed, log, ?_⟩
      · exact perm_kept .counting counted _ queue before after (.logged outcome) _ rfl counting
      · exact perm_kept .logging logged _ queue before after (.logged outcome) _ rfl logging
      · exact perm_passed .entering entered _ queue before after _ _ _ rfl rfl entering
      · rw [List.map_append, ← entries]
        rfl

theorem accounted_run (tasks : List Task) (schedule : List Nat) (counted logged entered : List Outcome)
    (pool final : Pool) (valid : Accounted m tasks counted logged entered pool)
    (ran : pool.run? m schedule = some final) :
    ∃ counted logged entered, Accounted m tasks counted logged entered final := by
  induction schedule generalizing pool counted logged entered with
  | nil =>
      obtain rfl := Option.some.inj ran
      exact ⟨counted, logged, entered, valid⟩
  | cons i schedule ih =>
      obtain ⟨next, first, others⟩ := Option.bind_eq_some_iff.mp ran
      obtain ⟨counted, logged, entered, kept⟩ :=
        accounted_step tasks counted logged entered pool next valid (step_of_step? pool next i first)
      exact ih counted logged entered next kept others

theorem due_idle (stage : Stage) (workers : List Worker) (idle : workers.all isIdle = true) :
    due m stage [] workers = [] := by
  rw [due, List.map_nil, List.append_nil, List.flatMap_eq_nil_iff]
  intro worker member
  have free := List.all_eq_true.mp idle worker member
  cases worker with
  | idle => cases stage <;> rfl
  | metering task => contradiction
  | counted outcome => contradiction
  | logged outcome => contradiction

/-- When all is done, the outcomes of the tasks have passed every stage. -/
theorem accounted_done (workers : Nat) (tasks : List Task) (schedule : List Nat) (pool : Pool)
    (ran : (start workers tasks).run? m schedule = some pool) (done : pool.isDone = true) :
    ∃ counted logged entered, Accounted m tasks counted logged entered pool ∧
      counted.Perm (tasks.map (Task.run m)) ∧ logged.Perm (tasks.map (Task.run m)) ∧
      entered.Perm (tasks.map (Task.run m)) := by
  obtain ⟨counted, logged, entered, valid⟩ :=
    accounted_run tasks schedule [] [] [] _ pool (accounted_start workers tasks) ran
  obtain ⟨empty, idle⟩ := Bool.and_eq_true_iff.mp done
  have none (stage : Stage) : due m stage pool.queue pool.workers = [] := by
    rw [List.isEmpty_iff.mp empty, due_idle stage pool.workers idle]
  refine ⟨counted, logged, entered, valid, ?_, ?_, ?_⟩
  · simpa [none] using valid.counting
  · simpa [none] using valid.logging
  · simpa [none] using valid.entering

/-! Progress -/

/-- The steps that a worker still takes for the task in its hands. -/
def stepsOf : Worker → Nat
  | .idle => 0
  | .metering _ => 3
  | .counted _ => 2
  | .logged _ => 1

def stepsOfAll : List Worker → Nat
  | [] => 0
  | worker :: others => stepsOf worker + stepsOfAll others

theorem stepsOfAll_append (front back : List Worker) :
    stepsOfAll (front ++ back) = stepsOfAll front + stepsOfAll back := by
  induction front with
  | nil => exact (Nat.zero_add _).symm
  | cons worker front ih => rw [List.cons_append, stepsOfAll, stepsOfAll, ih, Nat.add_assoc]

def stepsLeft (pool : Pool) : Nat := 4 * pool.queue.length + stepsOfAll pool.workers

theorem step_left (pool next : Pool) (step : Step m pool next) : pool.stepsLeft = next.stepsLeft + 1 := by
  cases step with
  | take task queue before after =>
      simp only [stepsLeft, stepsOfAll_append, stepsOfAll, stepsOf, List.length_cons]
      omega
  | count queue before after task =>
      simp only [stepsLeft, stepsOfAll_append, stepsOfAll, stepsOf]
      omega
  | log queue before after outcome =>
      simp only [stepsLeft, stepsOfAll_append, stepsOfAll, stepsOf]
      omega
  | enter queue before after outcome =>
      simp only [stepsLeft, stepsOfAll_append, stepsOfAll, stepsOf]
      omega

theorem step_workers (pool next : Pool) (step : Step m pool next) :
    next.workers.length = pool.workers.length := by
  cases step with
  | take => simp
  | count => simp
  | log => simp
  | enter => simp

theorem step_busy (pool : Pool) (worker : Worker) (member : worker ∈ pool.workers) (busy : isIdle worker = false) :
    ∃ i next, pool.step? m i = some next := by
  obtain ⟨i, here⟩ := List.mem_iff_getElem?.mp member
  refine ⟨i, ?_⟩
  rw [step?, here]
  cases worker with
  | idle => contradiction
  | metering task => exact ⟨_, rfl⟩
  | counted outcome => exact ⟨_, rfl⟩
  | logged outcome => exact ⟨_, rfl⟩

theorem step_exists (pool : Pool) (some : 0 < pool.workers.length) (unfinished : pool.isDone = false) :
    ∃ i next, pool.step? m i = .some next := by
  by_cases idle : pool.workers.all isIdle = true
  · cases waiting : pool.queue with
    | nil => simp [isDone, idle, waiting] at unfinished
    | cons task queue =>
        -- The first worker takes the task.
        have free : pool.workers[0] = .idle := by
          have first := List.all_eq_true.mp idle _ (List.getElem_mem some)
          cases worker : pool.workers[0] with
          | idle => rfl
          | metering task => simp [worker, isIdle] at first
          | counted outcome => simp [worker, isIdle] at first
          | logged outcome => simp [worker, isIdle] at first
        refine ⟨0, ?_⟩
        rw [step?, List.getElem?_eq_getElem some, free, waiting]
        exact ⟨_, rfl⟩
  · obtain ⟨worker, member, busy⟩ : ∃ worker ∈ pool.workers, isIdle worker = false := by simpa using idle
    exact step_busy pool worker member busy

/-- Whatever has happened, the workers can bring it to an end. -/
theorem run_finishes (pool : Pool) (some : 0 < pool.workers.length) :
    ∃ rest final, pool.run? m rest = .some final ∧ final.isDone = true := by
  induction left : pool.stepsLeft using Nat.strongRecOn generalizing pool with
  | ind n ih =>
      cases done : pool.isDone with
      | true => exact ⟨[], pool, rfl, done⟩
      | false =>
          obtain ⟨i, next, stepped⟩ := step_exists (m := m) pool some done
          have step := step_of_step? pool next i stepped
          -- Each step leaves one less to take.
          have fewer : next.stepsLeft < n := by
            have one := step_left pool next step
            omega
          obtain ⟨rest, final, ran, ended⟩ :=
            ih next.stepsLeft fewer next (by rwa [step_workers pool next step]) rfl
          refine ⟨i :: rest, final, ?_, ended⟩
          rw [run?, List.foldlM_cons, stepped]
          exact ran

theorem run_workers (schedule : List Nat) (pool final : Pool) (ran : pool.run? m schedule = some final) :
    final.workers.length = pool.workers.length := by
  induction schedule generalizing pool with
  | nil =>
      obtain rfl := Option.some.inj ran
      rfl
  | cons i schedule ih =>
      obtain ⟨next, first, others⟩ := Option.bind_eq_some_iff.mp ran
      rw [ih next others, step_workers pool next (step_of_step? pool next i first)]

/-- A worker that goes from task to task gives the batch of the tasks in their order. -/
theorem run_in_order (tasks : List Task) (others : List Worker) (metered failed : Nat) (log : List Text)
    (entries : List Entry) :
    run? m ⟨tasks, .idle :: others, metered, failed, log, entries⟩ (tasks.flatMap fun _ => [0, 0, 0, 0]) =
      some ⟨[], .idle :: others, metered + (tasks.map (Task.run m)).countP Outcome.succeeded,
        failed + (tasks.map (Task.run m)).countP (fun outcome => !outcome.succeeded),
        log ++ (tasks.map (Task.run m)).map Outcome.logLine,
        entries ++ (tasks.map (Task.run m)).map Outcome.entry⟩ := by
  induction tasks generalizing metered failed log entries with
  | nil => simp [run?]
  | cons task tasks ih =>
      have first : run? m ⟨task :: tasks, .idle :: others, metered, failed, log, entries⟩ [0, 0, 0, 0] =
          some ⟨tasks, .idle :: others, if (task.run m).succeeded then metered + 1 else metered,
            if (task.run m).succeeded then failed else failed + 1, log ++ [(task.run m).logLine],
            entries ++ [(task.run m).entry]⟩ := rfl
      rw [run?] at first
      rw [List.flatMap_cons, run?, List.foldlM_append, first]
      refine (ih _ _ _ _).trans ?_
      cases went : (task.run m).succeeded with
      | true => simp [went]; omega
      | false => simp [went]; omega

theorem run_batch (workers : Nat) (tasks : List Task) :
    ∃ schedule pool, (start (workers + 1) tasks).run? m schedule = some pool ∧ pool.batch = Batch.run m tasks := by
  refine ⟨_, _, run_in_order tasks (List.replicate workers .idle) 0 0 [] [], ?_⟩
  simp [batch, Batch.run, Batch.ofOutcomes, List.flatMap_def]

section Done
variable (workers : Nat) (tasks : List Task) (schedule : List Nat) (pool : Pool)
  (ran : (start workers tasks).run? m schedule = some pool) (done : pool.isDone = true)
include ran done

theorem entries_done : pool.entries.Perm (tasks.map (Task.entry m)) := by
  obtain ⟨counted, logged, entered, valid, _, _, all⟩ := accounted_done workers tasks schedule pool ran done
  have alone : (tasks.map (Task.run m)).map Outcome.entry = tasks.map (Task.entry m) := by
    rw [List.map_map]
    exact List.map_congr_left fun task _ => task.entry_run m
  rw [valid.entries, ← alone]
  exact all.map Outcome.entry

theorem log_done : pool.log.Perm (tasks.map fun task => (task.run m).logLine) := by
  obtain ⟨counted, logged, entered, valid, _, all, _⟩ := accounted_done workers tasks schedule pool ran done
  rw [valid.log]
  exact (all.map Outcome.logLine).trans (List.Perm.of_eq List.map_map)

theorem counters_done :
    pool.metered = (Batch.run m tasks).metered ∧ pool.failed = (Batch.run m tasks).failed := by
  obtain ⟨counted, logged, entered, valid, all, _, _⟩ := accounted_done workers tasks schedule pool ran done
  rw [valid.metered, valid.failed]
  exact ⟨all.countP_eq _, all.countP_eq _⟩

end Done

theorem batch_counted (m : Meter) (tasks : List Task) :
    (Batch.run m tasks).metered + (Batch.run m tasks).failed = tasks.length := by
  have both : (tasks.map (Task.run m)).length = _ := List.length_eq_countP_add_countP Outcome.succeeded
  rw [List.length_map] at both
  simpa [Batch.run, Batch.ofOutcomes] using both.symm

theorem batch_entries (m : Meter) (tasks : List Task) :
    (Batch.run m tasks).entries = Entry.sorted (tasks.map (Task.entry m)) := by
  simp only [Batch.run, Batch.ofOutcomes, List.map_map]
  exact congrArg Entry.sorted (List.map_congr_left fun task _ => task.entry_run m)

theorem batch_failed (m : Meter) (tasks : List Task)
    (told : ∀ task ∈ tasks, ∀ cause, task.source = .error cause → cause ≠ []) :
    (Batch.run m tasks).failed = (tasks.map (Task.entry m)).countP Entry.failed := by
  simp only [Batch.run, Batch.ofOutcomes, List.countP_map]
  apply List.countP_congr
  intro task member
  simp [← task.succeeded_run m (told task member)]

/-- However many workers there are and whatever the order of their steps, a batch never gets stuck, each task
leaves the entry that it leaves alone, and the counts, the entries by name and their sum come out the same. -/
theorem run_any_schedule (m : Meter) (workers : Nat) (tasks : List Task)
    (told : ∀ task ∈ tasks, ∀ cause, task.source = .error cause → cause ≠ []) :
    (0 < workers →
        (∃ schedule pool, (start workers tasks).run? m schedule = some pool ∧ pool.batch = Batch.run m tasks) ∧
        ∀ schedule pool, (start workers tasks).run? m schedule = some pool →
          ∃ rest final, pool.run? m rest = some final ∧ final.isDone = true) ∧
      ∀ schedule pool, (start workers tasks).run? m schedule = some pool → pool.isDone = true →
        pool.entries.Perm (tasks.map (Task.entry m)) ∧
        pool.log.Perm (tasks.map fun task => (task.run m).logLine) ∧
        pool.metered + pool.failed = tasks.length ∧
        pool.entries.length = tasks.length ∧
        pool.failed = pool.entries.countP Entry.failed ∧
        (Entry.sorted pool.entries).Pairwise (fun a b => ¬ b.name < a.name) ∧
        (Entry.sorted pool.entries).Perm (Batch.run m tasks).entries ∧
        ((tasks.map Task.name).Nodup → Entry.sorted pool.entries = (Batch.run m tasks).entries) ∧
        ∀ name, Entry.sum name (Entry.sorted pool.entries) = Entry.sum name (Batch.run m tasks).entries := by
  constructor
  · intro some
    constructor
    · obtain ⟨others, rfl⟩ := Nat.exists_eq_add_one_of_ne_zero (Nat.ne_of_gt some)
      exact run_batch others tasks
    · intro schedule pool ran
      apply run_finishes
      rw [run_workers schedule _ pool ran]
      simpa [start] using some
  · intro schedule pool ran done
    have entries := entries_done workers tasks schedule pool ran done
    obtain ⟨metered, failed⟩ := counters_done workers tasks schedule pool ran done
    have same : (Entry.sorted pool.entries).Perm (Batch.run m tasks).entries := by
      rw [batch_entries]
      exact (Entry.sorted_perm _).trans (entries.trans (Entry.sorted_perm _).symm)
    refine ⟨entries, log_done workers tasks schedule pool ran done, ?_, ?_, ?_, Entry.sorted_ordered _, same, ?_, ?_⟩
    · rw [metered, failed, batch_counted]
    · rw [entries.length_eq, List.length_map]
    · rw [failed, batch_failed m tasks told, entries.countP_eq]
    · intro distinct
      rw [batch_entries]
      apply Entry.sorted_unique _ _ entries
      have names : (tasks.map (Task.entry m)).map Entry.name = tasks.map Task.name := by
        rw [List.map_map]
        exact List.map_congr_left fun task _ => task.entry_name m
      exact (entries.map Entry.name).nodup_iff.mpr (names ▸ distinct)
    · intro name
      exact Entry.sum_perm name _ _ same

def nopMeter : Meter where
  matcher := { catalog := .ofPatterns [Catalog.steady "S" "NOP" 4 5 1 "00" 1] }

/-- Two sources of one name, and between them one that could not be opened. -/
def sharedName : List Task :=
  [⟨"b", .ok { bytes := " nop\n" }⟩, ⟨"a", .error "denied"⟩, ⟨"b", .ok { bytes := " db 1\n" }⟩]

/-- The first worker takes the first task and is last to finish. -/
def overtaken : List Nat := [0, 1, 1, 1, 1, 1, 1, 1, 1, 0, 0, 0]

theorem run_any_schedule_overtaken :
    (∀ task ∈ sharedName, ∀ cause, task.source = .error cause → cause ≠ []) ∧
      ∃ pool, (start 2 sharedName).run? nopMeter overtaken = some pool ∧ pool.isDone = true ∧
        pool.entries.map Entry.bytes = ([[], ["01"], ["00"]] : List (List Text)) ∧
        pool.entries.Perm (sharedName.map (Task.entry nopMeter)) ∧
        pool.metered + pool.failed = 3 ∧ pool.failed = pool.entries.countP Entry.failed ∧
        ∀ name, Entry.sum name (Entry.sorted pool.entries) =
          Entry.sum name (Batch.run nopMeter sharedName).entries := by
  have told : ∀ task ∈ sharedName, ∀ cause, task.source = .error cause → cause ≠ [] := by
    intro task member cause failed
    simp only [sharedName, List.mem_cons, List.not_mem_nil, or_false] at member
    rcases member with rfl | rfl | rfl
    · contradiction
    · rw [← Except.error.inj failed]
      decide
    · contradiction
  have ended : ((start 2 sharedName).run? nopMeter overtaken).map
      (fun pool => (pool.isDone, pool.entries.map Entry.bytes)) =
        some (true, ([[], ["01"], ["00"]] : List (List Text))) := by
    decide +kernel
  obtain ⟨pool, ran, outcome⟩ := Option.map_eq_some_iff.mp ended
  obtain ⟨done, bytes⟩ := Prod.mk.inj outcome
  obtain ⟨entries, _, counted, _, failed, _, _, _, sums⟩ :=
    (run_any_schedule nopMeter 2 sharedName told).2 overtaken pool ran done
  exact ⟨told, pool, ran, done, bytes, entries, counted, failed, sums⟩

end Pool

end Z80Cost
