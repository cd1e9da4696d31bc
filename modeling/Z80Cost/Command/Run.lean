import Z80Cost.Command.Files
import Z80Cost.Command.Invocation
import Z80Cost.Command.Layout
import Z80Cost.Instruction.Z80
import Z80Cost.Report.Batch
import Z80Cost.Report.Saved

/-!
What each command prints and writes.
-/

namespace Z80Cost.Command

structure Output where
  out : Text := []
  /-- What is told beside the results. -/
  notes : Text := []
  /-- Files written, with their contents. -/
  written : List (Text × Text) := []
  failure : Option Text := none
  /-- What is told after the failure. -/
  hint : Text := []

namespace Output

def err (output : Output) : Text :=
  match output.failure with
  | some cause => output.notes ++ "Error: " ++ cause ++ "\n" ++ output.hint
  | none => output.notes

def exitCode (output : Output) : Nat := if output.failure.isSome then 1 else 0

end Output

namespace Options

/-- Notes are told only on request. -/
def note (options : Options) (s : Text) : Text := if options.verbose then s else []

def matcher (options : Options) : Matcher where
  catalog := .z80
  sets := options.platform.sets
  policy := if options.expandStorage then .expand else .keep

def meter (options : Options) : Meter where
  matcher := options.matcher
  dialect := options.dialect
  maxLines := options.maxLines
  maxCode := options.maxCode

end Options

/-! Metering files -/

def inputName : Text := "<stdin>"

/-- A task for each path, or one for standard input. -/
def tasks (around : Surroundings) (paths : List Text) : List Task :=
  if paths.isEmpty then [⟨inputName, .ok around.input⟩]
  else paths.map fun path => ⟨path, (around.file path).mapError (openMessage path)⟩

def failureCount? (batch : Batch) : Option Text :=
  if batch.failed = 0 then none
  else
    some (Text.ofNat batch.failed ++ " of " ++ Text.ofNat (batch.metered + batch.failed) ++
      " inputs could not be metered")

/-- Saves the entries, if a file is named for them. -/
def save (around : Surroundings) (options : Options) (entries : List Entry) (output : Output) :
    Output :=
  if options.json.isEmpty then output
  else
    match around.creation options.json with
    | .error fault => { output with failure := some (openMessage options.json fault) }
    | .ok () =>
        { output with
          notes := output.notes ++ options.note ("Written to " ++ options.json ++ "\n")
          written := [(options.json, Saved.write entries)] }

def runMeter (around : Surroundings) (options : Options) (paths : List Text) : Output :=
  let tasks := tasks around paths
  let batch := Batch.run options.meter tasks
  let opening :=
    "Z80 meter\n  Platform: " ++ options.platform.name ++ "\n  Syntax: " ++ options.dialect.name ++
      "\n  Inputs: " ++ Text.ofNat tasks.length ++ "\n"
  let saved := save around options batch.entries
    { out := showEntries options batch.entries, notes := options.note (opening ++ batch.log) }
  match saved.failure with
  | some _ => saved
  | none => { saved with failure := failureCount? batch }

/-! One line -/

/-- Arguments as a source line, indented so that none is taken for a label. -/
def sourceLine (arguments : List Text) : Text := " " ++ Text.join " " arguments

def showListed (options : Options) (listed : Listed) : Text :=
  if listed.isCode then listed.results.flatMap (showMetered options)
  else Text.padRight 20 listed.text ++ " (no match)\n"

def runLine (options : Options) (arguments : List Text) : Output :=
  let statements := options.meter.statement 1 (sourceLine arguments)
  let totals := Meter.totals statements
  let cost : Entry := { code := totals.code, size := totals.size, timing := totals.timing }
  { out := statements.flatMap (showListed options) ++ summary options.platform cost ++ "\n" }

/-! Explanations -/

def showCandidates (best : Option Matcher.Ranked) (ranked : List Matcher.Ranked) : Text :=
  let position := ranked.findIdx? (some · == best)
  ranked.zipIdx.flatMap fun (r, i) => showRanked (position == some i) r

def dumpBest (best : Option Matcher.Ranked) (results : List Metered) : Text :=
  match best with
  | some b =>
      dumpPattern b.instruction.pattern ++ "  score " ++ b.score.text 2 ++ "\n" ++
        results.flatMap dumpMetered
  | none => results.flatMap dumpMetered

def explain (options : Options) (s : Text) : Text :=
  let matcher := options.matcher
  let statement := Source.Statement.ofText s
  let ranked := matcher.rank statement
  let best := matcher.best? statement
  let results := matcher.meter statement
  s ++ "\n" ++
    (if ranked.isEmpty then "  no " ++ options.platform.name ++ " candidates\n" else []) ++
    showCandidates best ranked ++
    (if best.isNone && !results.isEmpty then ("  data directive\n" : Text) else []) ++
    (if options.dump then dumpBest best results else [])

def runExplain (options : Options) (arguments : List Text) : Output :=
  { out := (options.dialect.statements (sourceLine arguments)).flatMap (explain options) }

/-! The catalog -/

/-- A character in upper case, as far as it then is in ASCII: two letters outside ASCII are, and no
other, so no other occurs in a mnemonic. -/
def capital (c : Char) : Char :=
  if c.toNat = 0x131 then 'I' else if c.toNat = 0x17F then 'S' else c.toUpper

def capitalSymbol : Text.Symbol → Text
  | .character c => Text.ofChar (capital c)
  | .stray b => [b]

def capitals (s : Text) : Text := s.symbols.flatMap capitalSymbol

def runCatalog (options : Options) (mnemonic : Option Text) : Output :=
  let catalog := Catalog.z80
  let candidates :=
    match mnemonic with
    | some m => catalog.candidates (capitals m)
    | none => catalog.all
  let listed := candidates.filter fun i => options.platform.sets.contains i.set
  { out := listed.flatMap fun i => showMetered options (.instruction i)
    notes :=
      options.note
        (Text.ofNat listed.length ++ " of " ++ Text.ofNat catalog.size ++ " instructions (" ++
          Text.ofNat catalog.mnemonics ++ " mnemonics)\n")
    failure :=
      match mnemonic with
      | some m => if listed.isEmpty then some ("unknown mnemonic: " ++ m) else none
      | none => none }

/-! Saved reports -/

def runReport (around : Surroundings) (options : Options) (path : Text) : Output :=
  match around.file path with
  | .error fault => { failure := some (openMessage path fault) }
  | .ok stream =>
      match Saved.readStream stream with
      | .error fault => { failure := some fault.message }
      | .ok entries =>
          { out := showEntries options entries
            notes :=
              options.note
                ("Read " ++ Text.ofNat entries.length ++ " entries from " ++ path ++ "\n") }

/-! All commands -/

def usageLine (verb : Verb) : Text :=
  "  " ++ program ++ " " ++ verb.name ++ ": " ++
    Text.join ", " ((commonFlags ++ verb.ownFlags).map Flag.label) ++ "\n"

def usage : Text :=
  "Z80 assembly meter: timing, size and bytes of source code\n\nUsage:\n" ++
    Verb.all.flatMap usageLine

def Invocation.run (around : Surroundings) (invocation : Invocation) : Output :=
  let options := invocation.options
  match invocation.verb with
  | none | some .help => { out := usage }
  | some .meter => runMeter around options invocation.arguments
  | some .line => runLine options invocation.arguments
  | some .explain => runExplain options invocation.arguments
  | some .catalog => runCatalog options invocation.arguments.head?
  | some .report => runReport around options (invocation.arguments.headD [])

def run (around : Surroundings) (arguments : List Text) : Output :=
  match Invocation.read arguments with
  | .ok invocation => invocation.run around
  | .error fault => { failure := some fault.message, hint := fault.hint }

end Z80Cost.Command
