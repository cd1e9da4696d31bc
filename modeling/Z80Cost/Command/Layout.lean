import Z80Cost.Command.Options
import Z80Cost.Matcher
import Z80Cost.Report.Entry

/-!
How results are printed.
-/

namespace Z80Cost.Command

open Text (padLeft padRight)

/-- Bytes with spaces between; those past a positive limit are left out. -/
def listBytes (max : Int64) (bytes : List Text) : Text :=
  if 0 < max ∧ max.toInt < bytes.length then Text.join " " (bytes.take max.toInt.toNat) ++ " ..."
  else Text.join " " bytes

/-! Entries -/

def row (name z80 msx cpc bytes code : Text) : Text :=
  padRight 24 name ++ " " ++ padLeft 9 z80 ++ " " ++ padLeft 9 msx ++ " " ++ padLeft 9 cpc ++ " " ++
    padLeft 6 bytes ++ " " ++ padLeft 5 code ++ "\n"

def summary (platform : Platform) (e : Entry) : Text :=
  platform.name ++ ": " ++ (platform.cycles e.timing).text ++ " " ++ platform.unit ++ ", " ++
    Text.ofInt64 e.size ++ (if e.size = 1 then " byte (" else " bytes (") ++
    Text.ofInt64 e.code ++ " LoC)"

def showEntry (options : Options) (e : Entry) : Text :=
  if e.failed then padRight 24 e.name ++ " error: " ++ e.error ++ "\n"
  else
    match options.format with
    | .summary => e.name ++ ": " ++ summary options.platform e ++ "\n"
    | .bytes => e.name ++ ": " ++ listBytes options.maxBytes e.bytes ++ "\n"
    | .table =>
        row e.name e.timing.z80.text e.timing.msx.text e.timing.cpc.text (Text.ofInt64 e.size)
          (Text.ofInt64 e.code)

def heading (options : Options) : Text :=
  match options.format with
  | .table => row "source" "z80" "msx" "cpc" "bytes" "loc"
  | _ => []

/-- Every entry, and their sum if there are several. -/
def showEntries (options : Options) (entries : List Entry) : Text :=
  heading options ++ entries.flatMap (showEntry options) ++
    (if 1 < entries.length then showEntry options (Entry.sum "total" entries) else [])

/-! Instructions and data -/

def showMetered (options : Options) (m : Metered) : Text :=
  padRight 20 m.text ++ " " ++ padLeft 7 m.timing.z80.text ++ " " ++
    padLeft 7 m.timing.msx.text ++ " " ++ padLeft 7 m.timing.cpc.text ++ " " ++
    padLeft 3 (Text.ofInt64 m.size) ++ "  " ++ listBytes options.maxBytes m.bytes.words ++ "\n"

/-- A candidate with its score; the best one is marked. -/
def showRanked (isBest : Bool) (ranked : Matcher.Ranked) : Text :=
  " " ++ (if isBest then "*" else " ") ++ " " ++ ranked.score.text 2 ++ "  " ++
    ranked.instruction.text ++ "\n"

/-! Records in full -/

def dumpCycles (c : Cycles) : Text :=
  "inst.Cycles\x7b\n      Min: " ++ Text.ofInt64 c.min ++ ",\n      Max: " ++ Text.ofInt64 c.max ++
    ",\n    \x7d,\n"

def dumpPattern (p : Pattern) : Text :=
  "inst.Pattern\x7b\n  Set:    " ++ p.set.quoted ++ ",\n  Text:   " ++ p.text.quoted ++
    ",\n  Timing: inst.Timing\x7b\n    Z80: " ++ dumpCycles p.timing.z80 ++
    "    MSX: " ++ dumpCycles p.timing.msx ++ "    CPC: " ++ dumpCycles p.timing.cpc ++
    "  \x7d,\n  Opcode: " ++ p.opcode.quoted ++ ",\n  Size:   " ++ Text.ofInt64 p.size ++
    ",\n\x7d\n"

def dumpToken (token : Text) : Text := "  " ++ token.quoted ++ ",\n"

/-- The data of a directive. A block without bytes was reserved; a list without any was never
begun. -/
def dumpData (d : Directive) : Text :=
  if d.data.isEmpty then
    match d.kind with
    | .storage => "[]string\x7b\x7d"
    | _ => "[]string(nil)"
  else "[]string\x7b\n" ++ d.data.flatMap dumpToken ++ "\x7d"

def dumpMetered : Metered → Text
  | .instruction _ => []
  | .directive d => d.kind.name.quoted ++ " " ++ dumpData d ++ "\n"

end Z80Cost.Command
