import Z80Cost.Delimited
import Z80Cost.Instruction.Pattern

/-!
The instruction table in text: set, instruction, three timings, opcode and size between semicolons.
A timing is one count, or two around a slash in either order.
-/

namespace Z80Cost.Table

inductive CyclesFault where
  | malformed (field : Text)
  | number (part : Text) (fault : Integer.Fault)
  | negative (field : Text)
  deriving DecidableEq

def numberMessage (part : Text) (fault : Integer.Fault) : Text :=
  "strconv.Atoi: parsing " ++ part.quoted ++ ": " ++ fault.message

def CyclesFault.message : CyclesFault → Text
  | .malformed field => "malformed timing " ++ field.quoted
  | .number part fault => numberMessage part fault
  | .negative field => "negative timing " ++ field.quoted

inductive RowFault where
  | emptySet
  | emptyText
  | timing (text machine : Text) (fault : CyclesFault)
  | size (text part : Text) (fault : Integer.Fault)
  | negativeSize (text : Text) (bytes : Int64)
  deriving DecidableEq

def RowFault.message : RowFault → Text
  | .emptySet => "empty instruction set"
  | .emptyText => "empty instruction"
  | .timing text machine fault => text ++ ": " ++ machine ++ " timing: " ++ fault.message
  | .size text part fault => text ++ ": size: " ++ numberMessage part fault
  | .negativeSize text bytes => text ++ ": negative size " ++ Text.ofInt64 bytes

inductive Fault where
  | records (fault : Delimited.Fault)
  | row (line : Nat) (fault : RowFault)
  deriving DecidableEq

def Fault.message : Fault → Text
  | .records fault => "instruction table: " ++ fault.message
  | .row line fault => "instruction table line " ++ Text.ofNat line ++ ": " ++ fault.message

def readCount (field part : Text) : Except CyclesFault Int64 :=
  match Integer.read part.trim with
  | .error fault => .error (.number part.trim fault)
  | .ok n => if n < 0 then .error (.negative field) else .ok n

def readCycles (field : Text) : Except CyclesFault Cycles :=
  match field.trim.splitOn ('/' : UInt8) with
  | [part] => do
      let n ← readCount field part
      return ⟨n, n⟩
  | [first, second] => do
      let a ← readCount field first
      let b ← readCount field second
      return if a ≤ b then ⟨a, b⟩ else ⟨b, a⟩
  | _ => .error (.malformed field)

/-- The timing of one machine in the row of `text`. -/
def readMachine (text machine field : Text) : Except RowFault Cycles :=
  (readCycles field).mapError (.timing text machine)

def readSize (text field : Text) : Except RowFault Int64 :=
  match Integer.read field.trim with
  | .error fault => .error (.size text field.trim fault)
  | .ok n => if n < 0 then .error (.negativeSize text n) else .ok n

def readRow (set text z80 msx cpc opcode size : Text) : Except RowFault Pattern :=
  if set.trim.isEmpty then .error .emptySet
  else if text.trim.isEmpty then .error .emptyText
  else do
    let onZ80 ← readMachine text.trim "z80" z80
    let onMsx ← readMachine text.trim "msx" msx
    let onCpc ← readMachine text.trim "cpc" cpc
    let bytes ← readSize text.trim size
    return ⟨set.trim, text.trim, ⟨onZ80, onMsx, onCpc⟩, opcode.trim, bytes⟩

def readRecord (record : Delimited.Record) : Except Fault Pattern :=
  match record.fields with
  | [set, text, z80, msx, cpc, opcode, size] =>
      (readRow set text z80 msx cpc opcode size).mapError (.row record.line)
  | _ => .error (.records (.fieldCount record.line))

/-- The patterns of a table, in order; the first fault of the text is reported. -/
def read (s : Text) : Except Fault (List Pattern) := do
  let (records, fault) := Delimited.records ';' '#' s
  let patterns ← records.mapM readRecord
  match fault with
  | some fault => throw (.records fault)
  | none => return patterns

end Z80Cost.Table
