import Z80Cost.Json
import Z80Cost.Report.Entry

/-!
Reports as JSON texts: an array of entries. Reading takes any order of members, ignores those that
it does not know, and leaves out what is `null`.
-/

namespace Z80Cost.Saved

/-! Writing -/

def writeCycles (depth : Nat) (c : Cycles) : Text :=
  Json.writeObject depth [("min", Text.ofInt64 c.min), ("max", Text.ofInt64 c.max)]

def writeTiming (depth : Nat) (t : Timing) : Text :=
  Json.writeObject depth
    [("z80", writeCycles (depth + 1) t.z80), ("msx", writeCycles (depth + 1) t.msx),
     ("cpc", writeCycles (depth + 1) t.cpc)]

def costMembers (depth : Nat) (e : Entry) : List (Text × Text) :=
  [("name", Json.quote e.name), ("lines", Text.ofInt64 e.lines), ("loc", Text.ofInt64 e.code),
   ("size", Text.ofInt64 e.size), ("timing", writeTiming depth e.timing)]

/-- The bytes, unless there are none. -/
def bytesMember (depth : Nat) (e : Entry) : List (Text × Text) :=
  if e.bytes.isEmpty then [] else [("bytes", Json.writeArray depth (e.bytes.map Json.quote))]

/-- The error, unless there is none. -/
def errorMember (e : Entry) : List (Text × Text) :=
  if e.error.isEmpty then [] else [("error", Json.quote e.error)]

def writeEntry (depth : Nat) (e : Entry) : Text :=
  Json.writeObject depth
    (costMembers (depth + 1) e ++ bytesMember (depth + 1) e ++ errorMember e)

def write (entries : List Entry) : Text :=
  Json.writeArray 0 (entries.map (writeEntry 1)) ++ "\n"

/-! Reading -/

inductive Fault where
  | json (fault : Json.Fault)
  /-- A value of another type than its member has, or a number out of range. -/
  | mistyped
  | reading (cause : Text)
  deriving DecidableEq

def Fault.message : Fault → Text
  | .json .empty => "read report: EOF"
  | .json .truncated => "read report: unexpected EOF"
  | .json .malformed => "read report: malformed JSON"
  | .mistyped => "read report: unexpected type of value"
  | .reading cause => "read report: " ++ cause

/-- A character without regard to case. Two letters outside ASCII are other forms of `S` and
`K`. -/
def foldChar (c : Char) : Char :=
  if c.toNat = 0x17F then 'S' else if c.toNat = 0x212A then 'K' else c.toUpper

def foldSymbol : Text.Symbol → Text
  | .character c => Text.ofChar (foldChar c)
  | .stray b => [b]

/-- Whether `key` names a member, in any case. -/
def isMember (name key : Text) : Bool := key.symbols.flatMap foldSymbol == name.upper

/-- A string; `null` leaves the old one. -/
def readText (old : Text) : Json → Option Text
  | .string s => some s
  | .null => some old
  | _ => none

/-- An integer without fraction or exponent. -/
def readInt (old : Int64) : Json → Option Int64
  | .number literal => (Integer.read literal).toOption
  | .null => some old
  | _ => none

def readMembers {α : Type} (readMember : α → Text × Json → Option α) (old : α) : Json → Option α
  | .object members => members.foldlM readMember old
  | .null => some old
  | _ => none

def readCyclesMember (c : Cycles) : Text × Json → Option Cycles
  | (key, value) =>
      if isMember "min" key then (readInt c.min value).map ({ c with min := · })
      else if isMember "max" key then (readInt c.max value).map ({ c with max := · })
      else some c

def readTimingMember (t : Timing) : Text × Json → Option Timing
  | (key, value) =>
      if isMember "z80" key then
        (readMembers readCyclesMember t.z80 value).map ({ t with z80 := · })
      else if isMember "msx" key then
        (readMembers readCyclesMember t.msx value).map ({ t with msx := · })
      else if isMember "cpc" key then
        (readMembers readCyclesMember t.cpc value).map ({ t with cpc := · })
      else some t

/-- An array of strings, in the place of the old one. -/
def readTexts (old : List Text) : Json → Option (List Text)
  | .array items => items.zipIdx.mapM fun (item, i) => readText (old.getD i []) item
  | .null => some []
  | _ => none

def readEntryMember (e : Entry) : Text × Json → Option Entry
  | (key, value) =>
      if isMember "name" key then (readText e.name value).map ({ e with name := · })
      else if isMember "lines" key then (readInt e.lines value).map ({ e with lines := · })
      else if isMember "loc" key then (readInt e.code value).map ({ e with code := · })
      else if isMember "size" key then (readInt e.size value).map ({ e with size := · })
      else if isMember "timing" key then
        (readMembers readTimingMember e.timing value).map ({ e with timing := · })
      else if isMember "bytes" key then (readTexts e.bytes value).map ({ e with bytes := · })
      else if isMember "error" key then (readText e.error value).map ({ e with error := · })
      else some e

def readEntries : Json → Option (List Entry)
  | .array items => items.mapM (readMembers readEntryMember {})
  | .null => some []
  | _ => none

def read (s : Text) : Except Fault (List Entry) :=
  match Json.read s with
  | .error fault => .error (.json fault)
  | .ok value =>
      match readEntries value with
      | some entries => .ok entries
      | none => .error .mistyped

/-- The entries of a report as it is read; a text that ends early may have been cut short. -/
def readStream (stream : Stream) : Except Fault (List Entry) :=
  match read stream.bytes, stream.fault with
  | .error (.json .empty), some cause => .error (.reading cause)
  | .error (.json .truncated), some cause => .error (.reading cause)
  | outcome, _ => outcome

end Z80Cost.Saved
