import Z80Cost.Matcher
import Z80Cost.Source.Block
import Z80Cost.Source.Dialect
import Z80Cost.Totals

/-!
Metering of whole sources: the statements of each line, repeat blocks spelled out, each statement
with what it is metered as, and the totals.
-/

namespace Z80Cost

structure Listed where
  /-- The source line, from 1. -/
  line : Nat
  text : Text
  results : List Metered
  deriving DecidableEq

def Listed.isCode (listed : Listed) : Bool := !listed.results.isEmpty

structure Report where
  lines : Nat
  statements : List Listed
  totals : Totals
  deriving DecidableEq

/-- A source that is read: its bytes, and what stopped the reading if it was not the end. -/
structure Stream where
  bytes : Text
  fault : Option Text := none

structure Meter where
  matcher : Matcher
  dialect : Source.Dialect := .generic
  /-- The most source lines; one that is not positive sets no limit. -/
  maxLines : Int64 := 0
  /-- The most lines of code after repeat blocks are spelled out, likewise. -/
  maxCode : Int64 := 0

namespace Meter

inductive Fault where
  /-- A source of that many lines. -/
  | lineCount (lines : Nat) (max : Int64)
  /-- A source with still more lines to read. -/
  | moreLines (max : Int64)
  | moreCode (max : Int64)
  | blocks (limit : Int64)
  | reading (cause : Text)
  deriving DecidableEq

def Fault.message : Fault → Text
  | .lineCount lines max => "too many lines: " ++ Text.ofNat lines ++ " > " ++ Text.ofInt64 max
  | .moreLines max => "too many lines: more than " ++ Text.ofInt64 max
  | .moreCode max => "too many lines of code: more than " ++ Text.ofInt64 max
  | .blocks limit =>
      "too many lines of code: repeat blocks expand beyond " ++ Text.ofInt64 limit ++ " statements"
  | .reading cause => "read source: " ++ cause

/-- Whether a positive limit is exceeded. -/
def exceeds (n : Nat) (limit : Int64) : Bool := 0 < limit && limit.toInt < n

def statement (m : Meter) (line : Nat) (raw : Text) : List Listed :=
  (m.dialect.statements raw).map fun s => ⟨line, s, m.matcher.meter (.ofText s)⟩

def listing (m : Meter) (lines : List Text) : List Listed :=
  (lines.zipIdx 1).flatMap fun (raw, line) => m.statement line raw

def totals (statements : List Listed) : Totals :=
  .sum (statements.map fun listed => .ofResults listed.results)

def lines (m : Meter) (lines : List Text) : Except Fault Report :=
  if exceeds lines.length m.maxLines then .error (.lineCount lines.length m.maxLines)
  else
    match Source.expand? m.dialect.repetition Listed.text m.maxCode (m.listing lines) with
    | none => .error (.blocks (Source.effectiveLimit m.maxCode))
    | some statements =>
        if exceeds (statements.countP Listed.isCode) m.maxCode then .error (.moreCode m.maxCode)
        else .ok ⟨lines.length, statements, totals statements⟩

/-! Source texts -/

def isLineEnd (b : UInt8) : Bool := b == '\r' || b == '\n'

def withoutLineEnds (s : Text) : Text := (s.reverse.dropWhile isLineEnd).reverse

/-- The text with each carriage return before a line feed left out, onto what is before it, last
first. -/
def lineFeedsOnto (done : Text) : Text → Text
  | [] => done
  | b :: s =>
      if b = '\r' ∧ s.head? = some ('\n' : UInt8) then lineFeedsOnto done s
      else lineFeedsOnto (b :: done) s

/-- The lines of a text, which empty lines at its end are not counted among. -/
def splitSource (s : Text) : List Text :=
  let body := withoutLineEnds s
  if body.isEmpty then [] else (lineFeedsOnto [] body).reverse.splitOn ('\n' : UInt8)

def source (m : Meter) (s : Text) : Except Fault Report := m.lines (splitSource s)

/-! Streams -/

def maxLineLength : Nat := 0x100000

def tooLong : Text := "bufio.Scanner: token too long"

/-- The lines of a stream with their carriage returns: a last one without a line feed counts unless
it is empty. -/
def rawLines (s : Text) : List Text :=
  let parts := s.splitOn ('\n' : UInt8)
  if parts.getLast? = some [] then parts.dropLast else parts

def withoutReturn (line : Text) : Text := (Text.before? '\r' line).getD line

/-- Meters a source as it is read: lines are counted until one is too long or none is left. -/
def read (m : Meter) (stream : Stream) : Except Fault Report :=
  let raw := rawLines stream.bytes
  let readable := raw.takeWhile (·.length < maxLineLength)
  if exceeds readable.length m.maxLines then .error (.moreLines m.maxLines)
  else if readable.length < raw.length then .error (.reading tooLong)
  else
    match stream.fault with
    | some cause => .error (.reading cause)
    | none => m.lines (readable.map withoutReturn)

end Meter

end Z80Cost
