import Z80Cost.Text.Basic

/-!
Quoted literals in a source line. Single and double quotes delimit a literal, each up to the next
one of its kind; the apostrophe of the register pair `AF'` opens none. What a line is cut at
counts only outside literals.
-/

namespace Z80Cost.Source

/-- A scan from the left: the delimiter of the literal it is in, and the last two bytes. -/
structure Scan where
  delimiter : Option UInt8 := none
  last : UInt8 := 0
  beforeLast : UInt8 := 0
  deriving DecidableEq

/-- Whether the register pair `AF`, in either case, was read last. -/
def Scan.afterPair (scan : Scan) : Bool :=
  Text.upperByte scan.beforeLast == 'A' && Text.upperByte scan.last == 'F'

def Scan.opens (scan : Scan) (b : UInt8) : Bool :=
  b == '"' || (b == '\'' && !scan.afterPair)

/-- Whether `b` is inside a literal or one of its delimiters. -/
def Scan.quotes (scan : Scan) (b : UInt8) : Bool :=
  scan.delimiter.isSome || scan.opens b

def Scan.next (scan : Scan) (b : UInt8) : Scan where
  delimiter :=
    match scan.delimiter with
    | some quote => if b = quote then none else some quote
    | none => if scan.opens b then some b else none
  last := b
  beforeLast := scan.last

/-- A byte of a line, and whether it belongs to a literal. -/
structure Mark where
  byte : UInt8
  quoted : Bool
  deriving DecidableEq

/-- Marks onto those before them, last first. -/
def marksOnto (marks : List Mark) (scan : Scan) : Text → List Mark
  | [] => marks
  | b :: s => marksOnto (⟨b, scan.quotes b⟩ :: marks) (scan.next b) s

def marks (s : Text) : List Mark := (marksOnto [] {} s).reverse

def bytes (marked : List Mark) : Text := marked.map Mark.byte

/-! Cutting a line outside its literals -/

def startsWith : (head : Text) → List Mark → Bool
  | [], _ => true
  | _ :: _, [] => false
  | h :: head, mark :: marked => h == mark.byte && startsWith head marked

def startsComment (markers : List Text) : List Mark → Bool
  | [] => false
  | mark :: marked => !mark.quoted && markers.any (startsWith · (mark :: marked))

/-- The bytes up to the first comment, onto those before them, last first. -/
def codeOnto (markers : List Text) (code : Text) : List Mark → Text
  | [] => code
  | mark :: marked =>
      if startsComment markers (mark :: marked) then code
      else codeOnto markers (mark.byte :: code) marked

def withoutComment (markers : List Text) (s : Text) : Text :=
  (codeOnto markers [] (marks s)).reverse

def Mark.isOutside (b : UInt8) (mark : Mark) : Bool := !mark.quoted && mark.byte == b

/-- The parts between separators outside literals. -/
def splitOutside (separator : UInt8) (s : Text) : List Text :=
  ((marks s).splitOnP (·.isOutside separator)).map bytes

/-! Canonical spelling -/

/-- Blanks that separate words: space, tab and the two line ends. -/
def Mark.isBlank (mark : Mark) : Bool :=
  !mark.quoted && (mark.byte == ' ' || mark.byte == '\t' || mark.byte == '\r' || mark.byte == '\n')

/-- Letters outside literals are upper-cased. -/
def Mark.spelled (mark : Mark) : UInt8 :=
  if mark.quoted then mark.byte else Text.upperByte mark.byte

/-- Words in canonical spelling with one space between neighbours. -/
def clean (s : Text) : Text :=
  Text.join " " ((((marks s).splitOnP (·.isBlank)).filter (!·.isEmpty)).map (·.map Mark.spelled))

end Z80Cost.Source
