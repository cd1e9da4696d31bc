import Z80Cost.Text.Integer

/-!
Tables in text: a record a line, fields between separators. Empty lines and comment lines hold no
record. A field that starts with a double quote ends at the next one that stands alone; inside, a
quote is written twice, and separators and line ends are part of the field.
-/

namespace Z80Cost.Delimited

structure Record where
  line : Nat
  fields : List Text
  deriving DecidableEq

/-- Why a text is not a table. Lines and columns count from 1, columns in bytes. -/
inductive Fault where
  /-- A quote inside a field that does not start with one. -/
  | bareQuote (start line column : Nat)
  /-- Something after a closing quote, or a quote that is never closed. -/
  | strayQuote (start line column : Nat)
  | fieldCount (line : Nat)
  deriving DecidableEq

/-- The first line of a record, told if a fault is on a later one. -/
def startNote (start line : Nat) : Text :=
  if start = line then "" else "record on line " ++ Text.ofNat start ++ "; "

def position (start line column : Nat) : Text :=
  startNote start line ++ "parse error on line " ++ Text.ofNat line ++ ", column " ++
    Text.ofNat column ++ ": "

def Fault.message : Fault → Text
  | .bareQuote start line column =>
      position start line column ++ "bare \" in non-quoted-field"
  | .strayQuote start line column =>
      position start line column ++ "extraneous or missing \" in quoted-field"
  | .fieldCount line => "record on line " ++ Text.ofNat line ++ ": wrong number of fields"

/-- The text with every line end as one line feed, onto what is before it, last first. A carriage
return at the very end is dropped. -/
def lineEndsOnto (done : Text) : Text → Text
  | [] => done
  | b :: s =>
      if b = '\r' ∧ (s.isEmpty ∨ s.head? = some ('\n' : UInt8)) then lineEndsOnto done s
      else lineEndsOnto (b :: done) s

def lineEnds (s : Text) : Text := (lineEndsOnto [] s).reverse

inductive Mode where
  | lineStart
  | comment
  | fieldStart
  | plain
  | quoted
  /-- After a quote in a quoted field. -/
  | closing
  deriving DecidableEq

/-- Where a reader stands: fields and bytes of the record in hand are held last first. -/
structure Cursor where
  mode : Mode := .lineStart
  start : Nat := 1
  line : Nat := 1
  column : Nat := 1
  fields : List Text := []
  field : Text := []

namespace Cursor

def record (c : Cursor) : Record := ⟨c.start, (c.field.reverse :: c.fields).reverse⟩

def endField (c : Cursor) : Cursor :=
  { c with
    mode := .fieldStart, column := c.column + 1, fields := c.field.reverse :: c.fields, field := [] }

def nextLine (c : Cursor) : Cursor := { start := c.line + 1, line := c.line + 1 }

def keep (c : Cursor) (mode : Mode) (b : UInt8) : Cursor :=
  { c with mode, column := c.column + 1, field := b :: c.field }

def pass (c : Cursor) (mode : Mode) : Cursor := { c with mode, column := c.column + 1 }

end Cursor

inductive Step where
  | go (next : Cursor)
  | finish (record : Record) (next : Cursor)
  | fail (fault : Fault)

def plainStep (separator : UInt8) (c : Cursor) (b : UInt8) : Step :=
  if b = separator then .go c.endField
  else if b = '\n' then .finish c.record c.nextLine
  else if b = '"' then .fail (.bareQuote c.start c.line c.column)
  else .go (c.keep .plain b)

def fieldStep (separator : UInt8) (c : Cursor) (b : UInt8) : Step :=
  if b = '"' then .go (c.pass .quoted) else plainStep separator c b

def step (separator comment : UInt8) (c : Cursor) (b : UInt8) (last : Bool) : Step :=
  match c.mode with
  | .lineStart =>
      if b = comment then .go (c.pass .comment)
      else if b = '\n' then .go c.nextLine
      else fieldStep separator c b
  | .comment => if b = '\n' then .go c.nextLine else .go (c.pass .comment)
  | .fieldStart => fieldStep separator c b
  | .plain => plainStep separator c b
  | .quoted =>
      if b = '"' then .go (c.pass .closing)
      else if b = '\n' && !last then
        .go { c with line := c.line + 1, column := 1, field := b :: c.field }
      else .go (c.keep .quoted b)
  | .closing =>
      if b = '"' then .go (c.keep .quoted b)
      else if b = separator then .go c.endField
      else if b = '\n' then .finish c.record c.nextLine
      else .fail (.strayQuote c.start c.line (c.column - 1))

/-- What the end of the text leaves: a last record, a fault or nothing. -/
def atEnd (c : Cursor) : Except Fault (Option Record) :=
  match c.mode with
  | .lineStart | .comment => .ok none
  | .fieldStart | .plain | .closing => .ok (some c.record)
  | .quoted => .error (.strayQuote c.start c.line c.column)

def recordsOnto (separator comment : UInt8) (records : List Record) (c : Cursor) :
    Text → List Record × Option Fault
  | [] =>
      match atEnd c with
      | .ok none => (records, none)
      | .ok (some record) => (record :: records, none)
      | .error fault => (records, some fault)
  | b :: s =>
      match step separator comment c b s.isEmpty with
      | .go next => recordsOnto separator comment records next s
      | .finish record next => recordsOnto separator comment (record :: records) next s
      | .fail fault => (records, some fault)

/-- The records of a text in order, up to the first fault if there is one. -/
def records (separator comment : UInt8) (s : Text) : List Record × Option Fault :=
  let (found, fault) := recordsOnto separator comment [] {} (lineEnds s)
  (found.reverse, fault)

end Z80Cost.Delimited
