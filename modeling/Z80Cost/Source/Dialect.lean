import Z80Cost.Name
import Z80Cost.Source.Label
import Z80Cost.Source.Repetition
import Z80Cost.Source.Shorthand
import Z80Cost.Text.LowerCase
import Z80Cost.Text.Quoted

/-!
How a family of assemblers lays out a source line, and the statements that a line holds.
-/

namespace Z80Cost.Source

structure Dialect where
  name : Text
  label : LabelRule
  comments : List Text
  separator : Option UInt8
  repetition : Repetition
  registerLists : Bool
  composedInstructions : Bool
  deriving DecidableEq

namespace Dialect

def generic : Dialect where
  name := "default"
  label := .colon
  comments := [";", "//"]
  separator := none
  repetition := .rept
  registerLists := false
  composedInstructions := false

def sjasmplus : Dialect where
  name := "sjasmplus"
  label := .column
  comments := [";", "//"]
  separator := some ':'
  repetition := .dup
  registerLists := true
  composedInstructions := true

def tniasm : Dialect where
  name := "tniasm"
  label := .colon
  comments := [";"]
  separator := some '|'
  repetition := .rept
  registerLists := false
  composedInstructions := false

def all : List Dialect := [generic, sjasmplus, tniasm]

/-- A name that chooses no dialect, as it was looked up. -/
structure Unknown where
  name : Text
  fault : Name.Fault
  deriving DecidableEq

def Unknown.message (unknown : Unknown) : Text :=
  "syntax " ++ unknown.name.quoted ++ ": " ++ unknown.fault.message

/-- The dialect that a name or an unambiguous beginning of one chooses, in any case. -/
def find (name : Text) : Except Unknown Dialect :=
  let key := name.trim.lower
  (Name.resolve Dialect.name all key).mapError (Unknown.mk key)

/-! Statements of a line -/

/-- The statements that one in canonical spelling stands for. -/
def spellOut (dialect : Dialect) (s : Text) : List Text :=
  let statement := Statement.ofText s
  match if dialect.registerLists then statement.registerList? else none with
  | some statements => statements
  | none =>
      match if dialect.composedInstructions then statement.composed? else none with
      | some statements => statements
      | none => [s]

def parts (dialect : Dialect) (line : Text) : List Text :=
  match dialect.separator with
  | some separator => splitOutside separator line
  | none => [line]

/-- The statements of a raw line: comment and label removed, in canonical spelling, shorthands
spelled out. -/
def statements (dialect : Dialect) (raw : Text) : List Text :=
  let line := Label.remove dialect.label (withoutComment dialect.comments raw)
  (((dialect.parts line).map clean).filter (!·.isEmpty)).flatMap dialect.spellOut

end Dialect

end Z80Cost.Source
