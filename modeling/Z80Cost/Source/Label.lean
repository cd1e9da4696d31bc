import Z80Cost.Text.Basic

/-!
Labels at the start of a line.
-/

namespace Z80Cost.Source

/-- What a dialect takes for a label. These are the rules of the dialects that can be chosen; a dialect with a rule
of its own, or without labels, is not represented. -/
inductive LabelRule where
  /-- A name and one or two colons, at any column. -/
  | colon
  /-- A name at the start of the line with at most two colons after it; further right, a name and
  one or two colons before a blank or the end. -/
  | column
  deriving DecidableEq

namespace Label

def isBlank (b : UInt8) : Bool :=
  b == ' ' || b == '\t' || b == '\n' || b == '\r' || b == 0x0C

def isNameByte (b : UInt8) : Bool :=
  !(isBlank b || b == ':' || b == ';' || b == ',' || b == '\'' || b == '"' || b == '(' || b == ')')

def afterName? (s : Text) : Option Text :=
  if s.head?.any isNameByte then some (s.dropWhile isNameByte) else none

/-- What follows one colon, or two. -/
def afterColons? : Text → Option Text
  | [] => none
  | b :: s =>
      if b = ':' then some (if s.head? = some (':' : UInt8) then s.drop 1 else s) else none

/-- What follows a blank; nothing follows the end. -/
def afterBlank? : Text → Option Text
  | [] => some []
  | b :: s => if isBlank b then some s else none

def after? (rule : LabelRule) (line : Text) : Option Text :=
  match rule with
  | .colon => (afterName? (line.dropWhile isBlank)).bind afterColons?
  | .column =>
      match afterName? line with
      | some rest => some ((afterColons? rest).getD rest)
      | none => ((afterName? (line.dropWhile isBlank)).bind afterColons?).bind afterBlank?

def remove (rule : LabelRule) (line : Text) : Text := (after? rule line).getD line

end Label

end Z80Cost.Source
