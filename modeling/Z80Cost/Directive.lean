import Z80Cost.Expression
import Z80Cost.Instruction.Catalog

/-!
Data definitions: byte lists, word lists and storage blocks. They take space and no time. A value
that the text does not give is listed by a placeholder.
-/

namespace Z80Cost

inductive DataKind where
  | byte
  | word
  | storage
  deriving DecidableEq

def DataKind.name : DataKind → Text
  | .byte => "byte"
  | .word => "word"
  | .storage => "storage"

/-- The name of the kind with a number; numbers past the last have none. -/
def DataKind.nameOfNumber (n : Int64) : Text :=
  if n = 0 then name .byte
  else if n = 1 then name .word
  else if n = 2 then name .storage
  else "unknown"

structure Directive where
  kind : DataKind
  text : Text
  /-- Two hexadecimal digits a byte, or a placeholder. -/
  data : List Text
  deriving DecidableEq

inductive StoragePolicy where
  /-- As data. -/
  | keep
  /-- As copies of the one-byte instruction that the fill byte encodes. -/
  | expand
  deriving DecidableEq

namespace Directive

def byteNames : List Text := ["DB", "DEFB", "DEFM", "DM", ".DB", "BYTE", ".BYTE"]

def wordNames : List Text := ["DW", "DEFW", ".DW", "WORD", ".WORD"]

def storageNames : List Text := ["DS", "DEFS", ".DS", "BLOCK", ".BLOCK"]

def kind? (mnemonic : Text) : Option DataKind :=
  if byteNames.contains mnemonic then some .byte
  else if wordNames.contains mnemonic then some .word
  else if storageNames.contains mnemonic then some .storage
  else none

def unknownByte : Text := "n"

def unknownWord : Text := "nn"

def lowByte (v : Int64) : Text := Pattern.hexText (v.toInt % 256).toNat.toUInt8

/-! Strings -/

/-- What is left of a string after its opening quote, onto the bytes before it, last first: a quote
inside is written twice, and a quote alone ends the string and the text. -/
def unquoteOnto? (quote : UInt8) (done : Text) : Text → Option Text
  | [] => none
  | b :: s =>
      if b = quote then
        match s with
        | [] => some done
        | c :: rest => if c = quote then unquoteOnto? quote (quote :: done) rest else none
      else unquoteOnto? quote (b :: done) s

def unquote? : Text → Option Text
  | [] => none
  | quote :: s =>
      if quote = '"' ∨ quote = '\'' then (unquoteOnto? quote [] s).map List.reverse else none

/-! Operands -/

def byteTokens (operand : Text) : List Text :=
  match unquote? operand with
  | some s => s.map Pattern.hexText
  | none =>
      match Expression.eval? operand with
      | some v => [lowByte v]
      | none => [unknownByte]

/-- The two bytes of an operand of a word list, low first. -/
def wordTokens (operand : Text) : List Text :=
  match Expression.eval? operand with
  | some v => [lowByte v, lowByte (v >>> 8)]
  | none => [unknownWord, unknownWord]

/-- The largest storage block: the whole address space. -/
def maxStorage : Int64 := 0x10000

def storageCount? (operand : Text) : Option Nat :=
  match Expression.eval? operand with
  | some n => if 0 ≤ n ∧ n ≤ maxStorage then some n.toInt.toNat else none
  | none => none

def fillToken : Option Text → Text
  | some operand =>
      match Expression.eval? operand with
      | some v => lowByte v
      | none => unknownByte
  | none => unknownByte

end Directive

inductive Metered where
  | instruction (i : Instruction)
  | directive (d : Directive)
  deriving DecidableEq

namespace Metered

def text : Metered → Text
  | instruction i => i.text
  | directive d => d.text

def timing : Metered → Timing
  | instruction i => i.timing
  | directive _ => {}

/-- The opcode, or the data with spaces between. -/
def bytes : Metered → Text
  | instruction i => i.opcode
  | directive d => Text.join " " d.data

def size : Metered → Int64
  | instruction i => i.size
  | directive d => Int64.ofNat d.data.length

end Metered

namespace Directive

/-- The one-byte instruction that a fill byte encodes; without a fill it is that of byte zero. -/
def fillInstruction? (catalog : Option Catalog) (fill : Option Text) : Option Instruction :=
  let opcode : Text := if fill.isNone then "00" else fillToken fill
  if opcode = unknownByte then none
  else ((catalog.bind (·.withOpcode? opcode)).filter (·.size = 1))

def storage (catalog : Option Catalog) (policy : StoragePolicy) (text : Text) (count : Nat)
    (fill : Option Text) : List Metered :=
  let block := ⟨.storage, text, List.replicate count (fillToken fill)⟩
  match policy with
  | .keep => [.directive block]
  | .expand =>
      if count = 0 then [.directive block]
      else match fillInstruction? catalog fill with
        | some i => List.replicate count (.instruction i)
        | none => [.directive block]

/-- What a data definition is metered as; `none` if it is none or its operands are refused. -/
def meter? (catalog : Option Catalog) (policy : StoragePolicy) (statement : Source.Statement) :
    Option (List Metered) :=
  match kind? statement.mnemonic with
  | none => none
  | some kind =>
      if statement.operands.any List.isEmpty then none
      else
        match kind, statement.operands with
        | _, [] => none
        | .byte, operands => some [.directive ⟨.byte, statement.text, operands.flatMap byteTokens⟩]
        | .word, operands => some [.directive ⟨.word, statement.text, operands.flatMap wordTokens⟩]
        | .storage, [size] =>
            (storageCount? size).map fun n => storage catalog policy statement.text n none
        | .storage, [size, fill] =>
            (storageCount? size).map fun n => storage catalog policy statement.text n (some fill)
        | .storage, _ => none

end Directive

end Z80Cost
