/-!
Text is a list of bytes. Sources, tables and names may hold any bytes, well-formed UTF-8 or
not, and every length and position counts bytes.
-/

namespace Z80Cost

abbrev Text := List UInt8

/-- An ASCII character stands for its byte. -/
instance byteOfChar : Coe Char UInt8 := ⟨Char.toUInt8⟩

namespace Text

/-- The bytes of a string in UTF-8. -/
def ofString (s : String) : Text :=
  s.toByteArray.data.toList

instance : Coe String Text := ⟨ofString⟩

/-! ASCII classes and case -/

def isDigit (b : UInt8) : Bool := 0x30 ≤ b && b ≤ 0x39

def isUpper (b : UInt8) : Bool := 0x41 ≤ b && b ≤ 0x5A

def isLower (b : UInt8) : Bool := 0x61 ≤ b && b ≤ 0x7A

/-- Letters, digits and the underscore. -/
def isWord (b : UInt8) : Bool :=
  isDigit b || isUpper b || isLower b || b == 0x5F

def upperByte (b : UInt8) : UInt8 := if isLower b then b - 0x20 else b

/-- ASCII letters in upper case; every other byte is kept. -/
def upper (s : Text) : Text := s.map upperByte

/-- The part of `s` before its last byte when that byte is `b`. -/
def before? (b : UInt8) (s : Text) : Option Text :=
  if s.getLast? = some b then some s.dropLast else none

/-- `s` without the leading `head`, when it starts with it. -/
def after? : (head : Text) → Text → Option Text
  | [], s => some s
  | _ :: _, [] => none
  | h :: head, b :: s => if h = b then after? head s else none

def endsWith (tail s : Text) : Bool := tail.reverse.isPrefixOf s.reverse

def join (separator : Text) (parts : List Text) : Text := separator.intercalate parts

end Text

end Z80Cost
