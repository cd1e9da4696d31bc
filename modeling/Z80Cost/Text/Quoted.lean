import Z80Cost.Text.Printable
import Z80Cost.Text.Symbol

/-!
A text between double quotes with every symbol visible, as messages show a text that was not
understood.
-/

namespace Z80Cost.Text

/-- The `n` low hexadecimal digits of `v`, most significant first. -/
def hexDigits (digit : Nat → UInt8) : (n : Nat) → (v : Nat) → Text
  | 0, _ => []
  | n + 1, v => hexDigits digit n (v / 16) ++ [digit (v % 16)]

/-- The digit of value `d` below 36, in lower case. -/
def lowerDigit (d : Nat) : UInt8 := if d < 10 then 0x30 + d.toUInt8 else 0x57 + d.toUInt8

/-- The digit of value `d` below 36, in upper case. -/
def upperDigit (d : Nat) : UInt8 := if d < 10 then 0x30 + d.toUInt8 else 0x37 + d.toUInt8

/-- The letter that follows the backslash for a control with an escape of its own. -/
def controlLetter? (c : Char) : Option Char :=
  if c = '\x07' then some 'a'
  else if c = '\x08' then some 'b'
  else if c = '\x0c' then some 'f'
  else if c = '\n' then some 'n'
  else if c = '\r' then some 'r'
  else if c = '\t' then some 't'
  else if c = '\x0b' then some 'v'
  else none

/-- A code point by number, in the shortest of the three escapes that holds it. -/
def escapedCode (c : Char) : Text :=
  if c.toNat < 0x20 ∨ c.toNat = 0x7F then "\\x" ++ hexDigits lowerDigit 2 c.toNat
  else if c.toNat < 0x10000 then "\\u" ++ hexDigits lowerDigit 4 c.toNat
  else "\\U" ++ hexDigits lowerDigit 8 c.toNat

def escapedChar (delimiter c : Char) : Text :=
  if c = delimiter ∨ c = '\\' then '\\' :: ofChar c
  else if isPrintable c then ofChar c
  else match controlLetter? c with
    | some letter => ['\\', letter]
    | none => escapedCode c

def escapedSymbol (delimiter : Char) : Symbol → Text
  | .character c => escapedChar delimiter c
  | .stray b => "\\x" ++ hexDigits lowerDigit 2 b.toNat

def quoted (s : Text) : Text :=
  "\"" ++ s.symbols.flatMap (escapedSymbol '"') ++ "\""

/-- The character of byte value `b` in single quotes. -/
def quotedByte (b : UInt8) : Text :=
  "'" ++ escapedChar '\'' (Char.ofNat b.toNat) ++ "'"

end Z80Cost.Text
