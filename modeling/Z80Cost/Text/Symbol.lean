import Z80Cost.Text.Basic

/-!
The symbols of a text: the characters that are well-formed UTF-8, and each byte that is part of
no such character.
-/

namespace Z80Cost.Text

inductive Symbol where
  | character (c : Char)
  | stray (b : UInt8)
  deriving DecidableEq

/-- The payload bits of a first byte, how many bytes follow it, and the least code point that
needs that many. -/
def leadByte? (b : UInt8) : Option (Nat × Nat × Nat) :=
  if b < 0x80 then some (b.toNat, 0, 0)
  else if b < 0xC0 then none
  else if b < 0xE0 then some (b.toNat - 0xC0, 1, 0x80)
  else if b < 0xF0 then some (b.toNat - 0xE0, 2, 0x800)
  else if b < 0xF8 then some (b.toNat - 0xF0, 3, 0x10000)
  else none

/-- The code point that `count` following bytes complete. -/
def following? : (count : Nat) → (code : Nat) → Text → Option Nat
  | 0, code, _ => some code
  | _ + 1, _, [] => none
  | count + 1, code, b :: s =>
      if 0x80 ≤ b && b < 0xC0 then following? count (code * 64 + (b.toNat - 0x80)) s else none

/-- The character at the front and how many bytes of `s` come after its first: the shortest
form only, no surrogates. -/
def character? (b : UInt8) (s : Text) : Option (Char × Nat) :=
  match leadByte? b with
  | none => none
  | some (bits, count, least) =>
      match following? count bits s with
      | none => none
      | some code =>
          if h : code.isValidChar then
            if least ≤ code then some (Char.ofNatAux code h, count) else none
          else none

/-- The symbols of a text, last first. -/
def symbolsOnto (found : List Symbol) : (skip : Nat) → Text → List Symbol
  | _, [] => found
  | skip + 1, _ :: s => symbolsOnto found skip s
  | 0, b :: s =>
      match character? b s with
      | some (c, skip) => symbolsOnto (.character c :: found) skip s
      | none => symbolsOnto (.stray b :: found) 0 s

def symbols (s : Text) : List Symbol := (symbolsOnto [] 0 s).reverse

/-- The width of a text on screen: one column a symbol. -/
def width (s : Text) : Nat := s.symbols.length

def ofChar (c : Char) : Text := String.utf8EncodeChar c

/-- What stands in for a byte that is part of no character. -/
def replacement : Char := '\ufffd'

/-- `s` with spaces before it up to `n` columns. -/
def padLeft (n : Nat) (s : Text) : Text := List.replicate (n - s.width) (' ' : UInt8) ++ s

/-- `s` with spaces after it up to `n` columns. -/
def padRight (n : Nat) (s : Text) : Text := s ++ List.replicate (n - s.width) (' ' : UInt8)

end Z80Cost.Text
