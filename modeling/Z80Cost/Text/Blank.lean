import Z80Cost.Text.Basic

/-!
White space of the Unicode standard, each character as its UTF-8 bytes: no byte sequence of the
list starts another, so what a text starts or ends with is decided without decoding it.
-/

namespace Z80Cost.Text

/-- Every white space character. A lone byte 0x85 or 0xA0 is none. -/
def blanks : List Text :=
  [[0x09], [0x0A], [0x0B], [0x0C], [0x0D], [0x20],
   [0xC2, 0x85], [0xC2, 0xA0], [0xE1, 0x9A, 0x80],
   [0xE2, 0x80, 0x80], [0xE2, 0x80, 0x81], [0xE2, 0x80, 0x82], [0xE2, 0x80, 0x83],
   [0xE2, 0x80, 0x84], [0xE2, 0x80, 0x85], [0xE2, 0x80, 0x86], [0xE2, 0x80, 0x87],
   [0xE2, 0x80, 0x88], [0xE2, 0x80, 0x89], [0xE2, 0x80, 0x8A],
   [0xE2, 0x80, 0xA8], [0xE2, 0x80, 0xA9], [0xE2, 0x80, 0xAF],
   [0xE2, 0x81, 0x9F], [0xE3, 0x80, 0x80]]

/-- How many bytes of `s` the first of `marks` that it starts with takes; 0 without one. -/
def leading (marks : List Text) (s : Text) : Nat :=
  match marks.find? (·.isPrefixOf s) with
  | some mark => mark.length
  | none => 0

/-- Drops `marks` from the front as long as there is one. `skip` bytes of the mark in hand are
still to be dropped. -/
def dropLeading (marks : List Text) : (skip : Nat) → Text → Text
  | _, [] => []
  | skip + 1, _ :: s => dropLeading marks skip s
  | 0, b :: s =>
      match leading marks (b :: s) with
      | 0 => b :: s
      | skip + 1 => dropLeading marks skip s

def trimLeft (s : Text) : Text := dropLeading blanks 0 s

def trimRight (s : Text) : Text := (dropLeading (blanks.map List.reverse) 0 s.reverse).reverse

def trim (s : Text) : Text := trimRight (trimLeft s)

/-- Adds a finished word, held last byte first, to the words before it; no word is empty. -/
def pushWord (word : Text) (words : List Text) : List Text :=
  if word.isEmpty then words else word.reverse :: words

/-- The words of a text, last first. `word` is the one in hand, last byte first. -/
def wordsOnto (word : Text) (words : List Text) : (skip : Nat) → Text → List Text
  | _, [] => pushWord word words
  | skip + 1, _ :: s => wordsOnto word words skip s
  | 0, b :: s =>
      match leading blanks (b :: s) with
      | 0 => wordsOnto (b :: word) words 0 s
      | skip + 1 => wordsOnto [] (pushWord word words) skip s

/-- The maximal runs without white space, in order. -/
def words (s : Text) : List Text := (wordsOnto [] [] 0 s).reverse

end Z80Cost.Text
