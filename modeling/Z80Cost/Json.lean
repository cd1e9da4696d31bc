import Z80Cost.Text.Integer
import Z80Cost.Text.Quoted

/-!
JSON texts. A text is read once from the left, up to the end of its first value; arrays and objects
that are not closed yet wait on a stack. Writing escapes what HTML would misread, and a byte that is
part of no character is replaced in both directions.
-/

namespace Z80Cost

inductive Json where
  | null
  | bool (b : Bool)
  /-- A number as it is written. -/
  | number (literal : Text)
  | string (s : Text)
  | array (items : List Json)
  /-- Keys with their values, in order; a key may occur again. -/
  | object (members : List (Text × Json))

namespace Json

inductive Fault where
  | empty
  /-- The text ends inside the value. -/
  | truncated
  | malformed
  deriving DecidableEq

/-! Numbers and names -/

def digits (s : Text) : Except Fault Nat :=
  match s with
  | [] => .error .truncated
  | b :: _ =>
      if Text.isDigit b then .ok (s.takeWhile Text.isDigit).length else .error .malformed

/-- The length of the integer part: no zero in front of another digit. -/
def integerPart (s : Text) : Except Fault Nat :=
  if s.head? = some ('0' : UInt8) then .ok 1 else digits s

def fractionPart (s : Text) : Except Fault Nat :=
  match s with
  | b :: rest => if b = '.' then (digits rest).map (· + 1) else .ok 0
  | [] => .ok 0

def exponentPart (s : Text) : Except Fault Nat :=
  match s with
  | b :: rest =>
      if b = 'e' ∨ b = 'E' then
        match rest with
        | sign :: more =>
            if sign = '+' ∨ sign = '-' then (digits more).map (· + 2)
            else (digits rest).map (· + 1)
        | [] => .error .truncated
      else .ok 0
  | [] => .ok 0

def numberLength (s : Text) : Except Fault Nat := do
  let sign := if s.head? = some ('-' : UInt8) then 1 else 0
  let whole ← integerPart (s.drop sign)
  let fraction ← fractionPart (s.drop (sign + whole))
  let exponent ← exponentPart (s.drop (sign + whole + fraction))
  return sign + whole + fraction + exponent

def expect : (name : Text) → Text → Except Fault Unit
  | [], _ => .ok ()
  | _ :: _, [] => .error .truncated
  | n :: name, b :: s => if n = b then expect name s else .error .malformed

/-! Strings -/

inductive StringMode where
  | plain
  | escape
  /-- So many hexadecimal digits are due. -/
  | code (due : Nat)
  deriving DecidableEq

def escaped? (letter : UInt8) : Option UInt8 :=
  if letter = '"' ∨ letter = '\\' ∨ letter = '/' then some letter
  else if letter = 'b' then some 0x08
  else if letter = 'f' then some 0x0C
  else if letter = 'n' then some 0x0A
  else if letter = 'r' then some 0x0D
  else if letter = 't' then some 0x09
  else none

def hexDigit? (b : UInt8) : Option Nat := (Text.digit? b).filter (· < 16)

def StringMode.next : StringMode → UInt8 → Except Fault StringMode
  | .plain, b =>
      if b = '\\' then .ok .escape else if b < 0x20 then .error .malformed else .ok .plain
  | .escape, b =>
      if b = 'u' then .ok (.code 4)
      else if (escaped? b).isSome then .ok .plain
      else .error .malformed
  | .code due, b =>
      if (hexDigit? b).isNone then .error .malformed
      else if due ≤ 1 then .ok .plain
      else .ok (.code (due - 1))

/-- The length of a string after its opening quote, which the closing one ends; `n` bytes are
before. -/
def stringLength (n : Nat) (mode : StringMode) : Text → Except Fault Nat
  | [] => .error .truncated
  | b :: s =>
      if mode = .plain ∧ b = '"' then .ok n
      else
        match mode.next b with
        | .ok next => stringLength (n + 1) next s
        | .error fault => .error fault

def code? : Text → Option Nat
  | a :: b :: c :: d :: _ => do
      let a ← hexDigit? a
      let b ← hexDigit? b
      let c ← hexDigit? c
      let d ← hexDigit? d
      return ((a * 16 + b) * 16 + c) * 16 + d
  | _ => none

def isHighSurrogate (code : Nat) : Bool := 0xD800 ≤ code && code < 0xDC00

def isLowSurrogate (code : Nat) : Bool := 0xDC00 ≤ code && code < 0xE000

def lowSurrogate? (s : Text) : Option Nat :=
  ((Text.after? "\\u" s).bind code?).filter isLowSurrogate

/-- The character of an escape by code, `s` being what follows its digits, and how many more bytes
it takes. Half a pair alone is replaced. -/
def character (code : Nat) (s : Text) : Char × Nat :=
  if isHighSurrogate code then
    match lowSurrogate? s with
    | some low => (Char.ofNat (0x10000 + (code - 0xD800) * 0x400 + (low - 0xDC00)), 6)
    | none => (Text.replacement, 0)
  else if isLowSurrogate code then (Text.replacement, 0)
  else (Char.ofNat code, 0)

/-- What the first symbol of a string stands for, and how many bytes after `b` it takes. -/
def stringSymbol (b : UInt8) (s : Text) : Text × Nat :=
  if b = '\\' then
    match s with
    | [] => ([], 0)
    | letter :: rest =>
        match escaped? letter with
        | some c => ([c], 1)
        | none =>
            let (c, more) := character ((code? rest).getD 0) (rest.drop 4)
            (Text.ofChar c, 5 + more)
  else
    match Text.character? b s with
    | some (c, more) => (Text.ofChar c, more)
    | none => (Text.ofChar Text.replacement, 0)

def unescapeOnto (done : Text) : (skip : Nat) → Text → Text
  | _, [] => done
  | skip + 1, _ :: s => unescapeOnto done skip s
  | 0, b :: s =>
      let (bytes, skip) := stringSymbol b s
      unescapeOnto (bytes.reverse ++ done) skip s

def unescape (s : Text) : Text := (unescapeOnto [] 0 s).reverse

def readString (s : Text) : Except Fault (Text × Nat) := do
  let n ← stringLength 0 .plain s
  return (unescape (s.take n), n + 1)

/-! Values -/

/-- A value without parts that begins with `b`, and how many bytes after `b` it takes. -/
def readScalar (b : UInt8) (s : Text) : Except Fault (Json × Nat) :=
  if b = '"' then do
    let (text, n) ← readString s
    return (.string text, n)
  else if b = 'n' then (expect "ull" s).map fun _ => (.null, 3)
  else if b = 't' then (expect "rue" s).map fun _ => (.bool true, 3)
  else if b = 'f' then (expect "alse" s).map fun _ => (.bool false, 4)
  else if b = '-' ∨ Text.isDigit b then do
    let n ← numberLength (b :: s)
    return (.number ((b :: s).take n), n - 1)
  else .error .malformed

/-- An array or object that is not closed yet, its parts last first. -/
inductive Frame where
  | array (items : List Json)
  | object (members : List (Text × Json))
  /-- An object whose value under `key` is due. -/
  | member (members : List (Text × Json)) (key : Text)

inductive Due where
  | value
  /-- A value, or the end of an array without items. -/
  | firstItem
  | key
  /-- A key, or the end of an object without members. -/
  | firstKey
  | colon
  /-- A comma, or the end of the innermost array or object. -/
  | separator
  deriving DecidableEq

/-- How deep arrays and objects may be nested. -/
def maxDepth : Nat := 10000

/-- A reader between two tokens; `room` more arrays and objects may be opened. -/
structure Reader where
  frames : List Frame := []
  due : Due := .value
  room : Nat := maxDepth

inductive Progress where
  | done (value : Json)
  | go (reader : Reader)

def Reader.put (reader : Reader) (value : Json) : Except Fault Progress :=
  match reader.frames with
  | [] => .ok (.done value)
  | .array items :: outer =>
      .ok (.go { reader with frames := .array (value :: items) :: outer, due := .separator })
  | .member members key :: outer =>
      .ok (.go
        { reader with frames := .object ((key, value) :: members) :: outer, due := .separator })
  | .object _ :: _ => .error .malformed

def Reader.enter (reader : Reader) (frame : Frame) (due : Due) : Except Fault Progress :=
  match reader.room with
  | 0 => .error .malformed
  | room + 1 => .ok (.go { frames := frame :: reader.frames, due, room })

def Reader.close (reader : Reader) (b : UInt8) : Except Fault Progress :=
  match reader.frames with
  | .array items :: outer =>
      if b = ']' then
        { reader with frames := outer, room := reader.room + 1 }.put (.array items.reverse)
      else .error .malformed
  | .object members :: outer =>
      if b = '\x7d' then
        { reader with frames := outer, room := reader.room + 1 }.put (.object members.reverse)
      else .error .malformed
  | _ => .error .malformed

def Reader.value (reader : Reader) (b : UInt8) (s : Text) : Except Fault (Progress × Nat) :=
  if b = '[' then (reader.enter (.array []) .firstItem).map (·, 0)
  else if b = '\x7b' then (reader.enter (.object []) .firstKey).map (·, 0)
  else do
    let (value, n) ← readScalar b s
    return (← reader.put value, n)

def Reader.key (reader : Reader) (b : UInt8) (s : Text) : Except Fault (Progress × Nat) :=
  match reader.frames with
  | .object members :: outer =>
      if b = '"' then do
        let (key, n) ← readString s
        return (.go { reader with frames := .member members key :: outer, due := .colon }, n)
      else .error .malformed
  | _ => .error .malformed

def Reader.another (reader : Reader) : Except Fault Progress :=
  match reader.frames with
  | .array _ :: _ => .ok (.go { reader with due := .value })
  | .object _ :: _ => .ok (.go { reader with due := .key })
  | _ => .error .malformed

/-- The token that begins with `b`, and how many bytes after `b` it takes. -/
def Reader.token (reader : Reader) (b : UInt8) (s : Text) : Except Fault (Progress × Nat) :=
  match reader.due with
  | .value => reader.value b s
  | .firstItem => if b = ']' then (reader.close b).map (·, 0) else reader.value b s
  | .key => reader.key b s
  | .firstKey => if b = '\x7d' then (reader.close b).map (·, 0) else reader.key b s
  | .colon =>
      if b = ':' then .ok (.go { reader with due := .value }, 0) else .error .malformed
  | .separator =>
      if b = ',' then reader.another.map (·, 0) else (reader.close b).map (·, 0)

def isBlank (b : UInt8) : Bool := b == ' ' || b == '\t' || b == '\r' || b == '\n'

def Reader.read (reader : Reader) : (skip : Nat) → Text → Except Fault Json
  | _, [] => .error (if reader.frames.isEmpty then .empty else .truncated)
  | skip + 1, _ :: s => reader.read skip s
  | 0, b :: s =>
      if isBlank b then reader.read 0 s
      else
        match reader.token b s with
        | .error fault => .error fault
        | .ok (.done value, _) => .ok value
        | .ok (.go next, skip) => next.read skip s

/-- The first value of a text; what follows it is not looked at. -/
def read (s : Text) : Except Fault Json := ({} : Reader).read 0 s

/-! Writing -/

/-- The letter of a control that has an escape of its own. -/
def letter? (c : Char) : Option Char :=
  if c = '\x08' then some 'b'
  else if c = '\x0c' then some 'f'
  else if c = '\n' then some 'n'
  else if c = '\r' then some 'r'
  else if c = '\t' then some 't'
  else none

/-- Whether a character is written by its code: controls, what HTML gives a meaning, and the two
line ends that scripts do not take in a string. -/
def byCode (c : Char) : Bool :=
  c.toNat < 0x20 || c == '<' || c == '>' || c == '&' || c.toNat == 0x2028 || c.toNat == 0x2029

def escapeChar (c : Char) : Text :=
  if c = '"' ∨ c = '\\' then '\\' :: Text.ofChar c
  else match letter? c with
    | some letter => ['\\', letter]
    | none =>
        if byCode c then "\\u" ++ Text.hexDigits Text.lowerDigit 4 c.toNat else Text.ofChar c

def escapeSymbol : Text.Symbol → Text
  | .character c => escapeChar c
  | .stray _ => "\\ufffd"

def quote (s : Text) : Text := "\"" ++ s.symbols.flatMap escapeSymbol ++ "\""

def newLine (depth : Nat) : Text := "\n" ++ List.replicate (2 * depth) (' ' : UInt8)

def block (depth : Nat) (opening closing : Text) (parts : List Text) : Text :=
  if parts.isEmpty then opening ++ closing
  else
    opening ++ newLine (depth + 1) ++ Text.join ("," ++ newLine (depth + 1)) parts ++
      newLine depth ++ closing

def writeArray (depth : Nat) (items : List Text) : Text := block depth "[" "]" items

def writeObject (depth : Nat) (members : List (Text × Text)) : Text :=
  block depth "\x7b" "\x7d" (members.map fun (key, value) => quote key ++ ": " ++ value)

end Json

end Z80Cost
