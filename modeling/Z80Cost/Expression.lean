import Z80Cost.Numeral

/-!
Constant expressions: numbers, quoted characters, parentheses and operators on 64-bit words. An
expression is read once from the left; operators wait until one that binds less tightly, a closing
parenthesis or the end makes their operands complete. A symbol, or a division by zero anywhere,
leaves the whole without a value.
-/

namespace Z80Cost.Expression

inductive Unary where
  | negate
  | keep
  | complement
  deriving DecidableEq

inductive Binary where
  | multiply
  | divide
  | remainder
  | add
  | subtract
  | shiftLeft
  | shiftRight
  | and
  | xor
  | or
  deriving DecidableEq

def Unary.apply : Unary → Int64 → Int64
  | .negate, v => -v
  | .keep, v => v
  | .complement, v => ~~~v

/-- How tightly an operator binds its operands. Every unary operator binds tighter. -/
def Binary.rank : Binary → Nat
  | .multiply | .divide | .remainder => 6
  | .add | .subtract => 5
  | .shiftLeft | .shiftRight => 4
  | .and => 3
  | .xor => 2
  | .or => 1

/-- Words wrap around, division goes toward zero and shifts take their count modulo 64. -/
def Binary.apply? : Binary → Int64 → Int64 → Option Int64
  | .multiply, a, b => some (a * b)
  | .divide, a, b => if b = 0 then none else some (a / b)
  | .remainder, a, b => if b = 0 then none else some (a % b)
  | .add, a, b => some (a + b)
  | .subtract, a, b => some (a - b)
  | .shiftLeft, a, b => some (a <<< b)
  | .shiftRight, a, b => some (a >>> b)
  | .and, a, b => some (a &&& b)
  | .xor, a, b => some (a ^^^ b)
  | .or, a, b => some (a ||| b)

/-! Tokens -/

inductive Token where
  | value (v : Int64)
  | unary (op : Unary)
  | binary (op : Binary)
  | opening
  | closing
  deriving DecidableEq

def isLiteralByte (b : UInt8) : Bool := Text.isWord b || b == '.'

/-- A radix mark belongs to the number after it, since an operand is due. -/
def isRadixMark (b : UInt8) : Bool :=
  b == '#' || b == '$' || b == '&' || b == '%' || b == '@'

def literal : Text → Text
  | [] => []
  | b :: s =>
      if isRadixMark b then b :: s.takeWhile isLiteralByte
      else (b :: s).takeWhile isLiteralByte

/-- A character after its opening quote, with the bytes that it takes from there on. A quote
between quotes is written twice. -/
def character? (quote : UInt8) : Text → Option (Int64 × Nat)
  | a :: b :: s =>
      if a = quote then
        match s with
        | c :: _ => if b = quote ∧ c = quote then some (Int64.ofNat quote.toNat, 3) else none
        | [] => none
      else if b = quote then some (Int64.ofNat a.toNat, 2)
      else none
  | _ => none

/-- The token that begins with `b` where an operand is due, and how many bytes after `b` it
takes. -/
def operandToken? (b : UInt8) (s : Text) : Option (Token × Nat) :=
  if b = '(' then some (.opening, 0)
  else if b = '-' then some (.unary .negate, 0)
  else if b = '+' then some (.unary .keep, 0)
  else if b = '~' then some (.unary .complement, 0)
  else if b = '\'' ∨ b = '"' then (character? b s).map fun (v, n) => (.value v, n)
  else
    let word := literal (b :: s)
    (Numeral.read? word).map fun v => (.value v, word.length - 1)

/-- The token that begins with `b` after an operand. -/
def operatorToken? (b : UInt8) (s : Text) : Option (Token × Nat) :=
  if b = ')' then some (.closing, 0)
  else if b = '<' ∧ s.head? = some ('<' : UInt8) then some (.binary .shiftLeft, 1)
  else if b = '>' ∧ s.head? = some ('>' : UInt8) then some (.binary .shiftRight, 1)
  else if b = '*' then some (.binary .multiply, 0)
  else if b = '/' then some (.binary .divide, 0)
  else if b = '%' then some (.binary .remainder, 0)
  else if b = '+' then some (.binary .add, 0)
  else if b = '-' then some (.binary .subtract, 0)
  else if b = '&' then some (.binary .and, 0)
  else if b = '^' then some (.binary .xor, 0)
  else if b = '|' then some (.binary .or, 0)
  else none

/-! Reading -/

/-- An operator that waits for its right operand, or a parenthesis that waits to be closed. -/
inductive Pending where
  | unary (op : Unary)
  | binary (left : Int64) (op : Binary)
  | opening
  deriving DecidableEq

/-- What was read so far: an operand is due, or the last one is `v`. Innermost comes first. -/
inductive State where
  | due (waiting : List Pending)
  | read (v : Int64) (waiting : List Pending)
  deriving DecidableEq

/-- Applies the waiting operators that bind at least as tightly as `rank`, up to the innermost
parenthesis. -/
def collapse (rank : Nat) : Int64 → List Pending → Option (Int64 × List Pending)
  | v, .unary op :: waiting => collapse rank (op.apply v) waiting
  | v, .binary left op :: waiting =>
      if rank ≤ op.rank then
        match op.apply? left v with
        | some w => collapse rank w waiting
        | none => none
      else some (v, .binary left op :: waiting)
  | v, waiting => some (v, waiting)

def State.push : State → Token → Option State
  | .due waiting, .value v => some (.read v waiting)
  | .due waiting, .unary op => some (.due (.unary op :: waiting))
  | .due waiting, .opening => some (.due (.opening :: waiting))
  | .read v waiting, .binary op =>
      match collapse op.rank v waiting with
      | some (left, rest) => some (.due (.binary left op :: rest))
      | none => none
  | .read v waiting, .closing =>
      match collapse 0 v waiting with
      | some (w, .opening :: rest) => some (.read w rest)
      | _ => none
  | _, _ => none

def State.token? : State → UInt8 → Text → Option (Token × Nat)
  | .due _, b, s => operandToken? b s
  | .read _ _, b, s => operatorToken? b s

/-- Reads on to the end. `skip` bytes of the token in hand are still to be passed. -/
def State.readAll (state : State) : (skip : Nat) → Text → Option State
  | _, [] => some state
  | skip + 1, _ :: s => state.readAll skip s
  | 0, b :: s =>
      if b = ' ' ∨ b = '\t' then state.readAll 0 s
      else
        match state.token? b s with
        | none => none
        | some (token, skip) =>
            match state.push token with
            | none => none
            | some next => next.readAll skip s

def State.value? : State → Option Int64
  | .due _ => none
  | .read v waiting =>
      match collapse 0 v waiting with
      | some (w, []) => some w
      | _ => none

def eval? (s : Text) : Option Int64 :=
  match (State.due []).readAll 0 s.trim with
  | some state => state.value?
  | none => none

end Z80Cost.Expression
