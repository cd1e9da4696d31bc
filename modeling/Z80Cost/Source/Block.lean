import Z80Cost.Source.Repetition

/-!
Repeat blocks, spelled out. A block that no statement closes ends with the text; a closing statement
outside every block is an ordinary one. Blocks are expanded from the inside out, and none may grow
the statements around it beyond a limit.
-/

namespace Z80Cost.Source

/-- A block that is not closed yet; its statements are held last first. -/
structure Block (α : Type) where
  count : Int64
  body : List α

/-- The statements outside every block, last first, and the open blocks, innermost first. -/
structure Nest (α : Type) where
  root : List α := []
  blocks : List (Block α) := []

namespace Nest

variable {α : Type}

def innermost (nest : Nest α) : List α :=
  match nest.blocks with
  | [] => nest.root
  | block :: _ => block.body

/-- Puts statements, last first, at the end of the innermost block. -/
def extend (nest : Nest α) (statements : List α) : Nest α :=
  match nest.blocks with
  | [] => { nest with root := statements ++ nest.root }
  | block :: outer => { nest with blocks := { block with body := statements ++ block.body } :: outer }

/-- Whether `count` copies of `body` statements fit after `held` ones. Lengths are no 64-bit words:
none of them wraps around. -/
def fits (limit : Int64) (held body : Nat) (count : Int64) : Bool :=
  count.toInt ≤ (limit.toInt - held).tdiv body

/-- Ends the innermost block, which leaves its copies to the one around it; `none` beyond the
limit. -/
def close? (limit : Int64) (nest : Nest α) : Option (Nest α) :=
  match nest.blocks with
  | [] => some nest
  | block :: outer =>
      let around := { nest with blocks := outer }
      if block.body.isEmpty then some around
      else if fits limit around.innermost.length block.body.length block.count then
        some (around.extend (List.replicate block.count.toInt.toNat block.body).flatten)
      else none

def add? (repetition : Repetition) (text : α → Text) (limit : Int64) (nest : Nest α) (a : α) :
    Option (Nest α) :=
  match repetition.opens? (text a) with
  | some count => some { nest with blocks := ⟨count, []⟩ :: nest.blocks }
  | none =>
      if !nest.blocks.isEmpty && repetition.closes (text a) then nest.close? limit
      else some (nest.extend [a])

def closeAll? (limit : Int64) (nest : Nest α) : Option (Nest α) :=
  nest.blocks.foldlM (fun nest _ => nest.close? limit) nest

end Nest

/-- The most statements that blocks may expand to where no limit is set. -/
def maxExpanded : Int64 := 0x100000

/-- The limit that applies: one that is not positive sets none. -/
def effectiveLimit (limit : Int64) : Int64 := if limit ≤ 0 then maxExpanded else limit

/-- The statements with every block spelled out; `none` beyond the limit. -/
def expand? {α : Type} (repetition : Repetition) (text : α → Text) (limit : Int64)
    (statements : List α) : Option (List α) := do
  let nest ← statements.foldlM (Nest.add? repetition text (effectiveLimit limit)) {}
  let closed ← nest.closeAll? (effectiveLimit limit)
  return closed.root.reverse

end Z80Cost.Source
