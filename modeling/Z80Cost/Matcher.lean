import Z80Cost.Directive
import Z80Cost.Instruction.Platform

/-!
The instruction that a statement stands for. Every instruction of its mnemonic is scored; the
accumulator may be left out or spelled out where it is the only choice.
-/

namespace Z80Cost

structure Matcher where
  catalog : Catalog
  /-- The tags of the sets that instructions may come from; none means the standard set. -/
  sets : List Text := []
  policy : StoragePolicy := .keep

namespace Matcher

/-- The mnemonics that may be written with a redundant accumulator in front. -/
def explicitAccumulator : List Text :=
  ["SUB", "AND", "OR", "XOR", "CP", "RLC", "RRC", "RL", "RR", "SLA", "SRA", "SLL", "SRL"]

/-- The operands' scores are multiplied from the left, each product rounded. -/
def productFrom (total : Score) : List Operand → List Text → Score
  | shape :: shapes, operand :: operands => productFrom (total.times (shape.score operand)) shapes operands
  | _, _ => total

def product (shapes : List Operand) (operands : List Text) : Score := productFrom .exact shapes operands

def exactForm (shapes : List Operand) (operands : List Text) : Score :=
  if shapes.length = operands.length then product shapes operands else .rejected

/-- How well the operands fit with the accumulator added: `ADD B` for `ADD A,B`. -/
def implicitForm (i : Instruction) (operands : List Text) : Score :=
  match i.operands, i.shapes with
  | [first, _], [_, shape] =>
      if i.mnemonic != "LD" && first == "A" then exactForm [shape] operands else .rejected
  | _, _ => .rejected

/-- How well they fit with the accumulator dropped: `SUB A,B` for `SUB B`. -/
def explicitForm (i : Instruction) (operands : List Text) : Score :=
  match i.shapes, operands with
  | [shape], [first, operand] =>
      if explicitAccumulator.contains i.mnemonic && first == "A" then shape.score operand
      else .rejected
  | _, _ => .rejected

/-- How well a statement fits one instruction, whatever its set. -/
def scoreOf (i : Instruction) (statement : Source.Statement) : Score :=
  let operands := statement.operands
  if i.mnemonic ≠ statement.mnemonic ∨ operands.any List.isEmpty then .rejected
  else if operands.length = i.shapes.length then exactForm i.shapes operands
  else if operands.length + 1 = i.shapes.length then implicitForm i operands
  else explicitForm i operands

def enabledSets (m : Matcher) : List Text :=
  if m.sets.isEmpty then [Platform.standardSet] else m.sets

def isEnabled (m : Matcher) (i : Instruction) : Bool := m.enabledSets.contains i.set

structure Ranked where
  instruction : Instruction
  score : Score
  deriving DecidableEq

/-- Every enabled instruction of the statement's mnemonic with its score, in table order. -/
def rank (m : Matcher) (statement : Source.Statement) : List Ranked :=
  ((m.catalog.candidates statement.mnemonic).filter m.isEnabled).map fun i =>
    ⟨i, scoreOf i statement⟩

/-- The best of some instructions, given the best before them: the first without doubt wins, else
the highest score, and of equal scores the first. -/
def bestFrom (statement : Source.Statement) (best : Option Ranked) :
    List Instruction → Option Ranked
  | [] => best
  | i :: rest =>
      let score := scoreOf i statement
      if score = .exact then some ⟨i, score⟩
      else if score.exceeds ((best.map Ranked.score).getD .rejected) then
        bestFrom statement (some ⟨i, score⟩) rest
      else bestFrom statement best rest

def best? (m : Matcher) (statement : Source.Statement) : Option Ranked :=
  bestFrom statement none ((m.catalog.candidates statement.mnemonic).filter m.isEnabled)

/-- What a statement is metered as: its best instruction, or data where no instruction of any set
has its mnemonic. -/
def meter (m : Matcher) (statement : Source.Statement) : List Metered :=
  if (m.catalog.candidates statement.mnemonic).isEmpty then
    (Directive.meter? (some m.catalog) m.policy statement).getD []
  else
    match m.best? statement with
    | some best => [.instruction best.instruction]
    | none => []

end Matcher

end Z80Cost
