import Z80Cost.Instruction.Pattern

/-!
A catalog holds the instructions of a table in order, with an index by mnemonic and one by opcode.
-/

namespace Z80Cost

/-- Values under keys, each key once. -/
abbrev Index (α : Type) := List (Text × α)

namespace Index

def get? {α : Type} (key : Text) : Index α → Option α
  | [] => none
  | (k, value) :: rest => if k = key then some value else get? key rest

/-- Puts `value` in front of the list under `key`. -/
def push {α : Type} (key : Text) (value : α) : Index (List α) → Index (List α)
  | [] => [(key, [value])]
  | (k, values) :: rest =>
      if k = key then (k, value :: values) :: rest else (k, values) :: push key value rest

/-- Puts `value` under `key` unless there is one. -/
def putNew {α : Type} (key : Text) (value : α) (index : Index α) : Index α :=
  if (get? key index).isSome then index else (key, value) :: index

end Index

structure Catalog where
  /-- Every instruction, in table order. -/
  all : List Instruction
  /-- Those with one mnemonic, in table order. -/
  byMnemonic : Index (List Instruction)
  /-- The last one with an opcode. -/
  byOpcode : Index Instruction

namespace Catalog

def ofInstructions (all : List Instruction) : Catalog where
  all := all
  byMnemonic := all.foldr (fun i index => Index.push i.mnemonic i index) []
  byOpcode := all.foldr (fun i index => Index.putNew i.opcode i index) []

def ofPatterns (patterns : List Pattern) : Catalog :=
  ofInstructions (patterns.flatMap Pattern.expand)

def candidates (catalog : Catalog) (mnemonic : Text) : List Instruction :=
  (Index.get? mnemonic catalog.byMnemonic).getD []

def withOpcode? (catalog : Catalog) (opcode : Text) : Option Instruction :=
  Index.get? opcode catalog.byOpcode

def size (catalog : Catalog) : Nat := catalog.all.length

def mnemonics (catalog : Catalog) : Nat := catalog.byMnemonic.length

end Catalog

end Z80Cost
