import Z80Cost.Instruction.Timing
import Z80Cost.Name
import Z80Cost.Text.Blank
import Z80Cost.Text.LowerCase
import Z80Cost.Text.Quoted

/-!
Target machines: which instruction sets each has and in what it counts time.
-/

namespace Z80Cost

/-- The machines, and numbers that stand for none. -/
inductive Platform where
  | z80
  | msx
  | cpc
  | z80n
  | other (number : Int64)
  deriving DecidableEq

namespace Platform

def all : List Platform := [z80, msx, cpc, z80n]

def ofNumber (n : Int64) : Platform :=
  if n = 0 then z80
  else if n = 1 then msx
  else if n = 2 then cpc
  else if n = 3 then z80n
  else other n

def name : Platform → Text
  | z80 => "z80"
  | msx => "msx"
  | cpc => "cpc"
  | z80n => "z80n"
  | other n => "Platform(" ++ Text.ofInt64 n ++ ")"

/-- A name that chooses no machine, as it was looked up. -/
structure Unknown where
  name : Text
  fault : Name.Fault
  deriving DecidableEq

def Unknown.message (unknown : Unknown) : Text :=
  "platform " ++ unknown.name.quoted ++ ": " ++ unknown.fault.message

/-- The machine that a name or an unambiguous beginning of one chooses, in any case. -/
def find (name : Text) : Except Unknown Platform :=
  let key := name.trim.lower
  (Name.resolve Platform.name all key).mapError (Unknown.mk key)

/-- The tag of the instructions every machine has. -/
def standardSet : Text := "S"

/-- The tag of the extended instructions. -/
def extendedSet : Text := "N"

def sets : Platform → List Text
  | z80n => [standardSet, extendedSet]
  | _ => [standardSet]

def cycles : Platform → Timing → Cycles
  | msx, timing => timing.msx
  | cpc, timing => timing.cpc
  | _, timing => timing.z80

/-- What the cycles count. -/
def unit : Platform → Text
  | cpc => "NOPs"
  | _ => "clock cycles"

end Platform

end Z80Cost
