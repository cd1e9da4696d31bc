import Z80Cost.Text.Basic

/-!
Names chosen by any beginning that leaves no choice. A name in full always chooses itself, also
where it begins another.
-/

namespace Z80Cost.Name

inductive Fault where
  | ambiguous
  | unknown
  deriving DecidableEq

def Fault.message : Fault → Text
  | .ambiguous => "prefixtree: prefix ambiguous"
  | .unknown => "prefixtree: prefix not found"

/-- What `key` chooses among the values called `name`. -/
def resolve {α : Type} (name : α → Text) (values : List α) (key : Text) : Except Fault α :=
  match values.find? (fun value => name value == key) with
  | some value => .ok value
  | none =>
      match values.filter (fun value => key.isPrefixOf (name value)) with
      | [] => .error .unknown
      | [value] => .ok value
      | _ :: _ :: _ => .error .ambiguous

end Z80Cost.Name
