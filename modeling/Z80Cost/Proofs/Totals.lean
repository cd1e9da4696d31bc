import Z80Cost.Proofs.Directive.Storage
import Z80Cost.Totals

/-!
Costs form a monoid under addition: the cost of a sequence is the sum over its pieces, and a piece
that is there `n` times costs `n` times as much, in arithmetic that wraps around.
-/

namespace Z80Cost

theorem mul_ofNat_succ (a : Int64) (n : Nat) : a * .ofNat (n + 1) = a + a * .ofNat n := by
  have one : Int64.ofNat 1 = 1 := rfl
  rw [Int64.ofNat_add, Int64.mul_add, one, Int64.mul_one, Int64.add_comm]

namespace Cycles

theorem add_def (a b : Cycles) : a + b = ⟨a.min + b.min, a.max + b.max⟩ := rfl

theorem scale_succ (cycles : Cycles) (n : Nat) :
    cycles.scale (.ofNat (n + 1)) = cycles + cycles.scale (.ofNat n) := by
  simp only [scale, add_def, mul_ofNat_succ]

end Cycles

theorem Timing.add_def (a b : Timing) : a + b = ⟨a.z80 + b.z80, a.msx + b.msx, a.cpc + b.cpc⟩ := rfl

namespace Totals

theorem add_def (a b : Totals) :
    a + b = ⟨a.timing + b.timing, a.size + b.size, a.code + b.code, a.bytes ++ b.bytes⟩ := rfl

theorem zero_add (a : Totals) : {} + a = a := by
  simp [add_def, Timing.add_def, Cycles.add_def]

theorem add_assoc (a b c : Totals) : a + b + c = a + (b + c) := by
  simp [add_def, Timing.add_def, Cycles.add_def, Int64.add_assoc]

theorem sum_append (first second : List Totals) : sum (first ++ second) = sum first + sum second := by
  induction first with
  | nil => exact (zero_add _).symm
  | cons cost first ih =>
      change cost + sum (first ++ second) = cost + sum first + sum second
      rw [ih, add_assoc]

/-- A part of the costs that adds up is the same for costs that have it in common one by one. -/
theorem sum_part_congr {α : Type} (part : Totals → Int64) (adds : ∀ a b, part (a + b) = part a + part b)
    (f g : α → Totals) (same : ∀ a, part (f a) = part (g a)) (s : List α) :
    part (sum (s.map f)) = part (sum (s.map g)) := by
  induction s with
  | nil => rfl
  | cons a s ih =>
      change part (f a + sum (s.map f)) = part (g a + sum (s.map g))
      rw [adds, adds, same, ih]

theorem size_sum (results : List Metered) :
    (sum (results.map ofMetered)).size = Metered.totalSize results := by
  induction results with
  | nil => rfl
  | cons first results ih =>
      change first.size + (sum (results.map ofMetered)).size = first.size + Metered.totalSize results
      rw [ih]

theorem size_ofResults (results : List Metered) : (ofResults results).size = Metered.totalSize results := by
  rw [← size_sum, ofResults]
  cases results <;> rfl

theorem code_ofResults (results : List Metered) :
    (ofResults results).code = if results.isEmpty then 0 else 1 := by
  cases results <;> rfl

def repeated (n : Nat) (cost : Totals) : Totals where
  timing := ⟨cost.timing.z80.scale (.ofNat n), cost.timing.msx.scale (.ofNat n),
    cost.timing.cpc.scale (.ofNat n)⟩
  size := cost.size * .ofNat n
  code := cost.code * .ofNat n
  bytes := (List.replicate n cost.bytes).flatten

theorem repeated_zero (cost : Totals) : repeated 0 cost = {} := by
  have zero : Int64.ofNat 0 = 0 := rfl
  simp [repeated, Cycles.scale, zero]

theorem repeated_succ (n : Nat) (cost : Totals) : repeated (n + 1) cost = cost + repeated n cost := by
  simp only [repeated, add_def, Timing.add_def, Cycles.scale_succ, mul_ofNat_succ,
    List.replicate_succ, List.flatten_cons]

theorem sum_replicate (n : Nat) (costs : List Totals) :
    sum (List.replicate n costs).flatten = repeated n (sum costs) := by
  induction n with
  | zero => exact (repeated_zero _).symm
  | succ n ih => rw [List.replicate_succ, List.flatten_cons, sum_append, ih, repeated_succ]

end Totals

end Z80Cost
