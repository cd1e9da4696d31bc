import Z80Cost.Proofs.Totals
import Z80Cost.Report.Entry

/-!
Entries in any order. Sorting puts them into one order if their names differ, and their sum does not depend
on the order at all.
-/

namespace Z80Cost.Entry

theorem sorted_perm (entries : List Entry) : (sorted entries).Perm entries := List.mergeSort_perm entries _

theorem sorted_ordered (entries : List Entry) : (sorted entries).Pairwise fun a b => ¬ b.name < a.name := by
  have transitive : ∀ a b c : Entry, (!decide (b.name < a.name)) = true → (!decide (c.name < b.name)) = true →
      (!decide (c.name < a.name)) = true := by
    intro a b c first second
    simp only [Bool.not_eq_true', decide_eq_false_iff_not, List.not_lt] at first second ⊢
    exact List.le_trans first second
  have total : ∀ a b : Entry, (!decide (b.name < a.name) || !decide (a.name < b.name)) = true := by
    intro a b
    simp only [Bool.or_eq_true, Bool.not_eq_true', decide_eq_false_iff_not, List.not_lt]
    exact List.le_total a.name b.name
  have ordered := List.pairwise_mergeSort transitive total entries
  exact ordered.imp fun before => by simpa using before

theorem eq_of_name (entries : List Entry) (distinct : (entries.map name).Nodup) (a b : Entry) (left : a ∈ entries)
    (right : b ∈ entries) (same : a.name = b.name) : a = b := by
  induction entries with
  | nil => contradiction
  | cons e entries ih =>
      obtain ⟨fresh, others⟩ := List.nodup_cons.mp distinct
      rcases List.mem_cons.mp left with rfl | later
      · rcases List.mem_cons.mp right with rfl | other
        · rfl
        · exact absurd (same ▸ List.mem_map_of_mem other) fresh
      · rcases List.mem_cons.mp right with rfl | other
        · exact absurd (same ▸ List.mem_map_of_mem later) fresh
        · exact ih others later other

/-- Entries of different names have one sorted order. -/
theorem sorted_unique (first second : List Entry) (same : first.Perm second)
    (distinct : (first.map name).Nodup) : sorted first = sorted second := by
  refine List.Perm.eq_of_pairwise ?_ (sorted_ordered first) (sorted_ordered second) ?_
  · intro a b left right before after
    have left : a ∈ first := (sorted_perm first).mem_iff.mp left
    have right : b ∈ first := same.mem_iff.mpr ((sorted_perm second).mem_iff.mp right)
    apply eq_of_name first distinct a b left right
    exact List.le_antisymm (List.not_lt.mp before) (List.not_lt.mp after)
  · exact (sorted_perm first).trans (same.trans (sorted_perm second).symm)

theorem add_add (total a b : Entry) : (total.add a).add b = (total.add b).add a := by
  have swap (x y z : Int64) : x + y + z = x + z + y := by
    rw [Int64.add_assoc, Int64.add_comm y z, Int64.add_assoc]
  unfold add
  split
  · rfl
  · split
    · rfl
    · simp only [Timing.add_def, Cycles.add_def, swap]

theorem sum_perm (name : Text) (first second : List Entry) (same : first.Perm second) :
    sum name first = sum name second :=
  same.foldl_eq' (fun a _ b _ total => add_add total a b) _

end Z80Cost.Entry
