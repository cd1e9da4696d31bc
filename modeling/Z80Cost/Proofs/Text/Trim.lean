import Z80Cost.Text.Blank

/-!
What trimming leaves. A trimmed text is a piece of the text that no white space begins or ends,
and a byte of no white space character stops the trimming from either side.
-/

namespace Z80Cost.Text

theorem starts_of_leading (marks : List Text) (s : Text) (found : leading marks s ≠ 0) :
    ∃ mark ∈ marks, mark <+: s ∧ mark.length = leading marks s := by
  unfold leading at found ⊢
  cases hit : marks.find? (·.isPrefixOf s) with
  | none => simp [hit] at found
  | some mark =>
      have starts := List.find?_some hit
      exact ⟨mark, List.mem_of_find?_eq_some hit, List.isPrefixOf_iff_prefix.mp starts, rfl⟩

theorem not_starts_of_leading (marks : List Text) (s : Text) (nonempty : [] ∉ marks)
    (none : leading marks s = 0) : ∀ mark ∈ marks, ¬ mark <+: s := by
  intro mark member starts
  unfold leading at none
  cases hit : marks.find? (·.isPrefixOf s) with
  | none =>
      have refuses := List.find?_eq_none.mp hit mark member
      exact refuses (List.isPrefixOf_iff_prefix.mpr starts)
  | some first =>
      simp only [hit, List.length_eq_zero_iff] at none
      exact nonempty (none ▸ List.mem_of_find?_eq_some hit)

theorem leading_nil (marks : List Text) : leading marks [] = 0 := by
  refine Decidable.byContradiction fun found => ?_
  obtain ⟨mark, _, starts, same⟩ := starts_of_leading marks [] found
  rw [List.prefix_nil.mp starts] at same
  exact found same.symm

/-- A mark does not reach beyond a byte that it lacks, or that could only be in its front. -/
theorem starts_append_cons (mark s t : Text) (b : UInt8) (short : b ∈ mark → mark.length ≤ s.length) :
    mark <+: s ++ b :: t ↔ mark <+: s := by
  refine ⟨fun starts => ?_, fun starts => starts.trans (List.prefix_append s (b :: t))⟩
  rcases Nat.lt_or_ge s.length mark.length with longer | shorter
  · have whole : s ++ [b] <+: s ++ b :: t := by simp
    have covers : s ++ [b] <+: mark :=
      List.prefix_of_prefix_length_le whole starts (by simpa using Nat.succ_le_of_lt longer)
    have bound := short (covers.subset (by simp))
    omega
  · exact List.prefix_of_prefix_length_le starts (List.prefix_append s (b :: t)) shorter

theorem leading_append_cons (marks : List Text) (b : UInt8) (s t : Text)
    (short : ∀ mark ∈ marks, b ∈ mark → mark.length ≤ s.length) :
    leading marks (s ++ b :: t) = leading marks s := by
  have same : marks.find? (·.isPrefixOf (s ++ b :: t)) = marks.find? (·.isPrefixOf s) := by
    induction marks with
    | nil => rfl
    | cons mark rest ih =>
        have agrees : mark.isPrefixOf (s ++ b :: t) = mark.isPrefixOf s := by
          rw [Bool.eq_iff_iff, List.isPrefixOf_iff_prefix, List.isPrefixOf_iff_prefix]
          exact starts_append_cons mark s t b (short mark List.mem_cons_self)
        have others := ih fun other member => short other (List.mem_cons_of_mem mark member)
        simp only [List.find?_cons, agrees, others]
  simp only [leading, same]

theorem dropLeading_isSuffix (marks : List Text) (skip : Nat) (s : Text) :
    dropLeading marks skip s <:+ s := by
  fun_induction dropLeading marks skip s with
  | case1 => exact List.suffix_refl []
  | case2 skip b s ih => exact ih.trans (List.suffix_cons b s)
  | case3 b s => exact List.suffix_refl (b :: s)
  | case4 b s skip _ ih => exact ih.trans (List.suffix_cons b s)

theorem leading_dropLeading (marks : List Text) (skip : Nat) (s : Text) :
    leading marks (dropLeading marks skip s) = 0 := by
  fun_induction dropLeading marks skip s with
  | case1 => exact leading_nil marks
  | case2 skip b s ih => exact ih
  | case3 b s none => exact none
  | case4 b s skip _ ih => exact ih

theorem dropLeading_not_starts (marks : List Text) (nonempty : [] ∉ marks) (s : Text) :
    ∀ mark ∈ marks, ¬ mark <+: dropLeading marks 0 s :=
  not_starts_of_leading marks _ nonempty (leading_dropLeading marks 0 s)

theorem dropLeading_of_leading (marks : List Text) (s : Text) (none : leading marks s = 0) :
    dropLeading marks 0 s = s := by
  cases s with
  | nil => rfl
  | cons b s => simp only [dropLeading, none]

/-- A byte of no mark stops the dropping: what comes after it is never looked at. -/
theorem dropLeading_append_cons (marks : List Text) (b : UInt8) (foreign : ∀ mark ∈ marks, b ∉ mark)
    (skip : Nat) (s t : Text) (inside : skip ≤ s.length) :
    dropLeading marks skip (s ++ b :: t) = dropLeading marks skip s ++ b :: t := by
  induction s generalizing skip with
  | nil =>
      obtain rfl : skip = 0 := Nat.le_zero.mp inside
      have none : leading marks (b :: t) = 0 := by
        rw [← leading_nil marks]
        exact leading_append_cons marks b [] t fun mark member inside => absurd inside (foreign mark member)
      exact dropLeading_of_leading marks (b :: t) none
  | cons a s ih =>
      cases skip with
      | succ skip => exact ih skip (Nat.le_of_succ_le_succ inside)
      | zero =>
          have same := leading_append_cons marks b (a :: s) t
            fun mark member inside => absurd inside (foreign mark member)
          rw [List.cons_append] at same ⊢
          cases found : leading marks (a :: s) with
          | zero => simp only [dropLeading, same, found, List.cons_append]
          | succ skip =>
              obtain ⟨mark, _, starts, long⟩ := starts_of_leading marks (a :: s) (by simp [found])
              have short : skip ≤ s.length := by
                have := starts.length_le
                simp only [List.length_cons] at this
                omega
              simp only [dropLeading, same, found]
              exact ih skip short

/-- A mark of one byte is dropped with those before it, or kept behind what they leave. -/
theorem dropLeading_append_mark (marks : List Text) (b : UInt8) (alone : ∀ t, leading marks (b :: t) = 1)
    (short : ∀ mark ∈ marks, b ∈ mark → mark.length ≤ 1) (skip : Nat) (s t : Text) (inside : skip ≤ s.length) :
    dropLeading marks skip (s ++ b :: t) =
      if dropLeading marks skip s = [] then dropLeading marks 0 t else dropLeading marks skip s ++ b :: t := by
  induction s generalizing skip with
  | nil =>
      obtain rfl : skip = 0 := Nat.le_zero.mp inside
      simp [dropLeading, alone]
  | cons a s ih =>
      cases skip with
      | succ skip => exact ih skip (Nat.le_of_succ_le_succ inside)
      | zero =>
          have same := leading_append_cons marks b (a :: s) t fun mark member holds => by
            have := short mark member holds
            simp only [List.length_cons]
            omega
          rw [List.cons_append] at same ⊢
          cases found : leading marks (a :: s) with
          | zero => simp [dropLeading, same, found]
          | succ skip =>
              obtain ⟨mark, _, starts, long⟩ := starts_of_leading marks (a :: s) (by simp [found])
              have fits : skip ≤ s.length := by
                have := starts.length_le
                simp only [List.length_cons] at this
                omega
              simp only [dropLeading, same, found]
              exact ih skip fits

theorem dropLeading_skip (marks : List Text) (skip : Nat) (s : Text) :
    dropLeading marks skip s = dropLeading marks 0 (s.drop skip) := by
  induction s generalizing skip with
  | nil => simp [dropLeading]
  | cons b s ih =>
      cases skip with
      | zero => rfl
      | succ skip => exact ih skip

/-- What is dropped is made of whole marks. -/
theorem dropLeading_split (marks : List Text) (s : Text) :
    ∃ front : List Text, (∀ mark ∈ front, mark ∈ marks) ∧ s = front.flatten ++ dropLeading marks 0 s := by
  cases s with
  | nil => exact ⟨[], by simp, rfl⟩
  | cons b s =>
      cases found : leading marks (b :: s) with
      | zero => exact ⟨[], by simp, by simp [dropLeading, found]⟩
      | succ skip =>
          obtain ⟨mark, member, ⟨rest, whole⟩, long⟩ := starts_of_leading marks (b :: s) (by simp [found])
          obtain ⟨front, each, behind⟩ := dropLeading_split marks (s.drop skip)
          have left : s.drop skip = rest := by
            rw [← List.drop_succ_cons, ← found, ← long, ← whole, List.drop_left]
          refine ⟨mark :: front, List.forall_mem_cons.mpr ⟨member, each⟩, ?_⟩
          simp only [dropLeading, found, List.flatten_cons, List.append_assoc]
          rw [dropLeading_skip, ← behind, left, whole]
termination_by s.length

section Whole
variable (marks : List Text) (apart : ∀ first ∈ marks, ∀ second ∈ marks, first <+: second → first = second)
include apart

/-- Where no mark starts another, one in front is found as it is. -/
theorem leading_mark (mark s : Text) (member : mark ∈ marks) : leading marks (mark ++ s) = mark.length := by
  have starts : mark <+: mark ++ s := List.prefix_append mark s
  unfold leading
  cases hit : marks.find? (·.isPrefixOf (mark ++ s)) with
  | none => exact absurd (List.isPrefixOf_iff_prefix.mpr starts) (List.find?_eq_none.mp hit mark member)
  | some first =>
      have listed := List.mem_of_find?_eq_some hit
      have found := List.find?_some hit
      rw [List.isPrefixOf_iff_prefix] at found
      have same : first = mark := by
        rcases List.prefix_or_prefix_of_prefix found starts with shorter | longer
        · exact apart first listed mark member shorter
        · exact (apart mark member first listed longer).symm
      rw [same]

theorem dropLeading_marks (nonempty : [] ∉ marks) (front : List Text) (each : ∀ mark ∈ front, mark ∈ marks)
    (s : Text) : dropLeading marks 0 (front.flatten ++ s) = dropLeading marks 0 s := by
  induction front with
  | nil => rfl
  | cons mark front ih =>
      obtain ⟨member, others⟩ := List.forall_mem_cons.mp each
      cases mark with
      | nil => exact absurd member nonempty
      | cons b mark =>
          have found := leading_mark marks apart (b :: mark) (front.flatten ++ s) member
          rw [List.cons_append, List.length_cons] at found
          rw [List.flatten_cons, List.append_assoc, List.cons_append, dropLeading]
          simp only [found]
          rw [dropLeading_skip, List.drop_left, ih others]

end Whole

/-! Trimming -/

theorem nil_not_mem_blanks : [] ∉ blanks := by decide

theorem nil_not_mem_reversed_blanks : [] ∉ blanks.map List.reverse := by decide

/-- A byte that no white space character holds. -/
def isSolid (b : UInt8) : Bool := blanks.all fun blank => !blank.contains b

theorem isWord_solid (b : UInt8) (word : isWord b = true) : isSolid b = true := by
  have foreign : ∀ blank ∈ blanks, ∀ c ∈ blank, isWord c = false := by decide +kernel
  rw [isSolid, List.all_eq_true]
  intro blank member
  have avoids : b ∉ blank := fun inside => by simp [foreign blank member b inside] at word
  simpa using avoids

theorem solid_foreign (b : UInt8) (solid : isSolid b) : ∀ blank ∈ blanks, b ∉ blank := by
  intro blank member
  have avoids := List.all_eq_true.mp solid blank member
  simpa using avoids

theorem solid_foreign_reversed (b : UInt8) (solid : isSolid b) :
    ∀ blank ∈ blanks.map List.reverse, b ∉ blank := by
  intro blank member
  obtain ⟨plain, inside, rfl⟩ := List.mem_map.mp member
  simpa using solid_foreign b solid plain inside

theorem trimLeft_append_cons (s t : Text) (b : UInt8) (solid : isSolid b) :
    trimLeft (s ++ b :: t) = trimLeft s ++ b :: t :=
  dropLeading_append_cons blanks b (solid_foreign b solid) 0 s t (Nat.zero_le _)

theorem trimLeft_cons (s : Text) (b : UInt8) (solid : isSolid b) : trimLeft (b :: s) = b :: s :=
  trimLeft_append_cons [] s b solid

theorem trimRight_append_cons (s t : Text) (b : UInt8) (solid : isSolid b) :
    trimRight (s ++ b :: t) = s ++ b :: trimRight t := by
  have stops := dropLeading_append_cons (blanks.map List.reverse) b (solid_foreign_reversed b solid) 0
    t.reverse s.reverse (Nat.zero_le _)
  unfold trimRight
  rw [List.reverse_append, List.reverse_cons, List.append_assoc, List.singleton_append, stops]
  simp

theorem trimRight_concat (s : Text) (b : UInt8) (solid : isSolid b) :
    trimRight (s ++ [b]) = s ++ [b] :=
  trimRight_append_cons s [] b solid

theorem trimRight_isPrefix (s : Text) : trimRight s <+: s := by
  have kept := dropLeading_isSuffix (blanks.map List.reverse) 0 s.reverse
  rw [← List.reverse_prefix, List.reverse_reverse] at kept
  exact kept

/-- Only bytes of white space are trimmed off the front. -/
theorem trimLeft_split (s : Text) : ∃ front, s = front ++ trimLeft s ∧ ∀ b ∈ front, isSolid b = false := by
  obtain ⟨front, whole⟩ := dropLeading_isSuffix blanks 0 s
  refine ⟨front, whole.symm, fun b member => Bool.eq_false_iff.mpr fun solid => ?_⟩
  obtain ⟨before, after, rfl⟩ := List.append_of_mem member
  -- A solid byte would have stayed, and the text with it.
  have kept := trimLeft_append_cons before (after ++ trimLeft s) b solid
  rw [← List.cons_append, ← List.append_assoc] at kept
  have longer := congrArg List.length ((congrArg trimLeft whole).symm.trans kept)
  simp only [List.length_append, List.length_cons] at longer
  omega

theorem trimRight_split (s : Text) : ∃ back, s = trimRight s ++ back ∧ ∀ b ∈ back, isSolid b = false := by
  obtain ⟨back, whole⟩ := trimRight_isPrefix s
  refine ⟨back, whole.symm, fun b member => Bool.eq_false_iff.mpr fun solid => ?_⟩
  obtain ⟨before, after, rfl⟩ := List.append_of_mem member
  have kept := trimRight_append_cons (trimRight s ++ before) after b solid
  rw [List.append_assoc] at kept
  have longer := congrArg List.length ((congrArg trimRight whole).symm.trans kept)
  simp only [List.length_append, List.length_cons] at longer
  omega

theorem trim_cons (s : Text) (b : UInt8) (solid : isSolid b) : trim (b :: s) = b :: trimRight s := by
  rw [trim, trimLeft_cons s b solid]
  exact trimRight_append_cons [] s b solid

/-- A text that trimming keeps loses nothing at either end. -/
theorem trimRight_solid (s : Text) (solid : ∀ b ∈ s, isSolid b) : trimRight s = s := by
  rcases List.eq_nil_or_concat s with rfl | ⟨front, b, rfl⟩
  · rfl
  · rw [List.concat_eq_append]
    exact trimRight_concat front b (solid b (by simp))

theorem trim_solid (s : Text) (solid : ∀ b ∈ s, isSolid b) : trim s = s := by
  cases s with
  | nil => rfl
  | cons b s =>
      obtain ⟨first, rest⟩ := List.forall_mem_cons.mp solid
      rw [trim_cons s b first, trimRight_solid s rest]

theorem trim_fixed (s : Text) (fixed : s.trim = s) : s.trimLeft = s ∧ s.trimRight = s := by
  have left : s.trimLeft = s := by
    apply (dropLeading_isSuffix blanks 0 s).eq_of_length_le
    have shorter := (trimRight_isPrefix s.trimLeft).length_le
    rwa [← trim, fixed] at shorter
  refine ⟨left, ?_⟩
  rw [trim, left] at fixed
  exact fixed

/-- A space is trimmed off with the blanks behind it, or stays with what they leave. -/
theorem trimRight_space (s t : Text) : trimRight (s ++ (' ' : UInt8) :: t) =
    if trimRight t = [] then trimRight s else s ++ (' ' : UInt8) :: trimRight t := by
  have short : ∀ mark ∈ blanks.map List.reverse, (' ' : UInt8) ∈ mark → mark.length ≤ 1 := by decide
  have alone : ∀ rest, leading (blanks.map List.reverse) ((' ' : UInt8) :: rest) = 1 := fun _ => rfl
  have dropped := dropLeading_append_mark (blanks.map List.reverse) ' ' alone short 0 t.reverse s.reverse
    (Nat.zero_le _)
  unfold trimRight
  rw [List.reverse_append, List.reverse_cons, List.append_assoc, List.singleton_append, dropped]
  split <;> simp_all

theorem trimRight_trimRight (s : Text) : s.trimRight.trimRight = s.trimRight := by
  have none := leading_dropLeading (blanks.map List.reverse) 0 s.reverse
  unfold trimRight
  rw [List.reverse_reverse, dropLeading_of_leading _ _ none]

theorem mem_trim (s : Text) (b : UInt8) (solid : isSolid b) (member : b ∈ s) : b ∈ s.trim := by
  obtain ⟨front, whole, blank⟩ := trimLeft_split s
  obtain ⟨back, rest, blank'⟩ := trimRight_split s.trimLeft
  rw [whole, rest] at member
  rcases List.mem_append.mp member with before | inside
  · simp [blank b before] at solid
  · rcases List.mem_append.mp inside with kept | behind
    · exact kept
    · simp [blank' b behind] at solid

/-- Around a solid byte, the order of trimming does not matter. -/
theorem trim_trimRight (s : Text) (b : UInt8) (solid : isSolid b) (member : b ∈ s) :
    s.trimRight.trim = s.trim := by
  obtain ⟨front, rest, rfl⟩ := List.append_of_mem member
  rw [trim, trim, trimRight_append_cons _ _ b solid, trimLeft_append_cons _ _ b solid,
    trimLeft_append_cons _ _ b solid, trimRight_append_cons _ _ b solid, trimRight_append_cons _ _ b solid,
    trimRight_trimRight]

theorem trim_not_starts (s : Text) : ∀ blank ∈ blanks, ¬ blank <+: trim s := by
  intro blank member starts
  exact dropLeading_not_starts blanks nil_not_mem_blanks s blank member
    (starts.trans (trimRight_isPrefix (trimLeft s)))

theorem trim_not_ends (s : Text) : ∀ blank ∈ blanks, ¬ blank <:+ trim s := by
  intro blank member ends
  rw [← List.reverse_prefix] at ends
  unfold trim trimRight at ends
  rw [List.reverse_reverse] at ends
  exact dropLeading_not_starts (blanks.map List.reverse) nil_not_mem_reversed_blanks
    (trimLeft s).reverse blank.reverse (List.mem_map_of_mem member) ends

theorem leading_eq_zero (marks : List Text) (s : Text) (none : ∀ mark ∈ marks, ¬ mark <+: s) :
    leading marks s = 0 := by
  refine Decidable.byContradiction fun found => ?_
  obtain ⟨mark, member, starts, _⟩ := starts_of_leading marks s found
  exact none mark member starts

theorem trimRight_of_not_ends (s : Text) (none : ∀ blank ∈ blanks, ¬ blank <:+ s) : trimRight s = s := by
  have right : leading (blanks.map List.reverse) s.reverse = 0 := by
    apply leading_eq_zero
    intro mark member starts
    obtain ⟨blank, inside, rfl⟩ := List.mem_map.mp member
    exact none blank inside (List.reverse_prefix.mp starts)
  rw [trimRight, dropLeading_of_leading _ _ right, List.reverse_reverse]

theorem trim_trim (s : Text) : s.trim.trim = s.trim := by
  have left : trimLeft s.trim = s.trim :=
    dropLeading_of_leading _ _ (leading_eq_zero _ _ (trim_not_starts s))
  rw [trim, left, trimRight_of_not_ends s.trim (trim_not_ends s)]

/-- Where nothing is left, white space stands at the end. -/
theorem ends_of_trimLeft (s : Text) (nonempty : s ≠ []) (none : trimLeft s = []) :
    ∃ blank ∈ blanks, blank <:+ s := by
  obtain ⟨front, each, whole⟩ := dropLeading_split blanks s
  change s = front.flatten ++ trimLeft s at whole
  rw [none, List.append_nil] at whole
  rcases List.eq_nil_or_concat front with rfl | ⟨before, blank, rfl⟩
  · exact absurd whole nonempty
  · refine ⟨blank, each blank (by simp), before.flatten, ?_⟩
    rw [whole]
    simp

section Tail
variable (s front rest : Text) (whole : s.trim = front ++ rest)
include whole

theorem trim_tail : trim rest = trimLeft rest := by
  apply trimRight_of_not_ends
  intro blank member ends
  apply trim_not_ends s blank member
  rw [whole]
  exact (ends.trans (dropLeading_isSuffix blanks 0 rest)).trans (List.suffix_append front rest)

/-- A tail of a trimmed text is more than white space. -/
theorem trim_tail_ne_nil (nonempty : rest ≠ []) : trim rest ≠ [] := by
  rw [trim_tail s front rest whole]
  intro none
  obtain ⟨blank, member, ends⟩ := ends_of_trimLeft rest nonempty none
  apply trim_not_ends s blank member
  rw [whole]
  exact ends.trans (List.suffix_append front rest)

end Tail

theorem blanks_apart : ∀ first ∈ blanks, ∀ second ∈ blanks, first <+: second → first = second := by
  decide +kernel

theorem reversed_blanks_apart : ∀ first ∈ blanks.map List.reverse, ∀ second ∈ blanks.map List.reverse,
    first <+: second → first = second := by
  decide +kernel

theorem trimLeft_blanks (front : List Text) (each : ∀ blank ∈ front, blank ∈ blanks) (s : Text) :
    trimLeft (front.flatten ++ s) = trimLeft s :=
  dropLeading_marks blanks blanks_apart nil_not_mem_blanks front each s

theorem trimRight_blanks (back : List Text) (each : ∀ blank ∈ back, blank ∈ blanks) (s : Text) :
    trimRight (s ++ back.flatten) = trimRight s := by
  have reversed : ∀ mark ∈ (back.map List.reverse).reverse, mark ∈ blanks.map List.reverse := by
    intro mark member
    obtain ⟨blank, inside, rfl⟩ := List.mem_map.mp (List.mem_reverse.mp member)
    exact List.mem_map_of_mem (each blank inside)
  unfold trimRight
  rw [List.reverse_append, List.reverse_flatten,
    dropLeading_marks _ reversed_blanks_apart nil_not_mem_reversed_blanks _ reversed]

theorem trim_surrounded (front back : List Text) (each : ∀ blank ∈ front ++ back, blank ∈ blanks) (s : Text)
    (solid : ∀ b ∈ s, isSolid b) : trim (front.flatten ++ s ++ back.flatten) = s := by
  obtain ⟨before, behind⟩ := List.forall_mem_append.mp each
  rw [trim, List.append_assoc, trimLeft_blanks front before]
  cases s with
  | nil =>
      have none := trimLeft_blanks back behind []
      rw [List.append_nil] at none
      rw [List.nil_append, none]
      rfl
  | cons b s =>
      rw [List.cons_append, trimLeft_cons _ b (solid b List.mem_cons_self), ← List.cons_append,
        trimRight_blanks back behind, trimRight_solid _ solid]

end Z80Cost.Text
