/-!
Looking for a mark in a text. `cut?` parts a text at the first place where the mark stands:
`cut?_eq_some` says that nothing is lost, and `cut?_of_first` with `first_of_cut?` which place it is.
-/
namespace LogIntake.Text

/-- The text before the first occurrence of `mark` and the text behind it. -/
def cut? (mark : List Char) : List Char → Option (List Char × List Char)
  | [] => if mark.isEmpty then some ([], []) else none
  | c :: cs =>
    if mark.isPrefixOf (c :: cs) then some ([], (c :: cs).drop mark.length)
    else (cut? mark cs).map fun (before, behind) => (c :: before, behind)

theorem cut?_eq_some {mark s before behind : List Char} (h : cut? mark s = some (before, behind)) :
    s = before ++ mark ++ behind := by
  induction s generalizing before with
  | nil =>
    rw [cut?] at h
    split at h <;> simp_all
  | cons c cs ih =>
    rw [cut?] at h
    split at h
    · next hp =>
      obtain ⟨rfl, rfl⟩ := by simpa using h
      obtain ⟨t, ht⟩ := List.isPrefixOf_iff_prefix.1 hp
      simp [← ht]
    · obtain ⟨⟨b, a⟩, hc, hab⟩ := Option.map_eq_some_iff.1 h
      obtain ⟨rfl, rfl⟩ := by simpa using hab
      simp [ih hc]

theorem length_behind_lt {mark s before behind : List Char} (hm : mark ≠ [])
    (h : cut? mark s = some (before, behind)) : behind.length < s.length := by
  have := List.length_pos_iff.2 hm
  rw [cut?_eq_some h]
  simp only [List.length_append]
  omega

theorem cut?_eq_none_iff {mark s : List Char} : cut? mark s = none ↔ ¬ mark <:+: s := by
  induction s with
  | nil => simp [cut?]
  | cons c cs ih =>
    rw [cut?, List.infix_cons_iff]
    split
    · next here => simp [List.isPrefixOf_iff_prefix.1 here]
    · next other =>
      have notHere : ¬ mark <+: c :: cs := fun h => other (List.isPrefixOf_iff_prefix.2 h)
      simp [notHere, ih]

theorem append_dropLast_prefix (cs mark behind : List Char) :
    cs ++ mark.dropLast <+: cs ++ mark ++ behind := by
  rw [List.append_assoc, List.prefix_append_right_inj]
  exact (List.dropLast_prefix mark).trans (List.prefix_append mark behind)

/-- A place is the first one if the mark stands nowhere before its own last character. -/
theorem cut?_of_first {mark before : List Char} (first : ¬ mark <:+: before ++ mark.dropLast)
    (behind : List Char) : cut? mark (before ++ mark ++ behind) = some (before, behind) := by
  have marked : mark ≠ [] := by
    rintro rfl
    exact first (List.nil_infix)
  induction before with
  | nil =>
    obtain ⟨m, ms, rfl⟩ := List.exists_cons_of_ne_nil marked
    have here : (m :: ms).isPrefixOf (m :: (ms ++ behind)) = true :=
      List.isPrefixOf_iff_prefix.2 (List.prefix_append (m :: ms) behind)
    simp [cut?, here]
  | cons c cs ih =>
    rw [List.cons_append, List.infix_cons_iff, not_or] at first
    have notHere : ¬ mark <+: c :: (cs ++ mark ++ behind) := by
      intro here
      -- a mark at the front would end before the one behind `cs` does
      have shorter : c :: (cs ++ mark.dropLast) <+: c :: (cs ++ mark ++ behind) :=
        append_dropLast_prefix (c :: cs) mark behind
      have fits : mark.length ≤ (c :: (cs ++ mark.dropLast)).length := by
        simp only [List.length_cons, List.length_append, List.length_dropLast]
        omega
      exact first.1 (List.prefix_of_prefix_length_le here shorter fits)
    have other : mark.isPrefixOf (c :: (cs ++ mark ++ behind)) = false := by
      rw [Bool.eq_false_iff, ne_eq, List.isPrefixOf_iff_prefix]
      exact notHere
    rw [List.cons_append, List.cons_append, cut?, other, ih first.2]
    simp

theorem first_of_cut? {mark s before behind : List Char} (marked : mark ≠ [])
    (h : cut? mark s = some (before, behind)) : ¬ mark <:+: before ++ mark.dropLast := by
  induction s generalizing before with
  | nil => simp [cut?, marked] at h
  | cons c cs ih =>
    rw [cut?] at h
    split at h
    · obtain ⟨rfl, -⟩ := by simpa using h
      intro inside
      have := inside.length_le
      have := List.length_pos_iff.2 marked
      simp only [List.nil_append, List.length_dropLast] at *
      omega
    · next other =>
      obtain ⟨⟨front, back⟩, found, parts⟩ := Option.map_eq_some_iff.1 h
      obtain ⟨rfl, rfl⟩ := by simpa using parts
      have later := ih found
      rw [List.cons_append, List.infix_cons_iff, not_or]
      refine ⟨fun here => other (List.isPrefixOf_iff_prefix.2 (here.trans ?_)), later⟩
      rw [cut?_eq_some found]
      exact append_dropLast_prefix (c :: front) mark back

theorem cut?_singleton_eq_some_iff {c : Char} {s before behind : List Char} :
    cut? [c] s = some (before, behind) ↔ s = before ++ c :: behind ∧ c ∉ before := by
  have inside : [c] <:+: before ++ [c].dropLast ↔ c ∈ before := by
    rw [List.dropLast_singleton, List.append_nil]
    refine ⟨fun marked => marked.subset (by simp), fun marked => ?_⟩
    obtain ⟨front, back, rfl⟩ := List.append_of_mem marked
    exact ⟨front, back, by simp⟩
  constructor
  · intro h
    exact ⟨by simpa using cut?_eq_some h, fun marked =>
      first_of_cut? (by simp) h (inside.2 marked)⟩
  · rintro ⟨rfl, fresh⟩
    simpa using cut?_of_first (fun marked => fresh (inside.1 marked)) behind

end LogIntake.Text
