/-!
The white space of the Unicode character database and the trimming that goes by it.
-/
namespace LogIntake.Text

/-- The characters with the property `White_Space`. -/
def isBlank (c : Char) : Bool :=
  let n := c.toNat
  (9 ≤ n && n ≤ 13) || n == 0x20 || n == 0x85 || n == 0xA0 || n == 0x1680 ||
    (0x2000 ≤ n && n ≤ 0x200A) || n == 0x2028 || n == 0x2029 || n == 0x202F ||
    n == 0x205F || n == 0x3000

def trim (cs : List Char) : List Char :=
  ((cs.dropWhile isBlank).reverse.dropWhile isBlank).reverse

theorem exists_blanks_trim (cs : List Char) : ∃ left right, cs = left ++ trim cs ++ right ∧
    (∀ c ∈ left, isBlank c = true) ∧ ∀ c ∈ right, isBlank c = true := by
  have back : (cs.dropWhile isBlank).reverse.reverse = trim cs ++
      ((cs.dropWhile isBlank).reverse.takeWhile isBlank).reverse := by
    rw [trim, ← List.reverse_append, List.takeWhile_append_dropWhile]
  refine ⟨cs.takeWhile isBlank, ((cs.dropWhile isBlank).reverse.takeWhile isBlank).reverse, ?_,
    fun c hc => List.all_eq_true.1 List.all_takeWhile c hc,
    fun c hc => List.all_eq_true.1 List.all_takeWhile c (List.mem_reverse.1 hc)⟩
  rw [List.append_assoc, ← back, List.reverse_reverse, List.takeWhile_append_dropWhile]

section Fronts

variable {p : Char → Bool} {front rest : List Char}

theorem takeWhile_front (inside : ∀ c ∈ front, p c = true) (ends : ∀ c ∈ rest.head?, p c = false) :
    (front ++ rest).takeWhile p = front := by
  rw [List.takeWhile_append_of_pos inside]
  cases rest with
  | nil => simp
  | cons c cs => simp [ends c rfl]

theorem dropWhile_front (inside : ∀ c ∈ front, p c = true) (ends : ∀ c ∈ rest.head?, p c = false) :
    (front ++ rest).dropWhile p = rest := by
  rw [List.dropWhile_append_of_pos inside]
  cases rest with
  | nil => rfl
  | cons c cs => simp [ends c rfl]

end Fronts

theorem trim_append {left cs right : List Char} (before : ∀ c ∈ left, isBlank c = true)
    (shown : ∀ c ∈ cs, isBlank c = false) (behind : ∀ c ∈ right, isBlank c = true) :
    trim (left ++ cs ++ right) = cs := by
  by_cases empty : cs = []
  · have blank : ∀ c ∈ left ++ right, isBlank c = true := by
      simpa [or_imp, forall_and] using And.intro before behind
    have gone : (left ++ right ++ []).dropWhile isBlank = [] :=
      dropWhile_front blank (by simp)
    rw [List.append_nil] at gone
    simp [trim, empty, gone]
  · obtain ⟨c, tail, rfl⟩ := List.exists_cons_of_ne_nil empty
    have front : (left ++ (c :: tail ++ right)).dropWhile isBlank = c :: tail ++ right :=
      dropWhile_front before (by simpa using shown c (by simp))
    have back : (right.reverse ++ (c :: tail).reverse).dropWhile isBlank = (c :: tail).reverse := by
      refine dropWhile_front (by simpa using behind) fun d hd => ?_
      exact shown d (List.mem_reverse.1 (List.mem_of_mem_head? hd))
    rw [trim, List.append_assoc, front, List.reverse_append, back, List.reverse_reverse]

end LogIntake.Text
