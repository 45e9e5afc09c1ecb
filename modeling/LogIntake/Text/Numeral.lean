/-!
Decimal numerals. `value_digits` says that reading what is written gives the number back.
-/
namespace LogIntake.Text.Numeral

def digitChar (n : Nat) : Char := Char.ofNat (48 + n % 10)

def digitValue (c : Char) : Nat := c.toNat - 48

def digits (n : Nat) : List Char :=
  if n < 10 then [digitChar n] else digits (n / 10) ++ [digitChar n]
termination_by n
decreasing_by omega

def value (cs : List Char) : Nat := cs.foldl (fun n c => 10 * n + digitValue c) 0

def text (n : Nat) : String := String.ofList (digits n)

/-- Reads an unsigned number below `bound`: at least one digit, leading zeros and one plus sign
allowed. -/
def unsigned? (bound : Nat) (cs : List Char) : Option Nat :=
  let ds := match cs with
    | '+' :: rest => rest
    | _ => cs
  if ds.isEmpty || !ds.all Char.isDigit then none
  else if value ds < bound then some (value ds) else none

theorem digitValue_digitChar (n : Nat) : digitValue (digitChar n) = n % 10 := by
  have h : ∀ r < 10, (Char.ofNat (48 + r)).toNat - 48 = r := by decide
  exact h _ (Nat.mod_lt _ (by decide))

theorem isDigit_digitChar (n : Nat) : (digitChar n).isDigit = true := by
  have h : ∀ r < 10, (Char.ofNat (48 + r)).isDigit = true := by decide
  exact h _ (Nat.mod_lt _ (by decide))

theorem value_append_singleton (cs : List Char) (c : Char) :
    value (cs ++ [c]) = 10 * value cs + digitValue c := by
  simp [value]

theorem value_digits (n : Nat) : value (digits n) = n := by
  induction n using Nat.strongRecOn with
  | ind n ih =>
    rw [digits]
    split
    · simp [value, digitValue_digitChar]; omega
    · rw [value_append_singleton, ih (n / 10) (by omega), digitValue_digitChar]; omega

theorem isDigit_of_mem_digits {n : Nat} {c : Char} (h : c ∈ digits n) : c.isDigit = true := by
  induction n using Nat.strongRecOn with
  | ind n ih =>
    rw [digits] at h
    split at h
    · simp_all [isDigit_digitChar]
    · rcases List.mem_append.1 h with h | h
      · exact ih _ (by omega) h
      · simp_all [isDigit_digitChar]

theorem digits_ne_nil (n : Nat) : digits n ≠ [] := by
  rw [digits]
  split <;> simp

/-- What is read as a number: digits, with a plus sign before them or none. -/
theorem unsigned?_eq_some_iff {bound n : Nat} {cs : List Char} :
    unsigned? bound cs = some n ↔
      ∃ ds, (cs = ds ∨ cs = '+' :: ds) ∧ ds ≠ [] ∧ (∀ c ∈ ds, c.isDigit = true) ∧
        value ds < bound ∧ value ds = n := by
  have plain : ∀ ds : List Char,
      (if ds.isEmpty || !ds.all Char.isDigit then none
        else if value ds < bound then some (value ds) else none) = some n ↔
        ds ≠ [] ∧ (∀ c ∈ ds, c.isDigit = true) ∧ value ds < bound ∧ value ds = n := by
    intro ds
    cases ds with
    | nil => simp
    | cons d ds => by_cases digits : (d :: ds).all Char.isDigit <;> simp_all
  have sign : ¬ '+'.isDigit = true := by decide
  unfold unsigned?
  split
  · next rest =>
    rw [plain]
    constructor
    · intro read
      exact ⟨rest, .inr rfl, read⟩
    · rintro ⟨ds, rfl | same, read⟩
      · exact absurd (read.2.1 '+' (by simp)) sign
      · exact (List.cons.inj same).2 ▸ read
  · next unsigned =>
    rw [plain]
    constructor
    · intro read
      exact ⟨cs, .inl rfl, read⟩
    · rintro ⟨ds, rfl | same, read⟩
      · exact read
      · exact absurd same (unsigned ds)

end LogIntake.Text.Numeral
