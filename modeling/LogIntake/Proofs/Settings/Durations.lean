import LogIntake.Span
import Mathlib

/-!
Durations are read back from what is written. The text of a duration is a row of parts, and each part is
read as the count and the unit that it was written for; added up, the parts give the duration again, and
no sum on the way runs out of room.
-/
namespace LogIntake.Span

/-! ### The words of the units -/

namespace Scale

theorem label_eq (u : Scale) (count : Nat) : u.label count = u.label 1 ∨ u.label count = u.label 0 := by
  by_cases one : count = 1
  · exact .inl (one ▸ rfl)
  · exact .inr (by cases u <;> simp [label, one])

theorem lookup_label (u : Scale) (count : Nat) : words.lookup (u.label count) = some u := by
  rcases u.label_eq count with same | same <;> rw [same] <;> cases u <;> decide

theorem all_isUnitChar_label (u : Scale) (count : Nat) :
    (u.label count).toList ≠ [] ∧ (u.label count).toList.all isUnitChar = true := by
  rcases u.label_eq count with same | same <;> rw [same] <;> cases u <;> decide

end Scale

/-! ### One part -/

section Characters

variable {c : Char}

theorem not_isBlank_of_isDigit (h : c.isDigit = true) : Text.isBlank c = false := by
  have bounds : 48 ≤ c.toNat ∧ c.toNat ≤ 57 := by
    simpa [Char.isDigit, UInt32.le_iff_toNat_le] using h
  simp [Text.isBlank]
  omega

/-- A character of a word neither goes on with a number nor begins a fraction. -/
theorem of_isUnitChar (h : isUnitChar c = true) :
    c.isDigit = false ∧ Text.isBlank c = false ∧ c ≠ '.' := by
  have bounds : (65 ≤ c.toNat ∧ c.toNat ≤ 90) ∨ (97 ≤ c.toNat ∧ c.toNat ≤ 122) ∨ c.toNat = 181 := by
    simp only [isUnitChar, Char.isAlpha, Char.isUpper, Char.isLower, UInt32.le_iff_toNat_le,
      Bool.or_eq_true, Bool.and_eq_true, decide_eq_true_eq] at h
    rcases h with (upper | lower) | rfl
    · exact .inl upper
    · exact .inr (.inl lower)
    · exact .inr (.inr rfl)
  have noDigit : ¬ (48 ≤ c.toNat ∧ c.toNat ≤ 57) := by omega
  refine ⟨?_, ?_, ?_⟩
  · simpa [Char.isDigit, UInt32.le_iff_toNat_le] using noDigit
  · simp [Text.isBlank]
    omega
  · rintro rfl
    revert h
    decide

end Characters

theorem digitsAmongBlanks_append {ds rest : List Char} (digits : ∀ d ∈ ds, d.isDigit = true)
    (ends : ∀ c ∈ rest.head?, c.isDigit = false ∧ Text.isBlank c = false) :
    digitsAmongBlanks (ds ++ rest) = (ds, rest) := by
  have inside : ∀ d ∈ ds, (d.isDigit || Text.isBlank d) = true := fun d h => by simp [digits d h]
  have outside : ∀ c ∈ rest.head?, (c.isDigit || Text.isBlank c) = false := by simpa using ends
  rw [digitsAmongBlanks, Text.takeWhile_front inside outside, Text.dropWhile_front inside outside,
    List.filter_eq_self.2 digits]

def partText (p : Nat × Scale) : List Char := Text.Numeral.digits p.1 ++ (p.2.label p.1).toList

def partRead (p : Nat × Scale) : Part := ⟨p.1, [], p.2⟩

theorem isDigit_head_partText (p : Nat × Scale) (rest : List Char) :
    ∃ c, (partText p ++ rest).head? = some c ∧ c.isDigit = true := by
  obtain ⟨c, cs, same⟩ := List.exists_cons_of_ne_nil (Text.Numeral.digits_ne_nil p.1)
  refine ⟨c, by simp [partText, same], ?_⟩
  exact Text.Numeral.isDigit_of_mem_digits (n := p.1) (same ▸ List.mem_cons_self)

/-- A part stands in front as it was written, when a blank ends it or nothing comes behind it. -/
theorem part?_partText (p : Nat × Scale) {rest : List Char} (ends : ∀ c ∈ rest.head?, c = ' ') :
    part? (partText p ++ rest) = some (partRead p, rest) := by
  obtain ⟨count, u⟩ := p
  obtain ⟨nonempty, units⟩ := u.all_isUnitChar_label count
  have inside : ∀ c ∈ (u.label count).toList, isUnitChar c = true := List.all_eq_true.1 units
  have outside : ∀ c ∈ rest.head?, isUnitChar c = false := by
    intro c h
    rw [ends c h]
    decide
  obtain ⟨c, cs, label⟩ := List.exists_cons_of_ne_nil nonempty
  obtain ⟨noDigit, noBlank, noPoint⟩ := of_isUnitChar (inside c (label ▸ List.mem_cons_self))
  have counted : digitsAmongBlanks (partText (count, u) ++ rest) =
      (Text.Numeral.digits count, (u.label count).toList ++ rest) := by
    rw [partText, List.append_assoc]
    refine digitsAmongBlanks_append (fun d h => Text.Numeral.isDigit_of_mem_digits h) fun d h => ?_
    obtain rfl : c = d := by simpa [label] using h
    exact ⟨noDigit, noBlank⟩
  have whole : fraction? ((u.label count).toList ++ rest) = some ([], (u.label count).toList ++ rest) := by
    simp [label, fraction?, noPoint]
  obtain ⟨d, front, digit⟩ := isDigit_head_partText (count, u) rest
  rw [part?, front, counted]
  simp only [Option.map_some, digit, Option.getD_some, Bool.not_true, Bool.false_eq_true, if_false, whole,
    Option.bind_eq_bind, Option.bind_some, Text.takeWhile_front inside outside,
    Text.dropWhile_front inside outside, String.ofList_toList, Scale.lookup_label,
    Text.Numeral.value_digits, partRead]

/-! ### A row of parts -/

def rowText (ps : List (Nat × Scale)) : List Char := [' '].intercalate (ps.map partText)

theorem rowText_singleton (p : Nat × Scale) : rowText [p] = partText p := by
  simp [rowText]

theorem rowText_cons_cons (p q : Nat × Scale) (ps : List (Nat × Scale)) :
    rowText (p :: q :: ps) = partText p ++ ' ' :: rowText (q :: ps) := by
  simp [rowText, List.intercalate_cons_cons]

theorem exists_rowText_cons (p : Nat × Scale) (ps : List (Nat × Scale)) :
    ∃ rest, rowText (p :: ps) = partText p ++ rest := by
  cases ps with
  | nil => exact ⟨[], by rw [rowText_singleton, List.append_nil]⟩
  | cons q ps => exact ⟨_, rowText_cons_cons p q ps⟩

theorem dropWhile_rowText (p : Nat × Scale) (ps : List (Nat × Scale)) :
    (rowText (p :: ps)).dropWhile Text.isBlank = rowText (p :: ps) := by
  obtain ⟨rest, row⟩ := exists_rowText_cons p ps
  obtain ⟨c, head, digit⟩ := isDigit_head_partText p rest
  obtain ⟨cs, front⟩ := List.head?_eq_some_iff.1 head
  rw [row, front, List.dropWhile_cons_of_neg (by simp [not_isBlank_of_isDigit digit])]

theorem rowText_cons_ne_nil (p : Nat × Scale) (ps : List (Nat × Scale)) : rowText (p :: ps) ≠ [] := by
  obtain ⟨rest, row⟩ := exists_rowText_cons p ps
  obtain ⟨c, head, -⟩ := isDigit_head_partText p rest
  rw [row]
  intro empty
  simp [empty] at head

/-- A row is no lone zero: behind its first number comes a word. -/
theorem rowText_cons_ne_zero (p : Nat × Scale) (ps : List (Nat × Scale)) :
    rowText (p :: ps) ≠ ['0'] := by
  obtain ⟨rest, row⟩ := exists_rowText_cons p ps
  obtain ⟨c, cs, label⟩ := List.exists_cons_of_ne_nil (p.2.all_isUnitChar_label p.1).1
  have digits := List.length_pos_iff.2 (Text.Numeral.digits_ne_nil p.1)
  intro zero
  have single : (rowText (p :: ps)).length = 1 := by rw [zero]; rfl
  rw [row, partText, label] at single
  simp only [List.length_append, List.length_cons] at single
  omega

theorem parts?_of_part? {cs rest : List Char} {p : Part}
    (first : part? (cs.dropWhile Text.isBlank) = some (p, rest)) :
    parts? cs = if rest.dropWhile Text.isBlank = [] then some [p] else (parts? rest).map (p :: ·) := by
  rw [parts?]
  split
  · next none => cases none.symm.trans first
  · next found =>
    cases found.symm.trans first
    split <;> simp_all

theorem parts?_rowText {cs : List Char} {p : Nat × Scale} {ps : List (Nat × Scale)}
    (row : cs.dropWhile Text.isBlank = rowText (p :: ps)) :
    parts? cs = some ((p :: ps).map partRead) := by
  induction ps generalizing cs p with
  | nil =>
    have first : part? (cs.dropWhile Text.isBlank) = some (partRead p, []) := by
      rw [row, rowText_singleton, ← List.append_nil (partText p)]
      exact part?_partText p nofun
    rw [parts?_of_part? first]
    rfl
  | cons q ps ih =>
    have first : part? (cs.dropWhile Text.isBlank) = some (partRead p, ' ' :: rowText (q :: ps)) := by
      rw [row, rowText_cons_cons]
      exact part?_partText p fun c h => (Option.some.inj h).symm
    have behind : (' ' :: rowText (q :: ps)).dropWhile Text.isBlank = rowText (q :: ps) :=
      (List.dropWhile_cons_of_pos (by decide)).trans (dropWhile_rowText q ps)
    rw [parts?_of_part? first, behind, if_neg (rowText_cons_ne_nil q ps), ih behind]
    rfl

/-! ### Adding the parts up -/

theorem ext_nanoseconds {s r : Span} (h : s.nanoseconds = r.nanoseconds) : s = r := by
  cases s
  cases r
  simpa using h

theorem add?_eq_some {s r : Span} {n : Nat} (total : r.nanoseconds = s.nanoseconds + n) :
    s.add? n = some r := by
  have room : s.nanoseconds + n < (1 <<< 64) * 1000000000 := total ▸ r.inRange
  rw [add?, dif_pos room]
  exact congrArg some (ext_nanoseconds total.symm)

theorem room?_eq_some {n : Nat} (h : n < 18446744073709551616) : room? n = some n := if_pos h

theorem addFine?_eq_some {s r : Span} {n : Nat} (small : n < 1000000000)
    (total : r.nanoseconds = s.nanoseconds + n) : s.addFine? n = some r := by
  have last : s.subsecond < 1000000000 := Nat.mod_lt _ (by decide)
  rw [addFine?, room?_eq_some (by omega)]
  exact add?_eq_some total

theorem Scale.nanoseconds_pos (u : Scale) : 0 < u.nanoseconds := by
  cases u <;> decide

theorem Scale.nanoseconds_of_countsSeconds {u : Scale} (h : u.countsSeconds = true) :
    1000000000 ≤ u.nanoseconds ∧ u.nanoseconds / 1000000000 * 1000000000 = u.nanoseconds := by
  cases u <;> first | decide | cases h

section Counts

variable {count : Nat} {u : Scale}

theorem wholeNanoseconds?_partRead
    (small : u.countsSeconds = true ∨ count * u.nanoseconds < 1000000000)
    (room : count * u.nanoseconds < 18446744073709551616 * 1000000000) :
    (partRead (count, u)).wholeNanoseconds? = some (count * u.nanoseconds) := by
  cases seconds : u.countsSeconds with
  | true =>
    have whole : count * (u.nanoseconds / 1000000000) * 1000000000 = count * u.nanoseconds := by
      rw [Nat.mul_assoc, (Scale.nanoseconds_of_countsSeconds seconds).2]
    have fits : room? (count * (u.nanoseconds / 1000000000)) = some _ := room?_eq_some (by omega)
    rw [Part.wholeNanoseconds?, partRead, if_pos seconds, fits, Option.map_some, whole]
  | false =>
    have less : count * u.nanoseconds < 1000000000 := small.resolve_left (by simp [seconds])
    have fits : room? (count * u.nanoseconds) = some _ := room?_eq_some (by omega)
    rw [Part.wholeNanoseconds?, partRead, if_neg (by simp [seconds]), fits]

theorem count_lt (small : u.countsSeconds = true ∨ count * u.nanoseconds < 1000000000)
    (room : count * u.nanoseconds < 18446744073709551616 * 1000000000) :
    count < 18446744073709551616 := by
  rcases small with seconds | less
  · have long := Nat.mul_le_mul_left count (Scale.nanoseconds_of_countsSeconds seconds).1
    omega
  · have few : count ≤ count * u.nanoseconds := Nat.le_mul_of_pos_right _ u.nanoseconds_pos
    omega

/-- What a written part adds is its count times its unit, if there is room for the sum; in a unit that is
shorter than a second it has to be less than a second. -/
theorem addPart?_partRead {s r : Span}
    (small : u.countsSeconds = true ∨ count * u.nanoseconds < 1000000000)
    (total : r.nanoseconds = s.nanoseconds + count * u.nanoseconds) :
    s.addPart? (partRead (count, u)) = some r := by
  have room : count * u.nanoseconds < 18446744073709551616 * 1000000000 :=
    Nat.lt_of_le_of_lt (total ▸ Nat.le_add_left _ _) r.inRange
  have few : (partRead (count, u)).whole < 1 <<< 64 := count_lt small room
  have whole := wholeNanoseconds?_partRead small room
  -- a part without a fraction adds nothing more
  have nothing : (if u.splitsIntoSeconds then r.add? 0 else r.addFine? 0) = some r := by
    split
    · exact add?_eq_some rfl
    · exact addFine?_eq_some (by decide) rfl
  have noFraction : (partRead (count, u)).fractionNanoseconds? = some 0 := rfl
  have same : (partRead (count, u)).unit = u := rfl
  rw [addPart?, if_pos few, whole, noFraction, same]
  simp only [Option.bind_eq_bind, Option.bind_some]
  split
  · rw [add?_eq_some total]
    exact nothing
  · next fine =>
    rw [addFine?_eq_some (small.resolve_left fine) total]
    exact nothing

end Counts

/-- Units into which a length is broken down without anything left over, those that are shorter than a
second only for less than a second. -/
def Splits : List Scale → Nat → Prop
  | [], n => n = 0
  | u :: us, n => (u.countsSeconds = true ∨ n < 1000000000) ∧ Splits us (n % u.nanoseconds)

theorem splits_written (n : Nat) : Splits written n := by
  have micro : 1000000 < 1000000000 := by decide
  have nano : 1000 < 1000000000 := by decide
  exact ⟨.inl rfl, .inl rfl, .inl rfl, .inl rfl, .inl rfl, .inl rfl, .inr (Nat.mod_lt _ (by decide)),
    .inr ((Nat.mod_lt _ (by decide)).trans micro), .inr ((Nat.mod_lt _ (by decide)).trans nano),
    Nat.mod_one _⟩

/-- The parts of a length add it, whatever was added before. -/
theorem addParts?_breakdown {us : List Scale} {n : Nat} {s r : Span} (splits : Splits us n)
    (total : r.nanoseconds = s.nanoseconds + n) :
    addParts? s (((breakdown us n).filter fun p => p.1 != 0).map partRead) = some r := by
  induction us generalizing n s with
  | nil =>
    obtain rfl : n = 0 := splits
    exact congrArg some (ext_nanoseconds total.symm)
  | cons u us ih =>
    obtain ⟨fine, more⟩ := splits
    have parted := Nat.div_add_mod' n u.nanoseconds
    by_cases none : n / u.nanoseconds = 0
    · have same : n % u.nanoseconds = n := by rwa [none, Nat.zero_mul, Nat.zero_add] at parted
      rw [same] at more
      simpa [breakdown, none, same] using ih more total
    · have room : s.nanoseconds + n / u.nanoseconds * u.nanoseconds < (1 <<< 64) * 1000000000 := by
        have := r.inRange
        omega
      have small : u.countsSeconds = true ∨ n / u.nanoseconds * u.nanoseconds < 1000000000 :=
        fine.imp_right fun h => by omega
      have first := addPart?_partRead (s := s) (r := ⟨_, room⟩) small rfl
      have rest := ih (s := ⟨_, room⟩) more (by simp only; omega)
      simpa [breakdown, none, addParts?, first] using rest

/-! ### Durations -/

/-- The parts that are written for a duration, no seconds where there are none. -/
def writtenParts (s : Span) : List (Nat × Scale) :=
  let parts := (breakdown written s.nanoseconds).filter fun p => p.1 != 0
  if parts.isEmpty then [(0, .second)] else parts

theorem text_toList (s : Span) : s.text.toList = rowText s.writtenParts := by
  have part : ∀ p : Nat × Scale, (Text.Numeral.text p.1 ++ p.2.label p.1).toList = partText p := by
    intro p
    rw [String.toList_append, Text.Numeral.text, String.toList_ofList, partText]
  rw [text, writtenParts]
  split
  · rw [rowText_singleton, partText, Text.Numeral.digits, if_pos (by decide)]
    rfl
  · rw [String.toList_intercalate, List.map_map, rowText]
    exact congrArg _ (List.map_congr_left fun p _ => part p)

theorem addParts?_writtenParts (s : Span) : addParts? zero (s.writtenParts.map partRead) = some s := by
  have sum := addParts?_breakdown (s := zero) (splits_written s.nanoseconds) (Nat.zero_add _).symm
  rw [writtenParts]
  split
  · next empty =>
    rw [List.isEmpty_iff.1 empty] at sum
    exact sum
  · exact sum

theorem writtenParts_ne_nil (s : Span) : s.writtenParts ≠ [] := by
  rw [writtenParts]
  split
  · nofun
  · next some_part => exact fun empty => some_part (List.isEmpty_iff.2 empty)

/-- What is written for a duration is read as this duration. -/
theorem read?_text (s : Span) : read? s.text.toList = some s := by
  obtain ⟨p, ps, parts⟩ := List.exists_cons_of_ne_nil s.writtenParts_ne_nil
  have sum := s.addParts?_writtenParts
  rw [parts] at sum
  rw [text_toList, parts, read?, if_neg (rowText_cons_ne_zero p ps),
    parts?_rowText (dropWhile_rowText p ps), Option.bind_some, sum]

end LogIntake.Span
