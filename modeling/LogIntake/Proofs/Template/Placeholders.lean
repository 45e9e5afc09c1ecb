import LogIntake.Failure
import LogIntake.Template.Pattern
import Mathlib

/-!
How a text with placeholders is made. Where the first double brace stands a placeholder begins, which is
a name among blanks between double braces, and behind it the text goes on in the same way; what is left
are words. A text can be split just if it is made like this, and there is one way to do it.
-/
namespace LogIntake.Template

/-- A placeholder: a name between double braces, perhaps among blanks. -/
inductive Placeholder : String → List Char → Prop
  | intro {left name right : List Char} (before : ∀ c ∈ left, Text.isBlank c = true)
      (named : isParameterName name = true) (behind : ∀ c ∈ right, Text.isBlank c = true) :
      Placeholder (String.ofList name) (opening ++ (left ++ name ++ right) ++ closing)

inductive Composed : List Char → List Piece → Prop
  | words {cs : List Char} (unmarked : ¬ opening <:+: cs) : Composed cs (wordsPiece cs)
  | placeholder {before mark rest : List Char} {name : String} {pieces : List Piece}
      (first : ¬ opening <:+: before ++ ['{']) (holds : Placeholder name mark)
      (behind : Composed rest pieces) :
      Composed (before ++ mark ++ rest) (wordsPiece before ++ .parameter name :: pieces)

/-! ### Names -/

theorem not_isBlank_of_isNameChar {c : Char} (h : isNameChar c = true) : Text.isBlank c = false := by
  have ascii : ∀ n < 128, isNameChar (Char.ofNat n) = true →
      Text.isBlank (Char.ofNat n) = false := by decide +kernel
  have small : c.toNat < 128 := by
    simp only [isNameChar, Char.isAlphanum, Char.isAlpha, Char.isUpper, Char.isLower, Char.isDigit,
      Bool.or_eq_true, Bool.and_eq_true, decide_eq_true_eq, ge_iff_le, UInt32.le_iff_toNat_le] at h
    rcases h with (((⟨-, high⟩ | ⟨-, high⟩) | ⟨-, high⟩) | rfl) | rfl
    · exact Nat.lt_of_le_of_lt high (by decide)
    · exact Nat.lt_of_le_of_lt high (by decide)
    · exact Nat.lt_of_le_of_lt high (by decide)
    · decide
    · decide
  have here := ascii c.toNat small
  rw [Char.ofNat_toNat] at here
  exact here h

theorem isNameChar_of_mem {name : List Char} (named : isParameterName name = true) :
    ∀ c ∈ name, isNameChar c = true := by
  simp only [isParameterName, Bool.and_eq_true, List.all_eq_true] at named
  exact named.2

theorem checkName_eq_ok_iff {name : List Char} {u : Unit} :
    checkName name = .ok u ↔ isParameterName name = true := by
  rw [checkName]
  split <;> simp_all

theorem checkName_eq_error_iff {name : List Char} {fault : Fault} :
    checkName name = .error fault ↔
      isParameterName name = false ∧ fault = .invalidParameterName (String.ofList name) := by
  cases named : isParameterName name with
  | true => simp [checkName, named]
  | false => simp [checkName, named, eq_comm]

/-- In a placeholder a name stands among blanks, and there is no brace beside those around it. -/
theorem Placeholder.exists_inside {name : String} {mark : List Char} (holds : Placeholder name mark) :
    ∃ inside, mark = opening ++ inside ++ closing ∧ '{' ∉ inside ∧ '}' ∉ inside ∧
      Text.trim inside = name.toList ∧ isParameterName name.toList = true := by
  obtain @⟨left, name, right, blank, named, blank'⟩ := holds
  have chars := isNameChar_of_mem named
  have without : ∀ brace, Text.isBlank brace = false → isNameChar brace = false →
      brace ∉ left ++ name ++ right := by
    intro brace shown unnamed inside
    simp only [List.mem_append] at inside
    obtain (h | h) | h := inside
    · exact Bool.noConfusion (shown.symm.trans (blank _ h))
    · exact Bool.noConfusion (unnamed.symm.trans (chars _ h))
    · exact Bool.noConfusion (shown.symm.trans (blank' _ h))
  rw [String.toList_ofList]
  exact ⟨left ++ name ++ right, rfl, without '{' rfl rfl, without '}' rfl rfl,
    Text.trim_append blank (fun c hc => not_isBlank_of_isNameChar (chars c hc)) blank', named⟩

theorem Placeholder.of_trim {inside : List Char} (named : isParameterName (Text.trim inside) = true) :
    Placeholder (String.ofList (Text.trim inside)) (opening ++ inside ++ closing) := by
  obtain ⟨left, right, around, blank, blank'⟩ := Text.exists_blanks_trim inside
  conv => rhs; rw [around]
  exact .intro blank named blank'

/-! ### Splitting -/

theorem cut?_closing {inside : List Char} (fresh : '}' ∉ inside) (rest : List Char) :
    Text.cut? closing (inside ++ closing ++ rest) = some (inside, rest) := by
  refine Text.cut?_of_first (fun marked => ?_) rest
  have twice := marked.sublist.count_le '}'
  rw [List.count_append, List.count_eq_zero_of_not_mem fresh] at twice
  exact absurd twice (by decide)

theorem split_of_unmarked {cs : List Char} (unmarked : Text.cut? opening cs = none) :
    split cs = .ok (wordsPiece cs) := by
  rw [split]
  split
  · rfl
  · next found => cases unmarked.symm.trans found

theorem split_of_unclosed {cs before behind : List Char}
    (marked : Text.cut? opening cs = some (before, behind))
    (opened : Text.cut? closing behind = none) :
    split cs = .error (.unclosedPlaceholder (String.ofList cs)) := by
  rw [split]
  split
  · next absent => cases absent.symm.trans marked
  · next found =>
    obtain ⟨rfl, rfl⟩ := Prod.mk.inj (Option.some.inj (marked.symm.trans found))
    split
    · rfl
    · next closed => cases opened.symm.trans closed

theorem split_of_marked {cs before behind inside rest : List Char}
    (marked : Text.cut? opening cs = some (before, behind))
    (closed : Text.cut? closing behind = some (inside, rest)) :
    split cs = (do
      checkName (Text.trim inside)
      let more ← split rest
      .ok (wordsPiece before ++ .parameter (String.ofList (Text.trim inside)) :: more)) := by
  rw [split]
  split
  · next absent => cases absent.symm.trans marked
  · next found =>
    obtain ⟨rfl, rfl⟩ := Prod.mk.inj (Option.some.inj (marked.symm.trans found))
    split
    · next absent => cases absent.symm.trans closed
    · next found =>
      obtain ⟨rfl, rfl⟩ := Prod.mk.inj (Option.some.inj (closed.symm.trans found))
      rfl

theorem split_of_placeholder {before mark rest : List Char} {name : String}
    (first : ¬ opening <:+: before ++ ['{']) (holds : Placeholder name mark) :
    split (before ++ mark ++ rest) = (do
      let more ← split rest
      .ok (wordsPiece before ++ .parameter name :: more)) := by
  obtain ⟨inside, rfl, -, fresh, trimmed, named⟩ := holds.exists_inside
  have marked : Text.cut? opening (before ++ opening ++ (inside ++ closing ++ rest)) =
      some (before, inside ++ closing ++ rest) := Text.cut?_of_first first _
  have whole := split_of_marked marked (cut?_closing fresh rest)
  rw [trimmed, String.ofList_toList, (checkName_eq_ok_iff (u := ())).2 named] at whole
  have parts : before ++ (opening ++ inside ++ closing) ++ rest =
      before ++ opening ++ (inside ++ closing ++ rest) := by
    simp [List.append_assoc]
  rw [parts, whole]
  rfl

theorem Composed.split_eq {cs : List Char} {pieces : List Piece} (h : Composed cs pieces) :
    split cs = .ok pieces := by
  induction h with
  | words unmarked => exact split_of_unmarked (Text.cut?_eq_none_iff.2 unmarked)
  | placeholder first holds behind ih =>
    rw [split_of_placeholder first holds, ih]
    rfl

theorem Composed.of_split {cs : List Char} {pieces : List Piece} (h : split cs = .ok pieces) :
    Composed cs pieces := by
  fun_induction split cs generalizing pieces with
  | case1 cs unmarked =>
    obtain rfl := Except.ok.inj h
    exact .words (Text.cut?_eq_none_iff.1 unmarked)
  | case2 => cases h
  | case3 cs before behind marked inside rest closed =>
    rename_i name ih
    obtain ⟨_, named, h⟩ := bind_eq_ok_iff.1 h
    obtain ⟨more, parts, h⟩ := bind_eq_ok_iff.1 h
    obtain rfl := Except.ok.inj h
    have holds := Placeholder.of_trim (checkName_eq_ok_iff.1 named)
    have first := Text.first_of_cut? (by decide) marked
    have whole : cs = before ++ (opening ++ inside ++ closing) ++ rest := by
      rw [Text.cut?_eq_some marked, Text.cut?_eq_some closed]
      simp [List.append_assoc]
    rw [whole]
    exact .placeholder first holds (ih parts)

theorem split_eq_ok_iff {cs : List Char} {pieces : List Piece} :
    split cs = .ok pieces ↔ Composed cs pieces :=
  ⟨Composed.of_split, Composed.split_eq⟩

theorem Composed.unique {cs : List Char} {pieces others : List Piece} (h : Composed cs pieces)
    (h' : Composed cs others) : pieces = others :=
  Except.ok.inj (h.split_eq.symm.trans h'.split_eq)

end LogIntake.Template
