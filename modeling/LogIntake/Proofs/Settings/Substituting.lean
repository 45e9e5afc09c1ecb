import LogIntake.Failure
import LogIntake.Settings.Substitution
import Mathlib

/-!
Filling in references, told from how a text with references is written: a backslash in front of every
mark of its words, and each name between the marks of a reference. Reading such a text gives back the
words with the values in between, whatever the values hold, or else the fault of the first reference that
has no value.
-/
namespace LogIntake.Substitution

variable {lookup : String → Variable}

/-! ### From one mark to the next -/

theorem scan_of_unmarked {input : List Char} (unmarked : Text.cut? opening input = none) :
    scan lookup input = .ok input := by
  rw [scan]
  split
  · rfl
  · next found => cases unmarked.symm.trans found

theorem scan_of_escape {input before behind : List Char}
    (marked : Text.cut? opening input = some (before, behind))
    (escaped : before.getLast? = some '\\') :
    scan lookup input = (scan lookup behind).map (before.dropLast ++ opening ++ ·) := by
  rw [scan]
  split
  · next absent => cases absent.symm.trans marked
  · next found =>
    obtain ⟨rfl, rfl⟩ := Prod.mk.inj (Option.some.inj (marked.symm.trans found))
    rw [if_pos escaped]
    cases scan lookup behind <;> rfl

theorem scan_of_unclosed {input before behind : List Char}
    (marked : Text.cut? opening input = some (before, behind))
    (unescaped : before.getLast? ≠ some '\\') (unclosed : Text.cut? closing behind = none) :
    scan lookup input = .error .wrongForm := by
  rw [scan]
  split
  · next absent => cases absent.symm.trans marked
  · next found =>
    obtain ⟨rfl, rfl⟩ := Prod.mk.inj (Option.some.inj (marked.symm.trans found))
    rw [if_neg unescaped]
    split
    · rfl
    · next closed => cases unclosed.symm.trans closed

theorem scan_of_closed {input before behind name rest : List Char}
    (marked : Text.cut? opening input = some (before, behind))
    (unescaped : before.getLast? ≠ some '\\') (closed : Text.cut? closing behind = some (name, rest)) :
    scan lookup input = (do
      let value ← resolve lookup name
      let more ← scan lookup rest
      .ok (before ++ value ++ more)) := by
  rw [scan]
  split
  · next absent => cases absent.symm.trans marked
  · next found =>
    obtain ⟨rfl, rfl⟩ := Prod.mk.inj (Option.some.inj (marked.symm.trans found))
    rw [if_neg unescaped]
    split
    · next unclosed => cases unclosed.symm.trans closed
    · next found =>
      obtain ⟨rfl, rfl⟩ := Prod.mk.inj (Option.some.inj (closed.symm.trans found))
      rfl

/-- A text without a mark is what the scan makes of it, so it need not be scanned. -/
theorem fill_eq_scan (lookup : String → Variable) (input : List Char) :
    fill lookup input = scan lookup input := by
  rw [fill]
  split
  · rfl
  · next unmarked => rw [scan_of_unmarked (by simpa using unmarked)]

/-! ### From one character to the next -/

theorem scan_plain {c : Char} {cs : List Char} (begun : ¬ opening <+: c :: cs)
    (escaped : ¬ '\\' :: opening <+: c :: cs) :
    scan lookup (c :: cs) = (scan lookup cs).map (c :: ·) := by
  have later : Text.cut? opening (c :: cs) =
      (Text.cut? opening cs).map fun parts => (c :: parts.1, parts.2) := by
    rw [Text.cut?, if_neg fun here => begun (List.isPrefixOf_iff_prefix.1 here)]
  cases found : Text.cut? opening cs with
  | none =>
    rw [scan_of_unmarked found, scan_of_unmarked (by rw [later, found]; rfl)]
    rfl
  | some parts =>
    obtain ⟨before, behind⟩ := parts
    have whole : Text.cut? opening (c :: cs) = some (c :: before, behind) := by rw [later, found]; rfl
    have sameEnd : (c :: before).getLast? = some '\\' ↔ before.getLast? = some '\\' := by
      cases before with
      | nil =>
        have other : c ≠ '\\' := by
          rintro rfl
          rw [Text.cut?_eq_some found] at escaped
          exact escaped ⟨behind, rfl⟩
        simp [other]
      | cons d ds => rw [List.getLast?_cons_cons]
    by_cases slash : before.getLast? = some '\\'
    · have filled : before ≠ [] := by
        rintro rfl
        cases slash
      rw [scan_of_escape found slash, scan_of_escape whole (sameEnd.2 slash),
        List.dropLast_cons_of_ne_nil filled]
      cases scan lookup behind <;> rfl
    · have unescaped : (c :: before).getLast? ≠ some '\\' := fun h => slash (sameEnd.1 h)
      cases closed : Text.cut? closing behind with
      | none =>
        rw [scan_of_unclosed found slash closed, scan_of_unclosed whole unescaped closed]
        rfl
      | some ends =>
        rw [scan_of_closed found slash closed, scan_of_closed whole unescaped closed]
        cases resolve lookup ends.1 with
        | error e => rfl
        | ok value => cases scan lookup ends.2 <;> rfl

theorem scan_escaped (cs : List Char) :
    scan lookup ('\\' :: (opening ++ cs)) = (scan lookup cs).map (opening ++ ·) := by
  have first : ¬ opening <:+: ['\\'] ++ opening.dropLast := by decide
  have marked : Text.cut? opening ('\\' :: (opening ++ cs)) = some (['\\'], cs) :=
    Text.cut?_of_first first cs
  rw [scan_of_escape marked rfl]
  rfl

theorem scan_reference {name : List Char} (fresh : '}' ∉ name) (rest : List Char) :
    scan lookup (opening ++ (name ++ closing ++ rest)) = (do
      let value ← resolve lookup name
      let more ← scan lookup rest
      .ok (value ++ more)) := by
  have first : ¬ opening <:+: [] ++ opening.dropLast := by decide
  have marked : Text.cut? opening (opening ++ (name ++ closing ++ rest)) =
      some ([], name ++ closing ++ rest) := Text.cut?_of_first first _
  have closed : Text.cut? closing (name ++ closing ++ rest) = some (name, rest) :=
    Text.cut?_singleton_eq_some_iff.2 ⟨by simp [closing], fresh⟩
  rw [scan_of_closed marked (by decide) closed]
  rfl

/-! ### Writing words -/

def escape : List Char → List Char
  | '$' :: '{' :: cs => '\\' :: '$' :: '{' :: escape cs
  | c :: cs => c :: escape cs
  | [] => []

/-- What may stand behind words: nothing, or a reference if they do not end in a backslash. -/
def Follows (tail ws : List Char) : Prop :=
  tail = [] ∨ ∃ rest, tail = opening ++ rest ∧ ws.getLast? ≠ some '\\'

theorem Follows.of_cons {tail cs : List Char} {c : Char} (h : Follows tail (c :: cs)) :
    Follows tail cs := by
  rcases h with rfl | ⟨rest, rfl, unescaped⟩
  · exact .inl rfl
  · refine .inr ⟨rest, rfl, fun slash => unescaped ?_⟩
    rw [List.getLast?_cons, slash]
    rfl

/-- What is written begins with a brace only if the words do. -/
theorem brace_of_escape {tail ws rest : List Char} (fits : Follows tail ws)
    (h : escape ws ++ tail = '{' :: rest) : ∃ cs, ws = '{' :: cs := by
  fun_cases escape ws with
  | case1 cs => simp [escape] at h
  | case2 c cs other =>
    rw [escape.eq_2 _ _ other, List.cons_append, List.cons.injEq] at h
    exact ⟨cs, by rw [h.1]⟩
  | case3 =>
    rcases fits with rfl | ⟨more, rfl, -⟩
    · cases h
    · simp [escape, opening] at h

/-- What is written begins with a mark only if there are no words. -/
theorem eq_nil_of_escape {tail ws rest : List Char} (fits : Follows tail ws)
    (h : escape ws ++ tail = opening ++ rest) : ws = [] := by
  fun_cases escape ws with
  | case1 cs => simp [escape, opening] at h
  | case2 c cs other =>
    rw [escape.eq_2 _ _ other, List.cons_append, opening, List.cons_append, List.cons.injEq] at h
    obtain ⟨rest', rfl⟩ := brace_of_escape fits.of_cons h.2
    exact absurd rfl (other rest' h.1)
  | case3 => rfl

/-- Words come back as they were, and the scan goes on behind them. -/
theorem scan_escape_append {tail ws : List Char} (fits : Follows tail ws) :
    scan lookup (escape ws ++ tail) = (scan lookup tail).map (ws ++ ·) := by
  fun_induction escape ws with
  | case1 cs ih =>
    have later : scan lookup ('\\' :: (opening ++ (escape cs ++ tail))) = _ := scan_escaped _
    rw [ih fits.of_cons.of_cons] at later
    refine later.trans ?_
    cases scan lookup tail <;> rfl
  | case2 c cs other ih =>
    have begun : ¬ opening <+: c :: (escape cs ++ tail) := by
      rintro ⟨rest, h⟩
      rw [opening, List.cons_append, List.cons.injEq] at h
      obtain ⟨rest', rfl⟩ := brace_of_escape fits.of_cons h.2.symm
      exact other rest' h.1.symm rfl
    have escaped : ¬ '\\' :: opening <+: c :: (escape cs ++ tail) := by
      rintro ⟨rest, h⟩
      rw [List.cons_append, List.cons.injEq] at h
      obtain ⟨rfl, h⟩ := h
      obtain rfl := eq_nil_of_escape fits.of_cons h.symm
      rcases fits with rfl | ⟨more, rfl, unescaped⟩
      · cases h
      · exact unescaped rfl
    rw [List.cons_append, scan_plain begun escaped, ih fits.of_cons]
    cases scan lookup tail <;> rfl
  | case3 =>
    rw [List.nil_append]
    cases scan lookup tail <;> rfl

/-! ### Texts with references -/

/-- A text with references: words, a reference, and so on; there may be no words at a place. Words right in
front of a reference do not end in a backslash, and the names are such. -/
inductive Passage where
  | words (ws : List Char)
  | reference (ws : List Char) (name : String) (rest : Passage)
      (unescaped : ws.getLast? ≠ some '\\') (named : isName name.toList = true)

namespace Passage

def written : Passage → List Char
  | words ws => escape ws
  | reference ws name rest _ _ =>
    escape ws ++ (opening ++ (name.toList ++ closing ++ rest.written))

def names : Passage → List String
  | words _ => []
  | reference _ name rest _ _ => name :: rest.names

def text (values : String → String) : Passage → List Char
  | words ws => ws
  | reference ws name rest _ _ => ws ++ (values name).toList ++ rest.text values

theorem text_congr {values other : String → String} {p : Passage}
    (same : ∀ name ∈ p.names, values name = other name) : p.text values = p.text other := by
  induction p with
  | words ws => rfl
  | reference ws name rest _ _ ih =>
    have later := ih fun n hn => same n (List.mem_cons_of_mem _ hn)
    rw [text, text, same name List.mem_cons_self, later]

end Passage

inductive Fails (lookup : String → Variable) (name : String) : Fault → Prop
  | missing (absent : lookup name = .missing) : Fails lookup name (.missing name)
  | invalidValue (garbled : lookup name = .unreadable) : Fails lookup name (.invalidValue name)

theorem resolve_eq_ok_iff {name : String} (named : isName name.toList = true) {text : List Char} :
    resolve lookup name.toList = .ok text ↔ ∃ value, lookup name = .value value ∧ value.toList = text := by
  rw [resolve, if_pos named, String.ofList_toList]
  split <;> simp_all

theorem resolve_eq_error_iff {name : String} (named : isName name.toList = true) {fault : Fault} :
    resolve lookup name.toList = .error fault ↔ Fails lookup name fault := by
  rw [resolve, if_pos named, String.ofList_toList]
  cases known : lookup name with
  | missing =>
    constructor
    · rintro ⟨⟩
      exact .missing known
    · rintro (absent | garbled)
      · rfl
      · cases known.symm.trans garbled
  | unreadable =>
    constructor
    · rintro ⟨⟩
      exact .invalidValue known
    · rintro (absent | garbled)
      · cases known.symm.trans absent
      · rfl
  | value value =>
    constructor
    · rintro ⟨⟩
    · rintro (absent | garbled)
      · cases known.symm.trans absent
      · cases known.symm.trans garbled

theorem not_mem_of_isName {name : List Char} (named : isName name = true) : '}' ∉ name := by
  intro inside
  simp only [isName, Bool.and_eq_true, List.all_eq_true] at named
  exact absurd (named.2 '}' inside) (by decide)

theorem scan_escape (ws : List Char) : scan lookup (escape ws) = .ok ws := by
  have nothing : scan lookup [] = .ok [] := scan_of_unmarked rfl
  have whole : scan lookup (escape ws ++ []) = (scan lookup []).map (ws ++ ·) :=
    scan_escape_append (.inl rfl)
  rw [List.append_nil, nothing] at whole
  simpa [Except.map] using whole

namespace Passage

theorem scan_written_reference {ws : List Char} {name : String} {rest : Passage}
    (unescaped : ws.getLast? ≠ some '\\') (named : isName name.toList = true) :
    scan lookup (reference ws name rest unescaped named).written = (do
      let value ← resolve lookup name.toList
      let more ← scan lookup rest.written
      .ok (ws ++ value ++ more)) := by
  rw [written, scan_escape_append (.inr ⟨_, rfl, unescaped⟩), scan_reference (not_mem_of_isName named)]
  cases resolve lookup name.toList with
  | error fault => rfl
  | ok value =>
    cases scan lookup rest.written with
    | error fault => rfl
    | ok more => simp [bind, Except.bind, Except.map]

theorem scan_written_eq_ok_iff {p : Passage} {text : List Char} :
    scan lookup p.written = .ok text ↔
      ∃ values, (∀ name ∈ p.names, lookup name = .value (values name)) ∧ p.text values = text := by
  induction p generalizing text with
  | words ws =>
    rw [written, scan_escape, Except.ok.injEq]
    simp [names, Passage.text]
  | reference ws name rest unescaped named ih =>
    rw [scan_written_reference, bind_eq_ok_iff]
    simp only [bind_eq_ok_iff, resolve_eq_ok_iff named, ih]
    constructor
    · rintro ⟨_, ⟨value, known, rfl⟩, _, ⟨values, each, rfl⟩, whole⟩
      refine ⟨fun n => if n = name then value else values n, ?_, ?_⟩
      · intro n hn
        by_cases same : n = name
        · simp [same, known]
        · have later : n ∈ rest.names := (List.mem_cons.1 hn).resolve_left same
          simp [same, each n later]
      · -- a name that comes back has the value that it had
        have again : rest.text (fun n => if n = name then value else values n) = rest.text values := by
          refine text_congr fun n hn => ?_
          by_cases same : n = name
          · have known' := each n hn
            rw [same, known, Variable.value.injEq] at known'
            simp [same, known']
          · simp [same]
        rw [Passage.text, again]
        simpa using whole
    · rintro ⟨values, each, rfl⟩
      exact ⟨_, ⟨values name, each name List.mem_cons_self, rfl⟩, _,
        ⟨values, fun n hn => each n (List.mem_cons_of_mem _ hn), rfl⟩, rfl⟩

theorem scan_written_eq_error_iff {p : Passage} {fault : Fault} :
    scan lookup p.written = .error fault ↔
      ∃ before name behind, p.names = before ++ name :: behind ∧
        (∀ other ∈ before, ∃ value, lookup other = .value value) ∧ Fails lookup name fault := by
  induction p with
  | words ws =>
    rw [written, scan_escape]
    simp [names]
  | reference ws name rest unescaped named ih =>
    rw [scan_written_reference, bind_eq_error_iff]
    simp only [bind_eq_error_iff, resolve_eq_ok_iff named, resolve_eq_error_iff named, ih, reduceCtorEq,
      and_false, exists_false, or_false]
    constructor
    · rintro (fails | ⟨_, ⟨value, known, -⟩, before, other, behind, split, each, fails⟩)
      · exact ⟨[], name, rest.names, rfl, by simp, fails⟩
      · refine ⟨name :: before, other, behind, by rw [names, split, List.cons_append], ?_, fails⟩
        intro n hn
        rcases List.mem_cons.1 hn with rfl | hn
        · exact ⟨value, known⟩
        · exact each n hn
    · rintro ⟨before, other, behind, split, each, fails⟩
      cases before with
      | nil =>
        obtain ⟨rfl, -⟩ := List.cons.inj split
        exact .inl fails
      | cons first before =>
        obtain ⟨rfl, later⟩ := List.cons.inj split
        obtain ⟨value, known⟩ := each name List.mem_cons_self
        exact .inr ⟨_, ⟨value, known, rfl⟩, before, other, behind, later,
          fun n hn => each n (List.mem_cons_of_mem _ hn), fails⟩

end Passage

/-- A text that is written with references reads as its words with the values in between just if each name
has a value, and else gives the fault of the first one that has none. Words alone come back whatever the
variables are, and the short cut for a text without marks makes no difference. -/
theorem fill_written (lookup : String → Variable) :
    (∀ (p : Passage) text, fill lookup p.written = .ok text ↔
      ∃ values, (∀ name ∈ p.names, lookup name = .value (values name)) ∧ p.text values = text) ∧
    (∀ (p : Passage) fault, fill lookup p.written = .error fault ↔
      ∃ before name behind, p.names = before ++ name :: behind ∧
        (∀ other ∈ before, ∃ value, lookup other = .value value) ∧ Fails lookup name fault) ∧
    (∀ ws, fill lookup (escape ws) = .ok ws) ∧
    ∀ input, fill lookup input = scan lookup input := by
  have loop := fill_eq_scan lookup
  refine ⟨fun p text => ?_, fun p fault => ?_, fun ws => ?_, loop⟩
  · rw [loop]
    exact Passage.scan_written_eq_ok_iff
  · rw [loop]
    exact Passage.scan_written_eq_error_iff
  · rw [loop]
    exact scan_escape ws

def greeting : Passage := .reference ['d', 'e', 'a', 'r', ' '] "NAME" (.words ['!']) (by decide) (by decide)

example : greeting.written = "dear $\x7bNAME\x7d!".toList := by decide

example : greeting.text (fun _ => "Ann") = "dear Ann!".toList := by decide

end LogIntake.Substitution
