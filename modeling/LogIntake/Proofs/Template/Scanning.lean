import LogIntake.Proofs.Template.Placeholders

/-!
Splitting a text neither loses nor adds anything. The pieces that it gives are those that are written as
the text and stand beside each other as pieces of a text can, so a text without blanks in its placeholders
has the same ones. Splitting fails at the first opening at which no placeholder begins.
-/
namespace LogIntake.Template

variable {cs before behind back mark rest : List Char} {name : String} {pieces : List Piece}

/-! ### Pieces as text -/

/-- How a piece is written: words as they are, and a parameter as any placeholder for it. -/
inductive Shows : Piece → List Char → Prop
  | words (s : String) : Shows (.words s) s.toList
  | parameter {name : String} {mark : List Char} (holds : Placeholder name mark) :
      Shows (.parameter name) mark

def Spells (pieces : List Piece) (cs : List Char) : Prop :=
  ∃ parts, List.Forall₂ Shows pieces parts ∧ cs = parts.flatten

/-- What can stand behind a piece. Words go on up to the next placeholder, and a brace at their end would
be taken for one of its own. -/
def Precedes : Piece → Piece → Prop
  | .words _, .words _ => False
  | .words s, .parameter _ => s.toList.getLast? ≠ some '{'
  | .parameter _, _ => True

/-- Pieces as a text has them: no words are empty or hold an opening, parameters have names, and no words
stand beside other words. -/
structure Tidy (pieces : List Piece) : Prop where
  shown : ∀ s, .words s ∈ pieces → s ≠ "" ∧ ¬ opening <:+: s.toList
  named : ∀ name, .parameter name ∈ pieces → isParameterName name.toList = true
  apart : pieces.IsChain Precedes

def Piece.plain : Piece → List Char
  | .words s => s.toList
  | .parameter name => opening ++ name.toList ++ closing

def plain (pieces : List Piece) : List Char := (pieces.map Piece.plain).flatten

theorem spells_nil_iff : Spells [] cs ↔ cs = [] := by
  constructor
  · rintro ⟨parts, shows, rfl⟩
    cases shows
    rfl
  · rintro rfl
    exact ⟨[], .nil, rfl⟩

theorem spells_cons_iff {p : Piece} :
    Spells (p :: pieces) cs ↔ ∃ part rest, Shows p part ∧ Spells pieces rest ∧ cs = part ++ rest := by
  constructor
  · rintro ⟨parts, shows, rfl⟩
    cases shows with
    | cons first others => exact ⟨_, _, first, ⟨_, others, rfl⟩, rfl⟩
  · rintro ⟨part, rest, first, ⟨parts, others, rfl⟩, rfl⟩
    exact ⟨part :: parts, .cons first others, rfl⟩

theorem Tidy.tail {p : Piece} (tidy : Tidy (p :: pieces)) : Tidy pieces where
  shown s hs := tidy.shown s (List.mem_cons_of_mem p hs)
  named name h := tidy.named name (List.mem_cons_of_mem p h)
  apart := (List.isChain_cons.1 tidy.apart).2

theorem spells_plain (tidy : Tidy pieces) : Spells pieces (plain pieces) := by
  induction pieces with
  | nil => exact spells_nil_iff.2 rfl
  | cons p rest ih =>
    refine spells_cons_iff.2 ⟨p.plain, plain rest, ?_, ih tidy.tail, rfl⟩
    cases p with
    | words s => exact .words s
    | parameter name =>
      have named := tidy.named name List.mem_cons_self
      have holds : Placeholder (String.ofList name.toList)
          (opening ++ ([] ++ name.toList ++ []) ++ closing) := .intro nofun named nofun
      rw [String.ofList_toList, List.nil_append, List.append_nil] at holds
      exact .parameter holds

/-! ### Composed texts -/

theorem first_iff : ¬ opening <:+: before ++ ['{'] ↔
    ¬ opening <:+: before ∧ before.getLast? ≠ some '{' := by
  have ends : opening <:+ before ++ ['{'] ↔ before.getLast? = some '{' := by
    rw [← List.singleton_suffix_iff_getLast?_eq_some]
    show ['{'] ++ ['{'] <:+ before ++ ['{'] ↔ _
    rw [List.suffix_append_inj_of_length_eq rfl]
    simp
  rw [List.infix_concat_iff, ends, not_or, and_comm]

theorem wordsPiece_of_ne_nil (filled : cs ≠ []) : wordsPiece cs = [.words (String.ofList cs)] := by
  simp [wordsPiece, filled]

theorem wordsPiece_toList {s : String} (shown : s ≠ "") : wordsPiece s.toList = [.words s] := by
  have filled : s.toList ≠ [] := fun none => shown (String.toList_eq_nil_iff.1 none)
  rw [wordsPiece_of_ne_nil filled, String.ofList_toList]

theorem Spells.behind_words (words : List Char) (spells : Spells pieces cs) :
    Spells (wordsPiece words ++ pieces) (words ++ cs) := by
  by_cases filled : words = []
  · subst filled
    exact spells
  · rw [wordsPiece_of_ne_nil filled]
    refine spells_cons_iff.2 ⟨words, cs, ?_, spells, rfl⟩
    have shows := Shows.words (String.ofList words)
    rw [String.toList_ofList] at shows
    exact shows

theorem Composed.spells (h : Composed cs pieces) : Spells pieces cs := by
  induction h with
  | @words cs unmarked =>
    have alone := (spells_nil_iff.2 rfl).behind_words cs
    rw [List.append_nil, List.append_nil] at alone
    exact alone
  | @placeholder before mark rest name pieces first holds behind ih =>
    rw [List.append_assoc]
    exact (spells_cons_iff.2 ⟨mark, rest, .parameter holds, ih, rfl⟩).behind_words before

theorem Tidy.behind_parameter (named : isParameterName name.toList = true) (tidy : Tidy pieces) :
    Tidy (.parameter name :: pieces) where
  shown s hs := tidy.shown s ((List.mem_cons.1 hs).resolve_left nofun)
  named other h := by
    obtain same | behind := List.mem_cons.1 h
    · cases same
      exact named
    · exact tidy.named other behind
  apart := List.isChain_cons.2 ⟨fun _ _ => trivial, tidy.apart⟩

theorem Tidy.behind_words {s : String} (shown : s ≠ "") (unmarked : ¬ opening <:+: s.toList)
    (tidy : Tidy pieces) (fits : ∀ p ∈ pieces.head?, Precedes (.words s) p) :
    Tidy (.words s :: pieces) where
  shown other h := by
    obtain same | behind := List.mem_cons.1 h
    · cases same
      exact ⟨shown, unmarked⟩
    · exact tidy.shown other behind
  named name h := tidy.named name ((List.mem_cons.1 h).resolve_left nofun)
  apart := List.isChain_cons.2 ⟨fits, tidy.apart⟩

theorem tidy_nil : Tidy [] := ⟨nofun, nofun, .nil⟩

theorem Composed.tidy (h : Composed cs pieces) : Tidy pieces := by
  induction h with
  | @words cs unmarked =>
    by_cases filled : cs = []
    · subst filled
      exact tidy_nil
    · have shown := String.ofList_eq_empty_iff.not.2 filled
      rw [wordsPiece_of_ne_nil filled]
      exact .behind_words shown (by rwa [String.toList_ofList]) tidy_nil nofun
  | @placeholder before mark rest name pieces first holds behind ih =>
    obtain ⟨inside, -, -, -, -, named⟩ := holds.exists_inside
    have others := ih.behind_parameter named
    by_cases filled : before = []
    · subst filled
      exact others
    · obtain ⟨unmarked, ends⟩ := first_iff.1 first
      have shown := String.ofList_eq_empty_iff.not.2 filled
      rw [wordsPiece_of_ne_nil filled]
      refine .behind_words shown (by rwa [String.toList_ofList]) others ?_
      rintro p ⟨⟩
      rwa [Precedes, String.toList_ofList]

/-- Words are taken together with the placeholder behind them, as the text is scanned. -/
theorem Composed.of_tidy : ∀ {pieces : List Piece} {cs : List Char}, Tidy pieces → Spells pieces cs →
    Composed cs pieces
  | [], cs, _, spells => by
    rw [spells_nil_iff.1 spells]
    exact .words (by decide)
  | .parameter name :: rest, cs, tidy, spells => by
    obtain ⟨mark, behind, first, others, rfl⟩ := spells_cons_iff.1 spells
    cases first with
    | parameter holds =>
      have made : Composed ([] ++ mark ++ behind) (wordsPiece [] ++ .parameter name :: rest) :=
        .placeholder (by decide) holds (Composed.of_tidy tidy.tail others)
      exact made
  | [.words s], cs, tidy, spells => by
    obtain ⟨shown, unmarked⟩ := tidy.shown s List.mem_cons_self
    obtain ⟨part, behind, first, others, rfl⟩ := spells_cons_iff.1 spells
    cases first
    rw [spells_nil_iff.1 others, List.append_nil, ← wordsPiece_toList shown]
    exact .words unmarked
  | .words s :: .words other :: rest, cs, tidy, spells =>
    absurd (List.isChain_cons_cons.1 tidy.apart).1 id
  | .words s :: .parameter name :: rest, cs, tidy, spells => by
    obtain ⟨shown, unmarked⟩ := tidy.shown s List.mem_cons_self
    have first := first_iff.2 ⟨unmarked, (List.isChain_cons_cons.1 tidy.apart).1⟩
    obtain ⟨part, behind, written, others, rfl⟩ := spells_cons_iff.1 spells
    obtain ⟨mark, last, next, further, rfl⟩ := spells_cons_iff.1 others
    cases written
    cases next with
    | parameter holds =>
      have made := Composed.placeholder first holds (Composed.of_tidy tidy.tail.tail further)
      rw [wordsPiece_toList shown, List.append_assoc] at made
      exact made

theorem composed_iff : Composed cs pieces ↔ Tidy pieces ∧ Spells pieces cs :=
  ⟨fun h => ⟨h.tidy, h.spells⟩, fun h => .of_tidy h.1 h.2⟩

/-! ### Texts that cannot be split -/

/-- Why no placeholder begins at an opening with this text behind it: it is never closed, or what stands in
front of the next closing is no name among blanks. In the first case all that is left is told. -/
inductive Spoils (left : List Char) : List Char → Fault → Prop
  | unclosed {behind : List Char} (never : ¬ closing <:+: behind) :
      Spoils left behind (.unclosedPlaceholder (String.ofList left))
  | misnamed {inside rest : List Char} (next : ¬ closing <:+: inside ++ ['}'])
      (unnamed : isParameterName (Text.trim inside) = false) :
      Spoils left (inside ++ closing ++ rest)
        (.invalidParameterName (String.ofList (Text.trim inside)))

def Settled (done : List Piece) : Prop := ∀ s, done.getLast? ≠ some (.words s)

/-- The text holds an opening at which no placeholder begins, and the first one has this fault. What is left
there begins behind the last placeholder before it. -/
inductive Breaks : List Char → Fault → Prop
  | intro {scanned before behind : List Char} {done : List Piece} {fault : Fault}
      (tidy : Tidy done) (spells : Spells done scanned)
      (settled : Settled done) (first : ¬ opening <:+: before ++ ['{'])
      (spoils : Spoils (before ++ opening ++ behind) behind fault)
      (leftmost : ∀ back, opening ++ back <:+ scanned ++ (before ++ opening ++ behind) →
        behind.length < back.length → ∀ left other, ¬ Spoils left back other) :
      Breaks (scanned ++ (before ++ opening ++ behind)) fault

theorem settled_placeholder_iff : Settled (wordsPiece before ++ .parameter name :: pieces) ↔
    Settled pieces := by
  refine forall_congr' fun s => not_congr ?_
  rw [List.getLast?_append, List.getLast?_cons, Option.some_or]
  cases pieces.getLast? <;> simp

theorem suffix_of_first (first : ¬ opening <:+: before ++ ['{'])
    (h : opening ++ back <:+ before ++ opening ++ behind) : opening ++ back <:+ opening ++ behind := by
  induction before with
  | nil => exact h
  | cons c cs ih =>
    rw [List.cons_append, List.infix_cons_iff, not_or] at first
    obtain whole | later := List.suffix_cons_iff.1 h
    · refine absurd ?_ first.1
      have fits : opening <+: c :: (cs ++ opening ++ behind) := ⟨back, whole⟩
      refine List.prefix_of_prefix_length_le fits ?_ (by simp [opening])
      exact ⟨'{' :: behind, by simp [opening]⟩
    · exact ih first.2 later

theorem suffix_of_not_mem (fresh : '{' ∉ before) (h : opening ++ back <:+ before ++ rest) :
    opening ++ back <:+ rest := by
  induction before with
  | nil => exact h
  | cons c cs ih =>
    obtain ⟨other, fresh⟩ := not_or.1 (List.mem_cons.not.1 fresh)
    obtain whole | later := List.suffix_cons_iff.1 h
    · exact absurd (List.cons.inj whole).1 other
    · exact ih fresh later

/-- The only opening in a placeholder and in the words before it is its own. -/
theorem Placeholder.suffix (first : ¬ opening <:+: before ++ ['{']) (holds : Placeholder name mark)
    (h : opening ++ back <:+ before ++ mark ++ rest) :
    opening ++ back = mark ++ rest ∨ opening ++ back <:+ rest := by
  obtain ⟨inside, rfl, fresh, -, -, -⟩ := holds.exists_inside
  have fresh : '{' ∉ inside ++ closing := List.not_mem_append fresh (by decide)
  have parts : opening ++ inside ++ closing ++ rest = '{' :: '{' :: (inside ++ closing ++ rest) := by
    simp [opening]
  rw [List.append_assoc, parts] at h
  have own : opening ++ back <:+ '{' :: '{' :: (inside ++ closing ++ rest) :=
    suffix_of_first first (by rw [List.append_assoc]; exact h)
  rw [parts]
  obtain whole | later := List.suffix_cons_iff.1 own
  · exact .inl whole
  · obtain whole | later := List.suffix_cons_iff.1 later
    · -- the next character is no brace of an opening
      obtain ⟨none, -⟩ | ⟨more, starts, -⟩ := List.cons_eq_append_iff.1 (List.cons.inj whole).2
      · simp [closing] at none
      · exact absurd (starts ▸ List.mem_cons_self) fresh
    · exact .inr (suffix_of_not_mem fresh later)

theorem Placeholder.not_spoils (holds : Placeholder name mark) (h : opening ++ back = mark ++ rest)
    (left : List Char) (fault : Fault) : ¬ Spoils left back fault := by
  obtain ⟨inside, rfl, -, fresh, trimmed, named⟩ := holds.exists_inside
  obtain rfl : back = inside ++ closing ++ rest := by
    simpa [List.append_assoc] using h
  have cut := cut?_closing fresh rest
  intro spoils
  generalize whole : inside ++ closing ++ rest = back at spoils cut
  cases spoils with
  | unclosed never => cases cut.symm.trans (Text.cut?_eq_none_iff.2 never)
  | @misnamed other behind next unnamed =>
    cases cut.symm.trans (Text.cut?_of_first next behind)
    rw [trimmed, named] at unnamed
    cases unnamed

theorem split_of_spoils {fault : Fault} (first : ¬ opening <:+: before ++ ['{'])
    (spoils : Spoils (before ++ opening ++ behind) behind fault) :
    split (before ++ opening ++ behind) = .error fault := by
  have marked := Text.cut?_of_first first behind
  cases spoils with
  | unclosed never => exact split_of_unclosed marked (Text.cut?_eq_none_iff.2 never)
  | @misnamed inside rest next unnamed =>
    rw [split_of_marked marked (Text.cut?_of_first next rest), checkName, unnamed]
    rfl

/-- What has been scanned up to the end of a placeholder does not come into what follows. -/
theorem Composed.split_append {scanned : List Char} {done : List Piece} (h : Composed scanned done)
    (settled : Settled done) (tail : List Char) :
    split (scanned ++ tail) = (do
      let more ← split tail
      .ok (done ++ more)) := by
  induction h with
  | @words cs unmarked =>
    by_cases filled : cs = []
    · subst filled
      show split tail = _
      cases split tail <;> rfl
    · exact absurd (by rw [wordsPiece_of_ne_nil filled]; rfl) (settled (String.ofList cs))
  | @placeholder before mark rest name pieces first holds behind ih =>
    rw [List.append_assoc _ rest, split_of_placeholder first holds, ih (settled_placeholder_iff.1 settled)]
    cases split tail with
    | error fault => rfl
    | ok more => simp [bind, Except.bind]

theorem Breaks.split_eq {fault : Fault} (h : Breaks cs fault) : split cs = .error fault := by
  obtain @⟨scanned, before, behind, done, fault, tidy, spells, settled, first, spoils, -⟩ := h
  rw [(Composed.of_tidy tidy spells).split_append settled, split_of_spoils first spoils]
  rfl

theorem Breaks.of_spoils {fault : Fault} (first : ¬ opening <:+: before ++ ['{'])
    (spoils : Spoils (before ++ opening ++ behind) behind fault) :
    Breaks (before ++ opening ++ behind) fault := by
  show Breaks ([] ++ (before ++ opening ++ behind)) fault
  refine .intro tidy_nil (spells_nil_iff.2 rfl) nofun first spoils ?_
  intro back inside longer
  have short := (suffix_of_first first inside).length_le
  simp only [List.length_append] at short
  omega

theorem Breaks.behind_placeholder {fault : Fault} (first : ¬ opening <:+: before ++ ['{'])
    (holds : Placeholder name mark) (h : Breaks rest fault) : Breaks (before ++ mark ++ rest) fault := by
  obtain @⟨scanned, words, behind, done, fault, tidy, spells, settled, last, spoils, leftmost⟩ := h
  have more := Composed.placeholder first holds (.of_tidy tidy spells)
  rw [← List.append_assoc]
  refine .intro more.tidy more.spells (settled_placeholder_iff.2 settled) last spoils ?_
  intro back inside longer
  -- an opening further left is the one of the placeholder, or it stands in the rest
  rw [List.append_assoc _ scanned] at inside
  obtain own | later := holds.suffix first inside
  · exact holds.not_spoils own
  · exact leftmost back later longer

theorem Breaks.of_split {fault : Fault} (h : split cs = .error fault) : Breaks cs fault := by
  fun_induction split cs generalizing fault with
  | case1 => cases h
  | case2 cs before behind marked opened =>
    obtain rfl := Except.error.inj h
    rw [Text.cut?_eq_some marked]
    exact .of_spoils (Text.first_of_cut? (by decide) marked) (.unclosed (Text.cut?_eq_none_iff.1 opened))
  | case3 cs before behind marked inside rest closed =>
    rename_i name ih
    have first := Text.first_of_cut? (by decide) marked
    rw [Text.cut?_eq_some marked, Text.cut?_eq_some closed]
    obtain refused | ⟨_, named, h⟩ := bind_eq_error_iff.1 h
    · obtain ⟨unnamed, rfl⟩ := checkName_eq_error_iff.1 refused
      exact .of_spoils first (.misnamed (Text.first_of_cut? (by decide) closed) unnamed)
    · obtain broken | ⟨more, -, h⟩ := bind_eq_error_iff.1 h
      · have holds := Placeholder.of_trim (checkName_eq_ok_iff.1 named)
        have onward := (ih broken).behind_placeholder first holds
        simpa [List.append_assoc] using onward
      · cases h

theorem split_eq_error_iff {fault : Fault} : split cs = .error fault ↔ Breaks cs fault :=
  ⟨Breaks.of_split, Breaks.split_eq⟩

/-- A text is split into the pieces that are written like this and can stand beside each other, and into no
others; or it has an opening at which no placeholder begins, and then the fault of the first one is told.
Written without blanks in the placeholders, what was split is split into the same pieces. -/
theorem split_keeps_text (cs : List Char) :
    (∀ pieces, split cs = .ok pieces ↔ Tidy pieces ∧ Spells pieces cs) ∧
    (∀ fault, split cs = .error fault ↔ Breaks cs fault) ∧
    ((∃ pieces, split cs = .ok pieces ∧ split (plain pieces) = .ok pieces) ∨
      ∃ fault, split cs = .error fault) := by
  have exact_pieces : ∀ cs pieces, split cs = .ok pieces ↔ Tidy pieces ∧ Spells pieces cs :=
    fun cs pieces => split_eq_ok_iff.trans composed_iff
  refine ⟨exact_pieces cs, fun fault => split_eq_error_iff, ?_⟩
  cases result : split cs with
  | error fault => exact .inr ⟨fault, rfl⟩
  | ok pieces =>
    obtain ⟨tidy, -⟩ := (exact_pieces cs pieces).1 result
    exact .inl ⟨pieces, rfl, (exact_pieces _ pieces).2 ⟨tidy, spells_plain tidy⟩⟩

/-- What is left where splitting fails begins behind the last placeholder. -/
example : split "\x7b\x7b a \x7d\x7d\x7d, \x7b\x7bb".toList =
    .error (.unclosedPlaceholder "\x7d, \x7b\x7bb") := by
  cbv

end LogIntake.Template
