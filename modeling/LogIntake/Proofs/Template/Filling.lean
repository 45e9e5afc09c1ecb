import LogIntake.Proofs.Expansion.Parameters
import LogIntake.Proofs.Template.Placeholders
import Mathlib

/-!
What a template becomes. Filling it changes the strings with placeholders and nothing else: a lone
placeholder becomes the value of its parameter, and among words stands the text of the value. What is put
in stays as it is, and each placeholder has a value, since a template that was read declares them all.
-/
namespace LogIntake.Template

/-! ### Filled values -/

/-- What a piece of a text becomes: words stay, and a parameter becomes the text of its value. -/
inductive Written (value : String → Toml.Value → Prop) : Piece → String → Prop
  | words (s : String) : Written value (.words s) s
  | string {name s : String} (stands : value name (.leaf (.string s))) :
      Written value (.parameter name) s
  | inline {name : String} {v : Toml.Value} (stands : value name v)
      (other : ∀ s, v ≠ .leaf (.string s)) : Written value (.parameter name) v.inline

mutual

inductive Filled (value : String → Toml.Value → Prop) : Toml.Value → Toml.Value → Prop
  | scalar {s : Toml.Scalar} (other : ∀ text, s ≠ .string text) : Filled value (.leaf s) (.leaf s)
  | unmarked {text : String} (unmarked : ¬ opening <:+: text.toList) :
      Filled value (.leaf (.string text)) (.leaf (.string text))
  | alone {text name : String} {v : Toml.Value} (whole : Placeholder name text.toList)
      (stands : value name v) : Filled value (.leaf (.string text)) v
  | mixed {text : String} {pieces : List Piece} {texts : List String}
      (marked : opening <:+: text.toList) (among : ∀ name, ¬ Placeholder name text.toList)
      (made : Composed text.toList pieces) (each : List.Forall₂ (Written value) pieces texts) :
      Filled value (.leaf (.string text)) (.leaf (.string (String.join texts)))
  | array {items filled : List Toml.Value} (each : FilledItems value items filled) :
      Filled value (.array items) (.array filled)
  | table {entries filled : Toml.Table} (each : FilledEntries value entries filled) :
      Filled value (.table entries) (.table filled)

inductive FilledItems (value : String → Toml.Value → Prop) :
    List Toml.Value → List Toml.Value → Prop
  | nil : FilledItems value [] []
  | cons {t v : Toml.Value} {rest filled : List Toml.Value} (first : Filled value t v)
      (behind : FilledItems value rest filled) : FilledItems value (t :: rest) (v :: filled)

inductive FilledEntries (value : String → Toml.Value → Prop) : Toml.Table → Toml.Table → Prop
  | nil : FilledEntries value [] []
  | cons {key : String} {t v : Toml.Value} {rest filled : Toml.Table} (first : Filled value t v)
      (behind : FilledEntries value rest filled) :
      FilledEntries value ((key, t) :: rest) ((key, v) :: filled)

end

/-! ### Pieces -/

theorem wordsPiece_ne_parameter (cs : List Char) (name : String) :
    .parameter name ∉ wordsPiece cs := by
  rw [wordsPiece]
  split <;> simp

theorem Placeholder.marked {name : String} {cs : List Char} (h : Placeholder name cs) :
    opening <:+: cs := by
  obtain @⟨left, name, right, -, -, -⟩ := h
  exact ⟨[], left ++ name ++ right ++ closing, by simp⟩

theorem mem_pieceParameters {name : String} {pieces : List Piece} :
    name ∈ pieceParameters pieces ↔ .parameter name ∈ pieces := by
  simp only [pieceParameters, List.mem_filterMap]
  constructor
  · rintro ⟨p, inside, named⟩
    cases p with
    | words s => cases named
    | parameter other => exact Option.some.inj named ▸ inside
  · exact fun inside => ⟨_, inside, rfl⟩

/-- Just those texts have a parameter that have a mark. -/
theorem Composed.pieceParameters_eq_nil_iff {cs : List Char} {pieces : List Piece}
    (h : Composed cs pieces) : pieceParameters pieces = [] ↔ ¬ opening <:+: cs := by
  rw [List.eq_nil_iff_forall_not_mem]
  cases h with
  | words unmarked => simp [mem_pieceParameters, wordsPiece_ne_parameter, unmarked]
  | @placeholder before mark rest name pieces first holds behind =>
    have marked : opening <:+: before ++ mark ++ rest :=
      holds.marked.trans ⟨before, rest, rfl⟩
    refine iff_of_false (fun none => none name ?_) (fun h => h marked)
    simp [mem_pieceParameters]

theorem Composed.eq_nil {cs : List Char} (h : Composed cs []) : cs = [] := by
  generalize made : ([] : List Piece) = pieces at h
  cases h with
  | words unmarked =>
    rw [wordsPiece] at made
    split at made
    · next empty => exact List.isEmpty_iff.1 empty
    · cases made
  | placeholder => simp at made

theorem composed_singleton_iff {cs : List Char} {name : String} :
    Composed cs [.parameter name] ↔ Placeholder name cs := by
  constructor
  · intro h
    generalize made : [Piece.parameter name] = pieces at h
    cases h with
    | words unmarked => exact absurd (made ▸ List.mem_singleton_self _) (wordsPiece_ne_parameter cs name)
    | @placeholder before mark rest other pieces first holds behind =>
      by_cases empty : before = []
      · subst empty
        simp only [wordsPiece, List.isEmpty_nil, if_true, List.nil_append, List.cons.injEq,
          Piece.parameter.injEq] at made
        obtain ⟨rfl, rfl⟩ := made
        rw [behind.eq_nil]
        simpa using holds
      · simp [wordsPiece, empty] at made
  · intro h
    have first : ¬ opening <:+: [] ++ ['{'] := by decide
    have made : Composed ([] ++ cs ++ []) (wordsPiece [] ++ [.parameter name]) :=
      .placeholder first h (.words (by decide))
    simpa [wordsPiece] using made

/-! ### Filling -/

theorem Leaf.ofScalar_of_other {s : Toml.Scalar} (other : ∀ text, s ≠ .string text) :
    Leaf.ofScalar s = .ok (.plain s) := by
  cases s with
  | string text => exact absurd rfl (other text)
  | _ => rfl

theorem Leaf.ofScalar_string {text : String} {leaf : Leaf}
    (read : Leaf.ofScalar (.string text) = .ok leaf) :
    (¬ opening <:+: text.toList ∧ leaf = .plain (.string text)) ∨
      ∃ pieces, opening <:+: text.toList ∧ Composed text.toList pieces ∧ leaf = .pattern pieces := by
  obtain ⟨pieces, parts, kept⟩ := bind_eq_ok_iff.1 read
  have made := split_eq_ok_iff.1 parts
  have unmarked := made.pieceParameters_eq_nil_iff
  split at kept
  · next none => exact .inl ⟨unmarked.1 (List.isEmpty_iff.1 none), (Except.ok.inj kept).symm⟩
  · next some =>
    rw [List.isEmpty_iff, unmarked, not_not] at some
    exact .inr ⟨pieces, some, made, (Except.ok.inj kept).symm⟩

variable {lookup : String → Option Toml.Value}

theorem Leaf.fill_of_several {pieces : List Piece} (several : ∀ name, pieces ≠ [.parameter name]) :
    (Leaf.pattern pieces).fill lookup =
      .leaf (.string (String.join (pieces.map (Piece.fill lookup)))) := by
  simp only [Leaf.fill]

theorem valueText_of_other {v : Toml.Value} (other : ∀ s, v ≠ .leaf (.string s)) :
    valueText v = v.inline := by
  unfold valueText
  split
  · next s => exact absurd rfl (other s)
  · rfl

theorem Piece.written_fill {p : Piece}
    (known : ∀ name, p = .parameter name → ∃ v, lookup name = some v) :
    Written (fun name v => lookup name = some v) p (p.fill lookup) := by
  cases p with
  | words s => exact .words s
  | parameter name =>
    obtain ⟨v, found⟩ := known name rfl
    rw [Piece.fill, found, Option.map_some, Option.getD_some]
    by_cases string : ∃ s, v = .leaf (.string s)
    · obtain ⟨s, rfl⟩ := string
      exact .string found
    · have other : ∀ s, v ≠ .leaf (.string s) := fun s same => string ⟨s, same⟩
      rw [valueText_of_other other]
      exact .inline found other

theorem Written.eq_fill {p : Piece} {s : String}
    (h : Written (fun name v => lookup name = some v) p s) : s = p.fill lookup := by
  cases h with
  | words s => rfl
  | string stands =>
    rw [Piece.fill, stands]
    rfl
  | inline stands other =>
    rw [Piece.fill, stands, Option.map_some, Option.getD_some, valueText_of_other other]

theorem forall₂_written_iff {pieces : List Piece} {texts : List String}
    (known : ∀ name ∈ pieceParameters pieces, ∃ v, lookup name = some v) :
    List.Forall₂ (Written fun name v => lookup name = some v) pieces texts ↔
      texts = pieces.map (Piece.fill lookup) := by
  constructor
  · intro each
    clear known
    induction each with
    | nil => rfl
    | cons first _ ih => rw [List.map_cons, ← ih, first.eq_fill]
  · rintro rfl
    rw [List.forall₂_map_right_iff, List.forall₂_same]
    intro p hp
    exact Piece.written_fill fun name same => known name (mem_pieceParameters.2 (same ▸ hp))

theorem Leaf.filled_pattern_iff {text : String} {pieces : List Piece} {v : Toml.Value}
    (marked : opening <:+: text.toList) (made : Composed text.toList pieces)
    (known : ∀ name ∈ pieceParameters pieces, ∃ v, lookup name = some v) :
    Filled (fun name v => lookup name = some v) (.leaf (.string text)) v ↔
      v = (Leaf.pattern pieces).fill lookup := by
  constructor
  · intro h
    cases h with
    | scalar other => exact absurd rfl (other text)
    | unmarked unmarked => exact absurd marked unmarked
    | alone whole stands =>
      obtain rfl := made.unique (composed_singleton_iff.2 whole)
      rw [Leaf.fill, stands, Option.getD_some]
    | mixed _ among made' each =>
      obtain rfl := made.unique made'
      have several : ∀ name, pieces ≠ [.parameter name] :=
        fun name same => among name (composed_singleton_iff.1 (same ▸ made))
      rw [Leaf.fill_of_several several, (forall₂_written_iff known).1 each]
  · rintro rfl
    by_cases alone : ∃ name, pieces = [.parameter name]
    · obtain ⟨name, rfl⟩ := alone
      obtain ⟨v, found⟩ := known name (by simp [pieceParameters])
      rw [Leaf.fill, found, Option.getD_some]
      exact .alone (composed_singleton_iff.1 made) found
    · have several : ∀ name, pieces ≠ [.parameter name] := fun name same => alone ⟨name, same⟩
      have among : ∀ name, ¬ Placeholder name text.toList :=
        fun name whole => several name (made.unique (composed_singleton_iff.2 whole))
      rw [Leaf.fill_of_several several]
      exact .mixed marked among made ((forall₂_written_iff known).2 rfl)

/-- A leaf that was read becomes what it should, where its parameters have values. -/
theorem Leaf.filled_iff {s : Toml.Scalar} {leaf : Leaf} {v : Toml.Value}
    (read : Leaf.ofScalar s = .ok leaf)
    (known : ∀ name ∈ leaf.parameters, ∃ v, lookup name = some v) :
    Filled (fun name v => lookup name = some v) (.leaf s) v ↔ v = leaf.fill lookup := by
  by_cases string : ∃ text, s = .string text
  · obtain ⟨text, rfl⟩ := string
    rcases Leaf.ofScalar_string read with ⟨unmarked, rfl⟩ | ⟨pieces, marked, made, rfl⟩
    · constructor
      · intro h
        cases h with
        | scalar other => exact absurd rfl (other text)
        | unmarked => rfl
        | alone whole => exact absurd whole.marked unmarked
        | mixed marked => exact absurd marked unmarked
      · rintro rfl
        exact .unmarked unmarked
    · exact Leaf.filled_pattern_iff marked made known
  · have other : ∀ text, s ≠ .string text := fun text same => string ⟨text, same⟩
    obtain rfl := Except.ok.inj ((Leaf.ofScalar_of_other other).symm.trans read)
    constructor
    · intro h
      cases h with
      | scalar => rfl
      | unmarked | alone | mixed => exact absurd rfl (other _)
    · rintro rfl
      exact .scalar other

mutual

theorem filled_iff : ∀ {t : Toml.Value} {u : Toml.Tree Leaf} {v : Toml.Value},
    t.mapM? Leaf.ofScalar = .ok u →
    (∀ leaf ∈ u.leaves, ∀ name ∈ leaf.parameters, ∃ v, lookup name = some v) →
      (Filled (fun name v => lookup name = some v) t v ↔ v = u.bind (Leaf.fill lookup))
  | .leaf s, u, v, read, known => by
    obtain ⟨leaf, kept, rfl⟩ := map_eq_ok_iff.1 read
    exact Leaf.filled_iff kept (known leaf (by simp [Toml.Tree.leaves]))
  | .array items, u, v, read, known => by
    obtain ⟨us, kept, rfl⟩ := map_eq_ok_iff.1 read
    constructor
    · intro h
      cases h with
      | array each => rw [(filledItems_iff kept known).1 each, Toml.Tree.bind]
    · rintro rfl
      exact .array ((filledItems_iff kept known).2 rfl)
  | .table entries, u, v, read, known => by
    obtain ⟨us, kept, rfl⟩ := map_eq_ok_iff.1 read
    constructor
    · intro h
      cases h with
      | table each => rw [(filledEntries_iff kept known).1 each, Toml.Tree.bind]
    · rintro rfl
      exact .table ((filledEntries_iff kept known).2 rfl)

theorem filledItems_iff : ∀ {items : List Toml.Value} {us : List (Toml.Tree Leaf)}
    {w : List Toml.Value}, Toml.mapItemsM? Leaf.ofScalar items = .ok us →
    (∀ leaf ∈ Toml.itemLeaves us, ∀ name ∈ leaf.parameters, ∃ v, lookup name = some v) →
      (FilledItems (fun name v => lookup name = some v) items w ↔
        w = Toml.bindItems (Leaf.fill lookup) us)
  | [], us, w, read, known => by
    obtain rfl := Except.ok.inj read
    constructor
    · intro h
      cases h with
      | nil => rfl
    · rintro rfl
      exact .nil
  | t :: rest, us, w, read, known => by
    obtain ⟨u, first, onward⟩ := bind_eq_ok_iff.1 read
    obtain ⟨more, behind, kept⟩ := bind_eq_ok_iff.1 onward
    obtain rfl := Except.ok.inj kept
    simp only [Toml.itemLeaves, List.mem_append] at known
    have here {v : Toml.Value} := filled_iff (v := v) first fun leaf h => known leaf (.inl h)
    have later {w : List Toml.Value} := filledItems_iff (w := w) behind fun leaf h =>
      known leaf (.inr h)
    constructor
    · intro h
      cases h with
      | cons filled each => rw [here.1 filled, later.1 each, Toml.bindItems]
    · rintro rfl
      exact .cons (here.2 rfl) (later.2 rfl)

theorem filledEntries_iff : ∀ {entries : Toml.Table} {us : Toml.Entries Leaf} {w : Toml.Table},
    Toml.mapEntriesM? Leaf.ofScalar entries = .ok us →
    (∀ leaf ∈ Toml.entryLeaves us, ∀ name ∈ leaf.parameters, ∃ v, lookup name = some v) →
      (FilledEntries (fun name v => lookup name = some v) entries w ↔
        w = Toml.bindEntries (Leaf.fill lookup) us)
  | [], us, w, read, known => by
    obtain rfl := Except.ok.inj read
    constructor
    · intro h
      cases h with
      | nil => rfl
    · rintro rfl
      exact .nil
  | (key, t) :: rest, us, w, read, known => by
    obtain ⟨u, first, onward⟩ := bind_eq_ok_iff.1 read
    obtain ⟨more, behind, kept⟩ := bind_eq_ok_iff.1 onward
    obtain rfl := Except.ok.inj kept
    simp only [Toml.entryLeaves, List.mem_append] at known
    have here {v : Toml.Value} := filled_iff (v := v) first fun leaf h => known leaf (.inl h)
    have later {w : Toml.Table} := filledEntries_iff (w := w) behind fun leaf h =>
      known leaf (.inr h)
    constructor
    · intro h
      cases h with
      | cons filled each => rw [here.1 filled, later.1 each, Toml.bindEntries]
    · rintro rfl
      exact .cons (here.2 rfl) (later.2 rfl)

end

theorem forall₂_filledEntries_iff {tables filled : List Toml.Table} {rows : List (Toml.Entries Leaf)}
    (read : List.Forall₂ (fun table entries => Toml.mapEntriesM? Leaf.ofScalar table = .ok entries)
      tables rows)
    (known : ∀ entries ∈ rows, ∀ leaf ∈ Toml.entryLeaves entries, ∀ name ∈ leaf.parameters,
      ∃ v, lookup name = some v) :
    List.Forall₂ (FilledEntries fun name v => lookup name = some v) tables filled ↔
      filled = rows.map (Toml.bindEntries (Leaf.fill lookup)) := by
  induction read generalizing filled with
  | nil => simp
  | @cons table entries tables rows first _ ih =>
    rw [List.forall_mem_cons] at known
    rw [List.forall₂_cons_left_iff, List.map_cons]
    simp only [filledEntries_iff first known.1, ih known.2]
    constructor
    · rintro ⟨_, _, rfl, rfl, rfl⟩
      rfl
    · exact fun same => ⟨_, _, rfl, rfl, same⟩

/-! ### Reading -/

theorem mapM_eq_ok_iff {ε α β : Type} {f : α → Except ε β} {xs : List α} {ys : List β} :
    xs.mapM f = .ok ys ↔ List.Forall₂ (fun x y => f x = .ok y) xs ys := by
  induction xs generalizing ys with
  | nil => simp [pure, Except.pure, eq_comm]
  | cons x xs ih =>
    rw [List.mapM_cons, bind_eq_ok_iff]
    simp only [bind_eq_ok_iff, ih, List.forall₂_cons_left_iff, pure, Except.pure, Except.ok.injEq]
    constructor
    · rintro ⟨y, first, rest, behind, rfl⟩
      exact ⟨y, rest, first, behind, rfl⟩
    · rintro ⟨y, rest, first, behind, rfl⟩
      exact ⟨y, first, rest, behind, rfl⟩

/-- A template keeps the parameters of its file, and splits the strings of its tables. -/
structure Source.Holds (file : Source) (t : Template) : Prop where
  required : t.required = file.required
  optional : t.optional = file.optional
  pipeline : List.Forall₂ (fun table entries => Toml.mapEntriesM? Leaf.ofScalar table = .ok entries)
    file.pipeline t.pipeline

theorem exists_source_of_parse {text defaultName source : String} {t : Template}
    (parsed : parse text defaultName source = .ok t) :
    ∃ file, Source.read text = .ok file ∧ file.Holds t := by
  obtain ⟨file, decoded, makes⟩ := exists_makes_of_parse parsed
  exact ⟨file, decoded, makes.required, makes.optional, mapM_eq_ok_iff.1 makes.pipeline⟩

/-! ### What can be given -/

/-- The value of a parameter: what is given for it, or else its default. -/
def Stands (given defaults : Toml.Table) (name : String) (v : Toml.Value) : Prop :=
  Toml.Entries.get? name given = some v ∨
    name ∉ Toml.Entries.keys given ∧ Toml.Entries.get? name defaults = some v

/-- A file can be filled with each parameter that it requires and nothing that it does not declare. -/
structure Source.Suits (file : Source) (given : Toml.Table) : Prop where
  required : ∀ name ∈ file.required, name ∈ Toml.Entries.keys given
  declared : ∀ key ∈ Toml.Entries.keys given,
    key ∈ file.required ∨ key ∈ Toml.Entries.keys file.optional

theorem valueOf_eq_some_iff {t : Template} {given : Toml.Table} {name : String} {v : Toml.Value} :
    t.valueOf given name = some v ↔ Stands given t.optional name v := by
  rw [valueOf, Option.or_eq_some_iff, Stands, Toml.Entries.get?_eq_none_iff]

theorem isDeclared_iff {t : Template} {name : String} :
    t.isDeclared name = true ↔ name ∈ t.required ∨ name ∈ Toml.Entries.keys t.optional := by
  rw [isDeclared, Bool.or_eq_true, Toml.Entries.has_iff, List.contains_iff_mem, or_comm]

theorem instantiate_eq_ok_iff {t : Template} {given : Toml.Table} {tables : List Toml.Table} :
    t.instantiate given = .ok tables ↔
      ((∀ name ∈ t.required, name ∈ Toml.Entries.keys given) ∧
        ∀ key ∈ Toml.Entries.keys given, t.isDeclared key = true) ∧
      tables = t.pipeline.map (Toml.bindEntries (Leaf.fill (t.valueOf given))) := by
  constructor
  · intro filled
    rw [instantiate] at filled
    split at filled
    · cases filled
    · next noneMissing =>
      split at filled
      · cases filled
      · next noneUnknown =>
        refine ⟨⟨?_, ?_⟩, (Except.ok.inj filled).symm⟩
        · simpa [Toml.Entries.has_iff] using noneMissing
        · simpa using noneUnknown
  · rintro ⟨⟨required, declared⟩, rfl⟩
    exact instantiate_eq_ok required declared

theorem exists_valueOf {t : Template} {given : Toml.Table} {name : String}
    (required : ∀ name ∈ t.required, name ∈ Toml.Entries.keys given)
    (declared : t.isDeclared name = true) : ∃ v, t.valueOf given name = some v := by
  rw [← Option.isSome_iff_exists, valueOf, Option.isSome_or, Bool.or_eq_true]
  exact (isDeclared_iff.1 declared).imp (fun h => Toml.Entries.has_iff.2 (required name h))
    fun h => Toml.Entries.has_iff.2 h

/-- A template that was read can be filled just with each parameter that it requires and nothing that it
does not declare. It then becomes the tables of its file where each placeholder has made room for the
value given, or else for the default; there is such a value for each, and nothing else is changed. -/
theorem instantiate_substitutes {text defaultName source : String} {t : Template}
    (parsed : parse text defaultName source = .ok t) :
    ∃ file, Source.read text = .ok file ∧ ∀ given,
      ((∃ tables, t.instantiate given = .ok tables) ↔ file.Suits given) ∧
      (∀ tables, t.instantiate given = .ok tables ↔ file.Suits given ∧
        List.Forall₂ (FilledEntries (Stands given file.optional)) file.pipeline tables) ∧
      (file.Suits given → ∀ name ∈ t.parameters, ∃ v,
        t.valueOf given name = some v ∧ Stands given file.optional name v) := by
  obtain ⟨file, decoded, holds⟩ := exists_source_of_parse parsed
  refine ⟨file, decoded, fun given => ?_⟩
  have suits : file.Suits given ↔ (∀ name ∈ t.required, name ∈ Toml.Entries.keys given) ∧
      ∀ key ∈ Toml.Entries.keys given, t.isDeclared key = true := by
    simp only [isDeclared_iff, holds.required, holds.optional]
    exact ⟨fun h => ⟨h.required, h.declared⟩, fun h => ⟨h.1, h.2⟩⟩
  have known : file.Suits given → ∀ name ∈ t.parameters, ∃ v, t.valueOf given name = some v :=
    fun h name hn => exists_valueOf (suits.1 h).1 (isDeclared_of_parse parsed name hn)
  have stands : Stands given file.optional = fun name v => t.valueOf given name = some v := by
    funext name v
    rw [valueOf_eq_some_iff, holds.optional]
  have made : file.Suits given → ∀ tables,
      List.Forall₂ (FilledEntries (Stands given file.optional)) file.pipeline tables ↔
        tables = t.pipeline.map (Toml.bindEntries (Leaf.fill (t.valueOf given))) := by
    intro h tables
    rw [stands]
    refine forall₂_filledEntries_iff holds.pipeline fun entries he leaf hl name hn => known h name ?_
    exact List.mem_flatMap.2 ⟨entries, he, List.mem_flatMap.2 ⟨leaf, hl, hn⟩⟩
  refine ⟨?_, fun tables => ?_, fun h name hn => ?_⟩
  · rw [suits]
    simp only [instantiate_eq_ok_iff, exists_and_left, exists_eq, and_true]
  · rw [instantiate_eq_ok_iff, ← suits]
    exact and_congr_right fun h => (made h tables).symm
  · obtain ⟨v, hv⟩ := known h name hn
    rw [valueOf_eq_some_iff, holds.optional] at hv
    exact ⟨v, by rwa [valueOf_eq_some_iff, holds.optional], hv⟩

def noteText : String :=
  "required=['key']\n[optional]\nlevel=3\n[[pipeline]]\nkey='\x7b\x7b key \x7d\x7d'\n" ++
    "note='\x7b\x7bkey\x7d\x7d at \x7b\x7blevel\x7d\x7d'"

def noteFile : Source where
  required := ["key"]
  optional := [("level", .leaf (.integer 3))]
  pipeline := [[("key", .leaf (.string "\x7b\x7b key \x7d\x7d")),
    ("note", .leaf (.string "\x7b\x7bkey\x7d\x7d at \x7b\x7blevel\x7d\x7d"))]]

def noteTemplate : Template where
  name := "note"
  version := none
  description := none
  source := "note.toml"
  required := noteFile.required
  optional := noteFile.optional
  pipeline := [[("key", .leaf (.pattern [.parameter "key"])),
    ("note", .leaf (.pattern [.parameter "key", .words " at ", .parameter "level"]))]]

/-- What is given looks like a placeholder and stays so. -/
theorem instantiate_substitutes_note :
    parse noteText "note" "note.toml" = .ok noteTemplate ∧ Source.read noteText = .ok noteFile ∧
      List.Forall₂ (FilledEntries
        (Stands [("key", .leaf (.string "\x7b\x7blevel\x7d\x7d"))] noteFile.optional))
        noteFile.pipeline
        [[("key", .leaf (.string "\x7b\x7blevel\x7d\x7d")),
          ("note", .leaf (.string "\x7b\x7blevel\x7d\x7d at 3"))]] := by
  have parsed : parse noteText "note" "note.toml" = .ok noteTemplate := by cbv
  have written : Source.read noteText = .ok noteFile := by cbv
  obtain ⟨file, decoded, filled⟩ := instantiate_substitutes parsed
  obtain rfl := Except.ok.inj (decoded.symm.trans written)
  have made : noteTemplate.instantiate [("key", .leaf (.string "\x7b\x7blevel\x7d\x7d"))] = .ok
      [[("key", .leaf (.string "\x7b\x7blevel\x7d\x7d")),
        ("note", .leaf (.string "\x7b\x7blevel\x7d\x7d at 3"))]] := by cbv
  exact ⟨parsed, written, (((filled _).2.1 _).1 made).2⟩

end LogIntake.Template
