import LogIntake.Proofs.Settings.Durations
import LogIntake.Proofs.Settings.Keeping
import LogIntake.Proofs.Settings.Merging

/-!
Two ways to the settings of a text: reading them straight from it, and loading a file with this text,
whose table is kept first. They agree on a text unless the table cannot be kept as it is: a date becomes a
string on the way, so a pipeline loses its dates and a directory may be one, and neither a wide number nor
a value too many gets through.
-/
namespace LogIntake

/-! ### Durations -/

namespace Span

section Marks

variable {c : Char} {ds : List Char}

theorem part?_of_mark (mark : c = '-' ∨ c = ':') (digits : ∀ d ∈ ds, d.isDigit = true)
    (rest : List Char) : part? (ds ++ c :: rest) = none := by
  have noDigit : c.isDigit = false := by rcases mark with rfl | rfl <;> decide
  have noBlank : Text.isBlank c = false := by rcases mark with rfl | rfl <;> decide
  have noUnit : isUnitChar c = false := by rcases mark with rfl | rfl <;> decide
  have noPoint : c ≠ '.' := by rcases mark with rfl | rfl <;> decide
  have counted : digitsAmongBlanks (ds ++ c :: rest) = (ds, c :: rest) :=
    digitsAmongBlanks_append digits (by simp [noDigit, noBlank])
  have noFraction : fraction? (c :: rest) = some ([], c :: rest) := by simp [fraction?, noPoint]
  have noWord : Scale.words.lookup (String.ofList ((c :: rest).takeWhile isUnitChar)) = none := by
    rw [List.takeWhile_cons_of_neg (by simp [noUnit])]
    decide
  simp [part?, counted, noFraction, noWord]

theorem read?_of_mark (mark : c = '-' ∨ c = ':') (digits : ∀ d ∈ ds, d.isDigit = true)
    (rest : List Char) : read? (ds ++ c :: rest) = none := by
  have noBlank : Text.isBlank c = false := by rcases mark with rfl | rfl <;> decide
  have noZero : ds ++ c :: rest ≠ ['0'] := by
    intro same
    have : c ∈ ['0'] := same ▸ by simp
    rcases mark with rfl | rfl <;> simp at this
  have front : (ds ++ c :: rest).dropWhile Text.isBlank = ds ++ c :: rest := by
    cases ds with
    | nil => simp [noBlank]
    | cons d ds => simp [not_isBlank_of_isDigit (digits d List.mem_cons_self)]
  have noParts : parts? (ds ++ c :: rest) = none := by
    rw [parts?]
    split
    · rfl
    · next found =>
      rw [front, part?_of_mark mark digits] at found
      cases found
  simp [read?, noZero, noParts]

theorem isDigit_of_mem_padded {width n : Nat} {d : Char} (h : d ∈ Toml.padded width n) :
    d.isDigit = true := by
  rcases List.mem_append.1 h with zero | digit
  · obtain ⟨-, rfl⟩ := List.mem_replicate.1 zero
    decide
  · exact Text.Numeral.isDigit_of_mem_digits digit

/-- A date is no duration: behind its first number stands a mark. -/
theorem read?_date (d : Toml.Datetime) : read? d.text = none := by
  have digits : ∀ {width n}, ∀ d ∈ Toml.padded width n, d.isDigit = true :=
    fun d h => isDigit_of_mem_padded h
  cases d with
  | date d =>
    simp only [Toml.Datetime.text, Toml.Date.text, List.append_assoc, List.cons_append]
    exact read?_of_mark (.inl rfl) digits _
  | time t =>
    simp only [Toml.Datetime.text, Toml.Clock.text, List.append_assoc, List.cons_append]
    exact read?_of_mark (.inr rfl) digits _
  | both d t offset =>
    simp only [Toml.Datetime.text, Toml.Date.text, List.append_assoc, List.cons_append]
    exact read?_of_mark (.inl rfl) digits _

end Marks

theorem decode_carries : Toml.Carries Span.decode Toml.hasRoom id id := by
  refine Toml.decodeParsed_carries _ fun d a => ?_
  simp [read?_date]

end Span

/-! ### The keys of a document -/

namespace Toml

theorem nodup_keys_atPath? {dotted : Bool}
    {change : Bool → List (String × Reader.Draft) → Option (List (String × Reader.Draft))}
    (keeps : ∀ b entries out, change b entries = some out → (Entries.keys entries).Nodup →
      (Entries.keys out).Nodup)
    {path : List String} {b : Bool} {entries out : List (String × Reader.Draft)}
    (h : Reader.atPath? dotted change path b entries = some out)
    (once : (Entries.keys entries).Nodup) : (Entries.keys out).Nodup := by
  cases path with
  | nil => exact keeps b entries out h once
  | cons key path =>
    -- on the way down only the value of a key changes
    have set : ∃ value, Entries.put key value entries = out := by
      rw [Reader.atPath?] at h
      split at h
      · obtain ⟨_, -, h⟩ := Option.bind_eq_some_iff.1 h
        exact ⟨_, Option.some.inj h⟩
      · split at h
        · cases h
        · obtain ⟨_, -, h⟩ := Option.bind_eq_some_iff.1 h
          exact ⟨_, Option.some.inj h⟩
      · split at h
        · cases h
        · obtain ⟨_, -, h⟩ := Option.bind_eq_some_iff.1 h
          exact ⟨_, Option.some.inj h⟩
      · cases h
    obtain ⟨value, rfl⟩ := set
    exact Entries.nodup_keys_put once

theorem nodup_keys_assignAll? {body : List Reader.Assignment} {entries out : List (String × Reader.Draft)}
    (h : Reader.assignAll? entries body = some out) (once : (Entries.keys entries).Nodup) :
    (Entries.keys out).Nodup := by
  induction body generalizing entries with
  | nil =>
    cases h
    exact once
  | cons a body ih =>
    obtain ⟨next, assigned, more⟩ := Option.bind_eq_some_iff.1 h
    refine ih more (nodup_keys_atPath? (fun b inner out changed inside => ?_) assigned once)
    split at changed
    · cases changed
    · cases changed
      exact Entries.nodup_keys_put inside

theorem nodup_keys_section? {element : Bool} {path : List String} {key : String}
    {body : List Reader.Assignment} {entries out : List (String × Reader.Draft)}
    (h : Reader.section? element path key body entries = some out) (once : (Entries.keys entries).Nodup) :
    (Entries.keys out).Nodup := by
  refine nodup_keys_atPath? (fun b inner out changed inside => ?_) h once
  have cleared : (Entries.keys (Entries.erase key inner)).Nodup := by
    rw [Entries.keys_erase]
    exact inside.erase key
  split at changed
  · obtain ⟨_, -, changed⟩ := Option.bind_eq_some_iff.1 changed
    cases changed
    exact Entries.nodup_keys_put inside
  · obtain ⟨_, -, changed⟩ := Option.bind_eq_some_iff.1 changed
    cases changed
    exact Entries.nodup_keys_put cleared
  · obtain ⟨_, -, changed⟩ := Option.bind_eq_some_iff.1 changed
    cases changed
    exact Entries.nodup_keys_put inside
  · obtain ⟨_, -, changed⟩ := Option.bind_eq_some_iff.1 changed
    cases changed
    exact Entries.nodup_keys_put inside
  · cases changed

theorem nodup_keys_sections? {lines : List Reader.Line} {entries out : List (String × Reader.Draft)}
    (h : Reader.sections? entries lines = some out) (once : (Entries.keys entries).Nodup) :
    (Entries.keys out).Nodup := by
  fun_induction Reader.sections? entries lines with
  | case1 => cases h
  | case2 entries element path key rest next filled ih => exact ih h (nodup_keys_section? filled once)
  | case3 => cases h
  | case4 =>
    cases h
    exact once

theorem keys_closeEntries (entries : List (String × Reader.Draft)) :
    Entries.keys (Reader.closeEntries entries) = Entries.keys entries := by
  induction entries with
  | nil => rfl
  | cons e rest ih => simpa [Reader.closeEntries, Entries.keys] using ih

theorem nodup_keys_document {text : List Char} {document : Entries Literal}
    (h : Reader.document? text = some document) : (Entries.keys document).Nodup := by
  obtain ⟨lines, -, h⟩ := Option.bind_eq_some_iff.1 h
  obtain ⟨root, assigned, h⟩ := Option.bind_eq_some_iff.1 h
  obtain ⟨full, filled, h⟩ := Option.bind_eq_some_iff.1 h
  cases h
  rw [keys_closeEntries]
  exact nodup_keys_sections? filled (nodup_keys_assignAll? assigned .nil)

end Toml

theorem decodeToml_eq_ok_iff {α : Type}
    {decode : Toml.Tree Toml.Literal → Except Toml.DecodeError α} {text : String} {a : α} :
    decodeToml decode text = .ok a ↔
      ∃ document, Toml.Reader.document? text.toList = some document ∧
        decode (.table document) = .ok a := by
  cases parsed : Toml.Reader.document? text.toList with
  | none => simp [decodeToml, parsed]
  | some document =>
    cases h : decode (.table document) with
    | ok b => simp [decodeToml, parsed, h]
    | error e =>
      have refused : decodeToml decode text ≠ .ok a := by
        cases kept : Toml.decodeTable .text (.table document) <;> simp [decodeToml, parsed, h, kept]
      simp [refused, h]

/-! ### Settings that were kept -/

theorem BatchSettings.decode_carries :
    Toml.Carries BatchSettings.decode (Toml.recordFits BatchSettings.fields.length) id id := by
  refine .record (fun f hf => ?_) (by simp [fields, Toml.Field.of, Toml.datetimeKey]) _ _
  simp only [fields, List.mem_cons, List.not_mem_nil, or_false] at hf
  obtain rfl | rfl := hf
  · exact (Toml.decodeNatural_carries _ _).field _ _ fun _ _ => rfl
  · exact Span.decode_carries.field _ _ fun _ _ => rfl

theorem DeliverySettings.decode_carries :
    Toml.Carries DeliverySettings.decode (Toml.recordFits DeliverySettings.fields.length) id id := by
  refine .record (fun f hf => ?_) (by simp [fields, Toml.Field.of, Toml.datetimeKey]) _ _
  simp only [fields, List.mem_cons, List.not_mem_nil, or_false] at hf
  obtain rfl | rfl | rfl := hf
  · exact (Toml.decodeVariant_carries (by decide)).field _ _ fun _ _ => rfl
  · exact (Toml.decodeNatural_carries _ _).field _ _ fun _ _ => rfl
  · exact Span.decode_carries.field _ _ fun _ _ => rfl

namespace Settings

/-- What is read from the entry of a key when it was kept before: a pipeline in which no table is a
date, a record with no value too many, and a number with room in a scalar. -/
def entryFits (key : String) : Toml.Tree Toml.Literal → Bool :=
  if key = "pipeline" then Toml.itemsFit fun t => !Toml.isDated t
  else if key = "converter" then Toml.recordFits BatchSettings.fields.length
  else if key = "delivery" then Toml.recordFits DeliverySettings.fields.length
  else Toml.hasRoom

def fits (document : Toml.Entries Toml.Literal) : Bool := document.all fun e => entryFits e.1 e.2

/-- The directory of the templates as a text, even if it is written as a date. -/
def entryQuoted (key : String) : Toml.Tree Toml.Literal → Toml.Tree Toml.Literal :=
  if key = "plugin_dir" then Toml.quoted else id

def quoted (document : Toml.Entries Toml.Literal) : Toml.Entries Toml.Literal :=
  Toml.rewritten entryQuoted document

def undated (s : Settings) : Settings :=
  { s with pipeline := s.pipeline.map (Toml.mapEntries Toml.Scalar.undated) }

theorem fields_carry :
    ∀ f ∈ fields, f.Carries (entryFits f.name) (entryQuoted f.name) undated := by
  intro f hf
  simp only [fields, List.mem_cons, List.not_mem_nil, or_false] at hf
  obtain rfl | rfl | rfl | rfl | rfl := hf
  · exact Toml.decodeTable_carries.sequence.field _ _ fun _ _ => rfl
  · exact (Toml.decodeText_carries _).field _ _ fun _ _ => rfl
  · exact BatchSettings.decode_carries.field _ _ fun _ _ => rfl
  · exact DeliverySettings.decode_carries.field _ _ fun _ _ => rfl
  · exact Span.decode_carries.field _ _ fun _ _ => rfl

end Settings

/-- A file with a text; no variables are filled in and nothing is merged over its table. -/
def Source.ofText (path text : String) : Source := { path, content := .ok (Text.encode text) }

namespace Source

theorem table_ofText_eq_ok_iff {path text : String} {t : Toml.Table} :
    (ofText path text).table = .ok t ↔
      ∃ document, Toml.Reader.document? text.toList = some document ∧
        Toml.keepEntries .text document = .ok t := by
  have read : (ofText path text).text = .ok text := by
    simp only [Source.text, ofText, Except.mapError, bind, Except.bind, Text.decode?_encode]
  have bare : joined? (ofText path text).overrides = none := rfl
  simp only [table, read, bare, bind_eq_ok_iff, mapError_eq_ok_iff, Except.ok.injEq, exists_eq_left',
    exists_eq_right, decodeToml_eq_ok_iff]
  rfl

/-- What a file loads to: the settings of its document, if it fits, with the directory of the templates
as a text and each date of the pipeline replaced by its text. -/
theorem settings_ofText_iff (path text : String) (s : Settings) :
    (ofText path text).settings = .ok s ↔
      ∃ document, Toml.Reader.document? text.toList = some document ∧
        Settings.fits document = true ∧
        ∃ r, Settings.decode .text (.table (Settings.quoted document)) = .ok r ∧ r.undated = s := by
  simp only [settings, bind_eq_ok_iff, table_ofText_eq_ok_iff, mapError_eq_ok_iff, Settings.ofTable,
    Settings.decode]
  constructor
  · rintro ⟨kept, ⟨document, parsed, hk⟩, hr⟩
    exact ⟨document, parsed, (Toml.decodeRecord_kept_iff Settings.fields_carry).1 ⟨kept, hk, hr⟩⟩
  · rintro ⟨document, parsed, h⟩
    obtain ⟨kept, hk, hr⟩ := (Toml.decodeRecord_kept_iff Settings.fields_carry).2 h
    exact ⟨kept, ⟨document, parsed, hk⟩, hr⟩

end Source

/-! ### Where the two ways agree -/

namespace Toml

section Visits

variable {σ β : Type} {fields : List (Field σ)} {source : Source} {key : String} {get : σ → β}

theorem visitEntries_cons_eq_ok_iff {e : String × Tree Literal} {rest : Entries Literal} {s r : σ} :
    visitEntries fields source (e :: rest) s = .ok r ↔
      ∃ f, fields.find? (·.name = e.1) = some f ∧
        ∃ s₁, f.set source e.2 s = .ok s₁ ∧ visitEntries fields source rest s₁ = .ok r := by
  cases found : fields.find? (·.name = e.1) with
  | none => simp [visitEntries, found]
  | some f => simp [visitEntries, found, bind_eq_ok_iff]

/-- What only one field sets stays as it is while other keys are visited. -/
theorem get_visitEntries_of_not_mem
    (own : ∀ f ∈ fields, f.name ≠ key → ∀ t s s', f.set source t s = .ok s' → get s' = get s)
    {entries : Entries Literal} (absent : key ∉ Entries.keys entries) {s r : σ}
    (h : visitEntries fields source entries s = .ok r) : get r = get s := by
  induction entries generalizing s with
  | nil =>
    cases h
    rfl
  | cons e rest ih =>
    simp only [Entries.keys, List.map_cons, List.mem_cons, not_or] at absent
    obtain ⟨f, found, s₁, set, h⟩ := visitEntries_cons_eq_ok_iff.1 h
    have name : f.name = e.1 := by simpa using List.find?_some found
    have other : f.name ≠ key := fun same => absent.1 (same.symm.trans name)
    exact (ih absent.2 h).trans (own f (List.mem_of_find?_eq_some found) other _ _ _ set)

theorem exists_set_of_visitEntries
    (own : ∀ f ∈ fields, f.name ≠ key → ∀ t s s', f.set source t s = .ok s' → get s' = get s)
    {entries : Entries Literal} (once : (Entries.keys entries).Nodup) {t : Tree Literal}
    (said : (key, t) ∈ entries) {s r : σ} (h : visitEntries fields source entries s = .ok r) :
    ∃ f, fields.find? (·.name = key) = some f ∧
      ∃ s₁ s₂, f.set source t s₁ = .ok s₂ ∧ get r = get s₂ := by
  induction entries generalizing s with
  | nil => cases said
  | cons e rest ih =>
    obtain ⟨fresh, restOnce⟩ := List.nodup_cons.1 once
    obtain ⟨f, found, s₁, set, more⟩ := visitEntries_cons_eq_ok_iff.1 h
    rcases List.mem_cons.1 said with rfl | later
    · exact ⟨f, found, s, s₁, set, get_visitEntries_of_not_mem own fresh more⟩
    · exact ih restOnce later more

end Visits

theorem keepItems_of_tables {items : List (Tree Literal)} {tables : List Table}
    (fit : items.all (fun t => !isDated t) = true)
    (h : decodeItems (decodeTable .text) items = .ok tables) :
    keepItems .text items = .ok (tables.map .table) := by
  induction items generalizing tables with
  | nil =>
    cases h
    rfl
  | cons t rest ih =>
    simp only [List.all_cons, Bool.and_eq_true, Bool.not_eq_true'] at fit
    simp only [decodeItems, bind_eq_ok_iff, Except.ok.injEq] at h
    obtain ⟨table, ht, more, hm, rfl⟩ := h
    refine keepItems_cons_eq_ok_iff.2 ⟨.table table, ?_, _, ih fit.2 hm, rfl⟩
    cases t with
    | leaf l =>
      cases l with
      | scalar s => cases s <;> simp [decodeTable, entries?, isDated] at ht fit
      | wide n => simp [decodeTable, entries?] at ht
      | huge => simp [decodeTable, entries?] at ht
    | array items => simp [decodeTable, entries?] at ht
    | table entries => exact (keepTree_table_eq_ok_iff fit.1).2 ⟨table, ht, rfl⟩

theorem undatedTables_eq_self_iff {t : Tree Literal} {tables : List Table}
    (fit : itemsFit (fun t => !isDated t) t = true)
    (h : decodeSequence (decodeTable .text) .text t = .ok tables) :
    tables.map (mapEntries Scalar.undated) = tables ↔ t.dateFree = true := by
  match t with
  | .leaf _ | .table _ => simp [decodeSequence] at h
  | .array items =>
    have kept := keepItems_of_tables fit h
    have tree : keepTree .text (.array items) = .ok (.array (tables.map .table)) :=
      keepTree_array_eq_ok_iff.2 ⟨_, kept, rfl⟩
    have injective : Function.Injective (List.map (Tree.table (α := Scalar))) :=
      List.map_injective_iff.2 fun _ _ => Tree.table.inj
    have row : (tables.map .table).map (Tree.map Scalar.undated) =
        (tables.map (mapEntries Scalar.undated)).map .table := by
      rw [List.map_map, List.map_map]
      rfl
    rw [← undated_eq_self_iff tree, Tree.map_array, Tree.array.injEq, row, injective.eq_iff]

end Toml

namespace Settings

def entryUndated (key : String) : Toml.Tree Toml.Literal → Bool :=
  if key = "pipeline" then Toml.Tree.dateFree
  else if key = "plugin_dir" then fun t => !Toml.isDated t
  else fun _ => true

/-- A document that is kept as it is where settings are read. -/
def isPlain (document : Toml.Entries Toml.Literal) : Bool :=
  fits document && document.all fun e => entryUndated e.1 e.2

section Documents

variable {document : Toml.Entries Toml.Literal} {s : Settings} {t : Toml.Tree Toml.Literal}

theorem pipeline_of_decode (once : (Toml.Entries.keys document).Nodup)
    (said : ("pipeline", t) ∈ document) (h : decode .text (.table document) = .ok s) :
    Toml.decodeSequence (Toml.decodeTable .text) .text t = .ok s.pipeline := by
  have visited := (Toml.decodeRecord_table_eq_ok_iff.1 h).1
  have own : ∀ f ∈ fields, f.name ≠ "pipeline" → ∀ t s s', f.set .text t s = .ok s' →
      s'.pipeline = s.pipeline := by
    intro f hf other t s s' set
    simp only [fields, List.mem_cons, List.not_mem_nil, or_false] at hf
    obtain rfl | rfl | rfl | rfl | rfl := hf
    · exact absurd rfl other
    all_goals
      obtain ⟨_, -, stored⟩ := bind_eq_ok_iff.1 set
      cases stored
      rfl
  obtain ⟨f, found, s₁, s₂, set, same⟩ := Toml.exists_set_of_visitEntries own once said visited
  obtain rfl := Option.some.inj found
  obtain ⟨tables, read, stored⟩ := bind_eq_ok_iff.1 set
  cases stored
  rw [same]
  exact read

theorem not_isDated_of_decode (once : (Toml.Entries.keys document).Nodup)
    (said : ("plugin_dir", t) ∈ document) (h : decode .text (.table document) = .ok s) :
    Toml.isDated t = false := by
  have visited := (Toml.decodeRecord_table_eq_ok_iff.1 h).1
  obtain ⟨f, found, s₁, s₂, set, -⟩ :=
    @Toml.exists_set_of_visitEntries Settings Unit _ _ _ (fun _ => ()) (fun _ _ _ _ _ _ _ => rfl) _
      once _ said _ _ visited
  obtain rfl := Option.some.inj found
  obtain ⟨path, read, -⟩ := bind_eq_ok_iff.1 set
  have text := Toml.decodeText_eq_ok_iff.1 read
  match t with
  | .leaf (.scalar a) => cases a <;> simp [Toml.text?, Toml.isDated] at text ⊢
  | .leaf (.wide _) | .leaf .huge | .array _ => rfl
  | .table _ => simp [Toml.text?] at text

theorem exists_pipeline_of_decode (h : decode .text (.table document) = .ok s) :
    ∃ t, ("pipeline", t) ∈ document := by
  have complete := (Toml.decodeRecord_table_eq_ok_iff.1 h).2
  simp only [Toml.missing?, Option.map_eq_none_iff, List.find?_eq_none] at complete
  have there : Toml.Entries.has "pipeline" document = true := by
    simpa [Toml.Field.of] using complete _ List.mem_cons_self
  obtain ⟨⟨_, t⟩, said, rfl⟩ := List.mem_map.1 (Toml.Entries.has_iff.1 there)
  exact ⟨t, said⟩

theorem quoted_eq_self (plain : ∀ t, ("plugin_dir", t) ∈ document → Toml.isDated t = false) :
    quoted document = document := by
  refine (List.map_congr_left fun e said => ?_).trans (List.map_id _)
  obtain ⟨key, t⟩ := e
  rw [entryQuoted]
  split
  · next h =>
    subst h
    rw [Toml.quoted_of_not_isDated (plain t said)]
    rfl
  · rfl

theorem undated_eq_self_iff (once : (Toml.Entries.keys document).Nodup)
    (fit : fits document = true) (said : ("pipeline", t) ∈ document)
    (h : decode .text (.table document) = .ok s) : s.undated = s ↔ t.dateFree = true := by
  have here : Toml.itemsFit (fun t => !Toml.isDated t) t = true := List.all_eq_true.1 fit _ said
  rw [← Toml.undatedTables_eq_self_iff here (pipeline_of_decode once said h)]
  exact ⟨congrArg pipeline, fun same => by rw [undated, same]⟩

theorem isPlain_iff : isPlain document = true ↔
    fits document = true ∧ (∀ t, ("pipeline", t) ∈ document → t.dateFree = true) ∧
      ∀ t, ("plugin_dir", t) ∈ document → Toml.isDated t = false := by
  rw [isPlain, Bool.and_eq_true, List.all_eq_true]
  refine and_congr_right fun _ => ⟨fun each => ⟨?_, ?_⟩, ?_⟩
  · exact fun t said => each _ said
  · exact fun t said => by simpa [entryUndated] using each _ said
  · rintro ⟨pipeline, directory⟩ ⟨key, t⟩ said
    simp only [entryUndated]
    split
    · next h => exact pipeline t (h ▸ said)
    · split
      · next h => simpa using directory t (h ▸ said)
      · rfl

end Documents

section Agreement

variable {path text : String} {document : Toml.Entries Toml.Literal} {s : Settings}

theorem ofText_eq_ok_iff (parsed : Toml.Reader.document? text.toList = some document) :
    ofText text = .ok s ↔ decode .text (.table document) = .ok s := by
  simp [ofText, decodeToml_eq_ok_iff, parsed]

theorem loaded_eq_ok_iff (parsed : Toml.Reader.document? text.toList = some document) :
    (Source.ofText path text).settings = .ok s ↔
      fits document = true ∧ ∃ r, decode .text (.table (quoted document)) = .ok r ∧ r.undated = s := by
  simp [Source.settings_ofText_iff, parsed]

theorem loaded_iff_of_isPlain (parsed : Toml.Reader.document? text.toList = some document)
    (plain : isPlain document = true) :
    (Source.ofText path text).settings = .ok s ↔ ofText text = .ok s := by
  obtain ⟨fit, dateFree, directory⟩ := isPlain_iff.1 plain
  have same : ∀ {r}, decode .text (.table document) = .ok r → r.undated = r := by
    intro r hr
    obtain ⟨t, said⟩ := exists_pipeline_of_decode hr
    exact (undated_eq_self_iff (Toml.nodup_keys_document parsed) fit said hr).2 (dateFree t said)
  rw [loaded_eq_ok_iff parsed, ofText_eq_ok_iff parsed, quoted_eq_self directory]
  constructor
  · rintro ⟨-, r, hr, rfl⟩
    rwa [same hr]
  · exact fun hs => ⟨fit, s, hs, same hs⟩

theorem isPlain_of_loaded (parsed : Toml.Reader.document? text.toList = some document)
    (read : ofText text = .ok s) (loaded : (Source.ofText path text).settings = .ok s) :
    isPlain document = true := by
  have once := Toml.nodup_keys_document parsed
  rw [ofText_eq_ok_iff parsed] at read
  obtain ⟨fit, r, hr, undated⟩ := (loaded_eq_ok_iff parsed).1 loaded
  have directory : ∀ t, ("plugin_dir", t) ∈ document → Toml.isDated t = false :=
    fun t said => not_isDated_of_decode once said read
  rw [quoted_eq_self directory] at hr
  obtain rfl : r = s := Except.ok.inj (hr.symm.trans read)
  exact isPlain_iff.2
    ⟨fit, fun t said => (undated_eq_self_iff once fit said read).1 undated, directory⟩

/-- Reading a text and loading a file with this text give the same settings or both none, exactly if
the document is plain or neither of them gives any. -/
theorem readings_agree_iff (path text : String) :
    (∀ s, (Source.ofText path text).settings = .ok s ↔ ofText text = .ok s) ↔
      ∀ document, Toml.Reader.document? text.toList = some document →
        isPlain document = true ∨
          (∀ s, (Source.ofText path text).settings ≠ .ok s) ∧ ∀ s, ofText text ≠ .ok s := by
  constructor
  · intro agree document parsed
    by_cases given : ∃ s, ofText text = .ok s
    · obtain ⟨s, read⟩ := given
      exact .inl (isPlain_of_loaded parsed read ((agree s).2 read))
    · exact .inr ⟨fun s loaded => given ⟨s, (agree s).1 loaded⟩, fun s read => given ⟨s, read⟩⟩
  · intro each s
    cases parsed : Toml.Reader.document? text.toList with
    | none => simp [Source.settings_ofText_iff, ofText, decodeToml_eq_ok_iff, parsed]
    | some document =>
      rcases each document parsed with plain | ⟨unloaded, unread⟩
      · exact loaded_iff_of_isPlain parsed plain
      · exact iff_of_false (unloaded s) (unread s)

end Agreement

def datedText : String := "[[pipeline]]\nd = 1979-05-27\n"

def someDay : Toml.Datetime := .date ⟨1979, 5, 27⟩

def ofDay (value : Toml.Scalar) : Settings := { pipeline := [[("d", .leaf value)]] }

theorem parsed_dated :
    Toml.Reader.document? datedText.toList =
      some [("pipeline", .array [.table [("d", .leaf (.scalar (.datetime someDay)))]])] := by
  let written : List Toml.Reader.Line :=
    [.header true [] "pipeline", .assignment ⟨[], "d", .leaf (.scalar (.datetime someDay))⟩]
  have lines : Toml.Reader.lines? (datedText.toList.length + 1) datedText.toList = some written := rfl
  have filled : Toml.Reader.sections? [] written =
      some [("pipeline", .tables [[("d", .value (.leaf (.scalar (.datetime someDay))))]])] := by
    simp [written, Toml.Reader.sections?, Toml.Reader.section?, Toml.Reader.atPath?,
      Toml.Reader.splitBody, Toml.Reader.assignAll?, Toml.Reader.assign?, Toml.Entries.get?,
      Toml.Entries.has, Toml.Entries.put]
  have unmarked : Toml.Reader.document? datedText.toList =
      (Toml.Reader.lines? (datedText.toList.length + 1) datedText.toList).bind fun lines =>
        (Toml.Reader.assignAll? [] (Toml.Reader.splitBody lines).1).bind fun root =>
          (Toml.Reader.sections? root (Toml.Reader.splitBody lines).2).bind fun root =>
            some (Toml.Reader.closeEntries root) := rfl
  rw [unmarked, lines]
  exact congrArg (Option.bind · fun root => some (Toml.Reader.closeEntries root)) filled

/-- Read from the text, the pipeline has a date; loaded from a file, it has a string. -/
theorem date_loads_as_string :
    ofText datedText = .ok (ofDay (.datetime someDay)) ∧
      (Source.ofText "receiver.toml" datedText).settings = .ok (ofDay (.string "1979-05-27")) ∧
      ofDay (.datetime someDay) ≠ ofDay (.string "1979-05-27") := by
  have fit : fits [("pipeline", .array [.table [("d", .leaf (.scalar (.datetime someDay)))]])] = true := by
    decide
  have changed : (ofDay (.datetime someDay)).undated = ofDay (.string "1979-05-27") := by cbv
  refine ⟨(ofText_eq_ok_iff parsed_dated).2 rfl, ?_, by simp [ofDay]⟩
  exact (loaded_eq_ok_iff parsed_dated).2 ⟨fit, _, rfl, changed⟩

end Settings

end LogIntake
