import LogIntake.Proofs.Settings.Reading

/-!
Settings that were read survive being written: the table that is written for them is read as the same
settings. Only a number that no table can hold stands in the way. What readers keep of a pipeline they
keep again as long as it has no dates, every number is below the bound of its reader, and durations are
read back from their text.
-/
namespace LogIntake

namespace Toml

/-! ### Trees whose leaves stay -/

section Leaves

variable {α : Type} {f : α → Tree α}

mutual

theorem Tree.bind_eq_self : ∀ {t : Tree α}, (∀ a ∈ t.leaves, f a = .leaf a) → t.bind f = t
  | .leaf a, same => same a (by simp [Tree.leaves])
  | .array items, same => congrArg Tree.array (bindItems_eq_self same)
  | .table entries, same => congrArg Tree.table (bindEntries_eq_self same)

theorem bindItems_eq_self : ∀ {items : List (Tree α)}, (∀ a ∈ itemLeaves items, f a = .leaf a) →
    bindItems f items = items
  | [], _ => rfl
  | t :: rest, same => by
    simp only [itemLeaves, List.mem_append] at same
    rw [bindItems, Tree.bind_eq_self fun a h => same a (.inl h),
      bindItems_eq_self fun a h => same a (.inr h)]

theorem bindEntries_eq_self : ∀ {entries : Entries α}, (∀ a ∈ entryLeaves entries, f a = .leaf a) →
    bindEntries f entries = entries
  | [], _ => rfl
  | (k, t) :: rest, same => by
    simp only [entryLeaves, List.mem_append] at same
    rw [bindEntries, Tree.bind_eq_self fun a h => same a (.inl h),
      bindEntries_eq_self fun a h => same a (.inr h)]

end

end Leaves

def Dateless (table : Table) : Prop := ∀ d, Scalar.datetime d ∉ entryLeaves table

theorem Dateless.bindEntries_eq_self {table : Table} (h : Dateless table) {f : Scalar → Value}
    (others : ∀ s, (∀ d, s ≠ .datetime d) → f s = .leaf s) : bindEntries f table = table :=
  Toml.bindEntries_eq_self fun s leaf => others s fun d date => h d (date ▸ leaf)

theorem Dateless.keepEntries {table : Table} (h : Dateless table) {source : Source}
    {entries : Entries Literal} (kept : keepEntries source entries = .ok table) :
    keepEntries .memory (mapEntries .scalar table) = .ok table := by
  have undated : mapEntries Scalar.undated table = table :=
    h.bindEntries_eq_self fun s other => by
      cases s with
      | datetime d => exact absurd rfl (other d)
      | _ => rfl
  rw [keepEntries_again kept, undated]

/-! ### What holds of every record that is read -/

section Records

variable {σ α : Type} {P : σ → Prop} {fields : List (Field σ)} {source : Source}

def Field.Keeps (f : Field σ) (P : σ → Prop) : Prop :=
  ∀ source t s s', f.set source t s = .ok s' → P s → P s'

theorem Field.keeps_of {name : String} {absence : Absence}
    {decode : Source → Tree Literal → Except DecodeError α} {store : α → σ → σ}
    (h : ∀ source t a s, decode source t = .ok a → P s → P (store a s)) :
    (Field.of name absence decode store).Keeps P := by
  intro source t s s' set before
  obtain ⟨a, read, stored⟩ := bind_eq_ok_iff.1 set
  cases stored
  exact h source t a s read before

theorem visitEntries_keeps (each : ∀ f ∈ fields, f.Keeps P) {entries : Entries Literal} {s r : σ}
    (h : visitEntries fields source entries s = .ok r) (before : P s) : P r := by
  induction entries generalizing s with
  | nil =>
    cases h
    exact before
  | cons e rest ih =>
    obtain ⟨f, found, s₁, set, more⟩ := visitEntries_cons_eq_ok_iff.1 h
    exact ih more (each f (List.mem_of_find?_eq_some found) _ _ _ _ set before)

theorem visitItems_keeps (each : ∀ f ∈ fields, f.Keeps P) {name : String} {count index : Nat}
    {items : List (Tree Literal)} {s r : σ}
    (h : visitItems name count source index fields items s = .ok r) (before : P s) : P r := by
  induction fields generalizing index items s with
  | nil =>
    cases items with
    | nil =>
      cases h
      exact before
    | cons t rest =>
      cases source with
      | text =>
        cases h
        exact before
      | memory => cases h
  | cons f fields ih =>
    have others : ∀ g ∈ fields, g.Keeps P := fun g hg => each g (List.mem_cons_of_mem _ hg)
    cases items with
    | nil =>
      rw [visitItems] at h
      split at h
      · exact ih others h before
      · cases h
    | cons t rest =>
      obtain ⟨s₁, set, more⟩ := bind_eq_ok_iff.1 h
      exact ih others more (each f List.mem_cons_self _ _ _ _ set before)

theorem decodeRecord_keeps (each : ∀ f ∈ fields, f.Keeps P) {name : String} {start s : σ}
    {t : Tree Literal} (before : P start) (h : decodeRecord name fields start source t = .ok s) : P s := by
  unfold decodeRecord at h
  split at h
  · obtain ⟨r, visited, complete⟩ := bind_eq_ok_iff.1 h
    split at complete
    · cases complete
    · cases complete
      exact visitEntries_keeps each visited before
  · exact visitItems_keeps each h before
  · exact absurd h (refuse_ne_ok _ _ _ _)

end Records

theorem decodeNatural_lt {expected : String} {bound n : Nat} {source : Source} {t : Tree Literal}
    (h : decodeNatural expected bound source t = .ok n) : n < bound := by
  unfold decodeNatural at h
  split at h
  · split at h
    · next range =>
      cases h
      omega
    · cases h
  · split at h
    · next range =>
      cases h
      omega
    · split at h
      · cases h
      · exact absurd h (refuse_ne_ok _ _ _ _)
  · exact absurd h (refuse_ne_ok _ _ _ _)

section Sequences

variable {α : Type} {item : Tree Literal → Except DecodeError α}

theorem exists_of_mem_decodeItems {items : List (Tree Literal)} {as : List α}
    (h : decodeItems item items = .ok as) {a : α} (mem : a ∈ as) : ∃ t, item t = .ok a := by
  induction items generalizing as with
  | nil =>
    cases h
    cases mem
  | cons t rest ih =>
    obtain ⟨b, first, more, others, same⟩ := by
      simpa only [decodeItems, bind_eq_ok_iff] using h
    cases same
    rcases List.mem_cons.1 mem with rfl | later
    · exact ⟨t, first⟩
    · exact ih others later

theorem exists_of_mem_decodeSequence {source : Source} {t : Tree Literal} {as : List α}
    (h : decodeSequence item source t = .ok as) {a : α} (mem : a ∈ as) : ∃ t, item t = .ok a := by
  cases t with
  | array items => exact exists_of_mem_decodeItems h mem
  | leaf _ => exact absurd h (refuse_ne_ok _ _ _ _)
  | table _ => exact absurd h (refuse_ne_ok _ _ _ _)

theorem exists_keepEntries_of_decodeTable {source : Source} {t : Tree Literal} {table : Table}
    (h : decodeTable source t = .ok table) : ∃ entries, keepEntries source entries = .ok table := by
  unfold decodeTable at h
  split at h
  · exact ⟨_, h⟩
  · exact absurd h (refuse_ne_ok _ _ _ _)

end Sequences

/-! ### Reading what is written -/

section Written

variable {σ α : Type}

theorem visitEntries_cons_of {fields : List (Field σ)} {name : String} {absence : Absence}
    {decode : Source → Tree Literal → Except DecodeError α} {store : α → σ → σ} {source : Source}
    {key : String} {t : Tree Literal} {rest : Entries Literal} {a : α} {s r : σ}
    (found : fields.find? (·.name = key) = some (Field.of name absence decode store))
    (read : decode source t = .ok a) (behind : visitEntries fields source rest (store a s) = .ok r) :
    visitEntries fields source ((key, t) :: rest) s = .ok r :=
  visitEntries_cons_eq_ok_iff.2 ⟨_, found, _, bind_eq_ok_iff.2 ⟨a, read, rfl⟩, behind⟩

theorem decodeNatural_natural {expected : String} {bound n : Nat} (h : n < bound) (source : Source) :
    decodeNatural expected bound source ((Settings.natural n).map .scalar) = .ok n := by
  have range : (0 : Int) ≤ n ∧ (n : Int) < bound := ⟨Int.natCast_nonneg n, Int.ofNat_lt.2 h⟩
  exact if_pos range

theorem decodeItems_tables {tables : List Table}
    (each : ∀ table ∈ tables, keepEntries .memory (mapEntries .scalar table) = .ok table) :
    decodeItems (decodeTable .memory) ((tables.map Tree.table).map (Tree.map .scalar)) = .ok tables := by
  induction tables with
  | nil => rfl
  | cons table rest ih =>
    have first : decodeTable .memory ((Tree.table table).map .scalar) = .ok table :=
      each table List.mem_cons_self
    have others := ih fun other mem => each other (List.mem_cons_of_mem _ mem)
    exact bind_eq_ok_iff.2 ⟨table, first, bind_eq_ok_iff.2 ⟨rest, others, rfl⟩⟩

end Written

end Toml

theorem Span.decode_text (s : Span) (source : Toml.Source) :
    Span.decode source ((Settings.string s.text).map .scalar) = .ok s :=
  Toml.decodeParsed_eq_ok_iff.2 ⟨s.text, rfl, by simp [Span.read?_text]⟩

namespace BatchSettings

/-- The limit is a number of 64 bits. -/
def HasRoom (b : BatchSettings) : Prop := b.maxFlushCount < 1 <<< 64

theorem hasRoom_of_decode {source : Toml.Source} {t : Toml.Tree Toml.Literal} {b : BatchSettings}
    (h : decode source t = .ok b) : b.HasRoom := by
  refine Toml.decodeRecord_keeps (fun f hf => ?_) (by unfold HasRoom; decide) h
  simp only [fields, List.mem_cons, List.not_mem_nil, or_false] at hf
  obtain rfl | rfl := hf
  · exact Toml.Field.keeps_of fun _ _ n _ read _ => Toml.decodeNatural_lt read
  · exact Toml.Field.keeps_of fun _ _ _ _ _ before => before

def written (b : BatchSettings) : Toml.Table :=
  [("max_flush_count", Settings.natural b.maxFlushCount),
   ("flush_interval", Settings.string b.flushInterval.text)]

theorem decode_written {b : BatchSettings} (room : b.HasRoom) (source : Toml.Source) :
    decode source (.table (Toml.mapEntries .scalar b.written)) = .ok b := by
  refine Toml.decodeRecord_table_eq_ok_iff.2 ⟨?_, rfl⟩
  refine Toml.visitEntries_cons_of rfl (Toml.decodeNatural_natural room source) ?_
  exact Toml.visitEntries_cons_of rfl (b.flushInterval.decode_text source) rfl

end BatchSettings

namespace DeliverySettings

/-- The count is a number of 32 bits. -/
def HasRoom (d : DeliverySettings) : Prop := d.maxRetries < 1 <<< 32

theorem hasRoom_of_decode {source : Toml.Source} {t : Toml.Tree Toml.Literal} {d : DeliverySettings}
    (h : decode source t = .ok d) : d.HasRoom := by
  refine Toml.decodeRecord_keeps (fun f hf => ?_) (by unfold HasRoom; decide) h
  simp only [fields, List.mem_cons, List.not_mem_nil, or_false] at hf
  obtain rfl | rfl | rfl := hf
  · exact Toml.Field.keeps_of fun _ _ _ _ _ before => before
  · exact Toml.Field.keeps_of fun _ _ n _ read _ => Toml.decodeNatural_lt read
  · exact Toml.Field.keeps_of fun _ _ _ _ _ before => before

def written (d : DeliverySettings) : Toml.Table :=
  [("on_error", Settings.string d.onError.name),
   ("max_retries", Settings.natural d.maxRetries),
   ("retry_backoff", Settings.string d.retryBackoff.text)]

theorem decodeVariant_name (o : OnDeliveryError) (source : Toml.Source) :
    Toml.decodeVariant OnDeliveryError.variants source ((Settings.string o.name).map .scalar) =
      .ok o := by
  cases o <;> rfl

theorem decode_written {d : DeliverySettings} (room : d.HasRoom) (source : Toml.Source) :
    decode source (.table (Toml.mapEntries .scalar d.written)) = .ok d := by
  refine Toml.decodeRecord_table_eq_ok_iff.2 ⟨?_, rfl⟩
  refine Toml.visitEntries_cons_of rfl (decodeVariant_name d.onError source) ?_
  refine Toml.visitEntries_cons_of rfl (Toml.decodeNatural_natural room source) ?_
  exact Toml.visitEntries_cons_of rfl (d.retryBackoff.decode_text source) rfl

end DeliverySettings

namespace Settings

/-- What holds of all settings that are read: a reader kept each table of the pipeline, and the numbers
are below their bounds. -/
structure WereRead (s : Settings) : Prop where
  pipeline : ∀ table ∈ s.pipeline, ∃ source entries, Toml.keepEntries source entries = .ok table
  batch : s.batch.HasRoom
  delivery : s.delivery.HasRoom

theorem wereRead_of_decode {source : Toml.Source} {t : Toml.Tree Toml.Literal} {s : Settings}
    (h : decode source t = .ok s) : s.WereRead := by
  have start : WereRead { pipeline := [] } :=
    ⟨nofun, by unfold BatchSettings.HasRoom; decide, by unfold DeliverySettings.HasRoom; decide⟩
  refine Toml.decodeRecord_keeps (fun f hf => ?_) start h
  simp only [fields, List.mem_cons, List.not_mem_nil, or_false] at hf
  obtain rfl | rfl | rfl | rfl | rfl := hf
  · refine Toml.Field.keeps_of fun source t tables s read before => ⟨?_, before.2, before.3⟩
    intro table mem
    obtain ⟨t, decoded⟩ := Toml.exists_of_mem_decodeSequence read mem
    exact ⟨source, Toml.exists_keepEntries_of_decodeTable decoded⟩
  · exact Toml.Field.keeps_of fun _ _ _ _ _ before => ⟨before.1, before.2, before.3⟩
  · exact Toml.Field.keeps_of fun _ _ _ _ read before =>
      ⟨before.1, BatchSettings.hasRoom_of_decode read, before.3⟩
  · exact Toml.Field.keeps_of fun _ _ _ _ read before =>
      ⟨before.1, before.2, DeliverySettings.hasRoom_of_decode read⟩
  · exact Toml.Field.keeps_of fun _ _ _ _ _ before => ⟨before.1, before.2, before.3⟩

def decodePipeline : Toml.Reads (List Toml.Table) :=
  fun source => Toml.decodeSequence (Toml.decodeTable source) source

def writtenDirectory : Option String → Toml.Table
  | some path => [("plugin_dir", string path)]
  | none => []

def writtenTail (s : Settings) : Toml.Table :=
  [("converter", .table s.batch.written), ("delivery", .table s.delivery.written),
   ("shutdown_timeout", string s.shutdownTimeout.text)]

/-- The table that is written for settings without dates. -/
def written (s : Settings) : Toml.Table :=
  ("pipeline", .array (s.pipeline.map .table)) ::
    (writtenDirectory s.templateDirectory ++ s.writtenTail)

section Written

variable {s : Settings}

theorem toTable?_eq_some_iff (dateless : ∀ table ∈ s.pipeline, Toml.Dateless table)
    {table : Toml.Table} :
    s.toTable? = some table ↔ s.batch.maxFlushCount ≤ 9223372036854775807 ∧ s.written = table := by
  have tables : s.pipeline.map (fun t => Toml.Tree.table (Toml.bindEntries writtenLeaf t)) =
      s.pipeline.map Toml.Tree.table := by
    refine List.map_congr_left fun table mem => congrArg _ ?_
    exact (dateless table mem).bindEntries_eq_self fun leaf other => by
      cases leaf with
      | datetime d => exact absurd rfl (other d)
      | _ => rfl
  have bound : s.batch.maxFlushCount < 1 <<< 63 ↔ s.batch.maxFlushCount ≤ 9223372036854775807 :=
    Nat.lt_succ_iff
  have whole : s.toTable? = if s.batch.maxFlushCount < 1 <<< 63 then some s.written else none := by
    rw [toTable?, tables]
    rfl
  rw [whole, Option.ite_none_right_eq_some, bound, Option.some.injEq]

theorem decodePipeline_written (wereRead : s.WereRead)
    (dateless : ∀ table ∈ s.pipeline, Toml.Dateless table) :
    decodePipeline .memory ((Toml.Tree.array (s.pipeline.map .table)).map .scalar) = .ok s.pipeline := by
  rw [decodePipeline, Toml.Tree.map_array]
  refine Toml.decodeItems_tables fun table mem => ?_
  obtain ⟨source, entries, kept⟩ := wereRead.pipeline table mem
  exact (dateless table mem).keepEntries kept

theorem visit_writtenTail (wereRead : s.WereRead) (r : Settings) :
    Toml.visitEntries fields .memory (Toml.mapEntries .scalar s.writtenTail) r =
      .ok { r with batch := s.batch, delivery := s.delivery, shutdownTimeout := s.shutdownTimeout } := by
  refine Toml.visitEntries_cons_of rfl (BatchSettings.decode_written wereRead.batch .memory) ?_
  refine Toml.visitEntries_cons_of rfl (DeliverySettings.decode_written wereRead.delivery .memory) ?_
  exact Toml.visitEntries_cons_of rfl (s.shutdownTimeout.decode_text .memory) rfl

/-- Settings without dates in their pipeline are read from the table that is written for them. -/
theorem ofTable_written (wereRead : s.WereRead)
    (dateless : ∀ table ∈ s.pipeline, Toml.Dateless table) : ofTable s.written = .ok s := by
  have pipeline := decodePipeline_written wereRead dateless
  obtain ⟨tables, directory, batch, delivery, timeout⟩ := s
  rw [ofTable, decode, Toml.decodeRecord_table_eq_ok_iff]
  constructor
  · refine Toml.visitEntries_cons_of rfl pipeline ?_
    cases directory with
    | none => exact visit_writtenTail wereRead _
    | some path =>
      have text : Toml.decodeText "path string" .memory ((string path).map .scalar) = .ok path := rfl
      exact Toml.visitEntries_cons_of rfl text (visit_writtenTail wereRead _)
  · cases directory <;> rfl

end Written

def withDurations (s : Settings) (flushInterval retryBackoff shutdownTimeout : Span) : Settings :=
  { s with
    batch := { s.batch with flushInterval }
    delivery := { s.delivery with retryBackoff }
    shutdownTimeout }

/-- Settings that are read from a text or a table and have no dates in their pipeline survive being
written, whatever their durations, exactly if the limit of their batches fits into a table. With a greater
limit there is nothing that could be written. -/
theorem survives_writing_iff {s : Settings}
    (wereRead : (∃ text, ofText text = .ok s) ∨ ∃ table, ofTable table = .ok s)
    (dateless : ∀ table ∈ s.pipeline, Toml.Dateless table)
    (flushInterval retryBackoff shutdownTimeout : Span) :
    ((∃ table, (s.withDurations flushInterval retryBackoff shutdownTimeout).toTable? = some table ∧
        ofTable table = .ok (s.withDurations flushInterval retryBackoff shutdownTimeout)) ↔
      s.batch.maxFlushCount ≤ 9223372036854775807) ∧
    ((s.withDurations flushInterval retryBackoff shutdownTimeout).toTable? = none ↔
      9223372036854775807 < s.batch.maxFlushCount) := by
  obtain ⟨pipeline, batch, delivery⟩ : s.WereRead := by
    rcases wereRead with ⟨text, read⟩ | ⟨table, read⟩
    · obtain ⟨document, -, read⟩ := decodeToml_eq_ok_iff.1 read
      exact wereRead_of_decode read
    · exact wereRead_of_decode read
  have changed : (s.withDurations flushInterval retryBackoff shutdownTimeout).WereRead :=
    ⟨pipeline, batch, delivery⟩
  have noDates : ∀ table ∈ (s.withDurations flushInterval retryBackoff shutdownTimeout).pipeline,
      Toml.Dateless table := dateless
  refine ⟨⟨?_, fun small => ?_⟩, ⟨fun unwritten => ?_, fun wide => ?_⟩⟩
  · rintro ⟨table, written, -⟩
    exact ((toTable?_eq_some_iff noDates).1 written).1
  · exact ⟨_, (toTable?_eq_some_iff noDates).2 ⟨small, rfl⟩, ofTable_written changed noDates⟩
  · by_contra small
    have written := (toTable?_eq_some_iff noDates).2 ⟨Nat.not_lt.1 small, rfl⟩
    cases unwritten.symm.trans written
  · refine Option.eq_none_iff_forall_ne_some.2 fun table written => ?_
    exact Nat.not_le_of_lt wide ((toTable?_eq_some_iff noDates).1 written).1

def smallTable : Toml.Table :=
  [("pipeline", .array [.table [("type", string "drop_output")]]), ("plugin_dir", string "/etc/templates"),
   ("converter", .table [("max_flush_count", natural 500)])]

def small : Settings :=
  { pipeline := [[("type", string "drop_output")]], templateDirectory := some "/etc/templates",
    batch := { maxFlushCount := 500 } }

/-- The shortest duration that there is, the longest one and none at all survive. -/
theorem extreme_durations_survive :
    ofTable smallTable = .ok small ∧
      ∃ table, (small.withDurations ⟨1, by decide⟩ ⟨Span.longest, by decide⟩ Span.zero).toTable? =
          some table ∧
        ofTable table =
          .ok (small.withDurations ⟨1, by decide⟩ ⟨Span.longest, by decide⟩ Span.zero) := by
  have read : ofTable smallTable = .ok small := rfl
  have dateless : ∀ table ∈ small.pipeline, Toml.Dateless table := by
    simp [small, string, Toml.Dateless, Toml.entryLeaves, Toml.Tree.leaves]
  exact ⟨read, (survives_writing_iff (.inr ⟨smallTable, read⟩) dateless _ _ _).1.2 (by decide)⟩

/-- A limit that is one more than the greatest number of a table. -/
def wideText : String := "pipeline = []\n[converter]\nmax_flush_count = 9223372036854775808\n"

/-- Settings can be read that cannot be written. -/
theorem wide_limit_is_not_written :
    ∃ s, ofText wideText = .ok s ∧ s.pipeline = [] ∧ s.batch.maxFlushCount = 9223372036854775808 ∧
      s.toTable? = none := by
  have seen : (match ofText wideText with
      | .ok s => s.pipeline.isEmpty && s.batch.maxFlushCount == 9223372036854775808 && s.toTable?.isNone
      | .error _ => false) = true := by decide +kernel
  split at seen
  · next s read =>
    simp only [Bool.and_eq_true, List.isEmpty_iff, beq_iff_eq, Option.isNone_iff_eq_none] at seen
    exact ⟨s, read, seen.1.1, seen.1.2, seen.2⟩
  · cases seen

end Settings

end LogIntake
