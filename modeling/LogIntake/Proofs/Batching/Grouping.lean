import LogIntake.Logs
import Mathlib

/-!
The groups of a batch. Each origin has one group, which holds the records of its entries in the order of
the batch, and the groups stand in the order in which their origins first came. A batch that goes on adds
to the groups that are there and puts its new groups behind them.
-/
namespace LogIntake.Logs

/-! ### The origins of groups -/

def origins (groups : List ResourceLogs) : List Attributes := groups.map ResourceLogs.resource

@[simp] theorem origins_nil : origins [] = [] := rfl

@[simp] theorem origins_cons (g : ResourceLogs) (groups : List ResourceLogs) :
    origins (g :: groups) = g.resource :: origins groups := rfl

@[simp] theorem origins_append (groups others : List ResourceLogs) :
    origins (groups ++ others) = origins groups ++ origins others := by
  simp [origins]

theorem origins_addRecord (origin : Attributes) (r : LogRecord) (groups : List ResourceLogs) :
    origins (addRecord origin r groups) =
      if origin ∈ origins groups then origins groups else origins groups ++ [origin] := by
  induction groups with
  | nil => simp [addRecord]
  | cons g rest ih =>
    by_cases here : g.resource = origin
    · simp [addRecord, here]
    · have other : origin ≠ g.resource := Ne.symm here
      rw [addRecord, if_neg here, origins_cons, ih]
      by_cases later : origin ∈ origins rest <;> simp [later, other]

theorem mem_origins_addRecord {origin other : Attributes} {r : LogRecord}
    {groups : List ResourceLogs} :
    other ∈ origins (addRecord origin r groups) ↔ other ∈ origins groups ∨ other = origin := by
  rw [origins_addRecord]
  split
  · next present =>
    constructor
    · exact .inl
    · rintro (member | rfl)
      · exact member
      · exact present
  · rw [List.mem_append, List.mem_singleton]

theorem nodup_origins_addRecord {groups : List ResourceLogs} (once : (origins groups).Nodup)
    (origin : Attributes) (r : LogRecord) : (origins (addRecord origin r groups)).Nodup := by
  rw [origins_addRecord]
  split
  · exact once
  · next absent => simpa using List.Nodup.concat absent once

/-! ### A batch that goes on -/

def recordsOf (origin : Attributes) (batch : Batch) : List LogRecord :=
  (batch.filter (·.resource = origin)).map record

@[simp] theorem recordsOf_nil (origin : Attributes) : recordsOf origin [] = [] := rfl

theorem recordsOf_append (origin : Attributes) (front back : Batch) :
    recordsOf origin (front ++ back) = recordsOf origin front ++ recordsOf origin back := by
  simp [recordsOf]

theorem recordsOf_singleton (origin : Attributes) (e : Entry) :
    recordsOf origin [e] = if e.resource = origin then [record e] else [] := by
  by_cases here : e.resource = origin <;> simp [recordsOf, here]

theorem recordsOf_ne_nil_iff {origin : Attributes} {batch : Batch} :
    recordsOf origin batch ≠ [] ↔ ∃ e ∈ batch, e.resource = origin := by
  simp [recordsOf]

/-- A group with the records of more entries, as far as they are of its origin. -/
def extend (batch : Batch) (g : ResourceLogs) : ResourceLogs :=
  { g with records := g.records ++ recordsOf g.resource batch }

theorem extend_nil (g : ResourceLogs) : extend [] g = g := by
  simp [extend]

theorem extend_extend (front back : Batch) (g : ResourceLogs) :
    extend back (extend front g) = extend (front ++ back) g := by
  simp [extend, recordsOf_append]

theorem extend_of_ne {e : Entry} {g : ResourceLogs} (other : e.resource ≠ g.resource) :
    extend [e] g = g := by
  simp [extend, recordsOf_singleton, other]

theorem origins_map_extend (batch : Batch) (groups : List ResourceLogs) :
    origins (groups.map (extend batch)) = origins groups := by
  simp [origins, extend]

/-- One more entry goes to the group of its origin, or to a group of its own behind all others. -/
theorem addRecord_eq {groups : List ResourceLogs} (once : (origins groups).Nodup) (e : Entry) :
    addRecord e.resource (record e) groups =
      groups.map (extend [e]) ++
        if e.resource ∈ origins groups then [] else [⟨e.resource, [record e]⟩] := by
  induction groups with
  | nil => simp [addRecord]
  | cons g rest ih =>
    obtain ⟨fresh, restOnce⟩ := List.nodup_cons.1 once
    by_cases here : g.resource = e.resource
    · have others : rest.map (extend [e]) = rest := by
        refine (List.map_congr_left fun other member => extend_of_ne fun same => ?_).trans
          (List.map_id rest)
        rw [here, same] at fresh
        exact fresh (List.mem_map_of_mem member)
      simp [addRecord, here, others, extend, recordsOf_singleton]
    · rw [addRecord, if_neg here, ih restOnce, List.map_cons, extend_of_ne (Ne.symm here)]
      simp [Ne.symm here]

theorem addBatch_append_singleton (groups : List ResourceLogs) (front : Batch) (e : Entry) :
    addBatch groups (front ++ [e]) = addRecord e.resource (record e) (addBatch groups front) := by
  rw [addBatch_append]
  rfl

theorem nodup_origins_addBatch {groups : List ResourceLogs} (once : (origins groups).Nodup)
    (batch : Batch) : (origins (addBatch groups batch)).Nodup := by
  induction batch using List.reverseRecOn with
  | nil => exact once
  | append_singleton front e ih =>
    rw [addBatch_append_singleton]
    exact nodup_origins_addRecord ih e.resource (record e)

theorem nodup_origins_addBatch_nil (batch : Batch) : (origins (addBatch [] batch)).Nodup :=
  nodup_origins_addBatch (show (origins []).Nodup from List.nodup_nil) batch

def besides (origins : List Attributes) (groups : List ResourceLogs) : List ResourceLogs :=
  groups.filter (·.resource ∉ origins)

theorem mem_origins_besides {others : List Attributes} {groups : List ResourceLogs}
    {origin : Attributes} :
    origin ∈ origins (besides others groups) ↔ origin ∈ origins groups ∧ origin ∉ others := by
  simp only [origins, besides, List.mem_map, List.mem_filter, decide_eq_true_eq]
  constructor
  · rintro ⟨g, ⟨member, other⟩, rfl⟩
    exact ⟨⟨g, member, rfl⟩, other⟩
  · rintro ⟨⟨g, member, rfl⟩, other⟩
    exact ⟨g, ⟨member, other⟩, rfl⟩

theorem besides_append (others : List Attributes) (groups more : List ResourceLogs) :
    besides others (groups ++ more) = besides others groups ++ besides others more := by
  simp [besides]

theorem besides_map_extend (others : List Attributes) (batch : Batch) (groups : List ResourceLogs) :
    besides others (groups.map (extend batch)) = (besides others groups).map (extend batch) := by
  rw [besides, List.filter_map]
  rfl

/-- The entries of a batch go to the groups of their origins; those whose origin has none make the groups
that they would make alone. -/
theorem addBatch_eq {groups : List ResourceLogs} (once : (origins groups).Nodup) (batch : Batch) :
    addBatch groups batch =
      groups.map (extend batch) ++ besides (origins groups) (addBatch [] batch) := by
  -- from the end of the batch: the last entry finds the groups that all others have made
  induction batch using List.reverseRecOn with
  | nil =>
    rw [List.map_congr_left fun g _ => extend_nil g, List.map_id']
    simp [addBatch, besides]
  | append_singleton front e ih =>
    have extended : (groups.map (extend front)).map (extend [e]) =
        groups.map (extend (front ++ [e])) := by
      rw [List.map_map]
      exact List.map_congr_left fun g _ => extend_extend front [e] g
    have grown := nodup_origins_addBatch once front
    have alone := nodup_origins_addBatch_nil front
    rw [addBatch_append_singleton, addBatch_append_singleton, addRecord_eq grown, addRecord_eq alone,
      ih, List.map_append, extended, List.append_assoc, besides_append, besides_map_extend,
      origins_append, origins_map_extend]
    -- what is left is the group that the last entry may make
    congr 2
    simp only [List.mem_append, mem_origins_besides]
    by_cases known : e.resource ∈ origins groups <;>
      by_cases later : e.resource ∈ origins (addBatch [] front) <;> simp [known, later, besides]

/-! ### What the groups hold -/

theorem mem_origins_addBatch {groups : List ResourceLogs} {batch : Batch} {origin : Attributes} :
    origin ∈ origins (addBatch groups batch) ↔
      origin ∈ origins groups ∨ ∃ e ∈ batch, e.resource = origin := by
  induction batch using List.reverseRecOn with
  | nil => simp [addBatch]
  | append_singleton front e ih =>
    rw [addBatch_append_singleton, mem_origins_addRecord, ih, or_assoc]
    simp [or_and_right, exists_or, eq_comm]

theorem records_of_mem_addBatch {batch : Batch} {g : ResourceLogs} (member : g ∈ addBatch [] batch) :
    g.records = recordsOf g.resource batch := by
  induction batch using List.reverseRecOn generalizing g with
  | nil => cases member
  | append_singleton front e ih =>
    have once := nodup_origins_addBatch_nil front
    rw [addBatch_append_singleton, addRecord_eq once, List.mem_append] at member
    rw [recordsOf_append]
    obtain old | new := member
    · obtain ⟨before, member, rfl⟩ := List.mem_map.1 old
      show before.records ++ recordsOf before.resource [e] = _
      rw [ih member]
      rfl
    · split at new
      · cases new
      · next absent =>
        obtain rfl := List.mem_singleton.1 new
        have none : recordsOf e.resource front = [] := by
          by_contra some
          exact absent (mem_origins_addBatch.2 (.inr (recordsOf_ne_nil_iff.1 some)))
        rw [none, recordsOf_singleton, if_pos rfl, List.nil_append]

theorem pairwise_origins_addBatch (batch : Batch) :
    (origins (addBatch [] batch)).Pairwise fun a b =>
      (batch.map Entry.resource).idxOf a < (batch.map Entry.resource).idxOf b := by
  induction batch using List.reverseRecOn with
  | nil => exact List.Pairwise.nil
  | append_singleton front e ih =>
    have came : ∀ {origin}, origin ∈ origins (addBatch [] front) →
        origin ∈ front.map Entry.resource := by
      intro origin member
      simpa using mem_origins_addBatch.1 member
    rw [List.map_append, addBatch_append_singleton, origins_addRecord]
    have before : (origins (addBatch [] front)).Pairwise fun a b =>
        (front.map Entry.resource ++ [e].map Entry.resource).idxOf a <
          (front.map Entry.resource ++ [e].map Entry.resource).idxOf b := by
      refine ih.imp_of_mem fun first second less => ?_
      rwa [List.idxOf_append_of_mem (came first), List.idxOf_append_of_mem (came second)]
    split
    · exact before
    · next absent =>
      refine List.pairwise_append.2 ⟨before, List.pairwise_singleton _ _, ?_⟩
      intro origin member last same
      obtain rfl := List.mem_singleton.1 same
      have fresh : e.resource ∉ front.map Entry.resource := by
        intro known
        exact absent (mem_origins_addBatch.2 (.inr (by simpa using known)))
      rw [List.idxOf_append_of_mem (came member), List.idxOf_append_of_notMem fresh]
      have := List.idxOf_lt_length_iff.2 (came member)
      omega

/-! ### All records -/

def paired (batch : Batch) : List (Attributes × LogRecord) := batch.map fun e => (e.resource, record e)

theorem filter_paired (origin : Attributes) (batch : Batch) :
    (paired batch).filter (·.1 = origin) = (recordsOf origin batch).map (origin, ·) := by
  induction batch with
  | nil => rfl
  | cons e rest ih =>
    simp only [paired, recordsOf, List.map_cons] at ih ⊢
    by_cases here : e.resource = origin <;> simp [here, ih]

theorem records_cons (g : ResourceLogs) (groups : List ResourceLogs) :
    records ⟨g :: groups⟩ = g.records.map (g.resource, ·) ++ records ⟨groups⟩ := by
  simp [records]

theorem records_addRecord_perm (origin : Attributes) (r : LogRecord) (groups : List ResourceLogs) :
    (records ⟨addRecord origin r groups⟩).Perm (records ⟨groups⟩ ++ [(origin, r)]) := by
  induction groups with
  | nil => exact List.Perm.refl _
  | cons g rest ih =>
    rw [addRecord]
    split
    · next here =>
      subst here
      rw [records_cons, records_cons, List.map_append, List.append_assoc, List.append_assoc]
      exact List.perm_append_comm.append_left _
    · rw [records_cons, records_cons, List.append_assoc]
      exact ih.append_left _

theorem records_addBatch_perm (batch : Batch) : (records ⟨addBatch [] batch⟩).Perm (paired batch) := by
  induction batch using List.reverseRecOn with
  | nil => exact List.Perm.refl _
  | append_singleton front e ih =>
    rw [addBatch_append_singleton]
    refine (records_addRecord_perm _ _ _).trans ?_
    rw [paired, List.map_append]
    exact ih.append_right _

theorem recordCount_eq (logs : Logs) : logs.recordCount = logs.records.length := by
  obtain ⟨groups⟩ := logs
  induction groups with
  | nil => rfl
  | cons g rest ih =>
    rw [records_cons, List.length_append, ← ih, List.length_map]
    rfl

theorem filter_records_of_not_mem {groups : List ResourceLogs} {origin : Attributes}
    (absent : origin ∉ origins groups) : (records ⟨groups⟩).filter (·.1 = origin) = [] := by
  rw [List.filter_eq_nil_iff]
  rintro ⟨found, r⟩ member
  obtain ⟨g, inside, held⟩ := List.mem_flatMap.1 member
  obtain ⟨_, -, same⟩ := List.mem_map.1 held
  obtain rfl := (Prod.mk.inj same).1
  suffices g.resource ≠ origin by simpa using this
  rintro rfl
  exact absent (List.mem_map_of_mem inside)

theorem filter_records_of_mem {groups : List ResourceLogs} (once : (origins groups).Nodup)
    {g : ResourceLogs} (member : g ∈ groups) :
    (records ⟨groups⟩).filter (·.1 = g.resource) = g.records.map (g.resource, ·) := by
  induction groups with
  | nil => cases member
  | cons h rest ih =>
    obtain ⟨fresh, restOnce⟩ := List.nodup_cons.1 once
    rw [records_cons, List.filter_append]
    obtain rfl | later := List.mem_cons.1 member
    · have all : (g.records.map (g.resource, ·)).filter (·.1 = g.resource) =
          g.records.map (g.resource, ·) := by simp
      rw [all, filter_records_of_not_mem fresh, List.append_nil]
    · have differ : h.resource ≠ g.resource := by
        intro same
        rw [same] at fresh
        exact fresh (List.mem_map_of_mem later)
      have none : (h.records.map (h.resource, ·)).filter (·.1 = g.resource) = [] := by
        simp [differ]
      rw [none, ih restOnce later, List.nil_append]

/-! ### A batch in groups -/

/-- The records of a batch in groups by their origins. -/
structure IsGrouping (batch : Batch) (logs : Logs) : Prop where
  /-- Each origin of the batch has a group, and no other one has. -/
  covers : ∀ origin, origin ∈ origins logs.resourceLogs ↔ ∃ e ∈ batch, e.resource = origin
  once : (origins logs.resourceLogs).Nodup
  /-- An origin stands before another one if its first entry does. -/
  ordered : (origins logs.resourceLogs).Pairwise fun a b =>
    (batch.map Entry.resource).idxOf a < (batch.map Entry.resource).idxOf b
  /-- A group holds the records of all entries of its origin, in the order of the batch. -/
  holds : ∀ g ∈ logs.resourceLogs, g.records ≠ [] ∧ g.records = recordsOf g.resource batch
  counts : logs.recordCount = batch.length
  complete : logs.records.Perm (paired batch)
  /-- Among the records of one origin, all stand as in the batch. -/
  stable : ∀ origin, logs.records.filter (·.1 = origin) = (paired batch).filter (·.1 = origin)

/-- A batch is put in groups, and a longer batch is the groups of its front, which take up what is of
their origins, and behind them the groups of the rest that are new. -/
theorem ofBatch_groups (batch later : Batch) :
    IsGrouping batch (ofBatch batch) ∧
      (ofBatch (batch ++ later)).resourceLogs =
        (ofBatch batch).resourceLogs.map (extend later) ++
          besides (origins (ofBatch batch).resourceLogs) (ofBatch later).resourceLogs := by
  have once : (origins (ofBatch batch).resourceLogs).Nodup := nodup_origins_addBatch_nil batch
  have covers : ∀ origin, origin ∈ origins (ofBatch batch).resourceLogs ↔
      ∃ e ∈ batch, e.resource = origin := by
    intro origin
    rw [ofBatch, mem_origins_addBatch]
    simp
  refine ⟨⟨covers, once, pairwise_origins_addBatch batch, ?_, ?_, records_addBatch_perm batch, ?_⟩, ?_⟩
  · intro g member
    have held := records_of_mem_addBatch member
    refine ⟨?_, held⟩
    rw [held, recordsOf_ne_nil_iff]
    exact (covers g.resource).1 (List.mem_map_of_mem member)
  · rw [recordCount_eq]
    exact (records_addBatch_perm batch).length_eq.trans (List.length_map _)
  · intro origin
    rw [filter_paired]
    by_cases present : origin ∈ origins (ofBatch batch).resourceLogs
    · obtain ⟨g, member, rfl⟩ := List.mem_map.1 present
      rw [← records_of_mem_addBatch member]
      exact filter_records_of_mem once member
    · have none : recordsOf origin batch = [] := by
        by_contra some
        exact present ((covers origin).2 (recordsOf_ne_nil_iff.1 some))
      rw [none]
      exact filter_records_of_not_mem present
  · rw [ofBatch, addBatch_append]
    exact addBatch_eq once later

end LogIntake.Logs
