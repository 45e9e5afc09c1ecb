import LogIntake.Proofs.Expansion.Parameters
import LogIntake.Template.Set
import Mathlib

/-!
What is loaded from a directory. Only the files that hold templates count, and neither the order in which
they are listed nor what stands beside them does: of several files that declare a name the last one in
byte order gives its template, and of several invalid ones the first is told.
-/
namespace LogIntake

open Text (Bytes)

namespace TextMap

variable {α : Type} {m n : TextMap α}

theorem get?_eq_some_iff {key : String} {value : α} :
    m.get? key = some value ↔ (key, value) ∈ m.members := Members.get?_eq_some_iff m.sorted

theorem ext_get? (same : ∀ key, m.get? key = n.get? key) : m = n := by
  have irrefl : Std.Irrefl fun a b : String × α => a.1 < b.1 := ⟨fun a => String.lt_irrefl a.1⟩
  have asymm : Std.Asymm fun a b : String × α => a.1 < b.1 := ⟨fun a b => String.lt_asymm⟩
  have members : m.members = n.members := by
    refine List.Pairwise.eq_of_mem_iff m.sorted n.sorted fun (key, value) => ?_
    rw [← get?_eq_some_iff, ← get?_eq_some_iff, same]
  cases m
  cases n
  cases members
  rfl

end TextMap

namespace TemplateSet

variable {directory : String} {entries others : List (Bytes × FileTree)}

/-! ### The files that count -/

/-- A regular file of the directory whose name has the ending of template files. -/
def Holds (entries : List (Bytes × FileTree)) (name content : Bytes) : Prop :=
  (name, .file content) ∈ entries ∧ (FileTree.stemAndEnding name).2 = some ending

/-- Each name stands for one entry. -/
def Distinct (entries : List (Bytes × FileTree)) : Prop := (entries.map Prod.fst).Nodup

theorem mem_templateFiles {name content : Bytes} :
    (name, content) ∈ templateFiles entries ↔ Holds entries name content := by
  simp only [templateFiles, List.mem_filterMap, Holds]
  constructor
  · rintro ⟨⟨other, tree⟩, listed, taken⟩
    cases tree with
    | file bytes =>
      simp only [Option.ite_none_right_eq_some, Option.some.injEq, Prod.mk.injEq] at taken
      obtain ⟨ended, rfl, rfl⟩ := taken
      exact ⟨listed, ended⟩
    | directory inner => cases taken
  · rintro ⟨listed, ended⟩
    exact ⟨_, listed, by simp [ended]⟩

theorem nodup_templateFiles (distinct : Distinct entries) :
    ((templateFiles entries).map Prod.fst).Nodup := by
  refine distinct.sublist ?_
  induction entries with
  | nil => exact .slnil
  | cons entry rest ih =>
    obtain ⟨name, tree⟩ := entry
    have behind := ih (List.nodup_cons.1 distinct).2
    cases tree with
    | file bytes =>
      by_cases ended : (FileTree.stemAndEnding name).2 = some ending
      · simpa [templateFiles, ended] using behind
      · simpa [templateFiles, ended] using behind.trans (List.sublist_cons_self _ _)
    | directory inner => simpa [templateFiles] using behind.trans (List.sublist_cons_self _ _)

def sortedFiles (entries : List (Bytes × FileTree)) : List (Bytes × Bytes) :=
  (templateFiles entries).mergeSort fun a b => decide (a.1 ≤ b.1)

theorem mem_sortedFiles {name content : Bytes} :
    (name, content) ∈ sortedFiles entries ↔ Holds entries name content := by
  rw [sortedFiles, List.mem_mergeSort, mem_templateFiles]

def Ascending (files : List (Bytes × Bytes)) : Prop := files.Pairwise fun a b => a.1 < b.1

theorem ascending_sortedFiles (distinct : Distinct entries) : Ascending (sortedFiles entries) := by
  have ordered : (sortedFiles entries).Pairwise fun a b => decide (a.1 ≤ b.1) = true := by
    refine List.pairwise_mergeSort (fun a b c first second => ?_) (fun a b => ?_) _
    · simp only [decide_eq_true_eq] at first second ⊢
      exact List.le_trans first second
    · simpa using List.le_total a.1 b.1
  have once : (sortedFiles entries).Pairwise fun a b => a.1 ≠ b.1 := by
    have names : ((sortedFiles entries).map Prod.fst).Nodup :=
      ((List.mergeSort_perm _ _).map Prod.fst).nodup_iff.2 (nodup_templateFiles distinct)
    exact List.pairwise_map.1 names
  refine (ordered.and once).imp fun {a b} both => ?_
  exact Std.lt_of_le_of_ne (of_decide_eq_true both.1) both.2

theorem sortedFiles_congr (distinct : Distinct entries) (distinct' : Distinct others)
    (same : ∀ name content, Holds others name content ↔ Holds entries name content) :
    sortedFiles others = sortedFiles entries := by
  have irrefl : Std.Irrefl fun a b : Bytes × Bytes => a.1 < b.1 := ⟨fun a => List.lt_irrefl a.1⟩
  have asymm : Std.Asymm fun a b : Bytes × Bytes => a.1 < b.1 := ⟨fun a b => List.lt_asymm⟩
  have ordered : Ascending (sortedFiles others) := ascending_sortedFiles distinct'
  refine List.Pairwise.eq_of_mem_iff ordered (ascending_sortedFiles distinct) fun (name, content) => ?_
  rw [mem_sortedFiles, mem_sortedFiles, same]

/-! ### What a file says -/

def stem (name : Bytes) : String := (Text.decode? (FileTree.stemAndEnding name).1).getD ""

/-- A file declares the name that it says for its template, or else its own up to the ending. -/
def Declares (name content : Bytes) (key : String) : Prop :=
  ∃ text file, Text.decode? content = some text ∧ Template.Source.read text = .ok file ∧
    file.name.getD (stem name) = key

def Valid (directory : String) (name content : Bytes) : Prop :=
  ∃ t, ofFile directory name content = .ok t

theorem declares_iff {name content : Bytes} {t : Template}
    (made : ofFile directory name content = .ok t) (key : String) :
    Declares name content key ↔ t.name = key := by
  simp only [ofFile, mapError_eq_ok_iff] at made
  split at made
  · cases made
  · next text said =>
    obtain ⟨file, read, makes⟩ := Template.exists_makes_of_parse made
    rw [makes.name]
    constructor
    · rintro ⟨text', file', said', read', rfl⟩
      obtain rfl := Option.some.inj (said.symm.trans said')
      obtain rfl := Except.ok.inj (read.symm.trans read')
      rfl
    · exact fun same => ⟨text, file, said, read, same⟩

theorem ofFile_eq_error {name content : Bytes} {e : LoadError}
    (failed : ofFile directory name content = .error e) :
    ∃ cause, e = .invalidFile (FileTree.childPath directory (Text.decodeLossy name)) cause := by
  obtain ⟨cause, -, rfl⟩ := mapError_eq_error_iff.1 failed
  exact ⟨cause, rfl⟩

/-! ### One file after another -/

/-- Of the files that declare the name, the one with the greatest name of its own holds the template. -/
def Latest (directory : String) (files : Bytes → Bytes → Prop) (key : String) (t : Template) : Prop :=
  ∃ name content, files name content ∧ Declares name content key ∧
    ofFile directory name content = .ok t ∧
    ∀ later other, files later other → Declares later other key → later ≤ name

/-- The file with the least name of those with a fault has this one. -/
def FirstFault (directory : String) (files : Bytes → Bytes → Prop) (e : LoadError) : Prop :=
  ∃ name content, files name content ∧ ofFile directory name content = .error e ∧
    ∀ smaller other, files smaller other → smaller < name → Valid directory smaller other

section Rows

variable {name content : Bytes} {files : List (Bytes × Bytes)} {s s' : TemplateSet} {t : Template}

theorem latest_cons_iff (before : ∀ f ∈ files, name < f.1) (key : String) :
    Latest directory (fun n c => (n, c) ∈ (name, content) :: files) key t ↔
      Latest directory (fun n c => (n, c) ∈ files) key t ∨
        Declares name content key ∧ ofFile directory name content = .ok t ∧
          ∀ n c, (n, c) ∈ files → ¬ Declares n c key := by
  constructor
  · rintro ⟨n, c, listed, declares, made, greatest⟩
    rcases List.mem_cons.1 listed with first | behind
    · obtain ⟨rfl, rfl⟩ := Prod.mk.inj first
      refine .inr ⟨declares, made, fun later other listed' declares' => ?_⟩
      have le := greatest later other (List.mem_cons_of_mem _ listed') declares'
      exact List.not_lt.2 le (before _ listed')
    · refine .inl ⟨n, c, behind, declares, made, fun later other listed' => ?_⟩
      exact greatest later other (List.mem_cons_of_mem _ listed')
  · rintro (⟨n, c, behind, declares, made, greatest⟩ | ⟨declares, made, last⟩)
    · refine ⟨n, c, List.mem_cons_of_mem _ behind, declares, made, fun later other listed' => ?_⟩
      rcases List.mem_cons.1 listed' with first | behind'
      · obtain ⟨rfl, rfl⟩ := Prod.mk.inj first
        exact fun _ => List.le_of_lt (before _ behind)
      · exact greatest later other behind'
    · refine ⟨name, content, List.mem_cons_self, declares, made, fun later other listed' => ?_⟩
      rcases List.mem_cons.1 listed' with first | behind'
      · obtain ⟨rfl, rfl⟩ := Prod.mk.inj first
        exact fun _ => List.le_refl _
      · exact fun declares' => absurd declares' (last later other behind')

theorem addFiles_cons (made : ofFile directory name content = .ok t) :
    addFiles directory ((name, content) :: files) s = addFiles directory files (add t s) := by
  simp only [addFiles, made]

/-- A set with files added has the template of the last one that declares a name, and what it had before
under the names that none declares. -/
theorem get?_addFiles (ascending : Ascending files)
    (loaded : addFiles directory files s = .ok s') (key : String) :
    s'.get? key = some t ↔
      Latest directory (fun n c => (n, c) ∈ files) key t ∨
        (∀ n c, (n, c) ∈ files → ¬ Declares n c key) ∧ s.get? key = some t := by
  induction files generalizing s with
  | nil =>
    cases loaded
    simp [Latest]
  | cons f files ih =>
    obtain ⟨name, content⟩ := f
    obtain ⟨before, behind⟩ := List.pairwise_cons.1 ascending
    cases made : ofFile directory name content with
    | error e => simp [addFiles, made] at loaded
    | ok u =>
      rw [addFiles_cons made] at loaded
      rw [ih behind loaded, latest_cons_iff before, declares_iff made, made, or_assoc]
      refine or_congr_right ?_
      by_cases own : u.name = key
      · subst own
        have declares : Declares name content u.name := (declares_iff made _).2 rfl
        simp only [add, TextMap.get?_insert_self, true_and, Except.ok.injEq, Option.some.injEq]
        constructor
        · exact fun ⟨last, same⟩ => .inl ⟨same, last⟩
        · rintro (⟨same, last⟩ | ⟨unsaid, -⟩)
          · exact ⟨last, same⟩
          · exact absurd declares (unsaid _ _ List.mem_cons_self)
      · have undeclared : ¬ Declares name content key := fun d => own ((declares_iff made _).1 d)
        rw [add, TextMap.get?_insert_of_ne (Ne.symm own)]
        simp only [own, false_and, false_or, List.mem_cons, Prod.mk.injEq]
        refine and_congr_left fun _ => ⟨fun unsaid n c listed => ?_, fun unsaid n c listed => ?_⟩
        · rcases listed with ⟨rfl, rfl⟩ | listed
          · exact undeclared
          · exact unsaid n c listed
        · exact unsaid n c (.inr listed)

theorem addFiles_eq_error_iff (ascending : Ascending files) {e : LoadError} :
    addFiles directory files s = .error e ↔
      FirstFault directory (fun n c => (n, c) ∈ files) e := by
  induction files generalizing s with
  | nil => simp [addFiles, FirstFault]
  | cons f files ih =>
    obtain ⟨name, content⟩ := f
    obtain ⟨before, behind⟩ := List.pairwise_cons.1 ascending
    cases made : ofFile directory name content with
    | error e' =>
      simp only [addFiles, made, Except.error.injEq]
      constructor
      · rintro rfl
        refine ⟨name, content, List.mem_cons_self, made, fun smaller other listed less => ?_⟩
        rcases List.mem_cons.1 listed with first | later
        · obtain ⟨rfl, rfl⟩ := Prod.mk.inj first
          exact absurd less (List.lt_irrefl _)
        · exact absurd less (List.lt_asymm (before _ later))
      · rintro ⟨n, c, listed, failed, least⟩
        rcases List.mem_cons.1 listed with first | later
        · obtain ⟨rfl, rfl⟩ := Prod.mk.inj first
          exact Except.error.inj (made.symm.trans failed)
        · obtain ⟨t, valid⟩ := least name content List.mem_cons_self (before _ later)
          cases made.symm.trans valid
    | ok u =>
      rw [addFiles_cons made, ih behind]
      constructor
      · rintro ⟨n, c, listed, failed, least⟩
        refine ⟨n, c, List.mem_cons_of_mem _ listed, failed, fun smaller other listed' less => ?_⟩
        rcases List.mem_cons.1 listed' with first | later
        · obtain ⟨rfl, rfl⟩ := Prod.mk.inj first
          exact ⟨u, made⟩
        · exact least smaller other later less
      · rintro ⟨n, c, listed, failed, least⟩
        rcases List.mem_cons.1 listed with first | later
        · obtain ⟨rfl, rfl⟩ := Prod.mk.inj first
          cases made.symm.trans failed
        · exact ⟨n, c, later, failed, fun smaller other listed' =>
            least smaller other (List.mem_cons_of_mem _ listed')⟩

theorem exists_addFiles_iff :
    (∃ s', addFiles directory files s = .ok s') ↔ ∀ n c, (n, c) ∈ files → Valid directory n c := by
  simp only [← Prod.forall (p := fun f => f ∈ files → Valid directory f.1 f.2)]
  induction files generalizing s with
  | nil => simp [addFiles]
  | cons f files ih =>
    obtain ⟨name, content⟩ := f
    rw [List.forall_mem_cons]
    cases made : ofFile directory name content with
    | error e => simp [addFiles, made, Valid]
    | ok t =>
      rw [addFiles_cons made, ih]
      exact (and_iff_right ⟨t, made⟩).symm

end Rows

/-! ### A directory -/

theorem files_eq_holds (entries : List (Bytes × FileTree)) :
    (fun n c => (n, c) ∈ sortedFiles entries) = Holds entries := by
  funext n c
  exact propext mem_sortedFiles

theorem load_eq_ok_iff (distinct : Distinct entries) {s : TemplateSet} :
    load directory (.ok (.directory entries)) = .ok s ↔
      (∀ name content, Holds entries name content → Valid directory name content) ∧
        ∀ key t, s.get? key = some t ↔ Latest directory (Holds entries) key t := by
  have ascending := ascending_sortedFiles distinct
  have answers : ∀ {s : TemplateSet}, addFiles directory (sortedFiles entries) .empty = .ok s →
      ∀ key t, s.get? key = some t ↔ Latest directory (Holds entries) key t := by
    intro s loaded key t
    have none : (TextMap.empty : TemplateSet).get? key ≠ some t := nofun
    rw [get?_addFiles ascending loaded, files_eq_holds, or_iff_left fun bare => none bare.2]
  have valid_iff : (∃ s, addFiles directory (sortedFiles entries) .empty = .ok s) ↔
      ∀ n c, Holds entries n c → Valid directory n c := by
    simp only [exists_addFiles_iff, mem_sortedFiles]
  constructor
  · intro loaded
    exact ⟨valid_iff.1 ⟨s, loaded⟩, answers loaded⟩
  · rintro ⟨valid, answers'⟩
    obtain ⟨s', loaded⟩ := valid_iff.2 valid
    have same : s = s' := TextMap.ext_get? fun key => Option.ext fun t => by
      rw [answers' key t, answers loaded key t]
    rw [same]
    exact loaded

theorem load_eq_error_iff (distinct : Distinct entries) {e : LoadError} :
    load directory (.ok (.directory entries)) = .error e ↔
      FirstFault directory (Holds entries) e := by
  rw [← files_eq_holds]
  exact addFiles_eq_error_iff (ascending_sortedFiles distinct)

/-- A directory loads to the same whatever the order in which it is listed and whatever there is beside
the files that hold templates. If none of these has a fault, each name has the template of the greatest
file that declares it; else the fault is that of the least file with one, told with its path, whatever
the other files hold. -/
theorem listing_does_not_matter (directory : String) {entries : List (Bytes × FileTree)}
    (distinct : Distinct entries) :
    (∀ others, entries.Perm others →
      load directory (.ok (.directory others)) = load directory (.ok (.directory entries))) ∧
    (∀ others, Distinct others →
      (∀ name content, Holds others name content ↔ Holds entries name content) →
        load directory (.ok (.directory others)) = load directory (.ok (.directory entries))) ∧
    (∀ s, load directory (.ok (.directory entries)) = .ok s ↔
      (∀ name content, Holds entries name content → ∃ t, ofFile directory name content = .ok t) ∧
      ∀ key t, s.get? key = some t ↔
        ∃ name content, Holds entries name content ∧ Declares name content key ∧
          ofFile directory name content = .ok t ∧
          ∀ later other, Holds entries later other → Declares later other key → later ≤ name) ∧
    ∀ e, load directory (.ok (.directory entries)) = .error e ↔
      ∃ name content cause, Holds entries name content ∧
        ofFile directory name content = .error e ∧
        e = .invalidFile (FileTree.childPath directory (Text.decodeLossy name)) cause ∧
        ∀ smaller other, Holds entries smaller other → smaller < name →
          ∃ t, ofFile directory smaller other = .ok t := by
  have same : ∀ others, Distinct others →
      (∀ name content, Holds others name content ↔ Holds entries name content) →
        load directory (.ok (.directory others)) = load directory (.ok (.directory entries)) := by
    intro others distinct' held
    have files := sortedFiles_congr distinct distinct' held
    exact congrArg (fun files => addFiles directory files .empty) files
  refine ⟨fun others perm => ?_, same, fun s => load_eq_ok_iff distinct, fun e => ?_⟩
  · have distinct' : Distinct others := (perm.map Prod.fst).nodup_iff.1 distinct
    exact same others distinct' fun name content => and_congr_left fun _ => perm.mem_iff.symm
  · rw [load_eq_error_iff distinct]
    constructor
    · rintro ⟨name, content, held, failed, least⟩
      obtain ⟨cause, told⟩ := ofFile_eq_error failed
      exact ⟨name, content, cause, held, failed, told, least⟩
    · rintro ⟨name, content, -, held, failed, -, least⟩
      exact ⟨name, content, held, failed, least⟩

/-- A file with a fault between two others, a directory with a name like theirs and a file of another
ending. -/
def mixedListing : List (Bytes × FileTree) :=
  [(Text.encode "c.toml", .file [0xFF]), (Text.encode "b.toml", .file [0xFF]),
    (Text.encode "a.toml", .file (Text.encode "[[pipeline]]")),
    (Text.encode "0.toml", .directory []), (Text.encode "0.txt", .file [])]

theorem mixedListing_does_not_matter :
    Distinct mixedListing ∧
    load "d" (.ok (.directory mixedListing.reverse)) = load "d" (.ok (.directory mixedListing)) ∧
    load "d" (.ok (.directory mixedListing)) =
      .error (.invalidFile "d/b.toml" (.unreadable .invalidData)) := by
  have distinct : Distinct mixedListing := by
    simp [Distinct, mixedListing, Text.encode_inj]
  obtain ⟨inAnyOrder, -, -, faults⟩ := listing_does_not_matter "d" distinct
  have failed : ofFile "d" (Text.encode "b.toml") [0xFF] =
      .error (.invalidFile "d/b.toml" (.unreadable .invalidData)) := by cbv
  have path : FileTree.childPath "d" (Text.decodeLossy (Text.encode "b.toml")) = "d/b.toml" := by cbv
  have ended : (FileTree.stemAndEnding (Text.encode "b.toml")).2 = some ending := by cbv
  have other : (FileTree.stemAndEnding (Text.encode "0.txt")).2 ≠ some ending := by decide +kernel
  have behind : ¬ Text.encode "c.toml" < Text.encode "b.toml" := by decide +kernel
  refine ⟨distinct, inAnyOrder _ (List.reverse_perm _).symm, (faults _).2 ?_⟩
  refine ⟨Text.encode "b.toml", [0xFF], .unreadable .invalidData, ⟨by simp [mixedListing], ended⟩,
    failed, by rw [path], ?_⟩
  rintro smaller content ⟨listed, ending⟩ less
  simp only [mixedListing, List.mem_cons, List.not_mem_nil, or_false, Prod.mk.injEq, reduceCtorEq,
    and_false, false_or, FileTree.file.injEq] at listed
  obtain ⟨rfl, -⟩ | ⟨rfl, -⟩ | ⟨rfl, rfl⟩ | ⟨rfl, -⟩ := listed
  · exact absurd less behind
  · exact absurd less (List.lt_irrefl _)
  · exact ⟨_, by cbv⟩
  · exact absurd ending other

end TemplateSet

end LogIntake
