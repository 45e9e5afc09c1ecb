import LogIntake.Operator.Builtin
import Mathlib

/-!
What parsing does to an entry. Whether an entry parses is up to its text and to where the value goes; an
entry that does not parse stays as it is or is refused as a whole, and of one that does nothing but the
target and the level is touched.
-/
namespace LogIntake

namespace Json

open Text (Bytes)

/-! ### Objects that were read -/

/-- The members of an object stand in the order of their keys, each key once. -/
def Value.Orderly (v : Value) : Prop := ∀ members, v = .object members → Members.Sorted members

theorem orderly_of_arrayItems {value : Bytes → Except Stop (Value × Bytes)} {fuel : Nat} {first : Bool}
    {read : List Value} {input rest : Bytes} {v : Value}
    (h : arrayItems value fuel first read input = .ok (v, rest)) : v.Orderly := by
  induction fuel generalizing first read input with
  | zero => cases h
  | succ fuel ih =>
    rw [arrayItems] at h
    split at h
    · cases h
    · split at h
      · cases h
        rintro members ⟨⟩
      · split at h
        · obtain ⟨⟨w, rest⟩, -, h⟩ := bind_eq_ok_iff.1 h
          exact ih h
        · split at h
          · split at h
            · cases h
            · split at h
              · cases h
              · obtain ⟨⟨w, rest⟩, -, h⟩ := bind_eq_ok_iff.1 h
                exact ih h
          · cases h

theorem orderly_of_objectMembers {value : Bytes → Except Stop (Value × Bytes)} {fuel : Nat}
    {first : Bool} {read : List (String × Value)} {input rest : Bytes} {v : Value}
    (sorted : Members.Sorted read) (h : objectMembers value fuel first read input = .ok (v, rest)) :
    v.Orderly := by
  induction fuel generalizing first read input with
  | zero => cases h
  | succ fuel ih =>
    rw [objectMembers] at h
    split at h
    · cases h
    · split at h
      · cases h
        rintro members ⟨⟩
        exact sorted
      · split at h
        · split at h
          · obtain ⟨⟨⟨k, w⟩, rest⟩, -, h⟩ := bind_eq_ok_iff.1 h
            exact ih (Members.sorted_insert k w sorted) h
          · cases h
        · split at h
          · split at h
            · cases h
            · split at h
              · obtain ⟨⟨⟨k, w⟩, rest⟩, -, h⟩ := bind_eq_ok_iff.1 h
                exact ih (Members.sorted_insert k w sorted) h
              · split at h <;> cases h
          · cases h

theorem eq_of_word {α : Type} {a b : α} {letters input rest : Bytes}
    (h : word a letters input = .ok (b, rest)) : b = a := by
  induction letters generalizing input with
  | nil =>
    cases h
    rfl
  | cons letter letters ih =>
    cases input with
    | nil => cases h
    | cons byte input =>
      rw [word] at h
      split at h
      · exact ih h
      · cases h

/-- A value is as orderly as all that is made in its way. -/
theorem orderly_of_map {α : Type} (made : α → Value) (orderly : ∀ a, (made a).Orderly)
    {read : Except Stop (α × Bytes)} {rest : Bytes} {v : Value}
    (h : read.map (fun r => (made r.1, r.2)) = .ok (v, rest)) : v.Orderly := by
  obtain ⟨⟨a, _⟩, -, same⟩ := map_eq_ok_iff.1 h
  cases same
  exact orderly a

theorem orderly_of_scalar {b : UInt8} {input rest : Bytes} {v : Value}
    (h : scalar b input = .ok (v, rest)) : v.Orderly := by
  have null : Value.null.Orderly := by rintro members ⟨⟩
  have bool : ∀ b, (Value.bool b).Orderly := by rintro b members ⟨⟩
  have number : ∀ n, (Value.number n).Orderly := by rintro n members ⟨⟩
  have string : ∀ s, (Value.string s).Orderly := by rintro s members ⟨⟩
  rw [scalar] at h
  split at h
  · exact eq_of_word h ▸ null
  · split at h
    · exact eq_of_word h ▸ bool true
    · split at h
      · exact eq_of_word h ▸ bool false
      · split at h
        · exact orderly_of_map Value.number number h
        · split at h
          · exact orderly_of_map Value.number number h
          · split at h
            · exact orderly_of_map Value.string string h
            · cases h

theorem orderly_of_value {depth : Nat} {input rest : Bytes} {v : Value}
    (h : value depth input = .ok (v, rest)) : v.Orderly := by
  rw [value] at h
  split at h
  · cases h
  · split at h
    · split at h
      · cases h
      · exact orderly_of_arrayItems h
    · split at h
      · split at h
        · cases h
        · exact orderly_of_objectMembers .nil h
      · exact orderly_of_scalar h

theorem orderly_of_read {input : Bytes} {v : Value} (h : Value.read input = .ok v) : v.Orderly := by
  rw [Value.read] at h
  split at h
  · cases h
  · next w rest first =>
    split at h
    · cases h
      exact orderly_of_value first
    · cases h

end Json

/-! ### Whether an entry parses -/

def Location.Holds (e : Entry) (text : String) : Location → Prop
  | body => e.body = .string text
  | attributeAt key => e.attribute? key = some text

namespace JsonParser

/-- An entry parses to a value: the text at the place that is read stands for the value, which is an
object if it goes to the attributes. -/
def ParsesTo (p : JsonParser) (e : Entry) (v : Json.Value) : Prop :=
  ∃ text, p.parseFrom.Holds e text ∧ Json.Value.read (Text.encode text) = .ok v ∧
    (p.parseTo = .attributes → ∃ members, v = .object members)

def ShowsLevel (p : JsonParser) (v : Json.Value) (words : String) : Prop :=
  ∃ key, p.severityField = some key ∧ v.member? key = some (.string words)

variable {p : JsonParser} {e : Entry} {v : Json.Value}

theorem source_eq_ok_iff {text : String} : p.source e = .ok text ↔ p.parseFrom.Holds e text := by
  rw [source]
  cases p.parseFrom with
  | body =>
    show _ ↔ e.body = .string text
    cases e.body <;> simp
  | attributeAt key =>
    show _ ↔ e.attribute? key = some text
    cases held : e.attribute? key <;> simp [held]

theorem parse_eq_ok_iff : p.parse e = .ok v ↔ p.ParsesTo e v := by
  rw [parse, bind_eq_ok_iff]
  refine exists_congr fun text => and_congr source_eq_ok_iff ?_
  cases Json.Value.read (Text.encode text) with
  | error fault => simp
  | ok w =>
    cases p.parseTo with
    | body => simp
    | attributes =>
      cases w with
      | object members =>
        simp only [Except.ok.injEq, forall_const, iff_self_and]
        rintro rfl
        exact ⟨members, rfl⟩
      | _ =>
        simp only [Except.ok.injEq, forall_const, reduceCtorEq, false_iff, not_and]
        rintro rfl ⟨members, ⟨⟩⟩

theorem orderly_of_parsesTo (parses : p.ParsesTo e v) : v.Orderly := by
  obtain ⟨text, -, read, -⟩ := parses
  exact Json.orderly_of_read read

/-! ### What becomes of it -/

/-- What parsing to a value makes of an entry. -/
structure Stores (p : JsonParser) (v : Json.Value) (e e' : Entry) : Prop where
  timestamp : e'.timestamp = e.timestamp
  resource : e'.resource = e.resource
  level_kept : (∀ words, ¬ p.ShowsLevel v words) →
    e'.severity = e.severity ∧ e'.severityText = e.severityText
  level_set : ∀ words, p.ShowsLevel v words →
    e'.severity = (Severity.ofWord? words).getD .default ∧ e'.severityText = some words
  to_body : p.parseTo = .body → e'.body = v ∧ e'.attributes = e.attributes
  to_attributes : p.parseTo = .attributes → e'.body = e.body ∧ ∃ members, v = .object members ∧
    (∀ key text, (key, .string text) ∈ members → e'.attribute? key = some text) ∧
    (∀ key w, (key, w) ∈ members → w.text? = none → e'.attribute? key = some w.render) ∧
    ∀ key, (∀ w, (key, w) ∉ members) → e'.attribute? key = e.attribute? key

theorem severityWords_eq_some_iff {words : String} :
    (p.severityField.bind fun key => (v.member? key).bind Json.Value.text?) = some words ↔
      p.ShowsLevel v words := by
  have text?_eq_some_iff : ∀ w : Json.Value, w.text? = some words ↔ w = .string words := by
    intro w
    cases w <;> simp [Json.Value.text?]
  simp only [ShowsLevel, Option.bind_eq_some_iff, text?_eq_some_iff, exists_eq_right]

/-! The level is set first, then the target. -/

theorem setSeverity_eq (p : JsonParser) (v : Json.Value) (e : Entry) :
    p.setSeverity v e =
      { e with
        severity := (p.setSeverity v e).severity
        severityText := (p.setSeverity v e).severityText } := by
  rw [setSeverity]
  split <;> rfl

theorem setSeverity_of_showsLevel {words : String} (shows : p.ShowsLevel v words) (e : Entry) :
    p.setSeverity v e =
      { e with
        severity := (Severity.ofWord? words).getD .default
        severityText := some words } := by
  rw [setSeverity, severityWords_eq_some_iff.2 shows]

theorem setSeverity_of_silent (silent : ∀ words, ¬ p.ShowsLevel v words) (e : Entry) :
    p.setSeverity v e = e := by
  have nothing : (p.severityField.bind fun key => (v.member? key).bind Json.Value.text?) = none :=
    Option.eq_none_iff_forall_ne_some.2 fun words shown =>
      silent words (severityWords_eq_some_iff.1 shown)
  rw [setSeverity, nothing]

theorem store_to_body (target : p.parseTo = .body) (v : Json.Value) (e : Entry) :
    p.store v e = { e with body := v } := by
  simp only [store, target]

theorem store_to_attributes (target : p.parseTo = .attributes) (members : List (String × Json.Value))
    (e : Entry) :
    p.store (.object members) e =
      { e with
        attributes := e.attributes.insertAll (members.map fun (k, v) => (k, attributeText v)) } := by
  simp only [store, target]
  rw [← Entry.foldl_addAttribute, List.foldl_map]

/-- The attributes after the members of an object were put among them, even if one of them takes the
place of the text that was parsed. -/
theorem attribute?_store {members : List (String × Json.Value)} (sorted : Members.Sorted members)
    (target : p.parseTo = .attributes) (key : String) (e : Entry) :
    (p.store (.object members) e).attribute? key =
      ((Members.get? key members).map attributeText).or (e.attribute? key) := by
  have sorted_texts : Members.Sorted (members.map fun (k, v) => (k, attributeText v)) :=
    List.pairwise_map.2 sorted
  rw [store_to_attributes target, ← Members.get?_map]
  exact TextMap.get?_insertAll sorted_texts key e.attributes

theorem attributeText_of_text?_eq_none {w : Json.Value} (other : w.text? = none) :
    attributeText w = w.render := by
  cases w with
  | string s => cases other
  | _ => rfl

theorem store_eq (parses : p.ParsesTo e v) (e₁ : Entry) :
    p.store v e₁ =
      { e₁ with body := (p.store v e₁).body, attributes := (p.store v e₁).attributes } := by
  cases target : p.parseTo with
  | body => rw [store_to_body target]
  | attributes =>
    obtain ⟨_, -, -, isObject⟩ := parses
    obtain ⟨members, rfl⟩ := isObject target
    rw [store_to_attributes target]

theorem stores (parses : p.ParsesTo e v) : p.Stores v e (p.store v (p.setSeverity v e)) := by
  have leveled := p.setSeverity_eq v e
  have stored := store_eq parses (p.setSeverity v e)
  constructor
  case timestamp => rw [stored, leveled]
  case resource => rw [stored, leveled]
  case level_kept =>
    intro silent
    rw [stored, setSeverity_of_silent silent]
    exact ⟨rfl, rfl⟩
  case level_set =>
    intro words shows
    rw [stored, setSeverity_of_showsLevel shows]
    exact ⟨rfl, rfl⟩
  case to_body =>
    intro target
    rw [store_to_body target, leveled]
    exact ⟨rfl, rfl⟩
  case to_attributes =>
    intro target
    have orderly := orderly_of_parsesTo parses
    obtain ⟨_, -, -, isObject⟩ := parses
    obtain ⟨members, rfl⟩ := isObject target
    have sorted : Members.Sorted members := orderly members rfl
    have attributes : ∀ key,
        (p.store (.object members) (p.setSeverity (.object members) e)).attribute? key =
          ((Members.get? key members).map attributeText).or (e.attribute? key) := by
      intro key
      rw [attribute?_store sorted target, leveled]
      rfl
    refine ⟨?_, members, rfl, fun key text member => ?_, fun key w member other => ?_,
      fun key absent => ?_⟩
    · rw [store_to_attributes target, leveled]
    · rw [attributes, (Members.get?_eq_some_iff sorted).2 member]
      rfl
    · rw [attributes, (Members.get?_eq_some_iff sorted).2 member,
        ← attributeText_of_text?_eq_none other]
      rfl
    · rw [attributes, Members.get?_eq_none_iff.2 absent]
      rfl

/-- Whether an entry parses does not depend on what becomes of one that does not. If it does, it goes on
with the value in its target and perhaps with another level, and with nothing else changed; if not, it
goes on just as it is or is refused. -/
theorem parses_or_leaves (p : JsonParser) (e : Entry) :
    (∃ v e', (∀ w, p.ParsesTo e w ↔ w = v) ∧ p.Stores v e e' ∧
      ∀ policy, Operator.process e (Builtin.jsonParser { p with onError := policy }) =
        { operator := .jsonParser { p with onError := policy }, outcome := .ok (some e') }) ∨
    ∃ cause, (∀ w, ¬ p.ParsesTo e w) ∧
      Operator.process e (Builtin.jsonParser { p with onError := .send }) =
        { operator := .jsonParser { p with onError := .send }, outcome := .ok (some e) } ∧
      Operator.process e (Builtin.jsonParser { p with onError := .drop }) =
        { operator := .jsonParser { p with onError := .drop }
          outcome := .error (.invalidEntry cause) } := by
  cases parsed : p.parse e with
  | ok v =>
    refine .inl ⟨v, p.store v (p.setSeverity v e), fun w => ?_, stores (parse_eq_ok_iff.1 parsed),
      fun policy => ?_⟩
    · rw [← parse_eq_ok_iff, parsed, Except.ok.injEq, eq_comm]
    · have again : ({ p with onError := policy } : JsonParser).parse e = .ok v := parsed
      simp only [Operator.process, Builtin.apply, apply, again]
      rfl
  | error cause =>
    have again : ∀ policy, ({ p with onError := policy } : JsonParser).parse e = .error cause :=
      fun _ => parsed
    refine .inr ⟨cause, fun w parses => ?_, ?_, ?_⟩
    · cases parsed.symm.trans (parse_eq_ok_iff.2 parses)
    · simp only [Operator.process, Builtin.apply, apply, again]
    · simp only [Operator.process, Builtin.apply, apply, again]

example :
    JsonParser.apply { parseFrom := .attributeAt "raw", parseTo := .attributes }
        { attributes := .ofList [("raw", "\x7b\"raw\":[1, 2],\"user\":\"me\"\x7d")] } =
      .ok (some { attributes := .ofList [("raw", "[1,2]"), ("user", "me")] }) := by
  cbv

end JsonParser

end LogIntake
