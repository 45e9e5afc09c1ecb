import LogIntake.Proofs.Http.Addresses

/-!
What an entry says of the request that brought it. Each label has a pair of attributes of its own, and
sets both or none of them, whatever becomes of the others. What a pair says is the text that it was taken
from, and every address of the usual form gives its pair.
-/
namespace LogIntake.Http

open Text (Numeral.text)

namespace Label

/-! ### One label -/

def source : Label → RequestInfo → String
  | peer => RequestInfo.remoteAddress
  | host => RequestInfo.host
  | protocol => RequestInfo.protocol

def texts? (label : Label) (source : String) : Option (String × String) :=
  (label.split source.toList).toOption.map fun (first, second) =>
    (String.ofList first, String.ofList second)

def both : Option (String × String) → Option String × Option String
  | some (first, second) => (some first, some second)
  | none => (none, none)

theorem both_eq_some_iff {texts : Option (String × String)} {first second : String} :
    both texts = (some first, some second) ↔ texts = some (first, second) := by
  cases texts <;> simp [both, Prod.ext_iff]

def pair (label : Label) (e : Entry) : Option String × Option String :=
  (e.attribute? label.keys.1, e.attribute? label.keys.2)

theorem texts?_eq_some_iff {label : Label} {source first second : String} :
    label.texts? source = some (first, second) ↔
      label.split source.toList = .ok (first.toList, second.toList) := by
  rw [texts?]
  cases label.split source.toList with
  | error fault => simp [Except.toOption]
  | ok parts =>
    simp only [Except.toOption, Option.map_some, Option.some.injEq, Except.ok.injEq, Prod.ext_iff,
      ← String.toList_inj, String.toList_ofList]

theorem tryAdd_eq (label : Label) (source : String) (e : Entry) :
    label.tryAdd source e =
      match label.texts? source with
      | some (first, second) =>
        (e.addAttribute label.keys.1 first).addAttribute label.keys.2 second
      | none => e := by
  rw [tryAdd, add, texts?]
  cases label.split source.toList with
  | error fault => rfl
  | ok parts => rfl

theorem exists_tryAdd_eq (label : Label) (source : String) (e : Entry) :
    ∃ attributes, label.tryAdd source e = { e with attributes } := by
  rw [tryAdd_eq]
  split
  · exact ⟨_, rfl⟩
  · exact ⟨_, rfl⟩

theorem attribute?_tryAdd_of_ne {label : Label} {key : String} (first : key ≠ label.keys.1)
    (second : key ≠ label.keys.2) (source : String) (e : Entry) :
    (label.tryAdd source e).attribute? key = e.attribute? key := by
  rw [tryAdd_eq]
  split
  · rw [Entry.attribute?_addAttribute_of_ne second, Entry.attribute?_addAttribute_of_ne first]
  · rfl

theorem keys_ne {label other : Label} (h : other ≠ label) :
    other.keys.1 ≠ label.keys.1 ∧ other.keys.1 ≠ label.keys.2 ∧
      other.keys.2 ≠ label.keys.1 ∧ other.keys.2 ≠ label.keys.2 := by
  revert h
  cases label <;> cases other <;> decide

theorem pair_tryAdd_of_ne {label other : Label} (h : other ≠ label) (source : String) (e : Entry) :
    other.pair (label.tryAdd source e) = other.pair e := by
  obtain ⟨firstFirst, firstSecond, secondFirst, secondSecond⟩ := keys_ne h
  rw [pair, attribute?_tryAdd_of_ne firstFirst firstSecond,
    attribute?_tryAdd_of_ne secondFirst secondSecond, pair]

theorem pair_tryAdd_self (label : Label) (source : String) {e : Entry}
    (unset : label.pair e = (none, none)) :
    label.pair (label.tryAdd source e) = both (label.texts? source) := by
  have differ : label.keys.1 ≠ label.keys.2 := by cases label <;> decide
  rw [tryAdd_eq]
  cases label.texts? source with
  | none => exact unset
  | some texts =>
    rw [pair, Entry.attribute?_addAttribute, Entry.attribute?_addAttribute_of_ne differ,
      Entry.attribute?_addAttribute]
    rfl

/-! ### The labels of an entry -/

theorem pair_entryOf (label : Label) (payload : List (String × Json.Value)) (info : RequestInfo) :
    label.pair (entryOf payload info) = both (label.texts? (label.source info)) := by
  have unset : label.pair ({ body := .object payload } : Entry) = (none, none) := rfl
  unfold entryOf
  cases label with
  | peer =>
    rw [pair_tryAdd_of_ne (by decide), pair_tryAdd_of_ne (by decide), pair_tryAdd_self _ _ unset]
    rfl
  | host =>
    rw [pair_tryAdd_of_ne (by decide), pair_tryAdd_self _ _ (by rwa [pair_tryAdd_of_ne (by decide)])]
    rfl
  | protocol =>
    rw [pair_tryAdd_self _ _ (by rwa [pair_tryAdd_of_ne (by decide), pair_tryAdd_of_ne (by decide)])]
    rfl

theorem attribute?_entryOf_of_ne {key : String}
    (other : ∀ label : Label, key ≠ label.keys.1 ∧ key ≠ label.keys.2)
    (payload : List (String × Json.Value)) (info : RequestInfo) :
    (entryOf payload info).attribute? key = none := by
  unfold entryOf
  rw [attribute?_tryAdd_of_ne (other protocol).1 (other protocol).2,
    attribute?_tryAdd_of_ne (other host).1 (other host).2,
    attribute?_tryAdd_of_ne (other peer).1 (other peer).2]
  rfl

theorem exists_entryOf_eq (payload : List (String × Json.Value)) (info : RequestInfo) :
    ∃ attributes, entryOf payload info = { body := .object payload, attributes } := by
  let bare : Entry := { body := .object payload }
  obtain ⟨withPeer, peered⟩ := exists_tryAdd_eq peer info.remoteAddress bare
  obtain ⟨withHost, hosted⟩ := exists_tryAdd_eq host info.host { bare with attributes := withPeer }
  obtain ⟨withAll, all⟩ :=
    exists_tryAdd_eq protocol info.protocol { bare with attributes := withHost }
  exact ⟨withAll, by rw [entryOf, peered, hosted, all]⟩

end Label

/-! ### What addresses and protocols show -/

structure ShowsAddress (source : String) (pair : Option String × Option String) : Prop where
  /-- The pair gives the text of the address back. -/
  rebuilds : ∀ ip port, pair = (some ip, some port) →
    source = ip ++ ":" ++ port ∨ source = "[" ++ ip ++ "]:" ++ port
  plain : ∀ host n, host ≠ "" → ':' ∉ host.toList → host.toList.head? ≠ some '[' → n ≤ 65535 →
    source = host ++ ":" ++ Numeral.text n → pair = (some host, some (Numeral.text n))
  bracketed : ∀ host n, host ≠ "" → ']' ∉ host.toList → n ≤ 65535 →
    source = "[" ++ host ++ "]:" ++ Numeral.text n → pair = (some host, some (Numeral.text n))

/-- A pair of attributes is that of a protocol: a name, which ends at the first slash, and a version. -/
def ShowsProtocol (source : String) (pair : Option String × Option String) : Prop :=
  ∀ name version, pair = (some name, some version) ↔
    source = name ++ "/" ++ version ∧ '/' ∉ name.toList ∧ name ≠ "" ∧ IsVersion version.toList

namespace Label

theorem texts?_address_eq_some_iff {label : Label} (address : label.split = splitHostPort)
    {source host port : String} :
    label.texts? source = some (host, port) ↔
      IsAddress host.toList port.toList source.toList ∧ host ≠ "" ∧ IsSignedPort port.toList := by
  rw [texts?_eq_some_iff, address, splitHostPort_eq_ok_iff, ne_eq, String.toList_eq_nil_iff]

theorem isSignedPort_text {n : Nat} (small : n ≤ 65535) : IsSignedPort (Numeral.text n).toList := by
  rw [Numeral.text, String.toList_ofList]
  exact ⟨_, .inl rfl, isPort_digits small⟩

theorem attribute?_second_eq_some_iff {label : Label} {payload : List (String × Json.Value)}
    {info : RequestInfo} {port : String} :
    (entryOf payload info).attribute? label.keys.2 = some port ↔
      ∃ ip, label.texts? (label.source info) = some (ip, port) := by
  have second : (entryOf payload info).attribute? label.keys.2 =
      (both (label.texts? (label.source info))).2 := by
    rw [← pair_entryOf label payload info, pair]
  rw [second]
  cases label.texts? (label.source info) with
  | none => simp [both]
  | some texts => simp [both, Prod.ext_iff]

theorem portShown_iff {label : Label} (address : label.split = splitHostPort)
    (payload : List (String × Json.Value)) (info : RequestInfo) :
    (∀ port, (entryOf payload info).attribute? label.keys.2 = some port → IsPort port.toList) ↔
      ¬ HasSignedPort (label.source info).toList := by
  simp only [attribute?_second_eq_some_iff, texts?_address_eq_some_iff address]
  constructor
  · rintro digits ⟨host, ds, parts, given, port⟩
    have shown := digits (String.ofList ('+' :: ds)) ⟨String.ofList host, by simpa using parts,
      by simpa using given, ds, .inr (by simp), port⟩
    rw [String.toList_ofList] at shown
    exact not_isPort_signed ds shown
  · rintro unsigned port ⟨ip, parts, given, signed⟩
    exact signed.isPort parts (by simpa using given) unsigned

theorem both_texts?_of_isAddress {label : Label} (address : label.split = splitHostPort)
    {source host : String} {n : Nat}
    (parts : IsAddress host.toList (Numeral.text n).toList source.toList) (given : host ≠ "")
    (small : n ≤ 65535) :
    both (label.texts? source) = (some host, some (Numeral.text n)) := by
  rw [both_eq_some_iff, texts?_address_eq_some_iff address]
  exact ⟨parts, given, isSignedPort_text small⟩

theorem showsAddress_texts? {label : Label} (address : label.split = splitHostPort)
    (source : String) : ShowsAddress source (both (label.texts? source)) := by
  constructor
  case rebuilds =>
    intro ip port same
    have parts := ((texts?_address_eq_some_iff address).1 (both_eq_some_iff.1 same)).1
    generalize whole : source.toList = address at parts
    cases parts with
    | plain =>
      left
      apply String.toList_inj.1
      simp [whole]
    | bracketed =>
      right
      apply String.toList_inj.1
      simp [whole]
  case plain =>
    rintro host n given fresh bare small rfl
    have whole : (host ++ ":" ++ Numeral.text n).toList =
        host.toList ++ ':' :: (Numeral.text n).toList := by simp
    apply both_texts?_of_isAddress address ?_ given small
    rw [whole]
    exact .plain bare fresh
  case bracketed =>
    rintro host n given fresh small rfl
    have whole : ("[" ++ host ++ "]:" ++ Numeral.text n).toList =
        '[' :: (host.toList ++ ']' :: ':' :: (Numeral.text n).toList) := by simp
    apply both_texts?_of_isAddress address ?_ given small
    rw [whole]
    exact .bracketed fresh

theorem texts?_protocol_eq_some_iff {source name version : String} :
    protocol.texts? source = some (name, version) ↔
      source = name ++ "/" ++ version ∧ '/' ∉ name.toList ∧ name ≠ "" ∧
        IsVersion version.toList := by
  have whole : source.toList = name.toList ++ '/' :: version.toList ↔
      source = name ++ "/" ++ version := by simp [← String.toList_inj]
  rw [texts?_eq_some_iff, ← whole, ne_eq, ← String.toList_eq_nil_iff]
  exact splitProtocol_eq_ok_iff

theorem showsProtocol_texts? (source : String) :
    ShowsProtocol source (both (protocol.texts? source)) := by
  intro name version
  rw [both_eq_some_iff]
  exact texts?_protocol_eq_some_iff

end Label

/-! ### What requests are labelled with -/

def labelKeys : List String :=
  ["net.peer.ip", "net.peer.port", "net.host.ip", "net.host.port", "protocol", "protocol_version"]

theorem mem_labelKeys (label : Label) : label.keys.1 ∈ labelKeys ∧ label.keys.2 ∈ labelKeys := by
  cases label <;> decide

theorem mem_labelKeys_of_attribute? {payload : List (String × Json.Value)} {info : RequestInfo}
    {key value : String} (set : (entryOf payload info).attribute? key = some value) :
    key ∈ labelKeys := by
  by_contra unlisted
  have other : ∀ label : Label, key ≠ label.keys.1 ∧ key ≠ label.keys.2 := by
    refine fun label => ⟨?_, ?_⟩
    · rintro rfl
      exact unlisted (mem_labelKeys label).1
    · rintro rfl
      exact unlisted (mem_labelKeys label).2
  rw [Label.attribute?_entryOf_of_ne other] at set
  cases set

theorem parse_eq_ok_iff {payload : List (String × Json.Value)} {info : RequestInfo} {e : Entry} :
    parse (some payload) (some info) = .ok e ↔ e = entryOf payload info := by
  simp [parse, eq_comm]

/-- What is taken apart as an address, and what an entry says of its port: the address is a host and a row
of digits, and digits are what the entry says, just if there is no plus sign before them. -/
theorem hostPort_of_digits_iff (address : List Char) (payload : List (String × Json.Value))
    (info : RequestInfo) :
    (∀ host port, splitHostPort address = .ok (host, port) ↔
      IsAddress host port address ∧ host ≠ [] ∧ IsSignedPort port) ∧
    ((∀ host port, splitHostPort address = .ok (host, port) ↔
      IsAddress host port address ∧ host ≠ [] ∧ IsPort port) ↔ ¬ HasSignedPort address) ∧
    ∀ e, parse (some payload) (some info) = .ok e →
      ((∀ port, e.attribute? "net.peer.port" = some port → IsPort port.toList) ↔
        ¬ HasSignedPort info.remoteAddress.toList) ∧
      ((∀ port, e.attribute? "net.host.port" = some port → IsPort port.toList) ↔
        ¬ HasSignedPort info.host.toList) := by
  refine ⟨fun host port => splitHostPort_eq_ok_iff, split_of_digits_iff, fun e made => ?_⟩
  obtain rfl := parse_eq_ok_iff.1 made
  have peer : Label.peer.split = splitHostPort := rfl
  have host : Label.host.split = splitHostPort := rfl
  exact ⟨Label.portShown_iff peer payload info, Label.portShown_iff host payload info⟩

/-- A plus sign is taken for a part of the port. -/
theorem signed_port_is_shown :
    splitHostPort "a:+80".toList = .ok ("a".toList, "+80".toList) ∧ ¬ IsPort "+80".toList ∧
      (entryOf [] ⟨"", "a:+80", ""⟩).attribute? "net.host.port" = some "+80" :=
  ⟨by rfl, not_isPort_signed _, by rfl⟩

/-- An entry says what its request lets it say: each pair as a whole or not at all, each whatever becomes
of the others, and what it says is what it was taken from. -/
theorem parse_labels (payload : List (String × Json.Value)) (info : RequestInfo) :
    ∃ e, parse (some payload) (some info) = .ok e ∧
      e.body = .object payload ∧ e.resource = .empty ∧ e.severity = .default ∧
      e.severityText = none ∧
      (∀ key value, e.attribute? key = some value → key ∈ labelKeys) ∧
      (∀ label : Label,
        (label.pair e = (none, none) ∨
          ∃ first second, label.pair e = (some first, some second)) ∧
        ∀ otherPayload otherInfo other, parse (some otherPayload) (some otherInfo) = .ok other →
          label.source otherInfo = label.source info → label.pair other = label.pair e) ∧
      ShowsAddress info.remoteAddress (Label.peer.pair e) ∧
      ShowsAddress info.host (Label.host.pair e) ∧
      ShowsProtocol info.protocol (Label.protocol.pair e) := by
  obtain ⟨attributes, same⟩ := Label.exists_entryOf_eq payload info
  refine ⟨entryOf payload info, rfl, by rw [same], by rw [same], by rw [same], by rw [same],
    fun _ _ => mem_labelKeys_of_attribute?, ?_, ?_, ?_, ?_⟩
  · intro label
    rw [Label.pair_entryOf]
    refine ⟨?_, ?_⟩
    · cases label.texts? (label.source info) with
      | none => exact .inl rfl
      | some texts => exact .inr ⟨texts.1, texts.2, rfl⟩
    · intro otherPayload otherInfo other made agree
      rw [parse_eq_ok_iff.1 made, Label.pair_entryOf, agree]
  · rw [Label.pair_entryOf]
    exact Label.showsAddress_texts? rfl info.remoteAddress
  · rw [Label.pair_entryOf]
    exact Label.showsAddress_texts? rfl info.host
  · rw [Label.pair_entryOf]
    exact Label.showsProtocol_texts? info.protocol

end LogIntake.Http
