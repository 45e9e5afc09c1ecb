import LogIntake.Failure
import LogIntake.Http.Auth
import Mathlib

/-!
Who is let in. A request shows one of the tokens under the name of their header, or the user name and the
password in base 64 in its first `authorization` header. The latter is read apart at its first colon, so
it tells a name from a password only if the name has no colon: a user with a colon in the name is never
let in, whatever the request says.
-/
namespace LogIntake.Http

open Text (Bytes)

/-! ### The same bytes -/

theorem foldl_differing_eq_zero_iff (pairs : List (UInt8 × UInt8)) (differing : UInt8) :
    pairs.foldl (fun differing (x, y) => differing ||| (x ^^^ y)) differing = 0 ↔
      differing = 0 ∧ ∀ pair ∈ pairs, pair.1 = pair.2 := by
  induction pairs generalizing differing with
  | nil => simp
  | cons pair rest ih =>
    rw [List.foldl_cons, ih, UInt8.or_eq_zero_iff, UInt8.xor_eq_zero_iff]
    simp [and_assoc]

theorem sameBytes_iff {a b : Bytes} : Auth.sameBytes a b = true ↔ a = b := by
  rw [Auth.sameBytes]
  split
  · next lengths =>
    have other : a ≠ b := fun same => lengths (congrArg List.length same)
    simp [other]
  · next lengths =>
    rw [not_not] at lengths
    rw [beq_iff_eq, foldl_differing_eq_zero_iff, ← List.forall₂_eq_eq_eq, List.forall₂_iff_zip]
    simp only [lengths, true_and, Prod.forall]

/-! ### Headers -/

namespace Headers

/-- The value of the first header of a name, among headers whose names are written in any case. -/
def IsFirst (name : String) (value : Bytes) (fields : List (String × Bytes)) : Prop :=
  ∃ before written behind, fields = before ++ (written, value) :: behind ∧
    lowerCase written = name ∧ ∀ other ∈ before, lowerCase other.1 ≠ name

theorem first?_ofList_eq_some_iff {name : String} {value : Bytes} {fields : List (String × Bytes)} :
    first? name (ofList fields) = some value ↔ IsFirst name value fields := by
  rw [first?, all, List.head?_filterMap, ofList, List.findSome?_map, List.findSome?_eq_some_iff]
  constructor
  · rintro ⟨before, ⟨written, v⟩, behind, split, here, absent⟩
    simp only [Function.comp_apply, Option.ite_none_right_eq_some, Option.some.injEq] at here
    obtain ⟨named, rfl⟩ := here
    refine ⟨before, written, behind, split, named, fun other inside named => ?_⟩
    simpa [named] using absent other inside
  · rintro ⟨before, written, behind, split, named, absent⟩
    refine ⟨before, (written, value), behind, split, by simp [named], fun other inside => ?_⟩
    simp [absent other inside]

theorem mem_all_ofList {name : String} {value : Bytes} {fields : List (String × Bytes)} :
    value ∈ all name (ofList fields) ↔ ∃ field ∈ fields, lowerCase field.1 = name ∧ field.2 = value := by
  simp [all, ofList]

/-- A character that the text of a header value may hold. -/
def IsShown (c : Char) : Prop := c = '\t' ∨ 0x20 ≤ c.toNat ∧ c.toNat < 0x7F

theorem IsShown.ascii {c : Char} (h : IsShown c) : c.toNat < 0x80 := by
  rcases h with rfl | h
  · decide
  · omega

theorem IsShown.toNat_byte {c : Char} (h : IsShown c) : (UInt8.ofNat c.toNat).toNat = c.toNat := by
  have ascii := h.ascii
  rw [UInt8.toNat_ofNat', Nat.mod_eq_of_lt (by omega)]

theorem toNat_ofNat_of_ascii {n : Nat} (ascii : n < 0x80) : (Char.ofNat n).toNat = n := by
  rw [Char.toNat_ofNat, if_pos (.inl (by omega))]

theorem isShown_ofNat_iff {b : UInt8} : ((0x20 ≤ b && b < 0x7F) || b == 0x09) = true ↔
    b.toNat < 0x80 ∧ IsShown (Char.ofNat b.toNat) := by
  have numbers : ((0x20 ≤ b && b < 0x7F) || b == 0x09) = true ↔
      0x20 ≤ b.toNat ∧ b.toNat < 0x7F ∨ b.toNat = 9 := by
    simp [UInt8.le_iff_toNat_le, UInt8.lt_iff_toNat_lt, ← UInt8.toNat_inj]
  rw [numbers]
  constructor
  · intro visible
    have ascii : b.toNat < 0x80 := by omega
    refine ⟨ascii, ?_⟩
    rw [IsShown, toNat_ofNat_of_ascii ascii]
    rcases visible with visible | tab
    · exact .inr visible
    · exact .inl (by rw [tab])
  · rintro ⟨ascii, tab | visible⟩
    · have nine := congrArg Char.toNat tab
      rw [toNat_ofNat_of_ascii ascii] at nine
      exact .inr nine
    · rw [toNat_ofNat_of_ascii ascii] at visible
      exact .inl visible

theorem text?_eq_some_iff {value : Bytes} {cs : List Char} :
    text? value = some cs ↔ (∀ c ∈ cs, IsShown c) ∧ value = Text.encode (String.ofList cs) := by
  rw [text?]
  constructor
  · intro h
    split at h
    · next visible =>
      obtain rfl := Option.some.inj h
      have each : ∀ b ∈ value, b.toNat < 0x80 ∧ IsShown (Char.ofNat b.toNat) :=
        fun b hb => isShown_ofNat_iff.1 (List.all_eq_true.1 visible b hb)
      have shown : ∀ c ∈ value.map fun b => Char.ofNat b.toNat, IsShown c := by
        intro c hc
        obtain ⟨b, hb, rfl⟩ := List.mem_map.1 hc
        exact (each b hb).2
      refine ⟨shown, ?_⟩
      rw [Text.encode_ofList_of_ascii fun c hc => (shown c hc).ascii, List.map_map]
      conv_lhs => rw [← List.map_id value]
      refine List.map_congr_left fun b hb => ?_
      rw [Function.comp_apply, toNat_ofNat_of_ascii (each b hb).1, UInt8.ofNat_toNat, id]
    · cases h
  · rintro ⟨shown, rfl⟩
    have back : ∀ c ∈ cs, Char.ofNat (UInt8.ofNat c.toNat).toNat = c := by
      intro c hc
      rw [(shown c hc).toNat_byte, Char.ofNat_toNat]
    rw [Text.encode_ofList_of_ascii fun c hc => (shown c hc).ascii, if_pos, List.map_map]
    · conv_rhs => rw [← List.map_id cs]
      exact congrArg some (List.map_congr_left back)
    · refine List.all_eq_true.2 fun b hb => ?_
      obtain ⟨c, hc, rfl⟩ := List.mem_map.1 hb
      refine isShown_ofNat_iff.2 ⟨(shown c hc).toNat_byte.trans_lt (shown c hc).ascii, ?_⟩
      rw [back c hc]
      exact shown c hc

end Headers

/-! ### A name and a password -/

/-- A header value that gives a name and a password: the scheme, a blank and, perhaps among more blanks,
the two around a colon, in base 64. -/
inductive Presents (username password : String) : Bytes → Prop
  | intro {scheme secret : List Char} (shown : ∀ c ∈ scheme ++ ' ' :: secret, Headers.IsShown c)
      (first : ' ' ∉ scheme) (basic : lowerCase (String.ofList scheme) = "basic")
      (encoded : Text.trim secret =
        Text.Base64.encode (Text.encode (username ++ ":" ++ password))) :
      Presents username password (Text.encode (String.ofList (scheme ++ ' ' :: secret)))

namespace Auth

/-- The name that is read ends at the first colon, so it has none. -/
theorem credentials?_eq_some_iff {fields : List (String × Bytes)} {username password : String} :
    credentials? (Headers.ofList fields) = some (username, password) ↔
      ':' ∉ username.toList ∧
        ∃ value, Headers.IsFirst "authorization" value fields ∧ Presents username password value := by
  simp only [credentials?, Headers.firstText?, Option.bind_eq_bind, Option.bind_eq_some_iff,
    Option.ite_none_right_eq_some, Headers.first?_ofList_eq_some_iff, Prod.exists,
    Text.cut?_singleton_eq_some_iff, Headers.text?_eq_some_iff, Text.Base64.decode?_eq_some_iff,
    Text.decode?_eq_some_iff]
  constructor
  · rintro ⟨cs, ⟨value, sent, shown, rfl⟩, scheme, secret, ⟨rfl, first⟩, basic, bytes, encoded, text,
      rfl, name, word, ⟨parts, fresh⟩, same⟩
    obtain ⟨rfl, rfl⟩ : String.ofList name = username ∧ String.ofList word = password := by
      simpa using same
    have whole : text = String.ofList name ++ ":" ++ String.ofList word :=
      String.toList_inj.1 (by simp [parts])
    rw [whole] at encoded
    exact ⟨by simpa using fresh, _, sent, .intro shown first basic encoded⟩
  · rintro ⟨fresh, value, sent, @⟨scheme, secret, shown, first, basic, encoded⟩⟩
    exact ⟨_, ⟨_, sent, shown, rfl⟩, scheme, secret, ⟨rfl, first⟩, basic, _, encoded, _, rfl,
      username.toList, password.toList, ⟨by simp, fresh⟩, by simp⟩

theorem admits_basic_iff {fields : List (String × Bytes)} {username password : String} :
    (basic username password).admits (Headers.ofList fields) = true ↔
      credentials? (Headers.ofList fields) = some (username, password) := by
  rw [admits]
  cases credentials? (Headers.ofList fields) with
  | none => simp
  | some given => simp [sameBytes_iff, Text.encode_inj, Prod.ext_iff]

theorem admits_token_iff {fields : List (String × Bytes)} {header : String} {tokens : List String} :
    (token header tokens).admits (Headers.ofList fields) = true ↔
      ∃ field ∈ fields, lowerCase field.1 = header ∧ ∃ t ∈ tokens, field.2 = Text.encode t := by
  simp only [admits, List.any_eq_true, Headers.mem_all_ofList, sameBytes_iff]
  constructor
  · rintro ⟨value, ⟨field, sent, named, rfl⟩, t, known, same⟩
    exact ⟨field, sent, named, t, known, same⟩
  · rintro ⟨field, sent, named, t, known, same⟩
    exact ⟨field.2, ⟨field, sent, named, rfl⟩, t, known, same⟩

/-- Just those requests are let in that show a secret of the policy: one of the tokens as a value of the
header, whose name may be written in any case, or the name and the password in the first authorization
header. No request is the right one for a name with a colon. -/
theorem admits_iff_shows_secret (fields : List (String × Bytes)) :
    (∀ header tokens, (token (lowerCase header) tokens).admits (Headers.ofList fields) = true ↔
      ∃ field ∈ fields, lowerCase field.1 = lowerCase header ∧
        ∃ t ∈ tokens, field.2 = Text.encode t) ∧
    ∀ username password, (basic username password).admits (Headers.ofList fields) = true ↔
      ':' ∉ username.toList ∧ ∃ value, Headers.IsFirst "authorization" value fields ∧
        Presents username password value :=
  ⟨fun _ _ => admits_token_iff, fun _ _ => admits_basic_iff.trans credentials?_eq_some_iff⟩

/-! ### The owner of a name and a password -/

def ownValue (username password : String) : Bytes :=
  Text.encode ("Basic " ++
    String.ofList (Text.Base64.encode (Text.encode (username ++ ":" ++ password))))

theorem isShown_of_mem_encode {bytes : Bytes} {c : Char} (h : c ∈ Text.Base64.encode bytes) :
    Headers.IsShown c ∧ Text.isBlank c = false := by
  have digits : ∀ n < 64, (0x20 ≤ (Text.Base64.digit n).toNat ∧ (Text.Base64.digit n).toNat < 0x7F) ∧
      Text.isBlank (Text.Base64.digit n) = false := by decide +kernel
  obtain rfl | ⟨n, small, rfl⟩ := Text.Base64.mem_encode h
  · exact ⟨.inr (by decide), by decide⟩
  · exact ⟨.inr (digits n small).1, (digits n small).2⟩

theorem presents_ownValue (username password : String) :
    Presents username password (ownValue username password) := by
  let secret := Text.Base64.encode (Text.encode (username ++ ":" ++ password))
  have shown : ∀ c ∈ "Basic".toList ++ ' ' :: secret, Headers.IsShown c := by
    intro c hc
    rcases List.mem_append.1 hc with scheme | inside
    · have visible : ∀ c ∈ "Basic".toList, 0x20 ≤ c.toNat ∧ c.toNat < 0x7F := by simp
      exact .inr (visible c scheme)
    · rcases List.mem_cons.1 inside with rfl | inside
      · exact .inr (by decide)
      · exact (isShown_of_mem_encode inside).1
  have trimmed : Text.trim ([] ++ secret ++ []) = secret :=
    Text.trim_append (by simp) (fun c hc => (isShown_of_mem_encode hc).2) (by simp)
  rw [List.nil_append, List.append_nil] at trimmed
  have whole : "Basic " ++ String.ofList secret = String.ofList ("Basic".toList ++ ' ' :: secret) :=
    String.toList_inj.1 (by simp)
  rw [ownValue, whole]
  exact .intro shown (by decide) (by decide) trimmed

theorem ofSettings_of_basic {s : AuthSettings} {auth : Auth} {username password : String}
    (made : ofSettings s = .ok auth) (named : s.username = some username)
    (guarded : s.password = some password) : auth = basic username password := by
  simp only [ofSettings, named, guarded, bind, Except.bind] at made
  split at made
  · -- a header for tokens is refused, whether it has a proper name or not
    split at made <;> cases made
  · exact (Except.ok.inj made).symm
  · cases made

/-- Whoever knows the name and the password of a policy is let in just if the name has no colon. -/
theorem owner_admitted_iff {s : AuthSettings} {auth : Auth} {username password : String}
    (made : ofSettings s = .ok auth) (named : s.username = some username)
    (guarded : s.password = some password) {fields : List (String × Bytes)}
    (sent : Headers.IsFirst "authorization" (ownValue username password) fields) :
    auth.admits (Headers.ofList fields) = true ↔ ':' ∉ username.toList := by
  obtain rfl := ofSettings_of_basic made named guarded
  rw [admits_basic_iff, credentials?_eq_some_iff]
  exact ⟨fun shown => shown.1, fun fresh => ⟨fresh, _, sent, presents_ownValue username password⟩⟩

/-- The password may have colons, and both may go beyond ASCII. -/
theorem owner_admitted_of_colon_in_password :
    ofSettings { username := some "jörg", password := some "a:b" } = .ok (basic "jörg" "a:b") ∧
      Headers.IsFirst "authorization" (Text.encode "Basic asO2cmc6YTpi")
        [("Host", []), ("Authorization", Text.encode "Basic asO2cmc6YTpi")] ∧
      (basic "jörg" "a:b").admits (Headers.ofList
        [("Host", []), ("Authorization", Text.encode "Basic asO2cmc6YTpi")]) = true := by
  have own : ownValue "jörg" "a:b" = Text.encode "Basic asO2cmc6YTpi" := by cbv
  have sent : Headers.IsFirst "authorization" (Text.encode "Basic asO2cmc6YTpi")
      [("Host", []), ("Authorization", Text.encode "Basic asO2cmc6YTpi")] :=
    ⟨[("Host", [])], "Authorization", [], rfl, by decide, by decide⟩
  exact ⟨rfl, sent, (owner_admitted_iff (s := { username := some "jörg", password := some "a:b" }) rfl
    rfl rfl (own ▸ sent)).2 (by decide)⟩

/-- The settings are taken, and their own user is not: `a:b` with the password `p` is read as `a` with
the password `b:p`. -/
theorem colon_locks_out :
    ofSettings { username := some "a:b", password := some "p" } = .ok (basic "a:b" "p") ∧
      ownValue "a:b" "p" = Text.encode "Basic YTpiOnA=" ∧
      (basic "a:b" "p").admits
        (Headers.ofList [("Authorization", Text.encode "Basic YTpiOnA=")]) = false := by
  refine ⟨rfl, by cbv, Bool.eq_false_iff.2 fun admitted => ?_⟩
  exact (credentials?_eq_some_iff.1 (admits_basic_iff.1 admitted)).1 (by decide)

end Auth

end LogIntake.Http
