import LogIntake.Http.Label
import LogIntake.Text.Cut
import Mathlib

/-!
Which texts are addresses and which are protocols. An address is a host and a port with a colon between
them, and a host in brackets may have colons itself. The port is made of digits, but for a plus sign
that is let through in front of them.
-/
namespace LogIntake.Http

/-! ### Parting a text at a character -/

theorem splitFirst?_eq_cut? (c : Char) (cs : List Char) : splitFirst? c cs = Text.cut? [c] cs := by
  induction cs with
  | nil => simp [splitFirst?, Text.cut?]
  | cons d rest ih =>
    by_cases here : d = c
    · simp [splitFirst?, Text.cut?, here]
    · have other : [c].isPrefixOf (d :: rest) = false := by
        simp [List.isPrefixOf, Ne.symm here]
      rw [Text.cut?, other, ← ih, splitFirst?, splitFirst?, List.dropWhile_cons_of_pos (by simpa),
        List.takeWhile_cons_of_pos (by simpa)]
      cases rest.dropWhile (· ≠ c) <;> simp

theorem splitFirst?_eq_some_iff {c : Char} {cs before behind : List Char} :
    splitFirst? c cs = some (before, behind) ↔ cs = before ++ c :: behind ∧ c ∉ before := by
  rw [splitFirst?_eq_cut?]
  exact Text.cut?_singleton_eq_some_iff

theorem splitLast?_eq_some_iff {c : Char} {cs before behind : List Char} :
    splitLast? c cs = some (before, behind) ↔ cs = before ++ c :: behind ∧ c ∉ behind := by
  have turned : cs.reverse = behind.reverse ++ c :: before.reverse ↔ cs = before ++ c :: behind := by
    rw [← List.reverse_inj]
    simp
  rw [← turned, ← List.mem_reverse, ← splitFirst?_eq_some_iff, splitLast?, Option.map_eq_some_iff]
  constructor
  · rintro ⟨⟨last, first⟩, split, parts⟩
    obtain ⟨rfl, rfl⟩ := Prod.mk.inj parts
    simpa using split
  · intro split
    exact ⟨_, split, by simp⟩

/-! ### Ports -/

/-- A port in decimal: one digit or more, and no number beyond 65535. -/
structure IsPort (cs : List Char) : Prop where
  nonempty : cs ≠ []
  digits : ∀ c ∈ cs, c.isDigit = true
  small : Text.Numeral.value cs ≤ 65535

def IsSignedPort (cs : List Char) : Prop := ∃ ds, (cs = ds ∨ cs = '+' :: ds) ∧ IsPort ds

theorem isNone_unsigned?_eq_false_iff {port : List Char} :
    (Text.Numeral.unsigned? portBound port).isNone = false ↔ IsSignedPort port := by
  have bound : ∀ n, n < portBound ↔ n ≤ 65535 := fun n => Nat.lt_succ_iff
  rw [Option.isNone_eq_false_iff, Option.isSome_iff_exists]
  constructor
  · rintro ⟨n, read⟩
    obtain ⟨ds, written, nonempty, digits, small, -⟩ := Text.Numeral.unsigned?_eq_some_iff.1 read
    exact ⟨ds, written, nonempty, digits, (bound _).1 small⟩
  · rintro ⟨ds, written, port⟩
    exact ⟨_, Text.Numeral.unsigned?_eq_some_iff.2
      ⟨ds, written, port.nonempty, port.digits, (bound _).2 port.small, rfl⟩⟩

theorem isPort_digits {n : Nat} (small : n ≤ 65535) : IsPort (Text.Numeral.digits n) where
  nonempty := Text.Numeral.digits_ne_nil n
  digits _ := Text.Numeral.isDigit_of_mem_digits
  small := by rwa [Text.Numeral.value_digits]

theorem IsSignedPort.not_mem_colon {port : List Char} (h : IsSignedPort port) : ':' ∉ port := by
  obtain ⟨ds, written, port⟩ := h
  have fresh : ':' ∉ ds := fun inside => absurd (port.digits _ inside) (by decide)
  obtain rfl | rfl := written
  · exact fresh
  · simpa using fresh

theorem IsSignedPort.ne_nil {port : List Char} (h : IsSignedPort port) : port ≠ [] := by
  obtain ⟨ds, rfl | rfl, port⟩ := h
  · exact port.nonempty
  · simp

/-! ### Addresses -/

/-- An address is a host and a port with a colon between them. In brackets, a host may have colons. -/
inductive IsAddress (host port : List Char) : List Char → Prop
  | plain (bare : host.head? ≠ some '[') (fresh : ':' ∉ host) :
      IsAddress host port (host ++ ':' :: port)
  | bracketed (fresh : ']' ∉ host) : IsAddress host port ('[' :: (host ++ ']' :: ':' :: port))

theorem rawHostPort_of_bracket {rest host port : List Char} :
    rawHostPort ('[' :: rest) = .ok (host, port) ↔ rest = host ++ ']' :: ':' :: port ∧ ']' ∉ host := by
  rw [← splitFirst?_eq_some_iff]
  simp only [rawHostPort]
  split
  · next unclosed => simp [unclosed]
  · next closed => simp [closed]
  · next other found =>
    simp only [found, reduceCtorEq, Option.some.injEq, false_iff]
    rintro rfl
    exact other _ _ rfl

theorem rawHostPort_of_bare {address host port : List Char} (bare : address.head? ≠ some '[') :
    rawHostPort address = .ok (host, port) ↔
      address = host ++ ':' :: port ∧ ':' ∉ host ∧ ':' ∉ port := by
  have parts : address = host ++ ':' :: port ∧ ':' ∉ host ∧ ':' ∉ port ↔
      splitLast? ':' address = some (host, port) ∧ ':' ∉ host := by
    rw [splitLast?_eq_some_iff, and_assoc, and_comm (a := ':' ∉ host)]
  rw [parts]
  unfold rawHostPort
  split
  · next => simp at bare
  · split
    · next unparted => simp [unparted]
    · next before behind found =>
      rw [found]
      by_cases several : ':' ∈ before
      · rw [if_pos (by simpa using several)]
        constructor
        · intro accepted
          cases accepted
        · rintro ⟨same, fresh⟩
          cases same
          exact absurd several fresh
      · rw [if_neg (by simpa using several)]
        constructor
        · intro same
          cases same
          exact ⟨rfl, several⟩
        · rintro ⟨same, -⟩
          cases same
          rfl

/-- A bare address is parted at its last colon, so a port with a colon would not come out whole. -/
theorem rawHostPort_eq_ok_iff {address host port : List Char} (fresh : ':' ∉ port) :
    rawHostPort address = .ok (host, port) ↔ IsAddress host port address := by
  have first : (host ++ ':' :: port).head? = some '[' ↔ host.head? = some '[' := by
    cases host <;> simp
  by_cases bracket : address.head? = some '['
  · obtain ⟨rest, rfl⟩ := List.head?_eq_some_iff.1 bracket
    rw [rawHostPort_of_bracket]
    constructor
    · rintro ⟨rfl, closed⟩
      exact .bracketed closed
    · intro parts
      generalize whole : '[' :: rest = address at parts bracket
      cases parts with
      | plain bare => exact absurd (first.1 bracket) bare
      | bracketed closed => exact ⟨(List.cons.inj whole).2, closed⟩
  · rw [rawHostPort_of_bare bracket]
    constructor
    · rintro ⟨rfl, single, -⟩
      exact .plain (fun held => bracket (first.2 held)) single
    · intro parts
      cases parts with
      | plain _ single => exact ⟨rfl, single, fresh⟩
      | bracketed _ => exact absurd rfl bracket

/-- What is taken apart as an address, and into what. -/
theorem splitHostPort_eq_ok_iff {address host port : List Char} :
    splitHostPort address = .ok (host, port) ↔
      IsAddress host port address ∧ host ≠ [] ∧ IsSignedPort port := by
  have checked : splitHostPort address = .ok (host, port) ↔
      rawHostPort address = .ok (host, port) ∧ host ≠ [] ∧ port ≠ [] ∧ IsSignedPort port := by
    rw [← isNone_unsigned?_eq_false_iff]
    unfold splitHostPort
    split
    · next failed => simp [failed]
    · next before behind found =>
      rw [found]
      constructor
      · intro accepted
        split_ifs at accepted with noHost noPort noNumber
        cases accepted
        exact ⟨rfl, by simpa using noHost, by simpa using noPort, Bool.eq_false_iff.2 noNumber⟩
      · rintro ⟨same, hostGiven, portGiven, number⟩
        cases same
        rw [if_neg (by simpa using hostGiven), if_neg (by simpa using portGiven),
          if_neg (by simp [number])]
  rw [checked]
  constructor
  · rintro ⟨raw, given, -, signed⟩
    exact ⟨(rawHostPort_eq_ok_iff signed.not_mem_colon).1 raw, given, signed⟩
  · rintro ⟨parts, given, signed⟩
    exact ⟨(rawHostPort_eq_ok_iff signed.not_mem_colon).2 parts, given, signed.ne_nil, signed⟩

/-- An address that would be one without the plus sign before its port. -/
def HasSignedPort (address : List Char) : Prop :=
  ∃ host ds, IsAddress host ('+' :: ds) address ∧ host ≠ [] ∧ IsPort ds

theorem not_isPort_signed (ds : List Char) : ¬ IsPort ('+' :: ds) := by
  intro port
  exact absurd (port.digits '+' (by simp)) (by decide)

theorem IsSignedPort.isPort {host port address : List Char} (h : IsSignedPort port)
    (parts : IsAddress host port address) (given : host ≠ []) (unsigned : ¬ HasSignedPort address) :
    IsPort port := by
  obtain ⟨ds, rfl | rfl, digits⟩ := h
  · exact digits
  · exact absurd ⟨host, ds, parts, given, digits⟩ unsigned

/-- Ports are rows of digits, but for the addresses with a plus sign there. -/
theorem split_of_digits_iff {address : List Char} :
    (∀ host port, splitHostPort address = .ok (host, port) ↔
      IsAddress host port address ∧ host ≠ [] ∧ IsPort port) ↔ ¬ HasSignedPort address := by
  constructor
  · rintro meets ⟨host, ds, parts, given, port⟩
    have accepted := splitHostPort_eq_ok_iff.2 ⟨parts, given, ds, .inr rfl, port⟩
    exact not_isPort_signed ds ((meets _ _).1 accepted).2.2
  · intro unsigned host port
    rw [splitHostPort_eq_ok_iff]
    constructor
    · rintro ⟨parts, given, signed⟩
      exact ⟨parts, given, signed.isPort parts given unsigned⟩
    · rintro ⟨parts, given, digits⟩
      exact ⟨parts, given, port, .inl rfl, digits⟩

/-! ### Protocols -/

structure IsVersion (cs : List Char) : Prop where
  chars : ∀ c ∈ cs, c.isDigit = true ∨ c = '.'
  digit : ∃ c ∈ cs, c.isDigit = true

theorem isVersion_iff {cs : List Char} : isVersion cs = true ↔ IsVersion cs := by
  have parts : isVersion cs = true ↔
      (∀ c ∈ cs, c.isDigit = true ∨ c = '.') ∧ ∃ c ∈ cs, c.isDigit = true := by simp [isVersion]
  rw [parts]
  exact ⟨fun h => ⟨h.1, h.2⟩, fun h => ⟨h.chars, h.digit⟩⟩

/-- What is taken apart as a protocol: a name up to the first slash, and a version behind it. -/
theorem splitProtocol_eq_ok_iff {protocol name version : List Char} :
    splitProtocol protocol = .ok (name, version) ↔
      protocol = name ++ '/' :: version ∧ '/' ∉ name ∧ name ≠ [] ∧ IsVersion version := by
  rw [← and_assoc, ← splitFirst?_eq_some_iff, ← isVersion_iff]
  unfold splitProtocol
  split
  · next before behind found =>
    rw [found]
    constructor
    · intro accepted
      split_ifs at accepted with valid
      cases accepted
      simpa using valid
    · rintro ⟨same, named, valid⟩
      cases same
      rw [if_pos (by simp [named, valid])]
  · next unparted => simp [unparted]

end LogIntake.Http
