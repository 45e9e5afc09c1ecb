/-!
Texts and the bytes that carry them. Strict reading refuses what is not UTF-8; lossy reading puts
one replacement character for each longest piece that could have begun a character.
-/
namespace LogIntake.Text

abbrev Bytes := List UInt8

def encode (s : String) : Bytes := s.toUTF8.toList

/-- The text that the bytes carry, if they are well formed. -/
def decode? (bytes : Bytes) : Option String := String.fromUTF8? ⟨bytes.toArray⟩

theorem toList_loop (bytes : ByteArray) (i : Nat) (read : List UInt8) :
    ByteArray.toList.loop bytes i read = read.reverse ++ bytes.data.toList.drop i := by
  fun_induction ByteArray.toList.loop bytes i read with
  | case1 i read inside ih =>
    have bound : i < bytes.data.toList.length := by simpa using inside
    have here : bytes.get! i = bytes.data.toList[i] := by
      simpa [ByteArray.get!] using getElem!_pos bytes.data i (by simpa using inside)
    rw [ih, List.drop_eq_getElem_cons bound, here]
    simp
  | case2 i read outside =>
    have past : bytes.data.toList.length ≤ i := by simpa using outside
    simp [List.drop_eq_nil_of_le past]

theorem toByteArray_toList (bytes : ByteArray) : (⟨bytes.toList.toArray⟩ : ByteArray) = bytes := by
  rw [ByteArray.toList, toList_loop]
  rfl

theorem decode?_encode (s : String) : decode? (encode s) = some s := by
  have bytes : (⟨s.toUTF8.toList.toArray⟩ : ByteArray) = s.toUTF8 := toByteArray_toList s.toUTF8
  have valid : s.toUTF8.IsValidUTF8 := s.isValidUTF8
  rw [decode?, encode, bytes, String.fromUTF8?, dif_pos valid]
  rfl

/-- A text is read from its own encoding only. -/
theorem decode?_eq_some_iff {bytes : Bytes} {s : String} :
    decode? bytes = some s ↔ bytes = encode s := by
  constructor
  · intro h
    rw [decode?, String.fromUTF8?] at h
    split at h
    · next valid =>
      obtain rfl := Option.some.inj h
      rw [encode, ByteArray.toList, toList_loop]
      rfl
    · cases h
  · rintro rfl
    exact decode?_encode s

theorem encode_inj {s t : String} : encode s = encode t ↔ s = t := by
  constructor
  · intro h
    exact Option.some.inj (((decode?_encode s).symm.trans (h ▸ rfl)).trans (decode?_encode t))
  · rintro rfl
    rfl

theorem utf8EncodeChar_of_ascii {c : Char} (ascii : c.toNat < 0x80) :
    String.utf8EncodeChar c = [UInt8.ofNat c.toNat] := by
  have small : c.val ≤ 127 := UInt32.le_iff_toNat_le.2 (Nat.le_of_lt_succ ascii)
  rw [String.utf8EncodeChar_eq_singleton (Char.utf8Size_eq_one_iff.2 small)]
  rfl

theorem encode_ofList_of_ascii {cs : List Char} (ascii : ∀ c ∈ cs, c.toNat < 0x80) :
    encode (String.ofList cs) = cs.map fun c => UInt8.ofNat c.toNat := by
  have flat : cs.flatMap String.utf8EncodeChar = cs.map fun c => UInt8.ofNat c.toNat := by
    induction cs with
    | nil => rfl
    | cons c cs ih =>
      rw [List.flatMap_cons, List.map_cons, utf8EncodeChar_of_ascii (ascii c (by simp)),
        ih fun d hd => ascii d (by simp [hd])]
      rfl
  rw [encode, ByteArray.toList, toList_loop, String.toUTF8_eq_toByteArray,
    String.toByteArray_ofList, List.utf8Encode, List.data_toByteArray]
  exact flat

def replacement : Char := '\uFFFD'

/-- What the first byte of a character promises: how many more bytes come, and the least and the
greatest value of the next one. -/
def promise? (b : UInt8) : Option (Nat × UInt8 × UInt8) :=
  if b < 0x80 then some (0, 0, 0)
  else if b < 0xC2 then none
  else if b < 0xE0 then some (1, 0x80, 0xBF)
  else if b == 0xE0 then some (2, 0xA0, 0xBF)
  else if b == 0xED then some (2, 0x80, 0x9F)
  else if b < 0xF0 then some (2, 0x80, 0xBF)
  else if b == 0xF0 then some (3, 0x90, 0xBF)
  else if b < 0xF4 then some (3, 0x80, 0xBF)
  else if b == 0xF4 then some (3, 0x80, 0x8F)
  else none

/-- The code point so far, the bytes still owed and the range of the next one. -/
structure Pending where
  point : Nat
  owed : Nat
  least : UInt8
  greatest : UInt8

def leadBits (b : UInt8) (owed : Nat) : Nat :=
  match owed with
  | 0 => b.toNat
  | 1 => b.toNat % 0x20
  | 2 => b.toNat % 0x10
  | _ => b.toNat % 0x08

/-- Reads on from between two characters, or from inside one. -/
def decodeLossyFrom : Option Pending → Bytes → List Char
  | none, [] => []
  | some _, [] => [replacement]
  | none, b :: bs =>
    match promise? b with
    | none => replacement :: decodeLossyFrom none bs
    | some (0, _, _) => Char.ofNat b.toNat :: decodeLossyFrom none bs
    | some (owed, least, greatest) =>
      decodeLossyFrom (some ⟨leadBits b owed, owed, least, greatest⟩) bs
  | some p, b :: bs =>
    if p.least ≤ b && b ≤ p.greatest then
      let point := p.point * 0x40 + b.toNat % 0x40
      if p.owed ≤ 1 then Char.ofNat point :: decodeLossyFrom none bs
      else decodeLossyFrom (some ⟨point, p.owed - 1, 0x80, 0xBF⟩) bs
    else
      match promise? b with
      | none => replacement :: replacement :: decodeLossyFrom none bs
      | some (0, _, _) => replacement :: Char.ofNat b.toNat :: decodeLossyFrom none bs
      | some (owed, least, greatest) =>
        replacement :: decodeLossyFrom (some ⟨leadBits b owed, owed, least, greatest⟩) bs

/-- What is left from the first piece on that cannot be read. The first argument is the character
under way: where it begins and what it owes. -/
def fromFirstFault : Option (Bytes × Pending) → Bytes → Bytes
  | none, [] => []
  | some (start, _), [] => start
  | none, b :: bs =>
    match promise? b with
    | none => b :: bs
    | some (0, _, _) => fromFirstFault none bs
    | some (owed, least, greatest) =>
      fromFirstFault (some (b :: bs, ⟨leadBits b owed, owed, least, greatest⟩)) bs
  | some (start, p), b :: bs =>
    if p.least ≤ b && b ≤ p.greatest then
      if p.owed ≤ 1 then fromFirstFault none bs
      else fromFirstFault (some (start, { p with owed := p.owed - 1, least := 0x80, greatest := 0xBF })) bs
    else start

def decodeLossy (bytes : Bytes) : String := String.ofList (decodeLossyFrom none bytes)

end LogIntake.Text
