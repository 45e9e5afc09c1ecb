import LogIntake.Text.Utf8

/-!
Bytes written with the 64 characters of the standard alphabet, three bytes in four characters. Only
the one text that writing gives is read back: padding is required, and the bits that it cuts off are
zero (`decode?_eq_some_iff`).
-/
namespace LogIntake.Text.Base64

def digit (n : Nat) : Char :=
  if n < 26 then Char.ofNat (65 + n)
  else if n < 52 then Char.ofNat (71 + n)
  else if n < 62 then Char.ofNat (n - 4)
  else if n = 62 then '+'
  else '/'

def value? (c : Char) : Option Nat :=
  if 'A' ≤ c ∧ c ≤ 'Z' then some (c.toNat - 65)
  else if 'a' ≤ c ∧ c ≤ 'z' then some (c.toNat - 71)
  else if '0' ≤ c ∧ c ≤ '9' then some (c.toNat + 4)
  else if c = '+' then some 62
  else if c = '/' then some 63
  else none

def encode : Bytes → List Char
  | [] => []
  | [a] => [digit (a.toNat / 4), digit (a.toNat % 4 * 16), '=', '=']
  | [a, b] =>
    [digit (a.toNat / 4), digit (a.toNat % 4 * 16 + b.toNat / 16), digit (b.toNat % 16 * 4), '=']
  | a :: b :: c :: rest =>
    digit (a.toNat / 4) :: digit (a.toNat % 4 * 16 + b.toNat / 16) ::
      digit (b.toNat % 16 * 4 + c.toNat / 64) :: digit (c.toNat % 64) :: encode rest

def byte (n : Nat) : UInt8 := UInt8.ofNat n

def decode? : List Char → Option Bytes
  | [] => some []
  | [a, b, '=', '='] => do
    let a ← value? a
    let b ← value? b
    if b % 16 = 0 then some [byte (a * 4 + b / 16)] else none
  | [a, b, c, '='] => do
    let a ← value? a
    let b ← value? b
    let c ← value? c
    if c % 4 = 0 then some [byte (a * 4 + b / 16), byte (b % 16 * 16 + c / 4)] else none
  | a :: b :: c :: d :: rest => do
    let a ← value? a
    let b ← value? b
    let c ← value? c
    let d ← value? d
    let rest ← decode? rest
    some (byte (a * 4 + b / 16) :: byte (b % 16 * 16 + c / 4) :: byte (c % 4 * 64 + d) :: rest)
  | _ => none

theorem value?_digit {n : Nat} (h : n < 64) : value? (digit n) = some n := by
  have all : ∀ n < 64, value? (digit n) = some n := by decide
  exact all n h

theorem digit_ne_pad {n : Nat} (h : n < 64) : digit n ≠ '=' := by
  have all : ∀ n < 64, digit n ≠ '=' := by decide
  exact all n h

theorem digit_of_value? {c : Char} {n : Nat} (h : value? c = some n) : n < 64 ∧ digit n = c := by
  have back : ∀ m, m = c.toNat → Char.ofNat m = c := by
    rintro m rfl
    exact Char.ofNat_toNat c
  simp only [value?] at h
  split at h
  · next upper =>
    have low : 65 ≤ c.toNat := upper.1
    have high : c.toNat ≤ 90 := upper.2
    obtain rfl := Option.some.inj h
    refine ⟨by omega, ?_⟩
    rw [digit, if_pos (by omega), back _ (by omega)]
  · split at h
    · next lower =>
      have low : 97 ≤ c.toNat := lower.1
      have high : c.toNat ≤ 122 := lower.2
      obtain rfl := Option.some.inj h
      refine ⟨by omega, ?_⟩
      rw [digit, if_neg (by omega), if_pos (by omega), back _ (by omega)]
    · split at h
      · next number =>
        have low : 48 ≤ c.toNat := number.1
        have high : c.toNat ≤ 57 := number.2
        obtain rfl := Option.some.inj h
        refine ⟨by omega, ?_⟩
        rw [digit, if_neg (by omega), if_neg (by omega), if_pos (by omega), back _ (by omega)]
      · split at h
        · next plus =>
          obtain rfl := Option.some.inj h
          exact ⟨by decide, plus.symm⟩
        · split at h
          · next slash =>
            obtain rfl := Option.some.inj h
            exact ⟨by decide, slash.symm⟩
          · cases h

theorem toNat_byte {n : Nat} (h : n < 256) : (byte n).toNat = n := by
  simp [byte, Nat.mod_eq_of_lt h]

theorem byte_eq {n : Nat} {b : UInt8} (h : n = b.toNat) : byte n = b := by
  rw [h]
  exact UInt8.ofNat_toNat

theorem decode?_encode (bytes : Bytes) : decode? (encode bytes) = some bytes := by
  fun_induction encode bytes with
  | case1 => rfl
  | case2 a =>
    have ha := a.toNat_lt
    have v₁ := value?_digit (n := a.toNat / 4) (by omega)
    have v₂ := value?_digit (n := a.toNat % 4 * 16) (by omega)
    have b₁ : byte (a.toNat / 4 * 4 + a.toNat % 4 * 16 / 16) = a := byte_eq (by omega)
    have cutOff : a.toNat % 4 * 16 % 16 = 0 := by omega
    simp only [decode?, v₁, v₂, Option.bind_eq_bind, Option.bind_some, cutOff, if_true, b₁]
  | case3 a b =>
    have ha := a.toNat_lt
    have hb := b.toNat_lt
    have v₁ := value?_digit (n := a.toNat / 4) (by omega)
    have v₂ := value?_digit (n := a.toNat % 4 * 16 + b.toNat / 16) (by omega)
    have v₃ := value?_digit (n := b.toNat % 16 * 4) (by omega)
    have unpadded := digit_ne_pad (n := b.toNat % 16 * 4) (by omega)
    have b₁ : byte (a.toNat / 4 * 4 + (a.toNat % 4 * 16 + b.toNat / 16) / 16) = a :=
      byte_eq (by omega)
    have b₂ : byte ((a.toNat % 4 * 16 + b.toNat / 16) % 16 * 16 + b.toNat % 16 * 4 / 4) = b :=
      byte_eq (by omega)
    have cutOff : b.toNat % 16 * 4 % 4 = 0 := by omega
    rw [decode?.eq_3 _ _ _ unpadded]
    simp only [v₁, v₂, v₃, Option.bind_eq_bind, Option.bind_some, cutOff, if_true, b₁, b₂]
  | case4 a b c rest ih =>
    have ha := a.toNat_lt
    have hb := b.toNat_lt
    have hc := c.toNat_lt
    have v₁ := value?_digit (n := a.toNat / 4) (by omega)
    have v₂ := value?_digit (n := a.toNat % 4 * 16 + b.toNat / 16) (by omega)
    have v₃ := value?_digit (n := b.toNat % 16 * 4 + c.toNat / 64) (by omega)
    have v₄ := value?_digit (n := c.toNat % 64) (by omega)
    have unpadded := digit_ne_pad (n := c.toNat % 64) (by omega)
    have b₁ : byte (a.toNat / 4 * 4 + (a.toNat % 4 * 16 + b.toNat / 16) / 16) = a :=
      byte_eq (by omega)
    have b₂ : byte ((a.toNat % 4 * 16 + b.toNat / 16) % 16 * 16 +
        (b.toNat % 16 * 4 + c.toNat / 64) / 4) = b := byte_eq (by omega)
    have b₃ : byte ((b.toNat % 16 * 4 + c.toNat / 64) % 4 * 64 + c.toNat % 64) = c :=
      byte_eq (by omega)
    rw [decode?.eq_4 _ _ _ _ _ (fun _ pad _ => unpadded pad) (fun pad _ => unpadded pad)]
    simp only [v₁, v₂, v₃, v₄, ih, Option.bind_eq_bind, Option.bind_some, b₁, b₂, b₃]

theorem eq_encode_of_decode? {cs : List Char} {bytes : Bytes} (h : decode? cs = some bytes) :
    cs = encode bytes := by
  fun_induction decode? cs generalizing bytes with
  | case1 =>
    obtain rfl := Option.some.inj h
    rfl
  | case2 a b =>
    simp only [Option.bind_eq_bind, Option.bind_eq_some_iff] at h
    obtain ⟨m, hm, n, hn, h⟩ := h
    split at h
    · next cutOff =>
      obtain rfl := Option.some.inj h
      obtain ⟨lm, rfl⟩ := digit_of_value? hm
      obtain ⟨ln, rfl⟩ := digit_of_value? hn
      have b₁ : (byte (m * 4 + n / 16)).toNat = m * 4 + n / 16 := toNat_byte (by omega)
      have d₁ : (m * 4 + n / 16) / 4 = m := by omega
      have d₂ : (m * 4 + n / 16) % 4 * 16 = n := by omega
      rw [encode, b₁, d₁, d₂]
    · cases h
  | case3 a b c =>
    simp only [Option.bind_eq_bind, Option.bind_eq_some_iff] at h
    obtain ⟨l, hl, m, hm, n, hn, h⟩ := h
    split at h
    · next cutOff =>
      obtain rfl := Option.some.inj h
      obtain ⟨ll, rfl⟩ := digit_of_value? hl
      obtain ⟨lm, rfl⟩ := digit_of_value? hm
      obtain ⟨ln, rfl⟩ := digit_of_value? hn
      have b₁ : (byte (l * 4 + m / 16)).toNat = l * 4 + m / 16 := toNat_byte (by omega)
      have b₂ : (byte (m % 16 * 16 + n / 4)).toNat = m % 16 * 16 + n / 4 := toNat_byte (by omega)
      have d₁ : (l * 4 + m / 16) / 4 = l := by omega
      have d₂ : (l * 4 + m / 16) % 4 * 16 + (m % 16 * 16 + n / 4) / 16 = m := by omega
      have d₃ : (m % 16 * 16 + n / 4) % 16 * 4 = n := by omega
      rw [encode, b₁, b₂, d₁, d₂, d₃]
    · cases h
  | case4 a b c d rest _ _ ih =>
    simp only [Option.bind_eq_bind, Option.bind_eq_some_iff] at h
    obtain ⟨k, hk, l, hl, m, hm, n, hn, more, hmore, h⟩ := h
    obtain rfl := Option.some.inj h
    obtain ⟨lk, rfl⟩ := digit_of_value? hk
    obtain ⟨ll, rfl⟩ := digit_of_value? hl
    obtain ⟨lm, rfl⟩ := digit_of_value? hm
    obtain ⟨ln, rfl⟩ := digit_of_value? hn
    have b₁ : (byte (k * 4 + l / 16)).toNat = k * 4 + l / 16 := toNat_byte (by omega)
    have b₂ : (byte (l % 16 * 16 + m / 4)).toNat = l % 16 * 16 + m / 4 := toNat_byte (by omega)
    have b₃ : (byte (m % 4 * 64 + n)).toNat = m % 4 * 64 + n := toNat_byte (by omega)
    have d₁ : (k * 4 + l / 16) / 4 = k := by omega
    have d₂ : (k * 4 + l / 16) % 4 * 16 + (l % 16 * 16 + m / 4) / 16 = l := by omega
    have d₃ : (l % 16 * 16 + m / 4) % 16 * 4 + (m % 4 * 64 + n) / 64 = m := by omega
    have d₄ : (m % 4 * 64 + n) % 64 = n := by omega
    rw [encode, b₁, b₂, b₃, d₁, d₂, d₃, d₄, ← ih hmore]
  | case5 => cases h

theorem decode?_eq_some_iff {cs : List Char} {bytes : Bytes} :
    decode? cs = some bytes ↔ cs = encode bytes :=
  ⟨eq_encode_of_decode?, fun h => h ▸ decode?_encode bytes⟩

theorem mem_encode {bytes : Bytes} {c : Char} (h : c ∈ encode bytes) :
    c = '=' ∨ ∃ n < 64, c = digit n := by
  fun_induction encode bytes with
  | case1 => cases h
  | case2 a =>
    have ha := a.toNat_lt
    simp only [List.mem_cons, List.not_mem_nil, or_false] at h
    rcases h with rfl | rfl | pad | pad
    · exact .inr ⟨_, by omega, rfl⟩
    · exact .inr ⟨_, by omega, rfl⟩
    · exact .inl pad
    · exact .inl pad
  | case3 a b =>
    have ha := a.toNat_lt
    have hb := b.toNat_lt
    simp only [List.mem_cons, List.not_mem_nil, or_false] at h
    rcases h with rfl | rfl | rfl | pad
    · exact .inr ⟨_, by omega, rfl⟩
    · exact .inr ⟨_, by omega, rfl⟩
    · exact .inr ⟨_, by omega, rfl⟩
    · exact .inl pad
  | case4 a b c rest ih =>
    have ha := a.toNat_lt
    have hb := b.toNat_lt
    have hc := c.toNat_lt
    simp only [List.mem_cons] at h
    rcases h with rfl | rfl | rfl | rfl | later
    · exact .inr ⟨_, by omega, rfl⟩
    · exact .inr ⟨_, by omega, rfl⟩
    · exact .inr ⟨_, by omega, rfl⟩
    · exact .inr ⟨_, by omega, rfl⟩
    · exact ih later

end LogIntake.Text.Base64
