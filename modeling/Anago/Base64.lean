import Mathlib.Data.List.TakeWhile

/-!
# Base64

The encoding of bytes by four characters for three, with padding at the end. A text is
decoded only if it is the encoding of something, so that unused bits have to be zero.
-/

namespace Base64

/-- The character of six bits. -/
def digit (n : Nat) : Char :=
  if n < 26 then Char.ofNat (n + 65)
  else if n < 52 then Char.ofNat (n + 71)
  else if n < 62 then Char.ofNat (n - 4)
  else if n = 62 then '+' else '/'

/-- The six bits of a character. -/
def value (c : Char) : Option Nat :=
  if 65 ≤ c.toNat ∧ c.toNat ≤ 90 then some (c.toNat - 65)
  else if 97 ≤ c.toNat ∧ c.toNat ≤ 122 then some (c.toNat - 71)
  else if 48 ≤ c.toNat ∧ c.toNat ≤ 57 then some (c.toNat + 4)
  else if c = '+' then some 62
  else if c = '/' then some 63
  else none

/-- Bytes in groups of six bits, the last one filled up with zeros. -/
def sextets : List UInt8 → List Nat
  | [] => []
  | [a] => [a.toNat / 4, a.toNat % 4 * 16]
  | [a, b] => [a.toNat / 4, a.toNat % 4 * 16 + b.toNat / 16, b.toNat % 16 * 4]
  | a :: b :: c :: rest =>
    a.toNat / 4 :: (a.toNat % 4 * 16 + b.toNat / 16) ::
      (b.toNat % 16 * 4 + c.toNat / 64) :: c.toNat % 64 ::
      sextets rest

/-- Groups of six bits as bytes. Bits that fill none are dropped. -/
def octets : List Nat → List UInt8
  | [] => []
  | [_] => []
  | [p, q] => [UInt8.ofNat (p * 4 + q / 16)]
  | [p, q, r] => [UInt8.ofNat (p * 4 + q / 16), UInt8.ofNat (q % 16 * 16 + r / 4)]
  | p :: q :: r :: s :: rest =>
    UInt8.ofNat (p * 4 + q / 16) :: UInt8.ofNat (q % 16 * 16 + r / 4) :: UInt8.ofNat
      (r % 4 * 64 + s) :: octets rest

/-- How many `=` there are at the end. -/
def padding (length : Nat) : Nat := (3 - length % 3) % 3

def encode (bytes : List UInt8) : List Char :=
  (sextets bytes).map digit ++ List.replicate (padding bytes.length) '='

def decode (text : List Char) : Option (List UInt8) :=
  match (text.takeWhile (· ≠ '=')).mapM value with
  | some groups => if encode (octets groups) = text then some (octets groups) else none
  | none => none

theorem value_digit {n : Nat} (h : n < 64) : value (digit n) = some n := by
  have all : ∀ n < 64, value (digit n) = some n := by decide
  exact all n h

theorem digit_ne_pad {n : Nat} (h : n < 64) : digit n ≠ '=' := by
  have all : ∀ n < 64, digit n ≠ '=' := by decide
  exact all n h

theorem sextets_lt (bytes : List UInt8) : ∀ n ∈ sextets bytes, n < 64 := by
  induction bytes using sextets.induct with
  | case1 => simp [sextets]
  | case2 a =>
    have high := a.toNat_lt
    simp [sextets]
    omega
  | case3 a b =>
    have high := a.toNat_lt
    have high' := b.toNat_lt
    simp [sextets]
    omega
  | case4 a b c rest ih =>
    have high := a.toNat_lt
    have high' := b.toNat_lt
    have high'' := c.toNat_lt
    simp only [sextets, List.forall_mem_cons]
    exact ⟨by omega, by omega, by omega, by omega, ih⟩

theorem length_sextets (bytes : List UInt8) :
    (sextets bytes).length = (bytes.length * 4 + 2) / 3 := by
  induction bytes using sextets.induct with
  | case1 => rfl
  | case2 a => simp [sextets]
  | case3 a b => simp [sextets]
  | case4 a b c rest ih =>
    simp only [sextets, List.length_cons, ih]
    omega

theorem octets_sextets (bytes : List UInt8) : octets (sextets bytes) = bytes := by
  have byte : ∀ (b : UInt8) {n : Nat}, n = b.toNat → UInt8.ofNat n = b := by
    rintro b _ rfl
    exact UInt8.ofNat_toNat
  induction bytes using sextets.induct with
  | case1 => rfl
  | case2 a =>
    rw [sextets, octets, byte a (by omega)]
  | case3 a b =>
    have high := b.toNat_lt
    rw [sextets, octets, byte a (by omega), byte b (by omega)]
  | case4 a b c rest ih =>
    have high := b.toNat_lt
    have high' := c.toNat_lt
    rw [sextets, octets, byte a (by omega), byte b (by omega), byte c (by omega), ih]

theorem mapM_value_digit {groups : List Nat} (h : ∀ n ∈ groups, n < 64) :
    (groups.map digit).mapM value = some groups := by
  induction groups with
  | nil => rfl
  | cons n groups ih =>
    rw [List.map_cons, List.mapM_cons, value_digit (h n List.mem_cons_self),
      ih fun m mem => h m (List.mem_cons_of_mem n mem)]
    rfl

/-- A text decodes to what it encodes, and to nothing else. -/
theorem decode_eq_some {text : List Char} {bytes : List UInt8} :
    decode text = some bytes ↔ encode bytes = text := by
  constructor
  · intro h
    rw [decode] at h
    split at h
    · split at h
      · next same =>
        cases h
        exact same
      · cases h
    · cases h
  · rintro rfl
    have digits : ∀ c ∈ (sextets bytes).map digit, decide (c ≠ '=') = true := by
      intro c mem
      obtain ⟨n, there, rfl⟩ := List.mem_map.mp mem
      exact decide_eq_true (digit_ne_pad (sextets_lt bytes n there))
    have front : (encode bytes).takeWhile (· ≠ '=') = (sextets bytes).map digit := by
      rw [encode, List.takeWhile_append_of_pos digits]
      cases padding bytes.length <;> simp [List.replicate_succ]
    rw [decode, front, mapM_value_digit (sextets_lt bytes)]
    simp only [octets_sextets, if_true]

theorem encode_inj {bytes bytes' : List UInt8} (h : encode bytes = encode bytes') :
    bytes = bytes' := by
  have same := decode_eq_some.mpr h
  rw [decode_eq_some.mpr rfl] at same
  exact (Option.some.inj same).symm

theorem toNat_ofNat_lt {n : Nat} (h : n < 256) : (UInt8.ofNat n).toNat = n := by
  rw [UInt8.toNat_ofNat']
  omega

/-- Three groups at the end leave two bits unused. -/
theorem sextets_octets {groups : List Nat} (small : ∀ n ∈ groups, n < 64)
    (three : groups.length % 4 = 3) :
    sextets (octets groups) = groups ↔ ∀ n, groups.getLast? = some n → n % 4 = 0 := by
  induction groups using octets.induct with
  | case1 => cases three
  | case2 _ => cases three
  | case3 p q => cases three
  | case5 p q r s rest ih =>
    simp only [List.forall_mem_cons] at small
    obtain ⟨p64, q64, r64, s64, small⟩ := small
    have three' : rest.length % 4 = 3 := by simp only [List.length_cons] at three; omega
    have filled : rest ≠ [] := by
      rintro rfl
      cases three'
    have last : (p :: q :: r :: s :: rest).getLast? = rest.getLast? := by
      obtain ⟨n, rest, rfl⟩ := List.exists_cons_of_ne_nil filled
      simp only [List.getLast?_cons_cons]
    have first : p * 4 + q / 16 < 256 := by omega
    have second : q % 16 * 16 + r / 4 < 256 := by omega
    have third : r % 4 * 64 + s < 256 := by omega
    have groups : sextets (octets (p :: q :: r :: s :: rest)) =
        p :: q :: r :: s :: sextets (octets rest) := by
      rw [octets, sextets, toNat_ofNat_lt first, toNat_ofNat_lt second, toNat_ofNat_lt third,
        show (p * 4 + q / 16) / 4 = p by
          omega, show (p * 4 + q / 16) % 4 * 16 + (q % 16 * 16 + r / 4) / 16 = q by omega,
        show (q % 16 * 16 + r / 4) % 16 * 4 + (r % 4 * 64 + s) / 64 = r by omega,
        show (r % 4 * 64 + s) % 64 = s by omega]
    rw [groups, last, ← ih small three']
    simp
  | case4 p q r =>
    simp only [List.forall_mem_cons] at small
    have first : p * 4 + q / 16 < 256 := by omega
    have second : q % 16 * 16 + r / 4 < 256 := by omega
    rw [octets, sextets, toNat_ofNat_lt first, toNat_ofNat_lt second]
    simp
    omega

theorem length_octets {groups : List Nat} (three : groups.length % 4 = 3) :
    (octets groups).length = groups.length / 4 * 3 + 2 := by
  induction groups using octets.induct with
  | case1 => cases three
  | case2 _ => cases three
  | case3 p q => cases three
  | case5 p q r s rest ih =>
    have three' : rest.length % 4 = 3 := by simp only [List.length_cons] at three; omega
    rw [octets]
    simp only [List.length_cons, ih three']
    omega
  | case4 p q r => simp [octets]

end Base64
