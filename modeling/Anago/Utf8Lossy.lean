import Mathlib.Data.List.Basic

/-!
# Bytes read as text, come what may

`String::from_utf8_lossy`: bytes that are valid UTF-8 are the characters they encode, and
each longest prefix of a character that breaks off becomes one replacement character. ASCII
bytes give themselves, and nothing else gives an ASCII character.
-/

namespace Utf8Lossy

def replacement : Char := '\uFFFD'

def isContinuation (b : UInt8) : Bool := 0x80 ≤ b.toNat && b.toNat ≤ 0xBF

/-- Which second bytes may follow the first one of three or four. -/
def second (first : Nat) (b : UInt8) : Bool :=
  let low := if first = 0xE0 then 0xA0 else if first = 0xF0 then 0x90 else 0x80
  let high := if first = 0xED then 0x9F else if first = 0xF4 then 0x8F else 0xBF
  low ≤ b.toNat && b.toNat ≤ high

/-- The first character, and how many bytes beyond the first it takes. -/
def step (b : UInt8) (rest : List UInt8) : Char × Nat :=
  let first := b.toNat
  if first < 0x80 then (Char.ofNat first, 0)
  else if first < 0xC2 then (replacement, 0)
  else if first < 0xE0 then
    match rest with
    | c :: _ =>
      if isContinuation c then (Char.ofNat (first % 32 * 64 + c.toNat % 64), 1)
        else (replacement, 0)
    | [] => (replacement, 0)
  else if first < 0xF0 then
    match rest with
    | c :: d :: _ =>
      if second first c then
        if isContinuation d then
          (Char.ofNat (first % 16 * 4096 + c.toNat % 64 * 64 + d.toNat % 64), 2)
        else (replacement, 1)
      else (replacement, 0)
    | [c] => (replacement, if second first c then 1 else 0)
    | [] => (replacement, 0)
  else if first < 0xF5 then
    match rest with
    | c :: d :: e :: _ =>
      if second first c then
        if isContinuation d then
          if isContinuation e then
            (Char.ofNat (first % 8 * 262144 + c.toNat % 64 * 4096 + d.toNat % 64 *
              64 + e.toNat % 64), 3)
          else (replacement, 2)
        else (replacement, 1)
      else (replacement, 0)
    | [c, d] => (replacement, if second first c then if isContinuation d then 2 else 1 else 0)
    | [c] => (replacement, if second first c then 1 else 0)
    | [] => (replacement, 0)
  else (replacement, 0)

/-- `String::from_utf8_lossy`. -/
def lossy : List UInt8 → List Char
  | [] => []
  | b :: rest => (step b rest).1 :: lossy (rest.drop (step b rest).2)
termination_by bytes => bytes.length
decreasing_by
  rw [List.length_drop, List.length_cons]
  omega

@[simp] theorem lossy_nil : lossy [] = [] := by rw [lossy]

theorem lossy_cons (b : UInt8) (rest : List UInt8) :
    lossy (b :: rest) = (step b rest).1 :: lossy (rest.drop (step b rest).2) := by
  rw [lossy]

theorem lossy_ne_nil {bytes : List UInt8} (h : bytes ≠ []) : lossy bytes ≠ [] := by
  obtain ⟨b, rest, rfl⟩ := List.exists_cons_of_ne_nil h
  rw [lossy_cons]
  exact List.cons_ne_nil _ _

theorem toNat_ofNat {n : Nat} (h : n < 0xD800 ∨ 0xDFFF < n ∧ n < 0x110000) :
    (Char.ofNat n).toNat = n := by
  have valid : n.isValidChar := h
  rw [Char.ofNat, dif_pos valid]
  rfl

theorem step_ascii {b : UInt8} (h : b.toNat < 128) (rest : List UInt8) :
    step b rest = (Char.ofNat b.toNat, 0) := by
  rw [step.eq_def]
  exact if_pos h

theorem second_bounds {first : Nat} {b : UInt8} (h : second first b = true) :
    0x80 ≤ b.toNat ∧ b.toNat ≤ 0xBF ∧ (first = 0xE0 → 0xA0 ≤ b.toNat) ∧
      (first = 0xED → b.toNat ≤ 0x9F) ∧
      (first = 0xF0 → 0x90 ≤ b.toNat) ∧ (first = 0xF4 → b.toNat ≤ 0x8F) := by
  simp only [second, Bool.and_eq_true, decide_eq_true_eq] at h
  grind

/-- A byte outside ASCII gives a character outside ASCII. -/
theorem step_high {b : UInt8} (h : 128 ≤ b.toNat) (rest : List UInt8) :
    128 ≤ (step b rest).1.toNat := by
  have odd : 128 ≤ replacement.toNat := by decide
  rw [step.eq_def]
  simp only [show ¬b.toNat < 0x80 by omega, if_false]
  split
  · exact odd
  split
  · split
    · next c rest =>
      split
      · rw [toNat_ofNat (by omega)]
        omega
      · exact odd
    · exact odd
  split
  · split
    · next c d rest =>
      split
      · next allowed =>
        have bounds := second_bounds allowed
        split
        · rw [toNat_ofNat (by omega)]
          omega
        · exact odd
      · exact odd
    · exact odd
    · exact odd
  split
  · split
    · next c d e rest =>
      split
      · next allowed =>
        have bounds := second_bounds allowed
        split
        · split
          · rw [toNat_ofNat (by omega)]
            omega
          · exact odd
        · exact odd
      · exact odd
    · exact odd
    · exact odd
    · exact odd
  · exact odd

/-- ASCII bytes are read as they are. -/
theorem lossy_ascii {bytes : List UInt8} (ascii : ∀ b ∈ bytes, b.toNat < 128) :
    lossy bytes = bytes.map fun b => Char.ofNat b.toNat := by
  induction bytes with
  | nil => exact lossy_nil
  | cons b rest ih =>
    rw [lossy_cons, step_ascii (ascii b List.mem_cons_self), List.map_cons, List.drop_zero,
      ih fun b' mem => ascii b' (List.mem_cons_of_mem b mem)]

/-- A text in ASCII was read from ASCII bytes. -/
theorem ascii_of_lossy {bytes : List UInt8} (ascii : ∀ c ∈ lossy bytes, c.toNat < 128) :
    ∀ b ∈ bytes, b.toNat < 128 := by
  induction bytes with
  | nil => exact fun b mem => absurd mem List.not_mem_nil
  | cons b rest ih =>
    rw [lossy_cons] at ascii
    have first : b.toNat < 128 := by
      by_contra high
      have outside := step_high (Nat.le_of_not_lt high) rest
      have inside := ascii _ List.mem_cons_self
      omega
    rw [step_ascii first, List.drop_zero] at ascii
    intro b' mem
    rcases List.mem_cons.mp mem with rfl | mem
    · exact first
    · exact ih (fun c there => ascii c (List.mem_cons_of_mem _ there)) b' mem

end Utf8Lossy
