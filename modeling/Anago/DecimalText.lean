import Mathlib.Data.List.Basic

/-!
# Decimal integers as text

`Display` and `FromStr` of the fixed-width integers: a number is written with no
leading zero, and read with an optional sign, at least one digit, and a range check.
Reading is looser than writing (`+5` and `005` are read), so a caller that needs the
canonical spelling has to check it beside the call.
-/

namespace DecimalText

/-- Decimal digits, most significant first. -/
def showNat (n : Nat) : List Char := Nat.toDigits 10 n

def showInt : Int → List Char
  | .ofNat n => showNat n
  | .negSucc n => '-' :: showNat (n + 1)

/-- The value of a run of digits. -/
def digitsValue (ds : List Char) : Nat := Nat.ofDigitChars 10 ds 0

/-- A nonempty run of digits. -/
def parseDigits (ds : List Char) : Option Nat :=
  if ds ≠ [] ∧ ds.all Char.isDigit then some (digitsValue ds) else none

/-- `from_str` of a signed type, before its range is checked. -/
def parseSigned : List Char → Option Int
  | '-' :: ds => (parseDigits ds).map fun n : Nat => -(n : Int)
  | '+' :: ds => (parseDigits ds).map fun n : Nat => (n : Int)
  | ds => (parseDigits ds).map fun n : Nat => (n : Int)

/-- `from_str` of an unsigned type: a minus sign is not a digit. -/
def parseUnsigned : List Char → Option Nat
  | '+' :: ds => parseDigits ds
  | ds => parseDigits ds

/-- `i64::try_from`. -/
def fitI64 (n : Int) : Option Int64 :=
  if -0x8000000000000000 ≤ n ∧ n < 0x8000000000000000 then some (Int64.ofInt n) else none

/-- `str::parse::<i64>`. -/
def parseI64 (cs : List Char) : Option Int64 := (parseSigned cs).bind fitI64

/-- `u8::try_from` on an unsigned value. -/
def fitU8 (n : Nat) : Option UInt8 := if n < 256 then some (UInt8.ofNat n) else none

/-- `str::parse::<u8>`. -/
def parseU8 (cs : List Char) : Option UInt8 := (parseUnsigned cs).bind fitU8

theorem isDigit_iff {c : Char} : c.isDigit = true ↔ 48 ≤ c.toNat ∧ c.toNat ≤ 57 := by
  simp only [Char.isDigit, Bool.and_eq_true, decide_eq_true_eq, UInt32.le_iff_toNat_le]
  rfl

theorem isDigit_ascii {c : Char} (h : c.isDigit = true) : c.toNat < 128 := by
  have := isDigit_iff.mp h
  omega

theorem all_isDigit_showNat (n : Nat) : (showNat n).all Char.isDigit = true := by
  rw [List.all_eq_true]
  intro c hc
  exact Nat.isDigit_of_mem_toDigits (by omega) (by omega) hc

@[simp] theorem showNat_ne_nil (n : Nat) : showNat n ≠ [] := Nat.toDigits_ne_nil

@[simp] theorem digitsValue_showNat (n : Nat) : digitsValue (showNat n) = n :=
  Nat.ofDigitChars_ten_toDigits

@[simp] theorem parseDigits_showNat (n : Nat) : parseDigits (showNat n) = some n := by
  simp only [parseDigits, all_isDigit_showNat, showNat_ne_nil, ne_eq, not_false_eq_true,
    and_self, if_true, digitsValue_showNat]

theorem head_showNat (n : Nat) (c : Char) (h : (showNat n).head? = some c) :
    c.isDigit = true :=
  List.all_eq_true.mp (all_isDigit_showNat n) c (List.mem_of_head? h)

/-- Only zero itself is written with a zero in front. -/
theorem showNat_leading_zero {n : Nat} (h : (showNat n).head? = some '0') : n = 0 := by
  induction n using Nat.strongRecOn with
  | ind n ih =>
    by_cases hn : n < 10
    · rw [showNat, Nat.toDigits_of_lt_base hn] at h
      simpa using h
    · rw [showNat, Nat.toDigits_of_base_le (by omega) (by omega),
        List.head?_append_of_ne_nil _ Nat.toDigits_ne_nil] at h
      have := ih (n / 10) (by omega) h
      omega

@[simp] theorem showNat_zero : showNat 0 = ['0'] := rfl

theorem parseSigned_showInt (n : Int) : parseSigned (showInt n) = some n := by
  cases n with
  | negSucc n =>
    simp only [showInt, parseSigned, parseDigits_showNat]
    rfl
  | ofNat n =>
    rw [showInt, parseSigned]
    · simp
    · intro ds h
      have := head_showNat n '-' (by rw [h]; rfl)
      revert this; decide
    · intro ds h
      have := head_showNat n '+' (by rw [h]; rfl)
      revert this; decide

theorem fitI64_toInt (n : Int64) : fitI64 n.toInt = some n := by
  rw [fitI64, if_pos ⟨n.le_toInt, n.toInt_lt⟩, Int64.ofInt_toInt]

theorem toInt_of_fitI64 {n : Int} {m : Int64} (h : fitI64 n = some m) : m.toInt = n := by
  rw [fitI64] at h
  split at h
  · next hr =>
    rw [← Option.some.inj h]
    exact Int64.toInt_ofInt_of_le hr.1 hr.2
  · cases h

theorem fitI64_eq_some_iff {n : Int} {m : Int64} : fitI64 n = some m ↔ m.toInt = n :=
  ⟨toInt_of_fitI64, fun h => h ▸ fitI64_toInt m⟩

theorem parseI64_showInt (n : Int64) : parseI64 (showInt n.toInt) = some n := by
  simp [parseI64, parseSigned_showInt, fitI64_toInt]

theorem parseUnsigned_showNat (n : Nat) : parseUnsigned (showNat n) = some n := by
  rw [parseUnsigned]
  · exact parseDigits_showNat n
  · intro ds h
    have := head_showNat n '+' (by rw [h]; rfl)
    revert this; decide

theorem parseU8_showNat (n : UInt8) : parseU8 (showNat n.toNat) = some n := by
  have hn : n.toNat < 256 := n.toNat_lt
  simp [parseU8, parseUnsigned_showNat, fitU8, hn]

end DecimalText
