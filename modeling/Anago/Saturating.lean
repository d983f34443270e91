import Mathlib.Order.Defs.LinearOrder

/-!
# Saturating arithmetic on `i64`

`saturating_add` and its kin: the exact result where it fits, the nearer end of the
range where it does not.
-/

namespace Saturating

def minI64 : Int := -0x8000000000000000

def maxI64 : Int := 0x7FFFFFFFFFFFFFFF

/-- The nearest integer in range. -/
def clamp (n : Int) : Int := max minI64 (min maxI64 n)

def clampI64 (n : Int) : Int64 := Int64.ofInt (clamp n)

/-- `saturating_add`. -/
def add (a b : Int64) : Int64 := clampI64 (a.toInt + b.toInt)

/-- `saturating_sub`. -/
def sub (a b : Int64) : Int64 := clampI64 (a.toInt - b.toInt)

/-- `saturating_mul`. -/
def mul (a b : Int64) : Int64 := clampI64 (a.toInt * b.toInt)

theorem range (a : Int64) : minI64 ≤ a.toInt ∧ a.toInt ≤ maxI64 := by
  have low := a.le_toInt
  have high := a.toInt_lt
  simp only [minI64, maxI64]
  omega

theorem toInt_clampI64 (n : Int) : (clampI64 n).toInt = clamp n := by
  rw [clampI64]
  simp only [clamp, minI64, maxI64]
  exact Int64.toInt_ofInt_of_le (by omega) (by omega)

@[simp] theorem toInt_add (a b : Int64) : (add a b).toInt = clamp (a.toInt + b.toInt) :=
  toInt_clampI64 _

@[simp] theorem toInt_sub (a b : Int64) : (sub a b).toInt = clamp (a.toInt - b.toInt) :=
  toInt_clampI64 _

@[simp] theorem toInt_mul (a b : Int64) : (mul a b).toInt = clamp (a.toInt * b.toInt) :=
  toInt_clampI64 _

end Saturating
