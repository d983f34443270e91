import Mathlib.Logic.Function.Iterate
import Mathlib.Tactic.Ring

/-!
# The Gregorian calendar, day by day

The proleptic calendar from the year 0 on, by what day follows a day. A day's number counts
how often one has to turn the page from the epoch, or back to it. Any function that is zero
on the epoch and grows by one from day to day counts so.
-/

namespace Gregorian

structure Date where
  year : Nat
  month : Nat
  day : Nat
  deriving DecidableEq, Repr

def Leap (year : Nat) : Prop := year % 4 = 0 ∧ (year % 100 = 0 → year % 400 = 0)

instance (year : Nat) : Decidable (Leap year) := inferInstanceAs (Decidable (_ ∧ (_ → _)))

def monthLength (year month : Nat) : Nat :=
  if month = 2 then if Leap year then 29 else 28
  else if month = 4 ∨ month = 6 ∨ month = 9 ∨ month = 11 then 30
  else 31

namespace Date

/-- There is such a day. -/
structure Valid (d : Date) : Prop where
  month : 1 ≤ d.month ∧ d.month ≤ 12
  day : 1 ≤ d.day ∧ d.day ≤ monthLength d.year d.month

def tomorrow (d : Date) : Date :=
  if d.day < monthLength d.year d.month then ⟨d.year, d.month, d.day + 1⟩
  else if d.month < 12 then ⟨d.year, d.month + 1, 1⟩
  else ⟨d.year + 1, 1, 1⟩

def epoch : Date := ⟨1970, 1, 1⟩

/-- The first day there is. -/
def first : Date := ⟨0, 1, 1⟩

/-- So many days after the epoch; before it, if negative. -/
def Numbered (d : Date) (n : Int) : Prop := tomorrow^[n.toNat] epoch = tomorrow^[(-n).toNat] d

end Date

open Date

theorem monthLength_pos (year month : Nat) : 28 ≤ monthLength year month := by
  rw [monthLength]
  split
  · split <;> omega
  · split <;> omega

theorem monthLength_le (year month : Nat) : monthLength year month ≤ 31 := by
  rw [monthLength]
  split
  · split <;> omega
  · split <;> omega

theorem Date.Valid.tomorrow {d : Date} (h : d.Valid) : d.tomorrow.Valid := by
  have long := monthLength_pos d.year (d.month + 1)
  have january := monthLength_pos (d.year + 1) 1
  obtain ⟨⟨low, high⟩, first, last⟩ := h
  rw [Date.tomorrow]
  split
  · next more => exact ⟨⟨low, high⟩, ⟨Nat.le_add_left 1 _, more⟩⟩
  split
  · next more => exact ⟨⟨Nat.le_add_left 1 _, more⟩, ⟨Nat.le_refl 1, by simp only; omega⟩⟩
  · exact ⟨⟨Nat.le_refl 1, Nat.le_add_left 1 11⟩, ⟨Nat.le_refl 1, by simp only; omega⟩⟩

/-- A day comes after so many others. -/
def Comes (d : Date) : Prop := ∃ k, Date.tomorrow^[k] first = d

theorem Comes.tomorrow {d : Date} (h : Comes d) : Comes d.tomorrow := by
  obtain ⟨k, rfl⟩ := h
  exact ⟨k + 1, Function.iterate_succ_apply' _ _ _⟩

theorem comes_day {year month : Nat} (h : Comes ⟨year, month, 1⟩) (day : Nat) :
    day + 1 ≤ monthLength year month → Comes ⟨year, month, day + 1⟩ := by
  induction day with
  | zero => exact fun _ => h
  | succ day ih =>
    intro more
    have next := (ih (by omega)).tomorrow
    rwa [Date.tomorrow, if_pos (Nat.lt_of_succ_le more)] at next

theorem comes_next {year month : Nat} (h : Comes ⟨year, month, 1⟩) :
    Comes (if month < 12 then ⟨year, month + 1, 1⟩ else ⟨year + 1, 1, 1⟩) := by
  have long := monthLength_pos year month
  have last := (comes_day h (monthLength year month - 1) (by omega)).tomorrow
  rwa [Date.tomorrow, if_neg (by simp only; omega)] at last

theorem comes_month {year : Nat} (h : Comes ⟨year, 1, 1⟩) (month : Nat) :
    month < 12 → Comes ⟨year, month + 1, 1⟩ := by
  induction month with
  | zero => exact fun _ => h
  | succ month ih =>
    intro more
    have next := comes_next (ih (by omega))
    rwa [if_pos more] at next

theorem comes_year (year : Nat) : Comes ⟨year, 1, 1⟩ := by
  induction year with
  | zero => exact ⟨0, rfl⟩
  | succ year ih =>
    have next := comes_next (comes_month ih 11 (by decide))
    rwa [if_neg (by decide)] at next

/-- Every day comes. -/
theorem Date.Valid.comes {d : Date} (h : d.Valid) : Comes d := by
  obtain ⟨year, month, day⟩ := d
  obtain ⟨⟨low, high⟩, first, last⟩ := h
  simp only at low high first last
  have start := comes_month (comes_year year) (month - 1) (by omega)
  rw [Nat.sub_add_cancel low] at start
  have there := comes_day start (day - 1) (by omega)
  rwa [Nat.sub_add_cancel first] at there

section
variable {f : Date → Int} (next : ∀ d : Date, d.Valid → f d.tomorrow = f d + 1)

include next

theorem count_iterate {d : Date} (h : d.Valid) (k : Nat) :
    (Date.tomorrow^[k] d).Valid ∧ f (Date.tomorrow^[k] d) = f d + k := by
  induction k with
  | zero => exact ⟨h, by simp⟩
  | succ k ih =>
    obtain ⟨valid, count⟩ := ih
    rw [Function.iterate_succ_apply', next _ valid, count]
    exact ⟨valid.tomorrow, by push_cast; ring⟩

/-- How far two days are apart. -/
theorem apart_iff {d e : Date} (h : d.Valid) (h' : e.Valid) (n : Int) :
    Date.tomorrow^[n.toNat] e = Date.tomorrow^[(-n).toNat] d ↔ n = f d - f e := by
  have one : first.Valid := ⟨by decide, by decide⟩
  constructor
  · intro same
    have counts := congrArg f same
    rw [(count_iterate next h' _).2, (count_iterate next h _).2] at counts
    omega
  · rintro rfl
    obtain ⟨i, rfl⟩ := h.comes
    obtain ⟨j, rfl⟩ := h'.comes
    rw [(count_iterate next one i).2, (count_iterate next one j).2, ← Function.iterate_add_apply,
      ← Function.iterate_add_apply]
    have turns : (f first + i - (f first + j)).toNat + j =
        (-(f first + i - (f first + j))).toNat + i := by omega
    rw [turns]

/-- What counts from day to day numbers every day. -/
theorem numbered_iff (start : f epoch = 0) {d : Date} (h : d.Valid) (n : Int) :
    d.Numbered n ↔ n = f d := by
  rw [Numbered, apart_iff next h ⟨by decide, by decide⟩, start, sub_zero]

end

end Gregorian
