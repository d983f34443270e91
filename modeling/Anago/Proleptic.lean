import Anago.Gregorian

/-!
# The Gregorian calendar, before the year 0 too

The leap rule repeats every 400 years, so that every day is some cycles before a day of the
calendar from the year 0 on, and what follows it is as long before what follows that.
-/

namespace Proleptic

structure Day where
  year : Int
  month : Nat
  day : Nat
  deriving DecidableEq, Repr

def Leap (year : Int) : Prop := year % 4 = 0 ∧ (year % 100 = 0 → year % 400 = 0)

instance (year : Int) : Decidable (Leap year) := inferInstanceAs (Decidable (_ ∧ (_ → _)))

def monthLength (year : Int) (month : Nat) : Nat :=
  if month = 2 then if Leap year then 29 else 28
  else if month = 4 ∨ month = 6 ∨ month = 9 ∨ month = 11 then 30
  else 31

namespace Day

/-- There is such a day. -/
structure Valid (d : Day) : Prop where
  month : 1 ≤ d.month ∧ d.month ≤ 12
  day : 1 ≤ d.day ∧ d.day ≤ monthLength d.year d.month

def tomorrow (d : Day) : Day :=
  if d.day < monthLength d.year d.month then ⟨d.year, d.month, d.day + 1⟩
  else if d.month < 12 then ⟨d.year, d.month + 1, 1⟩
  else ⟨d.year + 1, 1, 1⟩

def epoch : Day := ⟨1970, 1, 1⟩

/-- So many days after the epoch; before it, if negative. -/
def Numbered (d : Day) (n : Int) : Prop := tomorrow^[n.toNat] epoch = tomorrow^[(-n).toNat] d

end Day

open Day

theorem monthLength_le (year : Int) (month : Nat) : monthLength year month ≤ 31 := by
  rw [monthLength]
  split
  · split <;> omega
  · split <;> omega

/-- The day so many cycles of 400 years earlier. -/
def earlier (cycles : Nat) (d : Gregorian.Date) : Day := ⟨d.year - 400 * cycles, d.month, d.day⟩

theorem leap_earlier (cycles year : Nat) : Leap (year - 400 * cycles) ↔ Gregorian.Leap year := by
  rw [Leap, Gregorian.Leap]
  omega

theorem monthLength_earlier (cycles year month : Nat) :
    monthLength (year - 400 * cycles) month = Gregorian.monthLength year month := by
  simp only [monthLength, Gregorian.monthLength, leap_earlier]

theorem valid_earlier (cycles : Nat) (d : Gregorian.Date) : (earlier cycles d).Valid ↔ d.Valid := by
  constructor
  · rintro ⟨month, day⟩
    simp only [earlier, monthLength_earlier] at month day
    exact ⟨month, day⟩
  · rintro ⟨month, day⟩
    refine ⟨month, ?_⟩
    simp only [earlier, monthLength_earlier]
    exact day

theorem tomorrow_earlier (cycles : Nat) (d : Gregorian.Date) :
    (earlier cycles d).tomorrow = earlier cycles d.tomorrow := by
  obtain ⟨year, month, day⟩ := d
  simp only [tomorrow, earlier, Gregorian.Date.tomorrow, monthLength_earlier]
  by_cases more : day < Gregorian.monthLength year month
  · simp [more]
  by_cases early : month < 12
  · simp [more, early]
  · simp [more, early]
    omega

theorem iterate_earlier (cycles k : Nat) (d : Gregorian.Date) :
    tomorrow^[k] (earlier cycles d) = earlier cycles (Gregorian.Date.tomorrow^[k] d) := by
  induction k with
  | zero => rfl
  | succ k ih =>
    rw [Function.iterate_succ_apply', Function.iterate_succ_apply', ih, tomorrow_earlier]

theorem earlier_injective (cycles : Nat) : Function.Injective (earlier cycles) := by
  rintro ⟨year, month, day⟩ ⟨year', month', day'⟩ same
  simp only [earlier, Day.mk.injEq] at same
  obtain ⟨years, rfl, rfl⟩ := same
  obtain rfl : year = year' := by omega
  rfl

/-- With enough cycles, every day is reached. -/
theorem exists_earlier (cycles : Nat) {d : Day} (h : 0 ≤ d.year + 400 * cycles) :
    ∃ e, earlier cycles e = d := by
  refine ⟨⟨(d.year + 400 * cycles).toNat, d.month, d.day⟩, ?_⟩
  obtain ⟨year, month, day⟩ := d
  simp only [earlier, Day.mk.injEq, and_true]
  simp only at h
  omega

section
variable {f : Day → Int} (next : ∀ d : Day, d.Valid → f d.tomorrow = f d + 1)

include next

/-- What counts from day to day numbers every day. -/
theorem numbered_iff (start : f epoch = 0) {d : Day} (h : d.Valid) (n : Int) :
    d.Numbered n ↔ n = f d := by
  have epochal : epoch.Valid := ⟨by decide, by decide⟩
  obtain ⟨cycles, enough⟩ : ∃ cycles : Nat, 0 ≤ d.year + 400 * cycles := ⟨d.year.natAbs, by omega⟩
  obtain ⟨e, rfl⟩ := exists_earlier cycles enough
  obtain ⟨e', start'⟩ : ∃ e', earlier cycles e' = epoch :=
    exists_earlier cycles (by simp only [epoch]; omega)
  have steps : ∀ g : Gregorian.Date, g.Valid →
      f (earlier cycles g.tomorrow) = f (earlier cycles g) + 1 := by
    intro g valid
    rw [← tomorrow_earlier, next _ ((valid_earlier cycles g).mpr valid)]
  have apart := Gregorian.apart_iff (f := fun g => f (earlier cycles g)) steps
    ((valid_earlier cycles e).mp h) ((valid_earlier cycles e').mp (start' ▸ epochal)) n
  rw [Numbered, ← start', iterate_earlier, iterate_earlier, (earlier_injective cycles).eq_iff,
    apart, start', start, sub_zero]

end

end Proleptic
