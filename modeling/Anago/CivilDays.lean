import Anago.Proleptic
import Anago.X509

/-!
# Civil dates as day numbers

`days_from_civil` of x509.rs over every year an `i64` counts to, before the year 0 too. From
there on it counts from day to day; a cycle of 400 years has 146097 days, which takes the
count back as far as one likes.
-/

namespace CivilDays

open Proleptic Proleptic.Day X509

/-- The arithmetic stops where an `i64` overflows. -/
def i64 (n : Int) : Option Int :=
  if -9223372036854775808 ≤ n ∧ n ≤ 9223372036854775807 then some n else none

/-- `days_from_civil`, with every step an `i64`. -/
def daysFromCivil64 (year month day : Int) : Option Int := do
  -- March-based years, so that the leap day is the last day of one.
  let year ← i64 (if month ≤ 2 then year - 1 else year)
  let years ← i64 (if 0 ≤ year then year else year - 399)
  let era := years.tdiv 400
  let start ← i64 (era * 400)
  let yearOfEra ← i64 (year - start)
  let march ← i64 (if 2 < month then month - 3 else month + 9)
  let months ← i64 (153 * march)
  let months ← i64 (months + 2)
  let dayOfYear ← i64 (months.tdiv 5 + day)
  let dayOfYear ← i64 (dayOfYear - 1)
  let years ← i64 (yearOfEra * 365)
  let years ← i64 (years + yearOfEra.tdiv 4)
  let years ← i64 (years - yearOfEra.tdiv 100)
  let dayOfEra ← i64 (years + dayOfYear)
  let eras ← i64 (era * 146097)
  let days ← i64 (eras + dayOfEra)
  i64 (days - 719468)

theorem bind_i64 {n r : Int} {f : Int → Option Int} (h : i64 n >>= f = some r) : f n = some r := by
  rw [i64] at h
  split at h
  · exact h
  · cases h

theorem i64_bind {n : Int} (low : -9223372036854775808 ≤ n) (high : n ≤ 9223372036854775807)
    (f : Int → Option Int) :
    i64 n >>= f = f n := by
  rw [i64, if_pos ⟨low, high⟩]
  rfl

theorem i64_some {n r : Int} (h : i64 n = some r) : r = n := by
  rw [i64] at h
  split at h
  · exact (Option.some.inj h).symm
  · cases h

/-- Where nothing overflows, the `i64`s compute what the integers do. -/
theorem daysFromCivil64_eq {year month day n : Int} (h : daysFromCivil64 year month day = some n) :
    n = daysFromCivil year month day := by
  rw [daysFromCivil64] at h
  have h := bind_i64 (bind_i64 (bind_i64 (bind_i64 (bind_i64 (bind_i64 (bind_i64 (bind_i64 h)))))))
  have h := bind_i64 (bind_i64 (bind_i64 (bind_i64 (bind_i64 (bind_i64 (bind_i64 h))))))
  rw [i64_some h, daysFromCivil]

/-- Nothing overflows for 25 million billion years to either side. -/
theorem daysFromCivil64_fits {year month day : Int} (old : -25000000000000000 ≤ year)
    (late : year ≤ 25000000000000000) (low : 1 ≤ month) (high : month ≤ 12) (first : 1 ≤ day)
    (last : day ≤ 31) :
    daysFromCivil64 year month day = some (daysFromCivil year month day) := by
  rw [daysFromCivil64, daysFromCivil, i64_bind (by split <;> omega) (by split <;> omega)]
  have old' : -25000000000000001 ≤ if month ≤ 2 then year - 1 else year := by split <;> omega
  have late' : (if month ≤ 2 then year - 1 else year) ≤ 25000000000000000 := by split <;> omega
  generalize (if month ≤ 2 then year - 1 else year) = y at old' late'
  rw [i64_bind (by split <;> omega) (by split <;> omega)]
  simp only [era_eq]
  have bounds : 0 ≤ (if 2 < month then month - 3 else month + 9) ∧
      (if 2 < month then month - 3 else month + 9) ≤ 11 := by
    split <;> omega
  generalize (if 2 < month then month - 3 else month + 9) = march at bounds
  have days : (153 * march + 2).tdiv 5 = (153 * march + 2) / 5 :=
    Int.tdiv_eq_ediv_of_nonneg (by omega)
  have fours : (y - y / 400 * 400).tdiv 4 = (y - y / 400 * 400) / 4 :=
    Int.tdiv_eq_ediv_of_nonneg (by omega)
  have hundreds : (y - y / 400 * 400).tdiv 100 = (y - y / 400 * 400) / 100 :=
    Int.tdiv_eq_ediv_of_nonneg (by omega)
  iterate 5 rw [i64_bind (by omega) (by omega)]
  rw [days, fours, hundreds]
  iterate 8 rw [i64_bind (by omega) (by omega)]
  exact if_pos ⟨by omega, by omega⟩

theorem isLeap_iff_leap (year : Int) : isLeap year = true ↔ Leap year := by
  rw [isLeap, Leap]
  simp only [Bool.and_eq_true, Bool.or_eq_true, decide_eq_true_eq, ne_eq,
    ← Int.dvd_iff_tmod_eq_zero]
  omega

theorem daysInMonth_length (year : Int) {month : Nat} (low : 1 ≤ month) (high : month ≤ 12) :
    daysInMonth year month = monthLength year month := by
  rw [daysInMonth, monthLength]
  by_cases february : month = 2
  · subst february
    by_cases leap : Leap year
    · simp [leap, (isLeap_iff_leap year).mpr leap]
    · have common : isLeap year = false := by
        rw [← Bool.not_eq_true, isLeap_iff_leap]
        exact leap
      simp [leap, common]
  · rw [if_neg february]
    split
    · rw [if_neg (by omega)]
      rfl
    · rw [if_pos (by omega), if_pos (by omega)]
      rfl

/-- A cycle has 146097 days. -/
theorem daysFromCivil_earlier (cycles : Nat) (year day : Int) {month : Int} (low : 1 ≤ month) :
    daysFromCivil (year - 400 * cycles) month day =
      daysFromCivil year month day - 146097 * cycles := by
  rw [daysFromCivil_eq low, daysFromCivil_eq low]
  by_cases early : month ≤ 2
  · simp only [early, if_true]
    omega
  · simp only [early, if_false]
    omega

/-- The count of a day. -/
def dayCount (d : Day) : Int := daysFromCivil d.year d.month d.day

theorem dayCount_epoch : dayCount epoch = 0 := by decide

theorem dayCount_earlier (cycles : Nat) {d : Gregorian.Date} (h : d.Valid) :
    dayCount (earlier cycles d) = count d - 146097 * cycles :=
  daysFromCivil_earlier cycles d.year d.day (by exact_mod_cast h.month.1)

theorem dayCount_tomorrow (d : Day) (h : d.Valid) : dayCount d.tomorrow = dayCount d + 1 := by
  obtain ⟨cycles, enough⟩ : ∃ cycles : Nat, 0 ≤ d.year + 400 * cycles := ⟨d.year.natAbs, by omega⟩
  obtain ⟨e, rfl⟩ := exists_earlier cycles enough
  have valid := (valid_earlier cycles e).mp h
  rw [tomorrow_earlier, dayCount_earlier cycles valid.tomorrow, dayCount_earlier cycles valid,
    count_tomorrow e valid]
  ring

/-- A date is as many days from 1970-01-01 as `days_from_civil` says, in every year whose days
an `i64` counts to; the next day is one further. -/
theorem civil_days_count (d : Day) (h : d.Valid) :
    d.Numbered (daysFromCivil d.year d.month d.day) ∧
    daysFromCivil d.tomorrow.year d.tomorrow.month d.tomorrow.day =
      daysFromCivil d.year d.month d.day + 1 ∧
    (∀ n, daysFromCivil64 d.year d.month d.day = some n → d.Numbered n) ∧
    (-25000000000000000 ≤ d.year ∧ d.year ≤ 25000000000000000 →
      daysFromCivil64 d.year d.month d.day = some (daysFromCivil d.year d.month d.day)) ∧
    daysInMonth d.year d.month = monthLength d.year d.month := by
  have counted : d.Numbered (dayCount d) :=
    (numbered_iff dayCount_tomorrow dayCount_epoch h _).mpr rfl
  have long := monthLength_le d.year d.month
  obtain ⟨⟨low, high⟩, first, last⟩ := id h
  refine ⟨counted, dayCount_tomorrow d h, ?_, ?_, daysInMonth_length _ low high⟩
  · intro n computed
    rw [daysFromCivil64_eq computed]
    exact counted
  · rintro ⟨old, late⟩
    exact daysFromCivil64_fits old late (by omega) (by omega) (by omega) (by omega)

/-- The last day before the year 0. -/
theorem civil_days_count_december :
    Day.Valid ⟨-1, 12, 31⟩ ∧ daysFromCivil (-1) 12 31 = -719529 ∧
      Day.Numbered ⟨-1, 12, 31⟩ (-719529) :=
  ⟨⟨by decide, by decide⟩, by decide, (civil_days_count ⟨-1, 12, 31⟩ ⟨by decide, by decide⟩).1⟩

end CivilDays
