import Mathlib.Data.Nat.ModEq

/-!
# Times of day

A schedule on the clock names minutes and hours and fires wherever both fit. It repeats
every day, and it is a schedule of one period only for few periods: those that divide the
hour, and the whole hours that divide the day (`even_iff`).
-/

namespace ClockTimes

structure Times where
  minute : Nat → Bool
  hour : Nat → Bool

/-- Whether it fires `t` minutes after a midnight. -/
def Times.fires (times : Times) (t : Nat) : Bool :=
  times.minute (t % 60) && times.hour (t / 60 % 24)

/-- It fires once every `period` minutes, and at no other time. -/
def Times.Even (times : Times) (period : Nat) : Prop :=
  ∃ start < period, ∀ t, times.fires t = true ↔ t % period = start

variable {times : Times} {t u period : Nat}

theorem Times.fires_iff : times.fires t = true ↔ times.minute (t % 60) = true ∧ times.hour
    (t / 60 % 24) = true :=
  Bool.and_eq_true_iff

/-- The minute of one firing and the hour of another one. -/
theorem Times.fires_mixed (minute : times.fires t = true) (hour : times.fires u = true) :
    times.fires (u / 60 * 60 + t % 60) = true := by
  have small : t % 60 < 60 := Nat.mod_lt _ (by omega)
  have minutes : (u / 60 * 60 + t % 60) % 60 = t % 60 := by omega
  have hours : (u / 60 * 60 + t % 60) / 60 = u / 60 := by omega
  rw [fires_iff, minutes, hours]
  exact ⟨(fires_iff.mp minute).1, (fires_iff.mp hour).2⟩

theorem Times.fires_daily (h : times.fires t = true) : times.fires (t + 1440) = true := by
  have minutes : (t + 1440) % 60 = t % 60 := by omega
  have hours : (t + 1440) / 60 % 24 = t / 60 % 24 := by omega
  rw [fires_iff, minutes, hours]
  exact fires_iff.mp h

/-- Two firings are a multiple of the period apart. -/
theorem dvd_of_fires {start : Nat} (even : ∀ t, times.fires t = true ↔ t % period = start)
    (first : times.fires t = true) (second : times.fires (t + u) = true) : period ∣ u := by
  have same : (t + u) % period = t % period := ((even _).mp second).trans ((even _).mp first).symm
  have zero : (t + u - t) % period = 0 := Nat.sub_mod_eq_zero_of_mod_eq same
  rw [Nat.add_sub_cancel_left] at zero
  exact Nat.dvd_of_mod_eq_zero zero

theorem Times.Even.day (even : times.Even period) : period ∣ 1440 := by
  obtain ⟨start, small, even⟩ := even
  have fires : times.fires start = true := (even start).mpr (Nat.mod_eq_of_lt small)
  exact dvd_of_fires even fires (fires_daily fires)

/-- Every hour has a firing, so each of them has that of the hour before. -/
theorem Times.Even.short (even : times.Even period) (short : period ≤ 60) : period ∣ 60 := by
  obtain ⟨start, small, even⟩ := even
  have fires : times.fires start = true := (even start).mpr (Nat.mod_eq_of_lt small)
  have next : ∃ u, times.fires u = true ∧ u / 60 = start / 60 + 1 := by
    -- the last firing that is not after the next hour
    let last := start / 60 * 60 + 119
    refine ⟨last - (last - start) % period, ?_, ?_⟩
    · rw [even]
      have parts := Nat.div_add_mod (last - start) period
      have back : last - (last - start) % period = start + period * ((last - start) / period) := by
        omega
      rw [back, Nat.add_mul_mod_self_left, Nat.mod_eq_of_lt small]
    · have bound : (last - start) % period < period := Nat.mod_lt _ (by omega)
      omega
  obtain ⟨u, hour, place⟩ := next
  have mixed := fires_mixed fires hour
  have after : u / 60 * 60 + start % 60 = start + 60 := by omega
  rw [after] at mixed
  exact dvd_of_fires even fires mixed

/-- No hour has two firings, so all of them are at one minute. -/
theorem Times.Even.long (even : times.Even period) (long : 60 < period) : 60 ∣ period := by
  obtain ⟨start, small, even⟩ := even
  have fires : times.fires start = true := (even start).mpr (Nat.mod_eq_of_lt small)
  have next : times.fires (start + period) = true := by
    rw [even, Nat.add_mod_right, Nat.mod_eq_of_lt small]
  have mixed := fires_mixed next fires
  have there := (even _).mp mixed
  by_cases later : start ≤ start / 60 * 60 + (start + period) % 60
  · obtain ⟨gap, hgap⟩ := Nat.exists_eq_add_of_le later
    rw [hgap] at mixed
    have divides := dvd_of_fires even fires mixed
    have none : gap = 0 := Nat.eq_zero_of_dvd_of_lt divides (by omega)
    omega
  · obtain ⟨gap, hgap⟩ := Nat.exists_eq_add_of_le (Nat.le_of_not_le later)
    rw [hgap] at fires
    have divides := dvd_of_fires even mixed fires
    have none : gap = 0 := Nat.eq_zero_of_dvd_of_lt divides (by omega)
    omega

/-- The periods that the clock can keep. -/
def Kept (period : Nat) : Prop := period ∣ 60 ∨ 60 ∣ period ∧ period ∣ 1440

def everyMinutes (n : Nat) : Times := ⟨fun m => m % n == 0, fun _ => true⟩

def everyHours (n : Nat) : Times := ⟨fun m => m == 0, fun h => h % n == 0⟩

theorem everyMinutes_even {n : Nat} (divides : n ∣ 60) : (everyMinutes n).Even n := by
  refine ⟨0, Nat.pos_of_dvd_of_pos divides (by omega), fun t => ?_⟩
  rw [Times.fires_iff]
  simp [everyMinutes, Nat.mod_mod_of_dvd t divides]

theorem everyHours_even {n : Nat} (divides : n ∣ 24) : (everyHours n).Even (60 * n) := by
  have pos : 0 < n := Nat.pos_of_dvd_of_pos divides (by omega)
  refine ⟨0, by omega, fun t => ?_⟩
  rw [Times.fires_iff]
  simp only [everyHours, beq_iff_eq, Nat.mod_mod_of_dvd (t / 60) divides]
  rw [Nat.mod_mul]
  constructor
  · rintro ⟨minutes, hours⟩
    rw [minutes, hours]
  · intro sum
    have parts := Nat.add_eq_zero_iff.mp sum
    exact ⟨parts.1, by omega⟩

theorem even_iff : (∃ times : Times, times.Even period) ↔ Kept period := by
  constructor
  · rintro ⟨times, even⟩
    by_cases short : period ≤ 60
    · exact Or.inl (even.short short)
    · exact Or.inr ⟨even.long (by omega), even.day⟩
  · rintro (divides | ⟨⟨n, rfl⟩, divides⟩)
    · exact ⟨_, everyMinutes_even divides⟩
    · exact ⟨_, everyHours_even (Nat.dvd_of_mul_dvd_mul_left (show 0 < 60 by omega) divides)⟩

end ClockTimes
