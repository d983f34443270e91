import Anago.Timer
import Anago.UnitReads

/-!
# Periods

A period is typed with a unit, and each scheduler counts it in its own way: systemd reads a
time span, launchd seconds, and cron the minutes and hours of a clock. What each of them
reads is the period that was typed, and cron gets a line for just the periods a clock can
keep.
-/

open StdText DecimalText RenewalLoop ClockTimes QuotedWords
open UnixPath (name)

namespace Cron

def isBlank (c : Char) : Bool := c == ' ' || c == '\t'

/-- The values that a field names: all of them, one in so many, or one. -/
def field : List Char → Option (Nat → Bool)
  | ['*'] => some fun _ => true
  | '*' :: '/' :: digits =>
    (parseDigits digits).bind fun n => if n = 0 then none else some fun v => v % n == 0
  | digits => (parseDigits digits).map fun n v => v == n

/-- The next field, and what is after the blanks behind it. -/
def cut (cs : List Char) : List Char × List Char :=
  (cs.takeWhile (!isBlank ·), (cs.dropWhile (!isBlank ·)).dropWhile isBlank)

/-- When a line fires and what it runs then, if it is the same every day. -/
def entry (line : List Char) : Option (Times × List Char) := do
  let (minute, rest) := cut line
  let (hour, rest) := cut rest
  let (day, rest) := cut rest
  let (month, rest) := cut rest
  let (weekday, command) := cut rest
  if day = ['*'] ∧ month = ['*'] ∧ weekday = ['*']
    then some (⟨← field minute, ← field hour⟩, command)
  else none

/-- A field holds no blank. -/
def Solid (cs : List Char) : Prop := cs.all (!isBlank ·) = true

theorem cut_word {word rest : List Char} (plain : Solid word)
    (next : rest.head?.all (!isBlank ·) = true) :
    cut (word ++ ' ' :: rest) = (word, rest) := by
  have all : ∀ c ∈ word, (!isBlank c) = true := List.all_eq_true.mp plain
  have stop : (' ' :: rest).takeWhile (!isBlank ·) = [] ∧
      (' ' :: rest).dropWhile (!isBlank ·) = ' ' :: rest := ⟨rfl, rfl⟩
  rw [cut, List.takeWhile_append_of_pos all, List.dropWhile_append_of_pos all, stop.1,
    stop.2, List.append_nil, List.dropWhile_cons_of_pos (by decide)]
  cases rest with
  | nil => rfl
  | cons c rest =>
    have other : isBlank c ≠ true := by
      simpa using next
    rw [List.dropWhile_cons_of_neg other]

theorem entry_fields {minute hour command : List Char} (minutes : Solid minute) (hours : Solid hour)
    (start : hour ≠ []) (filled : command.head?.all (!isBlank ·) = true) :
    entry (minute ++ ' ' :: (hour ++ (" * * * ".toList ++ command))) =
      (field minute).bind fun m => (field hour).map fun h => (⟨m, h⟩, command) := by
  have star : Solid ['*'] := rfl
  have stars : " * * * ".toList ++ command =
      ' ' :: (['*'] ++ ' ' :: (['*'] ++ ' ' :: (['*'] ++ ' ' :: command))) := by
    have text : " * * * ".toList = [' ', '*', ' ', '*', ' ', '*', ' '] := by decide
    rw [text]
    rfl
  have head :
      (hour ++ ' ' :: (['*'] ++ ' ' :: (['*'] ++ ' ' :: (['*'] ++ ' ' :: command)))).head?.all
        (!isBlank ·) = true := by
    cases hour with
    | nil => exact absurd rfl start
    | cons c hour =>
      have first := List.all_eq_true.mp hours c (List.mem_cons_self ..)
      exact first
  rw [stars, entry, cut_word minutes head]
  simp only
  rw [cut_word hours rfl]
  simp only
  rw [cut_word star rfl]
  simp only
  rw [cut_word star rfl]
  simp only
  rw [cut_word star filled]
  simp only [and_self, if_true]
  cases field minute with
  | none => rfl
  | some m =>
    cases field hour with
    | none => rfl
    | some h => rfl

end Cron

namespace TimeSpan

/-- The units of a time span, in microseconds. -/
def units : List (List Char × Nat) :=
  [("us", 1), ("usec", 1), ("ms", 1000), ("msec", 1000), ("", 1000000),
    ("s", 1000000), ("sec", 1000000), ("second", 1000000), ("seconds", 1000000), ("m", 60000000),
    ("min", 60000000), ("minute", 60000000), ("minutes", 60000000), ("h", 3600000000),
    ("hr", 3600000000), ("hour", 3600000000), ("hours", 3600000000), ("d", 86400000000),
    ("day", 86400000000), ("days", 86400000000), ("w", 604800000000), ("week", 604800000000),
    ("weeks", 604800000000), ("M", 2629800000000), ("month", 2629800000000),
    ("months", 2629800000000), ("y", 31557600000000), ("year", 31557600000000),
    ("years", 31557600000000)].map fun (name, n) => (name.toList, n)

/-- Amounts with their units, one after the other, blanks between them or not. -/
def parts : Nat → List Char → Option Nat
  | 0, _ => none
  | fuel + 1, cs =>
    match cs.dropWhile Cron.isBlank with
    | [] => some 0
    | rest => do
      let amount ← parseDigits (rest.takeWhile Char.isDigit)
      let rest := (rest.dropWhile Char.isDigit).dropWhile Cron.isBlank
      let unit ← units.lookup (rest.takeWhile Char.isAlpha)
      let later ← parts fuel (rest.dropWhile Char.isAlpha)
      some (amount * unit + later)

/-- What a value with a time span stands for, in microseconds. -/
def read (cs : List Char) : Option Nat := if cs.all Cron.isBlank then none else parts cs.length cs

theorem alpha_other {c : Char} (h : c.isAlpha = true) :
    c.isDigit = false ∧ Cron.isBlank c = false := by
  have range : (65 ≤ c.toNat ∧ c.toNat ≤ 90) ∨ (97 ≤ c.toNat ∧ c.toNat ≤ 122) := by
    delta Char.isAlpha Char.isUpper Char.isLower at h
    simpa [Bool.or_eq_true, Bool.and_eq_true, decide_eq_true_eq, UInt32.le_iff_toNat_le] using h
  constructor
  · rw [Bool.eq_false_iff]
    intro digit
    rw [isDigit_iff] at digit
    omega
  · have space : c ≠ ' ' := by
      rintro rfl
      revert range
      decide
    have tab : c ≠ '\t' := by
      rintro rfl
      revert range
      decide
    simp [Cron.isBlank, space, tab]

theorem digit_solid {c : Char} (h : c.isDigit = true) : Cron.isBlank c = false := by
  rw [isDigit_iff] at h
  have space : c ≠ ' ' := by
    rintro rfl
    revert h
    decide
  have tab : c ≠ '\t' := by
    rintro rfl
    revert h
    decide
  simp [Cron.isBlank, space, tab]

/-- One amount with its unit. -/
theorem read_amount {n amount : Nat} {unit : List Char} (known : units.lookup unit = some amount)
    (letters : unit.all Char.isAlpha = true) (filled : unit ≠ []) :
    read (showNat n ++ unit) = some (n * amount) := by
  have digits := List.all_eq_true.mp (all_isDigit_showNat n)
  obtain ⟨d, ds, hd⟩ := List.exists_cons_of_ne_nil (showNat_ne_nil n)
  obtain ⟨c, u, rfl⟩ := List.exists_cons_of_ne_nil filled
  obtain ⟨notDigit, notBlank⟩ := alpha_other (List.all_eq_true.mp letters c (List.mem_cons_self ..))
  have solid : Cron.isBlank d = false := digit_solid (digits d (hd ▸ List.mem_cons_self ..))
  have start : ((showNat n) ++ c :: u).dropWhile Cron.isBlank = d :: (ds ++ c :: u) := by
    rw [hd, List.cons_append, List.dropWhile_cons_of_neg (by rw [solid]; exact Bool.false_ne_true)]
  have some' : ¬((showNat n) ++ c :: u).all Cron.isBlank = true := by
    rw [hd, List.cons_append, List.all_cons, solid]
    exact Bool.false_ne_true
  have stop : (c :: u).takeWhile Char.isDigit = [] ∧ (c :: u).dropWhile Char.isDigit = c :: u := by
    rw [List.takeWhile_cons_of_neg (by rw [notDigit]; exact Bool.false_ne_true),
      List.dropWhile_cons_of_neg (by rw [notDigit]; exact Bool.false_ne_true)]
    exact ⟨rfl, rfl⟩
  have amounts : (d :: (ds ++ c :: u)).takeWhile Char.isDigit = showNat n ∧
      (d :: (ds ++ c :: u)).dropWhile Char.isDigit = c :: u := by
    rw [← List.cons_append, ← hd, List.takeWhile_append_of_pos digits,
      List.dropWhile_append_of_pos digits, stop.1, stop.2, List.append_nil]
    exact ⟨rfl, rfl⟩
  have letters' := List.all_eq_true.mp letters
  have word : (c :: u).takeWhile Char.isAlpha = c :: u ∧ (c :: u).dropWhile Char.isAlpha = [] :=
    ⟨List.takeWhile_eq_self_iff.mpr letters', List.dropWhile_eq_nil_iff.mpr letters'⟩
  have blank : (c :: u).dropWhile Cron.isBlank = c :: u :=
    List.dropWhile_cons_of_neg (by rw [notBlank]; exact Bool.false_ne_true)
  obtain ⟨fuel, hfuel⟩ : ∃ fuel, (showNat n ++ c :: u).length = fuel + 2 :=
    ⟨ds.length + u.length, by rw [hd]; simp; omega⟩
  rw [read, if_neg some', hfuel, parts, start]
  simp only [amounts.1, amounts.2, blank, word.1, word.2, parseDigits_showNat, known,
    Option.bind_eq_bind, Option.bind_some]
  rw [parts]
  rfl

end TimeSpan

namespace Timer

open Cron

theorem toList_show (n : Nat) : (Systemd.show' n).toList = showNat n := String.toList_ofList

theorem always_even : (⟨fun _ => true, fun _ => true⟩ : Times).Even 1 :=
  ⟨0, by omega, fun t => by simp [Times.fires, Nat.mod_one]⟩

theorem hourly_even : (⟨fun m => m == 0, fun _ => true⟩ : Times).Even 60 :=
  ⟨0, by omega, fun t => by simp [Times.fires]⟩

theorem daily_even : (⟨fun m => m == 0, fun h => h == 0⟩ : Times).Even 1440 := by
  refine ⟨0, by omega, fun t => ?_⟩
  rw [Times.fires_iff]
  simp only [beq_iff_eq]
  omega

/-- A step field, of digits. -/
theorem field_every (n : Nat) (pos : 0 < n) :
    field ('*' :: '/' :: showNat n) = some fun v => v % n == 0 := by
  rw [field, parseDigits_showNat, Option.bind_some, if_neg (by omega)]

theorem solid_every (n : Nat) : Solid ('*' :: '/' :: showNat n) := by
  rw [Solid, List.all_cons, List.all_cons]
  simp only [Bool.and_eq_true]
  refine ⟨by decide, by decide, List.all_eq_true.mpr fun c hc => ?_⟩
  have digit := List.all_eq_true.mp (all_isDigit_showNat n) c hc
  rw [isDigit_iff] at digit
  have space : c ≠ ' ' := by
    rintro rfl
    revert digit
    decide
  have tab : c ≠ '\t' := by
    rintro rfl
    revert digit
    decide
  simp [isBlank, space, tab]

/-- The fields of a line, and that the clock keeps the period with them. -/
structure Keeps (schedule : String) (minutes : Nat) (minute hour : List Char)
    (times : Times) : Prop where
  text : schedule.toList = minute ++ ' ' :: (hour ++ " * * *".toList)
  minuteSolid : Solid minute
  hourSolid : Solid hour
  filled : hour ≠ []
  minuteField : field minute = some times.minute
  hourField : field hour = some times.hour
  even : times.Even minutes

theorem cronSchedule_keeps {interval : Duration} {schedule : String}
    (h : cronSchedule interval = some schedule) :
    60 ∣ interval.asSecs ∧ ∃ minute hour times,
      Keeps schedule (interval.asSecs / 60) minute hour times := by
  rw [cronSchedule] at h
  simp only at h
  split at h
  · cases h
  next whole =>
  rw [not_or, not_not] at whole
  refine ⟨whole.2, ?_⟩
  generalize interval.asSecs / 60 = minutes at h
  split at h
  · next one =>
    refine ⟨['*'], ['*'], ⟨fun _ => true, fun _ => true⟩, ?_⟩
    rw [← Option.some.inj h, one]
    exact ⟨by decide, rfl, rfl, by decide, rfl, rfl, always_even⟩
  next more =>
  split at h
  · next short =>
    split at h
    · next divides =>
      have pos : 0 < minutes := Nat.pos_of_dvd_of_pos divides (by omega)
      refine ⟨'*' :: '/' :: showNat minutes, ['*'], everyMinutes minutes, ?_⟩
      rw [← Option.some.inj h]
      refine ⟨?_, solid_every minutes, rfl, by decide, field_every minutes pos, rfl,
        everyMinutes_even divides⟩
      have last : " * * * *".toList = ' ' :: '*' :: " * * *".toList := by decide
      rw [String.toList_append, String.toList_append, toList_show, last]
      rfl
    · cases h
  next long =>
  split at h
  · cases h
  next hours =>
  rw [not_not] at hours
  obtain ⟨n, rfl⟩ := hours
  have exact : 60 * n / 60 = n := by omega
  rw [exact] at h
  split at h
  · next one =>
    refine ⟨['0'], ['*'], ⟨fun m => m == 0, fun _ => true⟩, ?_⟩
    rw [← Option.some.inj h, one]
    exact ⟨by decide, rfl, rfl, by decide, rfl, rfl, hourly_even⟩
  next several =>
  split at h
  · next day =>
    refine ⟨['0'], ['0'], ⟨fun m => m == 0, fun h => h == 0⟩, ?_⟩
    rw [← Option.some.inj h, day]
    exact ⟨by decide, rfl, rfl, by decide, rfl, rfl, daily_even⟩
  next some =>
  split at h
  · next divides =>
    refine ⟨['0'], '*' :: '/' :: showNat n, everyHours n, ?_⟩
    rw [← Option.some.inj h]
    refine ⟨?_, rfl, solid_every n, List.cons_ne_nil _ _, rfl,
      field_every n (Nat.pos_of_dvd_of_pos divides.2 (by omega)), everyHours_even divides.2⟩
    rw [String.toList_append, String.toList_append, toList_show]
    rfl
  · cases h

theorem cronSchedule_of_kept {interval : Duration} {n : Nat}
    (secs : interval.asSecs = 60 * n) (kept : Kept n) :
    ∃ schedule, cronSchedule interval = some schedule := by
  have pos : 0 < n := by
    rcases kept with divides | ⟨_, divides⟩
    · exact Nat.pos_of_dvd_of_pos divides (by omega)
    · exact Nat.pos_of_dvd_of_pos divides (by omega)
  have exact : 60 * n / 60 = n := by omega
  rw [cronSchedule, secs]
  simp only
  rw [if_neg (by omega), exact]
  by_cases one : n = 1
  · exact ⟨_, if_pos one⟩
  rw [if_neg one]
  by_cases short : n < 60
  · rw [if_pos short]
    have divides : n ∣ 60 := by
      rcases kept with divides | ⟨long, _⟩
      · exact divides
      · exact absurd (Nat.le_of_dvd pos long) (by omega)
    exact ⟨_, if_pos divides⟩
  rw [if_neg short]
  have hours : 60 ∣ n ∧ n ∣ 1440 := by
    rcases kept with divides | long
    · have same : n = 60 := by
        have := Nat.le_of_dvd (by omega) divides
        omega
      exact ⟨⟨1, by omega⟩, ⟨24, by omega⟩⟩
    · exact long
  obtain ⟨⟨k, rfl⟩, divides⟩ := hours
  have parts : k ∣ 24 := Nat.dvd_of_mul_dvd_mul_left (show 0 < 60 by omega) divides
  have whole : 60 * k / 60 = k := by omega
  rw [if_neg (not_not.mpr ⟨k, rfl⟩), whole]
  by_cases hourly : k = 1
  · exact ⟨_, if_pos hourly⟩
  rw [if_neg hourly]
  by_cases daily : k = 24
  · exact ⟨_, if_pos daily⟩
  rw [if_neg daily]
  have bound := Nat.le_of_dvd (show 0 < 24 by omega) parts
  exact ⟨_, if_pos ⟨by omega, parts⟩⟩

theorem cronSchedule_none_iff (interval : Duration) :
    cronSchedule interval = none ↔ ∀ (times : Times) (minutes : Nat), times.Even minutes →
      interval.asSecs ≠ 60 * minutes := by
  constructor
  · intro none times minutes even secs
    obtain ⟨schedule, some⟩ := cronSchedule_of_kept secs (even_iff.mp ⟨times, even⟩)
    rw [none] at some
    cases some
  · intro h
    cases found : cronSchedule interval with
    | none => rfl
    | some schedule =>
      obtain ⟨whole, _, _, times, keeps⟩ := cronSchedule_keeps found
      exact absurd (Nat.mul_div_cancel' whole).symm (h times _ keeps.even)

/-- There is a command just when both paths can be written. -/
theorem crontabCommand_ok_iff (exec deviceFile : UnixPath) :
    (∃ command, Crontab.crontabCommand exec deviceFile = .ok command) ↔
      ¬Crontab.Refused exec ∧ ¬Crontab.Refused deviceFile := by
  rw [← Crontab.shell_ok_iff, ← Crontab.shell_ok_iff, Crontab.crontabCommand]
  cases Crontab.shell exec with
  | error e =>
    refine iff_of_false ?_ ?_
    · rintro ⟨_, ⟨⟩⟩
    · rintro ⟨⟨_, ⟨⟩⟩, _⟩
  | ok e =>
    cases Crontab.shell deviceFile with
    | error e' =>
      refine iff_of_false ?_ ?_
      · rintro ⟨_, ⟨⟩⟩
      · rintro ⟨_, _, ⟨⟩⟩
    | ok d => exact iff_of_true ⟨_, rfl⟩ ⟨⟨_, rfl⟩, _, rfl⟩

/-- The command begins with a slash or with a quote. -/
theorem crontabCommand_head {exec deviceFile : UnixPath} (absolute : exec.isAbsolute = true)
    {command : String} (ok : Crontab.crontabCommand exec deviceFile = .ok command) :
    command.toList.head?.all (!isBlank ·) = true := by
  simp only [Crontab.crontabCommand, Bind.bind, Except.bind] at ok
  split at ok
  · cases ok
  next e he =>
  split at ok
  · cases ok
  obtain ⟨shown, _, _, text, htext⟩ := Crontab.shell_ok he
  obtain ⟨rest, slash⟩ := UnixPath.name_absolute htext absolute
  have chars : ∃ later, command.toList = (Crontab.rendered (name exec)).flatMap
      Crontab.percentChar ++ later := by
    rw [← Except.ok.inj ok, replace, String.toList_ofList, String.toList_append,
      String.toList_append, shown, List.flatMap_append, List.flatMap_append, List.append_assoc]
    exact ⟨_, rfl⟩
  obtain ⟨later, chars⟩ := chars
  rw [chars, Crontab.rendered, slash]
  split
  · rfl
  · rfl

/-- cron fires the line once in every period and at no other time, and it runs the command
with its two paths, which are absolute. There is a line just when a clock can keep the period
and a line can hold the paths. -/
theorem crontab_keeps_period (exec deviceFile : UnixPath) (interval : Duration) :
    (exec.isAbsolute = true → deviceFile.isAbsolute = true →
      ∀ line, crontabLine exec deviceFile interval = .ok line → ∃ times command minutes,
        Cron.entry line.toList = some (times, command) ∧ interval.asSecs = 60 * minutes ∧
          times.Even minutes ∧ Shell.simpleCommand (Shell.cronCommand command) =
            some [name exec, "sync".toList, "--quiet".toList, "--config".toList, name deviceFile]) ∧
    ((∃ line, crontabLine exec deviceFile interval = .ok line) ↔
      (∃ (times : Times) (minutes : Nat), times.Even minutes ∧ interval.asSecs = 60 * minutes) ∧
        ¬Crontab.Refused exec ∧ ¬Crontab.Refused deviceFile) := by
  constructor
  · intro absolute absolute' line ok
    rw [crontabLine] at ok
    split at ok
    · cases ok
    next schedule found =>
    split at ok
    · cases ok
    next command run =>
    obtain ⟨whole, minute, hour, times, keeps⟩ := cronSchedule_keeps found
    have read := Crontab.cronCommand_line run
    have paths := (crontabCommand_ok_iff exec deviceFile).mp ⟨command, run⟩
    obtain ⟨e, he⟩ := (Crontab.shell_ok_iff exec).mpr paths.1
    obtain ⟨d, hd⟩ := (Crontab.shell_ok_iff deviceFile).mpr paths.2
    obtain ⟨_, _, _, text, htext⟩ := Crontab.shell_ok he
    obtain ⟨_, _, _, other, hother⟩ := Crontab.shell_ok hd
    refine ⟨times, command.toList, interval.asSecs / 60, ?_,
      (Nat.mul_div_cancel' whole).symm, keeps.even, ?_⟩
    · have line_text :
          line.toList = minute ++ ' ' :: (hour ++ (" * * * ".toList ++ command.toList)) := by
        have stars : " * * * ".toList = " * * *".toList ++ " ".toList := by decide
        rw [← Except.ok.inj ok, String.toList_append, String.toList_append, keeps.text, stars]
        simp only [List.append_assoc, List.cons_append]
      rw [line_text, entry_fields keeps.minuteSolid keeps.hourSolid keeps.filled
        (crontabCommand_head absolute run), keeps.minuteField, keeps.hourField]
      rfl
    · rw [read]
      exact Crontab.simpleCommand_line
        ⟨UnixPath.name_absolute htext absolute, UnixPath.name_absolute hother absolute'⟩
  · rw [← crontabCommand_ok_iff]
    cases found : cronSchedule interval with
    | none =>
      have never := (cronSchedule_none_iff interval).mp found
      refine iff_of_false ?_ ?_
      · rw [crontabLine, found]
        rintro ⟨_, ⟨⟩⟩
      · rintro ⟨⟨times, minutes, even, secs⟩, _⟩
        exact never times minutes even secs
    | some schedule =>
      obtain ⟨whole, _, _, times, keeps⟩ := cronSchedule_keeps found
      have kept : ∃ (times : Times) (minutes : Nat), times.Even minutes ∧
          interval.asSecs = 60 * minutes :=
        ⟨times, _, keeps.even, (Nat.mul_div_cancel' whole).symm⟩
      rw [crontabLine, found]
      cases Crontab.crontabCommand exec deviceFile with
      | error e =>
        refine iff_of_false ?_ ?_
        · rintro ⟨_, ⟨⟩⟩
        · rintro ⟨_, _, ⟨⟩⟩
      | ok command => exact iff_of_true ⟨_, rfl⟩ ⟨kept, _, rfl⟩

theorem crontab_keeps_period_sample :
    ∃ times command,
      Cron.entry "*/15 * * * * /opt/anago sync --quiet --config '/home/jo doe/device.json'".toList =
      some (times, command) ∧ times.Even 15 ∧
      (Shell.simpleCommand (Shell.cronCommand command)).isSome := by
  have line :
      crontabLine (Utf8Text.asBytes "/opt/anago") (Utf8Text.asBytes "/home/jo doe/device.json")
        (Duration.ofSecs 900) =
      .ok "*/15 * * * * /opt/anago sync --quiet --config '/home/jo doe/device.json'" := by
        decide +kernel
  have absolute : UnixPath.isAbsolute (Utf8Text.asBytes "/opt/anago") = true ∧
      UnixPath.isAbsolute (Utf8Text.asBytes "/home/jo doe/device.json") = true := by decide +kernel
  obtain ⟨times, command, minutes, read, secs, even, run⟩ :=
    (crontab_keeps_period _ _ _).1 absolute.1 absolute.2 _ line
  have fifteen : minutes = 15 := by
    have period : (Duration.ofSecs 900).asSecs = 900 := by decide
    rw [period] at secs
    omega
  exact ⟨times, command, read, fifteen ▸ even, by rw [run]; rfl⟩

end Timer

namespace Systemd

open Timer

theorem span_read (interval : Duration) :
    TimeSpan.read (span interval).toList = some (interval.asSecs * 1000000) := by
  rw [span]
  split
  · next zero =>
    rw [zero]
    decide
  split
  · next hours =>
    have read := @TimeSpan.read_amount (interval.asSecs / 3600) _ "h".toList rfl
      (by decide) (by decide)
    rw [String.toList_append, toList_show, read, Option.some.injEq]
    omega
  split
  · next minutes =>
    have read := @TimeSpan.read_amount (interval.asSecs / 60) _ "min".toList rfl
      (by decide) (by decide)
    rw [String.toList_append, toList_show, read, Option.some.injEq]
    omega
  · have read := @TimeSpan.read_amount interval.asSecs _ "s".toList rfl (by decide) (by decide)
    rw [String.toList_append, toList_show, read]

theorem span_line (interval : Duration) : '\n' ∉ (span interval).toList := by
  have shown : ∀ n : Nat, '\n' ∉ showNat n := by
    intro n there
    have digit := List.all_eq_true.mp (all_isDigit_showNat n) _ there
    revert digit
    decide
  have ends : '\n' ∉ "h".toList ∧ '\n' ∉ "min".toList ∧ '\n' ∉ "s".toList := by decide
  rw [span]
  split
  · decide
  split
  · rw [String.toList_append, toList_show, List.mem_append]
    exact not_or_intro (shown _) ends.1
  split
  · rw [String.toList_append, toList_show, List.mem_append]
    exact not_or_intro (shown _) ends.2.1
  · rw [String.toList_append, toList_show, List.mem_append]
    exact not_or_intro (shown _) ends.2.2

/-- The directives of the timer. -/
def timerItems (every : List Char) : List UnitFile.Item :=
  [.section "Unit".toList,
    .entry "Description".toList ("anago — sync the peer list every ".toList ++ every),
    directive "Documentation" "https://github.com/elpalaiso/anago",
    .section "Timer".toList,
    .entry "OnBootSec".toList every,
    .entry "OnUnitActiveSec".toList every,
    directive "Unit" syncService,
    .section "Install".toList,
    directive "WantedBy" "timers.target"]

theorem timer_items (interval : Duration) :
    UnitFile.items (syncTimerText interval).toList = timerItems (span interval).toList := by
  have line := span_line interval
  generalize hevery : span interval = every at line
  have first : ReadsAs ["[Unit]"] [.section "Unit".toList] := @readsAs_fixed [_] _ rfl rfl
  have middle : ReadsAs ["Documentation=https://github.com/elpalaiso/anago", "", "[Timer]"]
      [directive "Documentation" "https://github.com/elpalaiso/anago", .section "Timer".toList] :=
    @readsAs_fixed [_, _, _] _ rfl rfl
  have last : ReadsAs (((syncTimerLines "").drop 8)) [.section "Install".toList,
      directive "WantedBy" "timers.target"] :=
    @readsAs_fixed [_, _, _, _, _, _] _ rfl rfl
  have rest := ReadsAs.line "Unit".toList [syncService.toList] ("Unit=" ++ syncService)
    (by rw [String.toList_append]; rfl) (by decide) (by decide) (by decide) (by decide) last
  have active := ReadsAs.line "OnUnitActiveSec".toList [every.toList] ("OnUnitActiveSec=" ++ every)
    (by rw [String.toList_append]; rfl) (by decide) (by decide) (by decide) (by simp [line]) rest
  have boot := ReadsAs.line "OnBootSec".toList [every.toList] ("OnBootSec=" ++ every)
    (by rw [String.toList_append]; rfl) (by decide) (by decide) (by decide) (by simp [line]) active
  have clean : '\n' ∉ "anago — sync the peer list every ".toList := by decide
  have about := ReadsAs.line "Description".toList
    ["anago — sync the peer list every ".toList ++ every.toList]
    ("Description=anago — sync the peer list every " ++ every)
    (by rw [String.toList_append]; rfl) (by decide) (by decide) (by decide)
    (by
      intro text htext
      rw [List.mem_singleton.mp htext, List.mem_append]
      exact not_or_intro clean line)
    (middle.append boot)
  have all := (first.append about).text
  rw [syncTimerText, hevery]
  exact all

end Systemd

namespace Timer

variable [Unicode]

/-- The seconds that a command line asks for. -/
def Typed (parsed : Args.ParsedArgs) (n : Nat) : Prop :=
  match parsed.value "interval" with
  | none => n = 300
  | some text =>
    ∃ digits unit seconds count, (unit, seconds) ∈ Cli.units ∧ text.toList = digits ++ [unit] ∧
      parseUnsigned digits = some count ∧ n = count * seconds

omit [Unicode] in
theorem stripSuffix_iff {c : Char} {cs digits : List Char} :
    Cli.stripSuffix c cs = some digits ↔ cs = digits ++ [c] := by
  rw [Cli.stripSuffix]
  constructor
  · intro h
    split at h
    · next last =>
      rw [← Option.some.inj h]
      exact (List.dropLast_append_getLast? c last).symm
    · cases h
  · rintro rfl
    simp

omit [Unicode] in
/-- A unit is what its text ends with. -/
theorem findUnit_iff {cs digits : List Char} {seconds : Nat} :
    (Cli.units.findSome? fun unit => (Cli.stripSuffix unit.1 cs).map fun digits =>
      (digits, unit.2)) = some (digits, seconds) ↔
      ∃ unit, (unit, seconds) ∈ Cli.units ∧ cs = digits ++ [unit] := by
  constructor
  · intro h
    obtain ⟨⟨unit, amount⟩, there, h⟩ := List.exists_of_findSome?_eq_some h
    obtain ⟨front, strips, same⟩ := Option.map_eq_some_iff.mp h
    obtain ⟨rfl, rfl⟩ := Prod.mk.inj same
    exact ⟨unit, there, stripSuffix_iff.mp strips⟩
  · rintro ⟨unit, there, rfl⟩
    simp only [Cli.units, List.mem_cons, Prod.mk.injEq, List.not_mem_nil, or_false] at there
    rcases there with ⟨rfl, rfl⟩ | ⟨rfl, rfl⟩ | ⟨rfl, rfl⟩
    · simp [Cli.units, Cli.stripSuffix]
    · simp [Cli.units, Cli.stripSuffix]
    · simp [Cli.units, Cli.stripSuffix]

omit [Unicode] in
theorem unit_pos {unit : Char} {seconds : Nat} (h : (unit, seconds) ∈ Cli.units) : 1 ≤ seconds := by
  simp only [Cli.units, List.mem_cons, Prod.mk.injEq, List.not_mem_nil, or_false] at h
  omega

omit [Unicode] in
theorem asSecs_ofSecs (n : Nat) : (Duration.ofSecs n).asSecs = n := Nat.mul_div_cancel n (by omega)

omit [Unicode] in
theorem lt_minInterval {n : Nat} : Duration.ofSecs n < Cli.minInterval ↔ n < 60 := by
  show n * 1000000000 < 60 * 1000000000 ↔ n < 60
  omega

omit [Unicode] in
theorem maxInterval_lt {n : Nat} : Cli.maxInterval < Duration.ofSecs n ↔ 24 * 60 * 60 < n := by
  show 24 * 60 * 60 * 1000000000 < n * 1000000000 ↔ 24 * 60 * 60 < n
  omega

/-- What a command line asks for, if that is a length of time at all, and whether it is taken. -/
theorem interval_iff (parsed : Args.ParsedArgs) (interval : Duration) :
    Cli.interval parsed = .ok interval ↔
      ∃ n, Typed parsed n ∧ 60 ≤ n ∧ n ≤ 24 * 60 * 60 ∧ interval = Duration.ofSecs n := by
  rw [Cli.interval]
  simp only [Typed]
  cases parsed.value "interval" with
  | none =>
    simp only [Except.ok.injEq]
    constructor
    · rintro rfl
      exact ⟨300, rfl, by omega, by omega, rfl⟩
    · rintro ⟨n, rfl, _, _, rfl⟩
      rfl
  | some text =>
    simp only
    cases found : Cli.units.findSome? fun unit =>
      (Cli.stripSuffix unit.1 text.toList).map fun digits => (digits, unit.2) with
    | none =>
      refine iff_of_false (by rintro ⟨⟩) ?_
      rintro ⟨n, ⟨digits, unit, seconds, count, known, ends, _⟩, _⟩
      cases found.symm.trans (findUnit_iff.mpr ⟨unit, known, ends⟩)
    | some pair =>
      obtain ⟨digits, seconds⟩ := pair
      obtain ⟨unit, known, ends⟩ := findUnit_iff.mp found
      have pos := unit_pos known
      -- the text has one reading at most
      have only : ∀ {n : Nat}, (∃ digits unit seconds count,
          (unit, seconds) ∈ Cli.units ∧ text.toList = digits ++ [unit] ∧
          parseUnsigned digits = some count ∧ n = count * seconds) ↔
          ∃ count, parseUnsigned digits = some count ∧ n = count * seconds := by
        intro n
        constructor
        · rintro ⟨digits', unit', seconds', count, known', ends', read, rfl⟩
          have same := Option.some.inj (found.symm.trans (findUnit_iff.mpr ⟨unit', known', ends'⟩))
          obtain ⟨rfl, rfl⟩ := Prod.mk.inj same
          exact ⟨count, read, rfl⟩
        · rintro ⟨count, read, rfl⟩
          exact ⟨digits, unit, seconds, count, known, ends, read, rfl⟩
      simp only [only, Cli.parseU64]
      cases read : parseUnsigned digits with
      | none =>
        refine iff_of_false (by rintro ⟨⟩) ?_
        rintro ⟨n, ⟨count, ⟨⟩, _⟩, _⟩
      | some count =>
        have large : count ≤ count * seconds := Nat.le_mul_of_pos_right count pos
        simp only [Option.bind_some, Option.some.injEq, exists_eq_left']
        by_cases fits : count ≤ Cli.u64Max
        · rw [if_pos fits]
          simp only
          generalize count * seconds = n
          by_cases short : n < 60
          · rw [if_pos (lt_minInterval.mpr (show min n Cli.u64Max < 60 by omega))]
            refine iff_of_false (by rintro ⟨⟩) ?_
            rintro ⟨_, rfl, least, _⟩
            omega
          · have enough : ¬min n Cli.u64Max < 60 := by
              rw [Cli.u64Max]
              omega
            rw [if_neg fun less => enough (lt_minInterval.mp less)]
            by_cases long : 24 * 60 * 60 < n
            · have more : 24 * 60 * 60 < min n Cli.u64Max := by
                rw [Cli.u64Max]
                omega
              rw [if_pos (maxInterval_lt.mpr more)]
              refine iff_of_false (by rintro ⟨⟩) ?_
              rintro ⟨_, rfl, _, most, _⟩
              omega
            · have same : min n Cli.u64Max = n := by
                rw [Cli.u64Max]
                omega
              rw [same, if_neg fun more => long (maxInterval_lt.mp more), Except.ok.injEq]
              constructor
              · rintro rfl
                exact ⟨n, rfl, by omega, by omega, rfl⟩
              · rintro ⟨_, rfl, _, _, rfl⟩
                rfl
        · rw [if_neg fits]
          refine iff_of_false (by rintro ⟨⟩) ?_
          rintro ⟨n, rfl, _, small, _⟩
          rw [Cli.u64Max] at fits
          omega

/-- A command line is taken just when it asks for a period between a minute and a day, and
then systemd's timer and launchd's daemon are told that period. -/
theorem typed_period_kept (parsed : Args.ParsedArgs) :
    (∀ interval, Cli.interval parsed = .ok interval → ∃ n,
      Typed parsed n ∧ interval = Duration.ofSecs n ∧
      UnitFile.items (Systemd.syncTimerText interval).toList =
        Systemd.timerItems (Systemd.span interval).toList ∧
        TimeSpan.read (Systemd.span interval).toList = some (n * 1000000) ∧
        Launchd.startInterval interval = n) ∧
    ((∃ interval, Cli.interval parsed = .ok interval) ↔ ∃ n,
      Typed parsed n ∧ 60 ≤ n ∧ n ≤ 24 * 60 * 60) := by
  refine ⟨fun interval ok => ?_, ?_⟩
  · obtain ⟨n, typed, _, _, rfl⟩ := (interval_iff parsed interval).mp ok
    refine ⟨n, typed, rfl, Systemd.timer_items _, ?_, asSecs_ofSecs n⟩
    rw [Systemd.span_read, asSecs_ofSecs]
  · constructor
    · rintro ⟨interval, ok⟩
      obtain ⟨n, typed, least, most, _⟩ := (interval_iff parsed interval).mp ok
      exact ⟨n, typed, least, most⟩
    · rintro ⟨n, typed, least, most⟩
      exact ⟨_, (interval_iff parsed _).mpr ⟨n, typed, least, most, rfl⟩⟩

end Timer
