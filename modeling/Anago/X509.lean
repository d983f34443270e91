import Anago.Gregorian
import Anago.Outcome
import Anago.Utf8Text

/-!
# The expiry of a certificate

A walk over the DER elements of a certificate to the second time of its validity, and the
number of seconds from the epoch to that time. Reading `None` is the error of an `Outcome`;
splitting or slicing out of range panics.
-/

open Gregorian Utf8Text

namespace X509

def sequence : UInt8 := 0x30

def integer : UInt8 := 0x02

/-- `VERSION`, the context tag `[0]`. -/
def version : UInt8 := 0xA0

def utcTime : UInt8 := 0x17

def generalizedTime : UInt8 := 0x18

/-- `split_at`. -/
def splitAt (bytes : List UInt8) (n : Nat) : Outcome Unit (List UInt8 × List UInt8) :=
  if n ≤ bytes.length then .ok (bytes.take n, bytes.drop n) else .panic

/-- Bytes as one number, the highest first. -/
def bigEndian (bytes : List UInt8) : Nat := bytes.foldl (fun n b => n * 256 + b.toNat) 0

/-- The length of an element, in one byte or in so many that the first one tells. -/
def lengthOf (first : UInt8) (rest : List UInt8) : Outcome Unit (Nat × List UInt8) :=
  if first.toNat < 0x80 then .ok (first.toNat, rest)
  else
    let count := first.toNat % 128
    if count = 0 ∨ 4 < count ∨ rest.length < count then .err ()
    else do
      let (bytes, rest) ← splitAt rest count
      .ok (bigEndian bytes, rest)

/-- `Der::next`. The next element's tag and contents, and what is behind it. -/
def next : List UInt8 → Outcome Unit ((UInt8 × List UInt8) × List UInt8)
  | tag :: first :: rest => do
    let (length, rest) ← lengthOf first rest
    if rest.length < length then .err ()
    else do
      let (contents, after) ← splitAt rest length
      .ok ((tag, contents), after)
  | _ => .err ()

/-- `Der::expect`. -/
def expect (bytes : List UInt8) (tag : UInt8) : Outcome Unit (List UInt8 × List UInt8) := do
  let ((found, contents), rest) ← next bytes
  if found = tag then .ok (contents, rest) else .err ()

/-- `is_char_boundary`, on the bytes of a `str`. -/
def isCharBoundary (text : List UInt8) (i : Nat) : Bool :=
  i = 0 || i = text.length ||
    match text[i]? with
    | some b => b.toNat < 0x80 || 0xC0 ≤ b.toNat
    | none => false

/-- `&text[start..]`. -/
def strFrom (text : List UInt8) (start : Nat) : Outcome Unit (List UInt8) :=
  if isCharBoundary text start then .ok (text.drop start) else .panic

def isDigit (b : UInt8) : Bool := 0x30 ≤ b.toNat && b.toNat ≤ 0x39

/-- `parse`, of digits. -/
def digitsValue (digits : List UInt8) : Int :=
  digits.foldl (fun n b => n * 10 + (b.toNat - 0x30 : Nat)) 0

/-- Two ASCII digits. -/
def number (text : List UInt8) (at' : Nat) : Outcome Unit Int :=
  if isCharBoundary text at' && isCharBoundary text (at' + 2) then
    let pair := (text.drop at').take 2
    if pair.all isDigit then .ok (digitsValue pair) else .err ()
  else .err ()

def isLeap (year : Int) : Bool := year.tmod 4 = 0 && (year.tmod 100 ≠ 0 || year.tmod 400 = 0)

def daysInMonth (year month : Int) : Int :=
  if month = 1 ∨ month = 3 ∨ month = 5 ∨ month = 7 ∨ month = 8 ∨ month = 10 ∨ month = 12 then 31
  else if month = 4 ∨ month = 6 ∨ month = 9 ∨ month = 11 then 30
  else if month = 2 then if isLeap year then 29 else 28
  else 0

/-- Days from 1970-01-01, by years that begin in March. -/
def daysFromCivil (year month day : Int) : Int :=
  let year := if month ≤ 2 then year - 1 else year
  let era := (if 0 ≤ year then year else year - 399).tdiv 400
  let yearOfEra := year - era * 400
  let dayOfYear := (153 * (if 2 < month then month - 3 else month + 9) + 2).tdiv 5 + day - 1
  let dayOfEra := yearOfEra * 365 + yearOfEra.tdiv 4 - yearOfEra.tdiv 100 + dayOfYear
  era * 146097 + dayOfEra - 719468

/-- The year of a time, and the text behind it. -/
def yearOf (tag : UInt8) (text : List UInt8) : Outcome Unit (Int × List UInt8) :=
  if tag = utcTime ∧ text.length = 13 then do
    let short ← number text 0
    let rest ← strFrom text 2
    .ok (if 50 ≤ short then 1900 + short else 2000 + short, rest)
  else if tag = generalizedTime ∧ text.length = 15 then do
    let high ← number text 0
    let low ← number text 2
    let rest ← strFrom text 4
    .ok (high * 100 + low, rest)
  else .err ()

/-- An X.509 `Time` in epoch seconds. -/
def time (tag : UInt8) (text : List UInt8) : Outcome Unit Int :=
  if fromUtf8 text = none then .err ()
  else do
    let (year, rest) ← yearOf tag text
    if rest.getLast? ≠ some 0x5A then .err ()
    else do
      let month ← number rest 0
      let day ← number rest 2
      let hour ← number rest 4
      let minute ← number rest 6
      let second ← number rest 8
      if ¬(1 ≤ month ∧ month ≤ 12) ∨ day < 1 ∨ daysInMonth year month < day ∨
          23 < hour ∨ 59 < minute ∨ 60 < second then .err ()
      else .ok (daysFromCivil year month day * 86400 + hour * 3600 + minute * 60 + second)

/-- What is behind the serial number, of fields that may begin with a version. -/
def serial (fields : List UInt8) : Outcome Unit (List UInt8) := do
  let ((tag, _), rest) ← next fields
  let (tag, rest) ←
    if tag = version then do
      let ((tag, _), rest) ← next rest
      .ok (tag, rest)
    else .ok (tag, rest)
  if tag ≠ integer then .err () else .ok rest

/-- `not_after`, in epoch seconds. -/
def notAfter (der : List UInt8) : Outcome Unit Int := do
  let (certificate, _) ← expect der sequence
  let (fields, _) ← expect certificate sequence
  let fields ← serial fields
  let (_, fields) ← expect fields sequence
  let (_, fields) ← expect fields sequence
  let (validity, _) ← expect fields sequence
  let (_, validity) ← next validity
  let ((tag, text), _) ← next validity
  time tag text

theorem era_eq (year : Int) : (if 0 ≤ year then year else year - 399).tdiv 400 = year / 400 := by
  split
  · next old => exact Int.tdiv_eq_ediv_of_nonneg old
  · next before =>
    have negated : year - 399 = -(399 - year) := by omega
    rw [negated, Int.neg_tdiv, Int.tdiv_eq_ediv_of_nonneg (by omega)]
    omega

/-- The same, with divisions that round down. -/
theorem daysFromCivil_eq {year month day : Int} (low : 1 ≤ month) :
    daysFromCivil year month day =
      let y := if month ≤ 2 then year - 1 else year
      let r := y - y / 400 * 400
      y / 400 * 146097 + (r * 365 + r / 4 - r / 100 +
        ((153 * (if 2 < month then month - 3 else month + 9) + 2) / 5 + day - 1)) - 719468 := by
  have month' : 0 ≤ 153 * (if 2 < month then month - 3 else month + 9) + 2 := by split <;> omega
  simp only [daysFromCivil, era_eq]
  generalize (if month ≤ 2 then year - 1 else year) = y
  have rest : 0 ≤ y - y / 400 * 400 := by omega
  rw [Int.tdiv_eq_ediv_of_nonneg month', Int.tdiv_eq_ediv_of_nonneg rest,
    Int.tdiv_eq_ediv_of_nonneg rest]

/-- The count of a day. -/
def count (d : Date) : Int := daysFromCivil d.year d.month d.day

theorem count_epoch : count Date.epoch = 0 := by decide

/-- The day after the last of February. -/
theorem march_begins (year : Nat) :
    daysFromCivil year 3 1 = daysFromCivil year 2 (monthLength year 2 : Nat) + 1 := by
  rw [daysFromCivil_eq (by omega), daysFromCivil_eq (by omega)]
  have length : (monthLength year 2 : Int) = if Leap year then 29 else 28 := by
    rw [monthLength, if_pos rfl]
    split <;> rfl
  rw [length]
  by_cases leap : Leap year
  · rw [if_pos leap]
    obtain ⟨four, hundred⟩ := leap
    simp
    omega
  · rw [if_neg leap]
    rw [Leap] at leap
    simp
    omega

theorem count_tomorrow (d : Date) (h : d.Valid) : count d.tomorrow = count d + 1 := by
  obtain ⟨year, month, day⟩ := d
  obtain ⟨⟨low, high⟩, first, last⟩ := h
  simp only at low high first last
  rw [Date.tomorrow]
  split
  · next more =>
    rw [count, count, daysFromCivil_eq (by simp only; omega),
      daysFromCivil_eq (by simp only; omega)]
    simp only
    omega
  next more =>
  obtain rfl : day = monthLength year month := by simp only at more; omega
  by_cases february : month = 2
  · subst february
    exact march_begins year
  split
  · next early =>
    have others : month = 1 ∨ month = 3 ∨ month = 4 ∨ month = 5 ∨ month = 6 ∨ month = 7 ∨
        month = 8 ∨ month = 9 ∨
        month = 10 ∨ month = 11 := by simp only at early; omega
    rw [count, count, daysFromCivil_eq (by simp only; omega),
      daysFromCivil_eq (by simp only; omega)]
    rcases others with rfl | rfl | rfl | rfl | rfl | rfl | rfl | rfl | rfl | rfl
      <;> simp [monthLength] <;> omega
  · next late =>
    obtain rfl : month = 12 := by simp only at late; omega
    rw [count, count, daysFromCivil_eq (by simp only; omega),
      daysFromCivil_eq (by simp only; omega)]
    simp [monthLength]
    omega

example : count ⟨2026, 11, 17⟩ = 20774 := by decide

theorem isLeap_iff (year : Nat) : isLeap year = true ↔ Leap year := by
  rw [isLeap, Leap, Int.tmod_eq_emod_of_nonneg (by omega), Int.tmod_eq_emod_of_nonneg (by omega),
    Int.tmod_eq_emod_of_nonneg (by omega)]
  simp only [Bool.and_eq_true, Bool.or_eq_true, decide_eq_true_eq]
  omega

theorem daysInMonth_eq {year month : Nat} (low : 1 ≤ month) (high : month ≤ 12) :
    daysInMonth year month = monthLength year month := by
  rw [daysInMonth, monthLength]
  by_cases february : month = 2
  · subst february
    by_cases leap : Leap year
    · simp [leap, (isLeap_iff year).mpr leap]
    · have common : isLeap year = false := by
        rw [← Bool.not_eq_true, isLeap_iff]
        exact leap
      simp [leap, common]
  · rw [if_neg february]
    split
    · rw [if_neg (by omega)]
      rfl
    · rw [if_pos (by omega), if_pos (by omega)]
      rfl

/-- The bytes begin with an element of definite length. -/
inductive Starts : List UInt8 → UInt8 → List UInt8 → List UInt8 → Prop
  | short {tag length : UInt8} {contents rest : List UInt8} :
    length.toNat < 128 → contents.length = length.toNat →
    Starts (tag :: length :: (contents ++ rest)) tag contents rest
  | long {tag first : UInt8} {length contents rest : List UInt8} :
    1 ≤ length.length → length.length ≤ 4 → first.toNat = 128 + length.length →
    contents.length = bigEndian length →
    Starts (tag :: first :: (length ++ (contents ++ rest))) tag contents rest

theorem splitAt_eq {bytes : List UInt8} {n : Nat} (h : n ≤ bytes.length) :
    splitAt bytes n = .ok (bytes.take n, bytes.drop n) := if_pos h

/-- A length that is not in one byte. -/
theorem lengthOf_long {first : UInt8} {rest : List UInt8} (h : ¬first.toNat < 128) :
    lengthOf first rest =
      if first.toNat % 128 = 0 ∨ 4 < first.toNat % 128 ∨
      rest.length < first.toNat % 128 then .err ()
      else .ok (bigEndian (rest.take (first.toNat % 128)), rest.drop (first.toNat % 128)) := by
  rw [lengthOf, if_neg h]
  simp only
  split
  · rfl
  · next fits =>
    rw [splitAt_eq (by omega)]
    rfl

theorem lengthOf_eq_ok {first : UInt8} {rest after : List UInt8} {n : Nat} :
    lengthOf first rest = .ok (n, after) ↔
      (first.toNat < 128 ∧ n = first.toNat ∧ after = rest) ∨
        ∃ length, 1 ≤ length.length ∧ length.length ≤ 4 ∧ first.toNat = 128 + length.length ∧
          rest = length ++ after ∧ n = bigEndian length := by
  have bound : first.toNat < 256 := first.toNat_lt
  constructor
  · intro h
    by_cases short : first.toNat < 128
    · rw [lengthOf, if_pos short] at h
      cases h
      exact Or.inl ⟨short, rfl, rfl⟩
    · rw [lengthOf_long short] at h
      split at h
      · cases h
      · next fits =>
        cases h
        refine Or.inr ⟨rest.take (first.toNat % 128), ?_, ?_, ?_,
          (List.take_append_drop _ _).symm, rfl⟩
        all_goals
          rw [List.length_take]
          omega
  · rintro (⟨short, rfl, rfl⟩ | ⟨length, some, few, tells, rfl, rfl⟩)
    · exact if_pos short
    · have count : first.toNat % 128 = length.length := by omega
      rw [lengthOf_long (by omega), count, List.take_left, List.drop_left, if_neg]
      rw [List.length_append]
      omega

theorem next_eq (tag first : UInt8) (rest : List UInt8) :
    next (tag :: first :: rest) = lengthOf first rest >>= fun (length, rest) =>
      if rest.length < length then .err () else .ok ((tag, rest.take length),
        rest.drop length) := by
  rw [next]
  refine congrArg (lengthOf first rest >>= ·) (funext fun (length, rest) => ?_)
  simp only
  split
  · rfl
  · next fits =>
    rw [splitAt_eq (by omega)]
    rfl

theorem next_eq_ok {bytes contents rest : List UInt8} {tag : UInt8} :
    next bytes = .ok ((tag, contents), rest) ↔ Starts bytes tag contents rest := by
  constructor
  · intro h
    match bytes with
    | [] => cases h
    | [_] => cases h
    | tag' :: first :: bytes =>
      rw [next_eq] at h
      obtain ⟨⟨n, after⟩, told, h⟩ := Outcome.bind_eq_ok h
      simp only at h
      split at h
      · cases h
      next fits =>
      cases h
      have counts : (after.take n).length = n := by
        rw [List.length_take]
        omega
      rw [lengthOf_eq_ok] at told
      rw [← List.take_append_drop n after] at told
      rcases told with ⟨short, rfl, rfl⟩ | ⟨length, some, few, tells, rfl, rfl⟩
      · exact .short short counts
      · exact .long some few tells counts
  · rintro (⟨short, counts⟩ | ⟨some, few, tells, counts⟩)
    · rw [next_eq, lengthOf_eq_ok.mpr (Or.inl ⟨short, rfl, rfl⟩), Outcome.ok_bind]
      simp only
      rw [if_neg, ← counts, List.take_left, List.drop_left]
      rw [List.length_append]
      omega
    · rw [next_eq, lengthOf_eq_ok.mpr (Or.inr ⟨_, some, few, tells, rfl, rfl⟩), Outcome.ok_bind]
      simp only
      rw [if_neg, ← counts, List.take_left, List.drop_left]
      rw [List.length_append]
      omega

/-- Nothing is split out of range. -/
theorem next_safe (bytes : List UInt8) : (next bytes).Sat (fun _ => True) fun _ => True := by
  match bytes with
  | [] => trivial
  | [_] => trivial
  | tag :: first :: rest =>
    have length : (lengthOf first rest).Sat (fun _ => True) fun _ => True := by
      by_cases short : first.toNat < 128
      · rw [lengthOf, if_pos short]
        trivial
      · rw [lengthOf_long short]
        split <;> trivial
    rw [next_eq]
    refine length.bind fun (n, after) _ => ?_
    simp only
    split <;> trivial

/-- A number below a hundred as two ASCII digits. -/
def twoDigits (n : Nat) : List UInt8 := [UInt8.ofNat (48 + n / 10), UInt8.ofNat (48 + n % 10)]

theorem toNat_digit {n : Nat} (h : n < 10) : (UInt8.ofNat (48 + n)).toNat = 48 + n := by
  rw [UInt8.toNat_ofNat']
  omega

theorem twoDigits_ascii {n : Nat} (h : n < 100) : ∀ b ∈ twoDigits n, b.toNat < 128 := by
  have high := toNat_digit (n := n / 10) (by omega)
  have low := toNat_digit (n := n % 10) (by omega)
  intro b mem
  rcases List.mem_cons.mp mem with rfl | mem
  · omega
  · obtain rfl := List.mem_singleton.mp mem
    omega

theorem number_twoDigits {n : Nat} (h : n < 100) :
    (twoDigits n).all isDigit = true ∧ digitsValue (twoDigits n) = n := by
  have high := toNat_digit (n := n / 10) (by omega)
  have low := toNat_digit (n := n % 10) (by omega)
  constructor
  · simp only [twoDigits, List.all_cons, List.all_nil, isDigit, high, low,
      Bool.and_true, Bool.and_eq_true, decide_eq_true_eq]
    omega
  · simp only [digitsValue, twoDigits, List.foldl_cons, List.foldl_nil, high, low]
    omega

/-- Two digits are those of a number. -/
theorem twoDigits_of_isDigit {pair : List UInt8} (two : pair.length = 2)
    (digits : pair.all isDigit = true) :
    ∃ n < 100, pair = twoDigits n := by
  obtain ⟨a, b, rfl⟩ := List.length_eq_two.mp two
  simp only [List.all_cons, List.all_nil, isDigit, Bool.and_true, Bool.and_eq_true,
    decide_eq_true_eq] at digits
  refine ⟨(a.toNat - 48) * 10 + (b.toNat - 48), by omega, ?_⟩
  have high : 48 + ((a.toNat - 48) * 10 + (b.toNat - 48)) / 10 = a.toNat := by omega
  have low : 48 + ((a.toNat - 48) * 10 + (b.toNat - 48)) % 10 = b.toNat := by omega
  rw [twoDigits, high, low, UInt8.ofNat_toNat, UInt8.ofNat_toNat]

theorem isCharBoundary_le {text : List UInt8} {i : Nat} (h : isCharBoundary text i = true) :
    i ≤ text.length := by
  rw [isCharBoundary] at h
  by_cases inside : i < text.length
  · omega
  · rw [List.getElem?_eq_none (by omega)] at h
    simp only [Bool.or_false, Bool.or_eq_true, decide_eq_true_eq] at h
    omega

theorem isCharBoundary_ascii {text : List UInt8} (ascii : ∀ b ∈ text, b.toNat < 128) {i : Nat}
    (h : i ≤ text.length) : isCharBoundary text i = true := by
  rw [isCharBoundary]
  by_cases inside : i < text.length
  · have small := ascii _ (List.getElem_mem inside)
    rw [List.getElem?_eq_getElem inside]
    simp [small]
  · have last : i = text.length := by omega
    simp [last]

theorem number_split {text : List UInt8} {i : Nat} {v : Int} (h : number text i = .ok v) :
    ∃ n : Nat, n < 100 ∧ v = n ∧ text.drop i = twoDigits n ++ text.drop (i + 2) ∧
      isCharBoundary text (i + 2) = true := by
  simp only [number] at h
  split at h
  · next bounds =>
    rw [Bool.and_eq_true] at bounds
    split at h
    · next digits =>
      have room := isCharBoundary_le bounds.2
      obtain ⟨n, small, same⟩ :=
        twoDigits_of_isDigit (by rw [List.length_take, List.length_drop]; omega) digits
      rw [same, (number_twoDigits small).2] at h
      cases h
      refine ⟨n, small, rfl, ?_, bounds.2⟩
      rw [← same, ← List.drop_drop, List.take_append_drop]
    · cases h
  · cases h

theorem number_of_split {text after : List UInt8} (ascii : ∀ b ∈ text, b.toNat < 128)
    {i n : Nat} (small : n < 100) (h : text.drop i = twoDigits n ++ after) :
    number text i = .ok n := by
  have length := congrArg List.length h
  have two : (twoDigits n).length = 2 := rfl
  rw [List.length_drop, List.length_append, two] at length
  have pair : (text.drop i).take 2 = twoDigits n := by rw [h, ← two, List.take_left]
  obtain ⟨digits, value⟩ := number_twoDigits small
  rw [number, isCharBoundary_ascii ascii (by omega),
    isCharBoundary_ascii ascii (by omega), Bool.and_self, if_pos rfl, pair]
  simp only
  rw [if_pos digits, value]

/-- `Z`. -/
def zulu : List UInt8 := [0x5A]

/-- What follows the year. -/
def stamp (d : Date) (hour minute second : Nat) : List UInt8 :=
  twoDigits d.month ++
    (twoDigits d.day ++ (twoDigits hour ++ (twoDigits minute ++ (twoDigits second ++ zulu))))

/-- How a tag and a text tell a year, before the rest. -/
inductive Spells : UInt8 → List UInt8 → Nat → List UInt8 → Prop
  | utc {year : Nat} {rest : List UInt8} : 1950 ≤ year → year < 2050 →
    Spells utcTime (twoDigits (year % 100) ++ rest) year rest
  | generalized {year : Nat} {rest : List UInt8} : year < 10000 →
    Spells generalizedTime (twoDigits (year / 100) ++ (twoDigits (year % 100) ++ rest)) year rest

/-- The text of a time that is so many seconds from the epoch. -/
def Tells (tag : UInt8) (text : List UInt8) (seconds : Int) : Prop :=
  ∃ (d : Date) (hour minute second : Nat) (days : Int),
    Spells tag text d.year (stamp d hour minute second) ∧
    d.Valid ∧ hour ≤ 23 ∧ minute ≤ 59 ∧ second ≤ 60 ∧ d.Numbered days ∧
    seconds = days * 86400 + hour * 3600 + minute * 60 + second

theorem yearOf_spells {tag : UInt8} {text rest : List UInt8} {y : Int}
    (h : yearOf tag text = .ok (y, rest)) :
    ∃ year : Nat, y = year ∧ Spells tag text year rest ∧ rest.length = 11 := by
  rw [yearOf] at h
  split at h
  · next utc =>
    obtain ⟨rfl, length⟩ := utc
    obtain ⟨_, number, h⟩ := Outcome.bind_eq_ok h
    obtain ⟨short, small, rfl, split, boundary⟩ := number_split number
    rw [strFrom, if_pos boundary, Outcome.ok_bind] at h
    cases h
    rw [List.drop_zero] at split
    have eleven : (text.drop (0 + 2)).length = 11 := by rw [List.length_drop]; omega
    by_cases late : 50 ≤ short
    · refine ⟨1900 + short, by rw [if_pos (by omega)]; omega, ?_, eleven⟩
      have spells : Spells utcTime _ (1900 + short) (text.drop (0 + 2)) :=
        .utc (by omega) (by omega)
      rwa [show (1900 + short) % 100 = short by omega, ← split] at spells
    · refine ⟨2000 + short, by rw [if_neg (by omega)]; omega, ?_, eleven⟩
      have spells : Spells utcTime _ (2000 + short) (text.drop (0 + 2)) :=
        .utc (by omega) (by omega)
      rwa [show (2000 + short) % 100 = short by omega, ← split] at spells
  split at h
  · next generalized =>
    obtain ⟨rfl, length⟩ := generalized
    obtain ⟨_, number, h⟩ := Outcome.bind_eq_ok h
    obtain ⟨_, number', h⟩ := Outcome.bind_eq_ok h
    obtain ⟨high, small, rfl, split, _⟩ := number_split number
    obtain ⟨low, small', rfl, split', boundary⟩ := number_split number'
    rw [strFrom, if_pos boundary, Outcome.ok_bind] at h
    cases h
    rw [List.drop_zero] at split
    refine ⟨high * 100 + low, by push_cast; rfl, ?_, by rw [List.length_drop]; omega⟩
    have spells : Spells generalizedTime _ (high * 100 + low) (text.drop (2 + 2)) :=
      .generalized (by omega)
    rwa [show (high * 100 + low) / 100 = high by omega,
      show (high * 100 + low) % 100 = low by omega, ← split', ← split] at spells
  · cases h

theorem yearOf_of_spells {tag : UInt8} {text rest : List UInt8} {year : Nat}
    (h : Spells tag text year rest) (ascii : ∀ b ∈ text, b.toNat < 128)
    (length : rest.length = 11) : yearOf tag text = .ok (year, rest) := by
  have boundary : ∀ i ≤ text.length, strFrom text i = .ok (text.drop i) := fun i le =>
    if_pos (isCharBoundary_ascii ascii le)
  cases h with
  | @utc _ _ low high =>
    have short := number_of_split (i := 0) (n := year % 100) ascii (by omega) rfl
    rw [yearOf, if_pos ⟨rfl, by simp [twoDigits, length]⟩, short, Outcome.ok_bind,
      boundary 2 (by simp [twoDigits]), Outcome.ok_bind]
    have window : (if 50 ≤ ((year % 100 : Nat) : Int) then 1900 + ((year % 100 : Nat) : Int)
        else 2000 + ((year % 100 : Nat) : Int)) = year := by
      split <;> omega
    rw [window]
    rfl
  | @generalized _ _ high =>
    have century := number_of_split (i := 0) (n := year / 100) ascii (by omega) rfl
    have rest' := number_of_split (i := 2) (n := year % 100) ascii (by omega) rfl
    rw [yearOf, if_neg (by rintro ⟨other, _⟩; cases other),
      if_pos ⟨rfl, by simp [twoDigits, length]⟩, century, Outcome.ok_bind, rest', Outcome.ok_bind,
      boundary 4 (by simp [twoDigits]), Outcome.ok_bind]
    have whole : ((year / 100 : Nat) : Int) * 100 + ((year % 100 : Nat) : Int) = year := by omega
    rw [whole]
    rfl

/-- A text of a time is all ASCII. -/
theorem Spells.ascii {tag : UInt8} {text rest : List UInt8} {year : Nat}
    (h : Spells tag text year rest) (ascii : ∀ b ∈ rest, b.toNat < 128) :
    ∀ b ∈ text, b.toNat < 128 := by
  cases h with
  | utc low high =>
    intro b mem
    rcases List.mem_append.mp mem with mem | mem
    · exact twoDigits_ascii (by omega) b mem
    · exact ascii b mem
  | generalized high =>
    intro b mem
    rcases List.mem_append.mp mem with mem | mem
    · exact twoDigits_ascii (by omega) b mem
    rcases List.mem_append.mp mem with mem | mem
    · exact twoDigits_ascii (by omega) b mem
    · exact ascii b mem

theorem stamp_ascii {d : Date} {hour minute second : Nat} (month : d.month < 100)
    (day : d.day < 100) (hours : hour < 100) (minutes : minute < 100) (seconds : second < 100) :
    ∀ b ∈ stamp d hour minute second, b.toNat < 128 := by
  intro b mem
  simp only [stamp, List.mem_append] at mem
  rcases mem with mem | mem | mem | mem | mem | mem
  · exact twoDigits_ascii month b mem
  · exact twoDigits_ascii day b mem
  · exact twoDigits_ascii hours b mem
  · exact twoDigits_ascii minutes b mem
  · exact twoDigits_ascii seconds b mem
  · rw [zulu, List.mem_singleton] at mem
    exact mem ▸ by decide

/-- ASCII bytes are text. -/
theorem fromUtf8_ascii {text : List UInt8} (ascii : ∀ b ∈ text, b.toNat < 128) :
    fromUtf8 text ≠ none := by
  have same : utf8 (text.map Char.ofUInt8) = text := by
    induction text with
    | nil => rfl
    | cons b text ih =>
      have small := ascii b List.mem_cons_self
      have code : (Char.ofUInt8 b).toNat < 128 := by rw [ofUInt8_toNat]; exact small
      have byte : (Char.ofUInt8 b).toUInt8 = b := by
        rw [← UInt8.toNat_inj, toUInt8_toNat code, ofUInt8_toNat]
      rw [List.map_cons, utf8_cons_ascii code, byte,
        ih fun b mem => ascii b (List.mem_cons_of_mem _ mem)]
  rw [← same, fromUtf8_utf8]
  exact Option.some_ne_none _

/-- The numbers of a stamp name a day, as the reader checks. -/
theorem in_range {d : Date} {hour minute second : Nat} :
    ¬(¬(1 ≤ (d.month : Int) ∧ (d.month : Int) ≤ 12) ∨ (d.day : Int) < 1 ∨
      daysInMonth d.year d.month < d.day ∨
        23 < (hour : Int) ∨ 59 < (minute : Int) ∨ 60 < (second : Int)) ↔
      d.Valid ∧ hour ≤ 23 ∧ minute ≤ 59 ∧ second ≤ 60 := by
  by_cases month : 1 ≤ d.month ∧ d.month ≤ 12
  · have length : daysInMonth d.year d.month = monthLength d.year d.month :=
      daysInMonth_eq month.1 month.2
    rw [length]
    constructor
    · intro fine
      exact ⟨⟨month, by omega⟩, by omega⟩
    · rintro ⟨⟨_, day⟩, fine⟩
      omega
  · constructor
    · intro fine
      omega
    · rintro ⟨⟨month', _⟩, _⟩
      exact absurd month' month

theorem drop_last {rest : List UInt8} {b : UInt8} (length : rest.length = 11)
    (last : rest.getLast? = some b) :
    rest.drop 10 = [b] := by
  have ten : 10 < rest.length := by omega
  rw [List.getLast?_eq_getElem?, length, List.getElem?_eq_getElem ten] at last
  rw [List.drop_eq_getElem_cons ten, Option.some.inj last, List.drop_eq_nil_of_le (by omega)]

/-- The times that are read are those that are written so. -/
theorem time_eq_ok {tag : UInt8} {text : List UInt8} {t : Int} :
    time tag text = .ok t ↔ Tells tag text t := by
  constructor
  · intro h
    rw [time] at h
    split at h
    · cases h
    obtain ⟨⟨y, rest⟩, told, h⟩ := Outcome.bind_eq_ok h
    simp only at h
    split at h
    · cases h
    next ends =>
    obtain ⟨_, month, h⟩ := Outcome.bind_eq_ok h
    obtain ⟨_, day, h⟩ := Outcome.bind_eq_ok h
    obtain ⟨_, hour, h⟩ := Outcome.bind_eq_ok h
    obtain ⟨_, minute, h⟩ := Outcome.bind_eq_ok h
    obtain ⟨_, second, h⟩ := Outcome.bind_eq_ok h
    obtain ⟨year, rfl, spells, length⟩ := yearOf_spells told
    obtain ⟨m, _, rfl, month, _⟩ := number_split month
    obtain ⟨d, _, rfl, day, _⟩ := number_split day
    obtain ⟨h', _, rfl, hour, _⟩ := number_split hour
    obtain ⟨mi, _, rfl, minute, _⟩ := number_split minute
    obtain ⟨s, _, rfl, second, _⟩ := number_split second
    split at h
    · cases h
    next fine =>
    cases h
    obtain ⟨valid, range⟩ := (in_range (d := ⟨year, m, d⟩)).mp fine
    have stamped : rest = stamp ⟨year, m, d⟩ h' mi s := by
      rw [stamp, zulu, ← drop_last length (not_not.mp ends), ← second, ← minute, ← hour, ← day,
        ← month, List.drop_zero]
    rw [stamped] at spells
    exact ⟨⟨year, m, d⟩, h', mi, s, _, spells, valid, range.1, range.2.1, range.2.2,
      (numbered_iff count_tomorrow count_epoch valid _).mpr rfl, rfl⟩
  · rintro ⟨d, hour, minute, second, days, spells, valid, h23, m59, s60, numbered, rfl⟩
    have counted := (numbered_iff count_tomorrow count_epoch valid days).mp numbered
    have length := monthLength_le d.year d.month
    have december := valid.month.2
    have last := valid.day.2
    have rest : ∀ b ∈ stamp d hour minute second, b.toNat < 128 :=
      stamp_ascii (by omega) (by omega) (by omega) (by omega) (by omega)
    have text' := spells.ascii rest
    have month := number_of_split (i := 0) (n := d.month) rest (by omega) rfl
    have day := number_of_split (i := 2) (n := d.day) rest (by omega) rfl
    have hours := number_of_split (i := 4) (n := hour) rest (by omega) rfl
    have minutes := number_of_split (i := 6) (n := minute) rest (by omega) rfl
    have seconds := number_of_split (i := 8) (n := second) rest (by omega) rfl
    have fine := in_range.mpr ⟨valid, h23, m59, s60⟩
    rw [time, if_neg (fromUtf8_ascii text'), yearOf_of_spells spells text' rfl, Outcome.ok_bind]
    simp only
    rw [if_neg (by simp [stamp, twoDigits, zulu]), month, Outcome.ok_bind, day, Outcome.ok_bind,
      hours, Outcome.ok_bind, minutes, Outcome.ok_bind, seconds, Outcome.ok_bind,
      if_neg fine, counted]
    rfl

theorem number_safe (text : List UInt8) (i : Nat) :
    (number text i).Sat (fun _ => isCharBoundary text (i + 2) = true) fun _ => True := by
  cases found : number text i with
  | ok v =>
    obtain ⟨_, _, _, _, boundary⟩ := number_split found
    exact boundary
  | err _ => trivial
  | panic =>
    rw [number] at found
    split at found
    · simp only at found
      split at found <;> cases found
    · cases found
  | spin =>
    rw [number] at found
    split at found
    · simp only at found
      split at found <;> cases found
    · cases found

theorem strFrom_safe {text : List UInt8} {i : Nat} (h : isCharBoundary text i = true) :
    (strFrom text i).Sat (fun _ => True) fun _ => True := by
  rw [strFrom, if_pos h]
  trivial

theorem time_safe (tag : UInt8) (text : List UInt8) :
    (time tag text).Sat (fun _ => True) fun _ => True := by
  have year : (yearOf tag text).Sat (fun _ => True) fun _ => True := by
    rw [yearOf]
    split
    · exact (number_safe text 0).bind fun _ boundary =>
        (strFrom_safe boundary).bind fun _ _ => trivial
    split
    · exact (number_safe text 0).bind fun _ _ => (number_safe text 2).bind fun _ boundary =>
        (strFrom_safe boundary).bind fun _ _ => trivial
    · trivial
  rw [time]
  split
  · trivial
  refine year.bind fun (_, rest) _ => ?_
  simp only
  split
  · trivial
  refine (number_safe rest 0).bind fun _ _ => (number_safe rest 2).bind fun _ _ =>
    (number_safe rest 4).bind fun _ _ => (number_safe rest 6).bind fun _ _ =>
    (number_safe rest 8).bind fun _ _ => ?_
  split <;> trivial

theorem expect_eq_ok {bytes contents rest : List UInt8} {tag : UInt8} :
    expect bytes tag = .ok (contents, rest) ↔ Starts bytes tag contents rest := by
  rw [expect]
  constructor
  · intro h
    obtain ⟨⟨⟨found, contents'⟩, rest'⟩, there, h⟩ := Outcome.bind_eq_ok h
    simp only at h
    split at h
    · next same =>
      cases h
      exact same ▸ next_eq_ok.mp there
    · cases h
  · intro h
    rw [next_eq_ok.mpr h, Outcome.ok_bind]
    exact if_pos rfl

theorem expect_safe (bytes : List UInt8) (tag : UInt8) :
    (expect bytes tag).Sat (fun _ => True) fun _ => True := by
  rw [expect]
  refine (next_safe bytes).bind fun _ _ => ?_
  simp only
  split <;> trivial

/-- A serial number, after a version or not. -/
inductive Serial : List UInt8 → List UInt8 → Prop
  | first {fields contents rest : List UInt8} : Starts fields integer contents rest →
    Serial fields rest
  | versioned {fields number fields' contents rest : List UInt8} :
    Starts fields version number fields' → Starts fields' integer contents rest → Serial fields rest

theorem serial_eq_ok {fields rest : List UInt8} : serial fields = .ok rest ↔
    Serial fields rest := by
  have other : version ≠ integer := by decide
  rw [serial]
  constructor
  · intro h
    obtain ⟨⟨⟨tag, contents⟩, fields'⟩, there, h⟩ := Outcome.bind_eq_ok h
    simp only at h
    split at h
    · next versioned =>
      obtain ⟨⟨⟨tag', contents'⟩, rest'⟩, found, h⟩ := Outcome.bind_eq_ok h
      simp only [Outcome.ok_bind] at h
      split at h
      · cases h
      · next isInteger =>
        cases h
        exact .versioned (versioned ▸ next_eq_ok.mp there)
          (not_not.mp isInteger ▸ next_eq_ok.mp found)
    · simp only [Outcome.ok_bind] at h
      split at h
      · cases h
      · next isInteger =>
        cases h
        exact .first (not_not.mp isInteger ▸ next_eq_ok.mp there)
  · rintro (there | ⟨there, there'⟩)
    · rw [next_eq_ok.mpr there]
      simp [other.symm]
    · rw [next_eq_ok.mpr there]
      simp [next_eq_ok.mpr there']

theorem serial_safe (fields : List UInt8) : (serial fields).Sat (fun _ => True) fun _ => True := by
  rw [serial]
  refine (next_safe fields).bind fun ((tag, _), rest) _ => ?_
  simp only
  split
  · refine (next_safe rest).bind fun _ _ => ?_
    simp only [Outcome.ok_bind]
    split <;> trivial
  · simp only [Outcome.ok_bind]
    split <;> trivial

/-- The bytes begin with a certificate whose second time has this tag and text. -/
def Certificate (der : List UInt8) (tag : UInt8) (text : List UInt8) : Prop :=
  ∃ certificate r₁ fields r₂ r₃ algorithm r₄ issuer r₅ validity r₆ tag' before r₇ r₈,
    Starts der sequence certificate r₁ ∧ Starts certificate sequence fields r₂ ∧ Serial fields r₃ ∧
    Starts r₃ sequence algorithm r₄ ∧ Starts r₄ sequence issuer r₅ ∧
    Starts r₅ sequence validity r₆ ∧
    Starts validity tag' before r₇ ∧ Starts r₇ tag text r₈

/-- The length of contents in as few bytes as it takes. -/
def lengthBytes (n : Nat) : List UInt8 :=
  if n < 256 then [UInt8.ofNat n]
  else if n < 65536 then [UInt8.ofNat (n / 256), UInt8.ofNat n]
  else if n < 16777216 then [UInt8.ofNat (n / 65536), UInt8.ofNat (n / 256), UInt8.ofNat n]
  else [UInt8.ofNat (n / 16777216), UInt8.ofNat (n / 65536), UInt8.ofNat (n / 256), UInt8.ofNat n]

/-- An element as DER has it. -/
def element (tag : UInt8) (contents : List UInt8) : List UInt8 :=
  if contents.length < 128 then tag :: UInt8.ofNat contents.length :: contents
  else
    let length := lengthBytes contents.length
    tag :: UInt8.ofNat (128 + length.length) :: (length ++ contents)

theorem lengthBytes_length (n : Nat) : 1 ≤ (lengthBytes n).length ∧ (lengthBytes n).length ≤ 4 := by
  rw [lengthBytes]
  split
  · simp
  split
  · simp
  split <;> simp

theorem bigEndian_lengthBytes {n : Nat} (h : n < 4294967296) : bigEndian (lengthBytes n) = n := by
  rw [lengthBytes]
  split
  · simp only [bigEndian, List.foldl_cons, List.foldl_nil, UInt8.toNat_ofNat']
    omega
  split
  · simp only [bigEndian, List.foldl_cons, List.foldl_nil, UInt8.toNat_ofNat']
    omega
  split
  · simp only [bigEndian, List.foldl_cons, List.foldl_nil, UInt8.toNat_ofNat']
    omega
  · simp only [bigEndian, List.foldl_cons, List.foldl_nil, UInt8.toNat_ofNat']
    omega

theorem starts_element {tag : UInt8} {contents : List UInt8} (h : contents.length < 4294967296)
    (rest : List UInt8) : Starts (element tag contents ++ rest) tag contents rest := by
  rw [element]
  split
  · next short =>
    have length : (UInt8.ofNat contents.length).toNat = contents.length := by
      rw [UInt8.toNat_ofNat']
      omega
    exact .short (by omega) length.symm
  · obtain ⟨some, few⟩ := lengthBytes_length contents.length
    have tells : (UInt8.ofNat (128 + (lengthBytes contents.length).length)).toNat =
        128 + (lengthBytes contents.length).length := by
      rw [UInt8.toNat_ofNat']
      omega
    have starts : Starts (tag :: UInt8.ofNat (128 + (lengthBytes contents.length).length) ::
        (lengthBytes contents.length ++ (contents ++ rest))) tag contents rest :=
      .long some few tells (bigEndian_lengthBytes h).symm
    simpa using starts

/-- The reader never panics. It reads exactly the times of certificates, as many seconds from
the epoch as they are; every element that DER writes below four gigabytes counts as one. -/
theorem notAfter_exact (der : List UInt8) :
    (notAfter der).Sat (fun _ => True) (fun _ => True) ∧
      (∀ t, notAfter der = .ok t ↔ ∃ tag text, Certificate der tag text ∧ Tells tag text t) ∧
      ∀ (tag : UInt8) (contents rest : List UInt8), contents.length < 4294967296 →
        Starts (element tag contents ++ rest) tag contents rest := by
  refine ⟨?_, fun t => ⟨fun h => ?_, ?_⟩, fun tag contents rest small => starts_element small rest⟩
  · exact (expect_safe _ _).bind fun _ _ => (expect_safe _ _).bind fun _ _ =>
      (serial_safe _).bind fun _ _ =>
      (expect_safe _ _).bind fun _ _ => (expect_safe _ _).bind fun _ _ =>
        (expect_safe _ _).bind fun _ _ =>
      (next_safe _).bind fun _ _ => (next_safe _).bind fun _ _ => time_safe _ _
  · rw [notAfter] at h
    obtain ⟨⟨certificate, r₁⟩, outer, h⟩ := Outcome.bind_eq_ok h
    obtain ⟨⟨fields, r₂⟩, inner, h⟩ := Outcome.bind_eq_ok h
    obtain ⟨r₃, number, h⟩ := Outcome.bind_eq_ok h
    obtain ⟨⟨algorithm, r₄⟩, signature, h⟩ := Outcome.bind_eq_ok h
    obtain ⟨⟨issuer, r₅⟩, issued, h⟩ := Outcome.bind_eq_ok h
    obtain ⟨⟨validity, r₆⟩, valid, h⟩ := Outcome.bind_eq_ok h
    obtain ⟨⟨⟨tag', before⟩, r₇⟩, first, h⟩ := Outcome.bind_eq_ok h
    obtain ⟨⟨⟨tag, text⟩, r₈⟩, second, h⟩ := Outcome.bind_eq_ok h
    exact ⟨tag, text, ⟨certificate, r₁, fields, r₂, r₃, algorithm, r₄, issuer, r₅, validity, r₆,
      tag', before, r₇, r₈, expect_eq_ok.mp outer, expect_eq_ok.mp inner, serial_eq_ok.mp number,
      expect_eq_ok.mp signature, expect_eq_ok.mp issued, expect_eq_ok.mp valid, next_eq_ok.mp first,
      next_eq_ok.mp second⟩, time_eq_ok.mp h⟩
  · rintro ⟨tag, text, ⟨certificate, r₁, fields, r₂, r₃, algorithm, r₄, issuer, r₅, validity, r₆,
      tag', before, r₇, r₈, outer, inner, number, signature, issued, valid, first, second⟩, tells⟩
    simp only [notAfter, expect_eq_ok.mpr outer, expect_eq_ok.mpr inner, serial_eq_ok.mpr number,
      expect_eq_ok.mpr signature, expect_eq_ok.mpr issued, expect_eq_ok.mpr valid,
      next_eq_ok.mpr first, next_eq_ok.mpr second, Outcome.ok_bind]
    exact time_eq_ok.mpr tells

end X509
