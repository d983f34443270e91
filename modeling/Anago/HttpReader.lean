import Anago.DecimalText
import Mathlib.Data.List.Basic

/-!
# Reading an HTTP/1.1 request

A request line, header lines up to the first that is empty, and as many bytes as
`Content-Length` says. What is read of a request that was written line by line is what was
written.
-/

namespace Http

abbrev Bytes := List UInt8

def isBlank (b : UInt8) : Bool := b == 32 || b == 9

def trimBlanks (bytes : Bytes) : Bytes :=
  ((bytes.dropWhile isBlank).reverse.dropWhile isBlank).reverse

/-- A line, and what comes after its break. -/
def readLine : Bytes → Option (Bytes × Bytes)
  | [] => none
  | 13 :: 10 :: rest => some ([], rest)
  | b :: rest => (readLine rest).map fun (line, after) => (b :: line, after)

/-- What comes before the first `b`, and what comes after it. -/
def cut (b : UInt8) : Bytes → Option (Bytes × Bytes)
  | [] => none
  | c :: rest =>
    if c = b then some ([], rest) else (cut b rest).map fun (front, back) => (c :: front, back)

/-- The three words of a request line. -/
def requestLine (line : Bytes) : Option (Bytes × Bytes × Bytes) := do
  let (method, rest) ← cut 32 line
  let (target, version) ← cut 32 rest
  if method.isEmpty || target.isEmpty || version.any (· == 32) then none
  else some (method, target, version)

/-- The header lines, the last of which is empty. -/
def readHeaders : Nat → Bytes → Option (List (Bytes × Bytes) × Bytes)
  | 0, _ => none
  | fuel + 1, bytes => do
    let (line, rest) ← readLine bytes
    if line.isEmpty then some ([], rest)
    else do
      let (name, value) ← cut 58 line
      let (headers, rest) ← readHeaders fuel rest
      some ((name, trimBlanks value) :: headers, rest)

def lower (b : UInt8) : UInt8 := if 65 ≤ b && b ≤ 90 then b + 32 else b

/-- `content-length`. -/
def contentLengthName : Bytes :=
  [99, 111, 110, 116, 101, 110, 116, 45, 108, 101, 110, 103, 116, 104]

def decimal (value : Bytes) : Option Nat := DecimalText.parseDigits (value.map Char.ofUInt8)

/-- How long the body is: nothing where no header says so, and unknown where two do. -/
def contentLength (headers : List (Bytes × Bytes)) : Option Nat :=
  match headers.filter fun header => header.1.map lower == contentLengthName with
  | [] => some 0
  | [header] => decimal header.2
  | _ :: _ :: _ => none

structure Request where
  method : Bytes
  target : Bytes
  version : Bytes
  headers : List (Bytes × Bytes)
  body : Bytes
  deriving DecidableEq, Repr

/-- One request, and the bytes after it. -/
def read (bytes : Bytes) : Option (Request × Bytes) := do
  let (line, rest) ← readLine bytes
  let (method, target, version) ← requestLine line
  let (headers, rest) ← readHeaders rest.length rest
  let n ← contentLength headers
  if rest.length < n then none
  else some (⟨method, target, version, headers, rest.take n⟩, rest.drop n)

def hexValue (b : UInt8) : Option UInt8 :=
  if 48 ≤ b && b ≤ 57 then some (b - 48)
  else if 65 ≤ b && b ≤ 70 then some (b - 55)
  else if 97 ≤ b && b ≤ 102 then some (b - 87)
  else none

/-- The bytes a percent-encoded text stands for. -/
def percentDecode : Bytes → Option Bytes
  | [] => some []
  | 37 :: a :: b :: rest => do
    let high ← hexValue a
    let low ← hexValue b
    let rest ← percentDecode rest
    some ((high * 16 + low) :: rest)
  | 37 :: _ => none
  | b :: rest => (percentDecode rest).map (b :: ·)

/-- A line break. -/
def crlf : Bytes := [13, 10]

def headerLine (header : Bytes × Bytes) : Bytes := header.1 ++ 58 :: 32 :: header.2 ++ crlf

/-- A request as it is written. -/
def written (method target version : Bytes) (headers : List (Bytes × Bytes))
    (body : Bytes) : Bytes :=
  method ++ 32 :: target ++ 32 :: version ++ crlf ++ headers.flatMap headerLine ++ crlf ++ body

/-- A header that stays on its line. -/
structure Plain (header : Bytes × Bytes) : Prop where
  named : header.1 ≠ []
  name : ∀ b ∈ header.1, b ≠ 58 ∧ b ≠ 13
  value : (13 : UInt8) ∉ header.2

/-- A header that every server reads: a name of letters and hyphens, and a value with no control
character but tabs. -/
structure Field (header : Bytes × Bytes) : Prop where
  named : header.1 ≠ []
  name : ∀ b ∈ header.1, (65 ≤ b ∧ b ≤ 90) ∨ (97 ≤ b ∧ b ≤ 122) ∨ b = 45
  value : ∀ b ∈ header.2, (32 ≤ b ∨ b = 9) ∧ b ≠ 127

/-- A header without the blanks around its value. -/
def trimmed (header : Bytes × Bytes) : Bytes × Bytes := (header.1, trimBlanks header.2)

theorem Field.plain {header : Bytes × Bytes} (h : Field header) : Plain header where
  named := h.named
  name := by
    intro b there
    have kinds := h.name b there
    constructor
    all_goals
      rintro rfl
      revert kinds
      decide
  value := by
    intro there
    have kind := (h.value 13 there).1
    revert kind
    decide

theorem readLine_append {line : Bytes} (h : (13 : UInt8) ∉ line) (rest : Bytes) :
    readLine (line ++ crlf ++ rest) = some (line, rest) := by
  induction line with
  | nil => rfl
  | cons b line ih =>
    rw [List.mem_cons, not_or] at h
    have later := ih h.2
    rw [List.cons_append, List.cons_append, readLine, later]
    · rfl
    · rintro _ rfl _
      exact h.1 rfl

theorem cut_append {b : UInt8} {front : Bytes} (h : b ∉ front) (back : Bytes) :
    cut b (front ++ b :: back) = some (front, back) := by
  induction front with
  | nil => simp [cut]
  | cons c front ih =>
    rw [List.mem_cons, not_or] at h
    rw [List.cons_append, cut, if_neg (Ne.symm h.1), ih h.2]
    rfl

theorem trimBlanks_cons (value : Bytes) : trimBlanks (32 :: value) = trimBlanks value := rfl

theorem dropWhile_solid {bytes : Bytes} (h : ∀ b ∈ bytes, isBlank b = false) :
    bytes.dropWhile isBlank = bytes := by
  cases bytes with
  | nil => rfl
  | cons b bytes => rw [List.dropWhile_cons_of_neg (by rw [h b List.mem_cons_self]; decide)]

theorem trimBlanks_solid {bytes : Bytes} (h : ∀ b ∈ bytes, isBlank b = false) :
    trimBlanks bytes = bytes := by
  rw [trimBlanks, dropWhile_solid h, dropWhile_solid fun b hb => h b (List.mem_reverse.mp hb),
    List.reverse_reverse]

/-- Header lines are read back, up to the blanks around their values. -/
theorem readHeaders_flatMap {headers : List (Bytes × Bytes)}
    (plain : ∀ header ∈ headers, Plain header) {fuel : Nat}
    (enough : headers.length < fuel) (rest : Bytes) :
    readHeaders fuel (headers.flatMap headerLine ++ crlf ++ rest) =
      some (headers.map fun header => (header.1, trimBlanks header.2), rest) := by
  induction headers generalizing fuel with
  | nil =>
    cases fuel with
    | zero => cases enough
    | succ fuel => rfl
  | cons header headers ih =>
    cases fuel with
    | zero => cases enough
    | succ fuel =>
      have here := plain header List.mem_cons_self
      have line : (13 : UInt8) ∉ header.1 ++ 58 :: 32 :: header.2 := by
        simp only [List.mem_append, List.mem_cons, not_or]
        exact ⟨fun h => (here.name 13 h).2 rfl, by decide, by decide, here.value⟩
      have there : (58 : UInt8) ∉ header.1 := fun h => (here.name 58 h).1 rfl
      have later := ih (fun other h => plain other (List.mem_cons_of_mem _ h))
        (Nat.lt_of_succ_lt_succ enough)
      have split : (header :: headers).flatMap headerLine ++ crlf ++ rest =
          (header.1 ++ 58 :: 32 :: header.2) ++ crlf ++
            (headers.flatMap headerLine ++ crlf ++ rest) := by
        simp [headerLine]
      have filled : (header.1 ++ 58 :: 32 :: header.2).isEmpty = false := by simp
      rw [split, readHeaders, readLine_append line]
      simp only [Option.bind_eq_bind, Option.bind_some, filled, cut_append there,
        later, trimBlanks_cons, Bool.false_eq_true, if_false, List.map_cons]

theorem length_le_flatMap (headers : List (Bytes × Bytes)) :
    headers.length ≤ (headers.flatMap headerLine).length := by
  induction headers with
  | nil => exact Nat.le_refl 0
  | cons header headers ih =>
    simp only [List.flatMap_cons, List.length_append, List.length_cons, headerLine, crlf]
    omega

/-- What is written is read, and nothing is left over. -/
theorem read_written {method target version body : Bytes} {headers : List (Bytes × Bytes)}
    (hmethod : method ≠ [] ∧ ∀ b ∈ method, b ≠ 32 ∧ b ≠ 13)
    (htarget : target ≠ [] ∧ ∀ b ∈ target, b ≠ 32 ∧ b ≠ 13)
    (hversion : ∀ b ∈ version, b ≠ 32 ∧ b ≠ 13) (plain : ∀ header ∈ headers, Plain header)
    (length : contentLength (headers.map fun header => (header.1, trimBlanks header.2)) =
      some body.length) :
    read (written method target version headers body) =
      some
        (⟨method, target, version, headers.map fun header => (header.1, trimBlanks header.2), body⟩,
          []) := by
  have line : (13 : UInt8) ∉ method ++ 32 :: target ++ 32 :: version := by
    simp only [List.mem_append, List.mem_cons, not_or]
    exact ⟨⟨fun h => (hmethod.2 13 h).2 rfl, by decide, fun h => (htarget.2 13 h).2 rfl⟩, by decide,
      fun h => (hversion 13 h).2 rfl⟩
  have words : requestLine (method ++ 32 :: target ++ 32 :: version) =
      some (method, target, version) := by
    have first : cut 32 (method ++ 32 :: target ++ 32 :: version) =
        some (method, target ++ 32 :: version) := by
      rw [List.append_assoc, List.cons_append]
      exact cut_append (fun h => (hmethod.2 32 h).1 rfl) _
    have second : cut 32 (target ++ 32 :: version) = some (target, version) :=
      cut_append (fun h => (htarget.2 32 h).1 rfl) _
    have third : version.any (· == 32) = false := by
      rw [List.any_eq_false]
      intro b hb
      simpa using (hversion b hb).1
    simp only [requestLine, first, second, third, Option.bind_eq_bind, Option.bind_some]
    simp [hmethod.1, htarget.1]
  have enough : headers.length < (headers.flatMap headerLine ++ crlf ++ body).length := by
    have := length_le_flatMap headers
    simp only [List.length_append, crlf, List.length_cons, List.length_nil]
    omega
  have split : written method target version headers body =
      (method ++ 32 :: target ++ 32 :: version) ++ crlf ++
        (headers.flatMap headerLine ++ crlf ++ body) := by
    simp [written]
  rw [split, read, readLine_append line]
  simp only [words, readHeaders_flatMap plain enough, length, Option.bind_eq_bind, Option.bind_some]
  simp

end Http
