import Mathlib.Data.List.Basic
import Anago.DecimalText

/-!
# Characters and strings as std treats them

`White_Space` is a short list and is written out. The tables behind
`char::is_alphanumeric`, `str::to_lowercase` and the `Debug` of a character are long
and change with every Unicode version, so they are a parameter: `Unicode` holds the
tables together with what is documented of them and used below. Results hold for
every instance; `asciiTables` is the one that agrees with std on ASCII input.
-/

namespace StdText

/-- `char::is_whitespace`: the Unicode property `White_Space`. -/
def isWhitespace (c : Char) : Bool :=
  (9 ≤ c.toNat && c.toNat ≤ 13) || c.toNat = 0x20 || c.toNat = 0x85 || c.toNat = 0xA0 ||
    c.toNat = 0x1680 || (0x2000 ≤ c.toNat && c.toNat ≤ 0x200A) || c.toNat = 0x2028 ||
    c.toNat = 0x2029 || c.toNat = 0x202F || c.toNat = 0x205F || c.toNat = 0x3000

/-- `char::is_control`: the Unicode category `Cc`. -/
def isControl (c : Char) : Bool := c.toNat < 32 || (127 ≤ c.toNat && c.toNat < 160)

/-- `str::trim_start`, on the characters. -/
def trimStart (cs : List Char) : List Char := cs.dropWhile isWhitespace

/-- `str::trim_end`. -/
def trimEnd (cs : List Char) : List Char := (trimStart cs.reverse).reverse

/-- `str::trim`. -/
def trim (cs : List Char) : List Char := trimEnd (trimStart cs)

/-- `str::replace`, of a character. -/
def replace (c : Char) (text : String) (s : String) : String :=
  String.ofList (s.toList.flatMap fun d => if d = c then text.toList else [d])

/-- `char::to_ascii_uppercase`. -/
def toAsciiUppercase (c : Char) : Char :=
  if 'a'.toNat ≤ c.toNat ∧ c.toNat ≤ 'z'.toNat then Char.ofNat (c.toNat - 32) else c

/-- The Unicode tables std compiles in, with the facts relied on. -/
class Unicode where
  isAlphanumeric : Char → Bool
  toLowercase : List Char → List Char
  isPrintable : Char → Bool
  isGraphemeExtended : Char → Bool
  /-- Alphabetic and numeric characters are never `White_Space`. -/
  not_whitespace : ∀ c, isAlphanumeric c = true → isWhitespace c = false
  /-- Lower case is a fixed point of lower-casing. -/
  toLowercase_idem : ∀ cs, toLowercase (toLowercase cs) = toLowercase cs
  /-- Lower-casing maps every character to at least one. -/
  toLowercase_eq_nil : ∀ cs, toLowercase cs = [] → cs = []
  alphanumeric_ascii : ∀ c : Char, c.toNat < 128 → isAlphanumeric c = c.isAlphanum
  toLowercase_ascii : ∀ cs : List Char, (∀ c ∈ cs, c.toNat < 128) →
    toLowercase cs = cs.map Char.toLower

theorem isAlphanum_not_whitespace (c : Char) (h : c.isAlphanum = true) :
    isWhitespace c = false := by
  delta Char.isAlphanum Char.isAlpha Char.isUpper Char.isLower Char.isDigit at h
  simp only [Bool.or_eq_true, Bool.and_eq_true, decide_eq_true_eq, UInt32.le_iff_toNat_le] at h
  have hc : c.toNat = c.val.toNat := rfl
  have bounds : (65 ≤ c.toNat ∧ c.toNat ≤ 90) ∨ (97 ≤ c.toNat ∧ c.toNat ≤ 122) ∨
      (48 ≤ c.toNat ∧ c.toNat ≤ 57) := by
    rcases h with (h | h) | h
    · exact Or.inl h
    · exact Or.inr (Or.inl h)
    · exact Or.inr (Or.inr h)
  simp only [isWhitespace, Bool.or_eq_false_iff, Bool.and_eq_false_iff, decide_eq_false_iff_not]
  omega

theorem toLower_toLower (c : Char) : c.toLower.toLower = c.toLower := by
  by_cases h : 'A' ≤ c ∧ c ≤ 'Z'
  · have hc : c.toNat = c.val.toNat := rfl
    simp only [Char.le_def, UInt32.le_iff_toNat_le] at h
    have low : 65 ≤ c.toNat := h.1
    have high : c.toNat ≤ 90 := h.2
    have all : ∀ n, n < 128 → (Char.ofNat n).toLower.toLower = (Char.ofNat n).toLower := by
      decide
    have := all c.toNat (by omega)
    rwa [Char.ofNat_toNat] at this
  · have fixed : c.toLower = c := by
      delta Char.toLower
      split
      · next hr => exact False.elim (h ⟨hr.1, hr.2⟩)
      · rfl
    rw [fixed, fixed]

/-- Tables that know ASCII and nothing else. -/
@[reducible] def asciiTables : Unicode where
  isAlphanumeric := Char.isAlphanum
  toLowercase := List.map Char.toLower
  isPrintable c := 0x20 ≤ c.toNat && c.toNat < 0x7f
  isGraphemeExtended _ := false
  not_whitespace := isAlphanum_not_whitespace
  toLowercase_idem cs := by
    rw [List.map_map]
    exact List.map_congr_left fun c _ => toLower_toLower c
  toLowercase_eq_nil cs := List.map_eq_nil_iff.mp
  alphanumeric_ascii _ _ := rfl
  toLowercase_ascii _ _ := rfl

section Debug
variable [Unicode]

/-- Lower-case hexadecimal digits without leading zeros. -/
def showHex (n : Nat) : List Char := Nat.toDigits 16 n

/-- `char::escape_debug_ext`, with grapheme extenders escaped. -/
def escapeDebug (single double : Bool) (c : Char) : List Char :=
  if c = '\x00' then ['\\', '0']
  else if c = '\t' then ['\\', 't']
  else if c = '\r' then ['\\', 'r']
  else if c = '\n' then ['\\', 'n']
  else if c = '\\' then ['\\', '\\']
  else if c = '"' ∧ double then ['\\', '"']
  else if c = '\'' ∧ single then ['\\', '\'']
  else if !Unicode.isGraphemeExtended c && Unicode.isPrintable c then [c]
  else ['\\', 'u', '{'] ++ showHex c.toNat ++ ['}']

/-- `format!("{c:?}")` of a character. -/
def debugChar (c : Char) : String := String.ofList ('\'' :: escapeDebug true false c ++ ['\''])

/-- `format!("{s:?}")` of a string. -/
def debugStr (s : String) : String :=
  String.ofList ('"' :: s.toList.flatMap (escapeDebug false true) ++ ['"'])

end Debug

theorem trimStart_of_head {c : Char} {cs : List Char} (h : isWhitespace c = false) :
    trimStart (c :: cs) = c :: cs := by
  simp [trimStart, h]

/-- Text that neither starts nor ends with whitespace is already trimmed. -/
theorem trim_of_ends {cs : List Char} (first : ∀ c, cs.head? = some c → isWhitespace c = false)
    (last : ∀ c, cs.getLast? = some c → isWhitespace c = false) : trim cs = cs := by
  have start : trimStart cs = cs := by
    cases cs with
    | nil => rfl
    | cons c cs => exact trimStart_of_head (first c rfl)
  have stop : trimStart cs.reverse = cs.reverse := by
    cases hr : cs.reverse with
    | nil => rfl
    | cons c ds =>
      apply trimStart_of_head
      apply last c
      rw [← List.head?_reverse, hr]
      rfl
  rw [trim, start, trimEnd, stop, List.reverse_reverse]

theorem head_trimStart {cs : List Char} {c : Char} (h : (trimStart cs).head? = some c) :
    isWhitespace c = false := by
  have hn := List.head?_dropWhile_not isWhitespace cs
  rw [trimStart] at h
  rw [h] at hn
  simpa using hn

end StdText
