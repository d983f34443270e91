import Anago.StdText
import Anago.Utf8Text

/-!
# WireGuard's own tools

What can go wrong with them, and the shape of the keys they print.
-/

open StdText DecimalText Utf8Text

inductive WgError where
  /-- A tool is not on `PATH`. -/
  | notFound (tool hint : String)
  /-- The process could not be started at all. -/
  | spawn (line source : String)
  /-- It ran and refused. -/
  | failed (line : String) (status : Option Int32) (stderr : String)
  /-- Output that should have been a key was not one. -/
  | badKey (length : Nat)
  deriving DecidableEq

namespace WgError

def display : WgError → String
  | notFound tool hint => "`" ++ tool ++ "` is not installed or not on PATH — " ++ hint
  | spawn line source => "could not run `" ++ line ++ "`: " ++ source
  | failed line status stderr =>
    "`" ++ line ++ "` failed" ++
      (match status with
      | some code => " (exit " ++ String.ofList (showInt code.toInt) ++ ")"
      | none => "") ++
      (if stderr.isEmpty then "" else ": " ++ stderr)
  | badKey length =>
    "expected a WireGuard key (44 base64 characters), got " ++
      String.ofList (showNat length) ++ " characters"

end WgError

def isBase64 (c : Char) : Bool := c.isAlphanum || c = '+' || c = '/'

/-- A WireGuard key as the tools print it. The last character is `=`, which is one
byte, so `key[..43]` is everything before it. -/
def parseKey (output : String) : Except WgError String :=
  let key := trim output.toList
  if (utf8 key).length = 44 ∧ key.getLast? = some '=' ∧ key.dropLast.all isBase64 then
    .ok (String.ofList key)
  else .error (.badKey key.length)

/-- A key that came through `parseKey`. -/
def IsKey (key : String) : Prop := ∃ output, parseKey output = .ok key

theorem isBase64_ascii {c : Char} (h : isBase64 c = true) : c.toNat < 128 := by
  rw [isBase64, Bool.or_eq_true, Bool.or_eq_true] at h
  rcases h with (h | h) | h
  · delta Char.isAlphanum Char.isAlpha Char.isUpper Char.isLower Char.isDigit at h
    simp only [Bool.or_eq_true, Bool.and_eq_true, decide_eq_true_eq, UInt32.le_iff_toNat_le] at h
    have hc : c.toNat = c.val.toNat := rfl
    have bounds : c.val.toNat ≤ 90 ∨ c.val.toNat ≤ 122 ∨ c.val.toNat ≤ 57 := by
      rcases h with (h | h) | h
      · exact Or.inl h.2
      · exact Or.inr (Or.inl h.2)
      · exact Or.inr (Or.inr h.2)
    omega
  · rw [of_decide_eq_true h]
    decide
  · rw [of_decide_eq_true h]
    decide

/-- 43 characters of base64 and an `=`. -/
theorem IsKey.shape {key : String} (h : IsKey key) :
    ∃ init, key.toList = init ++ ['='] ∧ init.length = 43 ∧ ∀ c ∈ init, isBase64 c = true := by
  obtain ⟨output, hparse⟩ := h
  rw [parseKey] at hparse
  split at hparse
  · next hshape =>
    cases hparse
    obtain ⟨hlen, hlast, hinit⟩ := hshape
    have split := List.dropLast_append_getLast? '=' hlast
    have base := List.all_eq_true.mp hinit
    refine ⟨(trim output.toList).dropLast, by rw [String.toList_ofList, split], ?_, base⟩
    rw [← split, utf8_append, List.length_append,
      length_utf8_of_ascii fun c hc => isBase64_ascii (base c hc), List.length_map] at hlen
    have one : (utf8 ['=']).length = 1 := rfl
    omega
  · cases hparse

theorem IsKey.chars {key : String} (h : IsKey key) :
    ∀ c ∈ key.toList, isBase64 c = true ∨ c = '=' := by
  obtain ⟨init, hkey, _, hinit⟩ := h.shape
  intro c hc
  rw [hkey] at hc
  rcases List.mem_append.mp hc with hc | hc
  · exact Or.inl (hinit c hc)
  · exact Or.inr (List.mem_singleton.mp hc)

theorem isBase64_not_whitespace {c : Char} (h : isBase64 c = true) : isWhitespace c = false := by
  rw [isBase64, Bool.or_eq_true, Bool.or_eq_true] at h
  rcases h with (h | h) | h
  · exact isAlphanum_not_whitespace c h
  · rw [of_decide_eq_true h]
    decide
  · rw [of_decide_eq_true h]
    decide

theorem IsKey.not_whitespace {key : String} (h : IsKey key) {c : Char} (hc : c ∈ key.toList) :
    isWhitespace c = false := by
  rcases h.chars c hc with hbase | rfl
  · exact isBase64_not_whitespace hbase
  · decide

theorem IsKey.trim {key : String} (h : IsKey key) : trim key.toList = key.toList :=
  trim_of_ends (fun _ hc => h.not_whitespace (List.mem_of_head? hc))
    fun _ hc => h.not_whitespace (List.mem_of_getLast? hc)

/-- A key is read as itself. -/
theorem IsKey.parse {key : String} (h : IsKey key) : parseKey key = .ok key := by
  obtain ⟨output, hparse⟩ := h
  have trimmed := IsKey.trim ⟨output, hparse⟩
  rw [parseKey] at hparse
  split at hparse
  · next hshape =>
    cases hparse
    rw [String.toList_ofList] at trimmed
    rw [parseKey]
    simp only [String.toList_ofList, trimmed, hshape, and_self, if_true]
  · cases hparse
