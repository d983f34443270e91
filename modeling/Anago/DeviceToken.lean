import Anago.StdText
import Anago.Utf8Text

/-!
# Device tokens and their hashes

Both are 64 lower-case hexadecimal characters. The server keeps the hash alone, and
compares hashes without stopping at the first difference.
-/

open StdText Utf8Text

inductive TokenError where
  | wrongLength (length : Nat)
  | badChar (c : Char)
  deriving DecidableEq, Repr

namespace TokenError

def display [Unicode] : TokenError → String
  | wrongLength len =>
    "token must be 64 hex characters, got " ++ String.ofList (DecimalText.showNat len)
  | badChar c => debugChar c ++ " is not a lower-case hex digit"

end TokenError

def tokenBytes : Nat := 32

def hexLen : Nat := tokenBytes * 2

def isLowerHex (c : Char) : Bool := ('0' ≤ c && c ≤ '9') || ('a' ≤ c && c ≤ 'f')

def checkHex (input : String) : Except TokenError Unit :=
  let len := input.toList.length
  if len ≠ hexLen then .error (.wrongLength len)
  else
    match input.toList.find? fun c => !isLowerHex c with
    | some c => .error (.badChar c)
    | none => .ok ()

structure DeviceToken where
  text : String
  checked : checkHex text = .ok ()
  deriving DecidableEq

structure TokenHash where
  text : String
  checked : checkHex text = .ok ()
  deriving DecidableEq

/-- Whether two byte strings are equal, in one pass over both. -/
def constantTimeEq (a b : List UInt8) : Bool :=
  if a.length ≠ b.length then false
  else (a.zip b).foldl (fun diff xy => diff ||| (xy.1 ^^^ xy.2)) 0 = 0

namespace DeviceToken

def parse (input : String) : Except TokenError DeviceToken :=
  match h : checkHex input with
  | .error e => .error e
  | .ok () => .ok ⟨input, h⟩

def asStr (token : DeviceToken) : String := token.text

/-- A token is of lower-case hexadecimal digits. -/
theorem all_isLowerHex (token : DeviceToken) : ∀ c ∈ token.text.toList, isLowerHex c = true := by
  have checked := token.checked
  rw [checkHex] at checked
  split at checked
  · cases checked
  · split at checked
    · cases checked
    · next none =>
      intro c hc
      simpa using List.find?_eq_none.mp none c hc

/-- A token of one digit, sixty-four times. -/
def sample (c : Char) (digit : isLowerHex c = true) : DeviceToken where
  text := String.ofList (List.replicate hexLen c)
  checked := by
    rw [checkHex, String.toList_ofList]
    simp [hexLen, tokenBytes, digit]

end DeviceToken

namespace TokenHash

def parse (input : String) : Except TokenError TokenHash :=
  match h : checkHex input with
  | .error e => .error e
  | .ok () => .ok ⟨input, h⟩

def asStr (hash : TokenHash) : String := hash.text

/-- A hash of one digit, sixty-four times. -/
def sample (c : Char) (digit : isLowerHex c = true) : TokenHash :=
  ⟨(DeviceToken.sample c digit).text, (DeviceToken.sample c digit).checked⟩

def «matches» (hash other : TokenHash) : Bool :=
  constantTimeEq (asBytes hash.text) (asBytes other.text)

@[simp] theorem parse_asStr (hash : TokenHash) : parse hash.asStr = .ok hash := by
  rw [parse]
  split
  · next e he => cases hash.checked.symm.trans he
  · rfl

end TokenHash

theorem foldl_or_eq_zero {pairs : List (UInt8 × UInt8)} {diff : UInt8} :
    pairs.foldl (fun diff xy => diff ||| (xy.1 ^^^ xy.2)) diff = 0 ↔
      diff = 0 ∧ ∀ xy ∈ pairs, xy.1 = xy.2 := by
  induction pairs generalizing diff with
  | nil => simp
  | cons xy pairs ih =>
    rw [List.foldl_cons, ih, UInt8.or_eq_zero_iff, UInt8.xor_eq_zero_iff, and_assoc,
      List.forall_mem_cons]

/-- The comparison decides equality. -/
theorem constantTimeEq_iff {a b : List UInt8} : constantTimeEq a b = true ↔ a = b := by
  rw [constantTimeEq]
  split
  · next hlen =>
    exact ⟨fun h => (nomatch h), fun h => absurd (congrArg List.length h) hlen⟩
  · next hlen =>
    rw [decide_eq_true_iff, foldl_or_eq_zero]
    have hlen : a.length = b.length := Decidable.not_not.mp hlen
    constructor
    · rintro ⟨_, h⟩
      refine List.ext_getElem hlen fun i ha hb => ?_
      exact h (a[i], b[i]) (List.mem_iff_getElem.mpr
        ⟨i, by rw [List.length_zip]; omega, by simp⟩)
    · rintro rfl
      refine ⟨rfl, fun xy hxy => ?_⟩
      obtain ⟨i, hi, rfl⟩ := List.mem_iff_getElem.mp hxy
      simp

theorem asBytes_injective {s t : String} (h : asBytes s = asBytes t) : s = t := by
  have hs := fromUtf8_utf8 s.toList
  have ht := fromUtf8_utf8 t.toList
  rw [asBytes] at h
  rw [h, asBytes, ht] at hs
  simpa using (Option.some.inj hs).symm

namespace TokenHash

@[simp] theorem matches_iff (hash other : TokenHash) :
    hash.matches other = true ↔ hash = other := by
  rw [TokenHash.matches, constantTimeEq_iff]
  constructor
  · intro h
    cases hash
    cases other
    obtain rfl := asBytes_injective h
    rfl
  · rintro rfl
    rfl

end TokenHash
