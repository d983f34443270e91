import Anago.StdText

/-!
# Join codes

`XXXX-XXXX` over thirty characters. A `JoinCode` is always in canonical form, so codes
are compared as they are; whether a code can still be redeemed is a question about the
numbers stored beside it, answered by `status`.
-/

open StdText

namespace JoinCode

/-- No `0`, `1`, `I`, `L`, `O` or `U`. -/
def alphabet : List Char := "23456789ABCDEFGHJKMNPQRSTVWXYZ".toList

def groupLen : Nat := 4

def groups : Nat := 2

def codeLen : Nat := groupLen * groups

def defaultTtlSecs : Int64 := 15 * 60

end JoinCode

structure JoinCode where
  text : String
  /-- `codeLen` characters of the alphabet, with a hyphen after the first group. -/
  canonical : ∃ chars : List Char, chars.length = JoinCode.codeLen ∧
    (∀ c ∈ chars, c ∈ JoinCode.alphabet) ∧
    text = String.ofList (chars.take JoinCode.groupLen ++ '-' :: chars.drop JoinCode.groupLen)
  deriving DecidableEq

inductive CodeError where
  | badChar (c : Char)
  | wrongLength (length : Nat)
  deriving DecidableEq, Repr

namespace JoinCode

/-- The loop of `parse`: hyphens and whitespace are skipped, and no more than
`codeLen` characters are kept. -/
def significant : List Char → List Char → Except CodeError (List Char)
  | [], chars => .ok chars
  | c :: rest, chars =>
    if c = '-' ∨ isWhitespace c then significant rest chars
    else
      let upper := toAsciiUppercase c
      if upper ∉ alphabet then .error (.badChar c)
      else if chars.length = codeLen then .error (.wrongLength (codeLen + 1))
      else significant rest (chars ++ [upper])

theorem significant_alphabet {input chars out : List Char}
    (start : ∀ c ∈ chars, c ∈ alphabet) (h : significant input chars = .ok out) :
    ∀ c ∈ out, c ∈ alphabet := by
  induction input generalizing chars with
  | nil =>
    cases h
    exact start
  | cons c rest ih =>
    rw [significant] at h
    split at h
    · exact ih start h
    · simp only at h
      split at h
      · cases h
      next halpha =>
      split at h
      · cases h
      · refine ih ?_ h
        intro d hd
        rcases List.mem_append.mp hd with hd | hd
        · exact start d hd
        · rw [List.mem_singleton.mp hd]
          exact Decidable.not_not.mp halpha

theorem mapM_length {indices : List Nat} {chars : List Char}
    (h : indices.mapM (alphabet[·]?) = some chars) : indices.length = chars.length := by
  induction indices generalizing chars with
  | nil => cases h; rfl
  | cons i indices ih =>
    rw [List.mapM_cons, Option.bind_eq_bind, Option.bind_eq_some_iff] at h
    obtain ⟨c, _, h⟩ := h
    rw [Option.bind_eq_bind, Option.bind_eq_some_iff] at h
    obtain ⟨cs, hcs, h⟩ := h
    cases h
    rw [List.length_cons, List.length_cons, ih hcs]

theorem mapM_alphabet {indices : List Nat} {chars : List Char}
    (h : indices.mapM (alphabet[·]?) = some chars) : ∀ c ∈ chars, c ∈ alphabet := by
  induction indices generalizing chars with
  | nil => cases h; simp
  | cons i indices ih =>
    rw [List.mapM_cons, Option.bind_eq_bind, Option.bind_eq_some_iff] at h
    obtain ⟨c, hc, h⟩ := h
    rw [Option.bind_eq_bind, Option.bind_eq_some_iff] at h
    obtain ⟨cs, hcs, h⟩ := h
    cases h
    exact List.forall_mem_cons.mpr ⟨List.mem_of_getElem? hc, ih hcs⟩

def parse (input : String) : Except CodeError JoinCode :=
  match h : significant input.toList [] with
  | .error e => .error e
  | .ok chars =>
    if len : chars.length = codeLen then
      .ok ⟨String.ofList (chars.take groupLen ++ '-' :: chars.drop groupLen), chars, len,
        significant_alphabet (by simp) h, rfl⟩
    else .error (.wrongLength chars.length)

/-- Builds a code from `codeLen` alphabet positions. -/
def fromIndices (indices : List Nat) : Option JoinCode :=
  if len : indices.length = codeLen then
    match h : indices.mapM (alphabet[·]?) with
    | none => none
    | some chars => some ⟨String.ofList (chars.take groupLen ++ '-' :: chars.drop groupLen),
        chars, by rw [← mapM_length h, len], mapM_alphabet h, rfl⟩
  else none

def asStr (code : JoinCode) : String := code.text

theorem ext_text {c d : JoinCode} (h : c.asStr = d.asStr) : c = d := by
  cases c
  cases d
  cases h
  rfl

theorem alphabet_kept : ∀ c ∈ alphabet,
    toAsciiUppercase c = c ∧ ¬(c = '-' ∨ isWhitespace c) := by
  have all : (alphabet.all fun c =>
      decide (toAsciiUppercase c = c ∧ ¬(c = '-' ∨ isWhitespace c))) = true := by decide
  exact fun c hc => of_decide_eq_true (List.all_eq_true.mp all c hc)

theorem significant_append {chars rest kept : List Char} (halpha : ∀ c ∈ chars, c ∈ alphabet)
    (room : kept.length + chars.length ≤ codeLen) :
    significant (chars ++ rest) kept = significant rest (kept ++ chars) := by
  induction chars generalizing kept with
  | nil => simp
  | cons c chars ih =>
    obtain ⟨hupper, hskip⟩ := alphabet_kept c (halpha c List.mem_cons_self)
    rw [List.length_cons] at room
    rw [List.cons_append, significant, if_neg hskip]
    simp only [hupper]
    rw [if_neg (not_not_intro (halpha c List.mem_cons_self)), if_neg (by omega),
      ih (fun d hd => halpha d (List.mem_cons_of_mem c hd)) (by simp; omega)]
    simp

/-- The canonical form is read back as itself. -/
@[simp] theorem parse_asStr (code : JoinCode) : parse code.asStr = .ok code := by
  obtain ⟨text, chars, hlen, halpha, rfl⟩ := code
  have hread : significant
      (String.ofList (chars.take groupLen ++ '-' :: chars.drop groupLen)).toList [] =
        .ok chars := by
    have hdash : ∀ kept, significant ('-' :: chars.drop groupLen) kept =
        significant (chars.drop groupLen) kept := fun kept => by
          rw [significant, if_pos (Or.inl rfl)]
    rw [String.toList_ofList,
      significant_append (fun c hc => halpha c (List.mem_of_mem_take hc))
        (by rw [List.length_take, List.length_nil, groupLen, codeLen, groupLen, groups]; omega),
      hdash, ← List.append_nil (chars.drop groupLen),
      significant_append (fun c hc => halpha c (List.mem_of_mem_drop hc)) (by
        rw [List.nil_append, List.length_take, List.length_drop, hlen, groupLen, codeLen,
          groupLen, groups]
        omega), significant, List.nil_append, List.take_append_drop]
  rw [parse]
  split
  · next e he => cases hread.symm.trans he
  · next out hout =>
    obtain rfl : chars = out := Except.ok.inj (hread.symm.trans hout)
    rw [dif_pos hlen]

end JoinCode

namespace CodeError

def display [Unicode] : CodeError → String
  | badChar c =>
    debugChar c ++ " is not used in join codes (alphabet: 23456789ABCDEFGHJKMNPQRSTVWXYZ)"
  | wrongLength len =>
    if len > JoinCode.codeLen then "join code is longer than 8 characters"
    else "join code needs 8 characters, got " ++ String.ofList (DecimalText.showNat len)

end CodeError

inductive CodeStatus where
  | usable
  | used
  | expired
  deriving DecidableEq, Repr

namespace CodeStatus

def isUsable (s : CodeStatus) : Bool := s = usable

def display : CodeStatus → String
  | usable => "usable"
  | used => "already used"
  | expired => "expired"

end CodeStatus

/-- `i64::saturating_add`. -/
def saturatingAdd (a b : Int64) : Int64 :=
  let sum := a.toInt + b.toInt
  if sum < Int64.minValue.toInt then Int64.minValue
  else if Int64.maxValue.toInt < sum then Int64.maxValue
  else Int64.ofInt sum

namespace JoinCode

def expiresAt (issuedAt ttlSecs : Int64) : Int64 := saturatingAdd issuedAt ttlSecs

def status (expiresAt : Int64) (usedAt : Option Int64) (now : Int64) : CodeStatus :=
  if usedAt.isSome then .used
  else if now ≥ expiresAt then .expired
  else .usable

end JoinCode

/-- One entry of the state file's `codes`. -/
structure IssuedCode where
  code : JoinCode
  issuedAt : Int64
  expiresAt : Int64
  usedAt : Option Int64
  deriving DecidableEq

namespace IssuedCode

def issue (code : JoinCode) (issuedAt ttlSecs : Int64) : IssuedCode where
  code := code
  issuedAt := issuedAt
  expiresAt := JoinCode.expiresAt issuedAt ttlSecs
  usedAt := none

def status (issued : IssuedCode) (now : Int64) : CodeStatus :=
  JoinCode.status issued.expiresAt issued.usedAt now

end IssuedCode
