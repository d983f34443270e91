import Anago.JsonCursor

/-!
# Literals, strings and numbers, both ways

For each token of the grammar: the parser function accepts every text of the token
and takes exactly that text, and whatever it accepts is a text of the token.
-/

namespace Json

open StdText DecimalText Utf8Text

theorem IsShort.ascii {letter c : Char} (h : IsShort letter c) :
    letter.toNat < 128 ∧ c.toNat < 128 := by
  cases h <;> decide

theorem toNat_le_iff {c d : Char} : c ≤ d ↔ c.toNat ≤ d.toNat := by
  rw [Char.le_def, UInt32.le_iff_toNat_le]
  rfl

theorem toUInt8_le_iff {c d : Char} (hc : c.toNat < 128) (hd : d.toNat < 128) :
    c.toUInt8 ≤ d.toUInt8 ↔ c ≤ d := by
  rw [UInt8.le_iff_toNat_le, toUInt8_toNat hc, toUInt8_toNat hd, toNat_le_iff]

theorem IsHexDigit.ascii {c : Char} {n : Nat} (h : IsHexDigit c n) : c.toNat < 128 := by
  cases h with
  | digit _ h => exact Nat.lt_of_le_of_lt (toNat_le_iff.mp h) (by decide)
  | lower _ h => exact Nat.lt_of_le_of_lt (toNat_le_iff.mp h) (by decide)
  | upper _ h => exact Nat.lt_of_le_of_lt (toNat_le_iff.mp h) (by decide)

theorem IsHexDigit.lt {c : Char} {n : Nat} (h : IsHexDigit c n) : n < 16 := by
  cases h with
  | digit _ h =>
    have : c.toNat ≤ 57 := toNat_le_iff.mp h
    have : '0'.toNat = 48 := rfl
    omega
  | lower _ h =>
    have : c.toNat ≤ 102 := toNat_le_iff.mp h
    have : 'a'.toNat = 97 := rfl
    omega
  | upper _ h =>
    have : c.toNat ≤ 70 := toNat_le_iff.mp h
    have : 'A'.toNat = 65 := rfl
    omega

theorem IsHex4.ascii {digits : List Char} {n : Nat} (h : IsHex4 digits n) :
    ∀ c ∈ digits, c.toNat < 128 := by
  cases h with
  | mk h₁ h₂ h₃ h₄ =>
    intro c hc
    simp only [List.mem_cons, List.not_mem_nil, or_false] at hc
    rcases hc with rfl | rfl | rfl | rfl
    · exact h₁.ascii
    · exact h₂.ascii
    · exact h₃.ascii
    · exact h₄.ascii

theorem IsHex4.length {digits : List Char} {n : Nat} (h : IsHex4 digits n) :
    (utf8 digits).length = 4 := by
  rw [length_utf8_of_ascii h.ascii, List.length_map]
  cases h
  rfl

theorem IsHex4.lt {digits : List Char} {n : Nat} (h : IsHex4 digits n) : n < 0x10000 := by
  cases h with
  | mk h₁ h₂ h₃ h₄ =>
    have := h₁.lt
    have := h₂.lt
    have := h₃.lt
    have := h₄.lt
    omega

theorem hexDigit_iff {c : Char} {n : Nat} (hc : c.toNat < 128) :
    hexDigit c.toUInt8 = some n ↔ IsHexDigit c n := by
  have zero := toUInt8_le_iff (d := c) (c := '0') (by decide) hc
  have nine := toUInt8_le_iff (c := c) (d := '9') hc (by decide)
  have a := toUInt8_le_iff (d := c) (c := 'a') (by decide) hc
  have f := toUInt8_le_iff (c := c) (d := 'f') hc (by decide)
  have A := toUInt8_le_iff (d := c) (c := 'A') (by decide) hc
  have F := toUInt8_le_iff (c := c) (d := 'F') hc (by decide)
  simp only [hexDigit, zero, nine, a, f, A, F, toUInt8_toNat hc]
  constructor
  · intro h
    split at h
    · next hr => cases h; exact .digit hr.1 hr.2
    · split at h
      · next hr => cases h; exact .lower hr.1 hr.2
      · split at h
        · next hr => cases h; exact .upper hr.1 hr.2
        · cases h
  · -- the three ranges do not meet
    intro h
    cases h with
    | digit h₀ h₉ => rw [if_pos ⟨h₀, h₉⟩]
    | lower ha hf =>
      have h9 : ¬c ≤ '9' := fun h => absurd (Char.le_trans ha h) (by decide)
      rw [if_neg (fun h => h9 h.2), if_pos ⟨ha, hf⟩]
    | upper hA hF =>
      have h9 : ¬c ≤ '9' := fun h => absurd (Char.le_trans hA h) (by decide)
      have ha : ¬ 'a' ≤ c := fun h => absurd (Char.le_trans h hF) (by decide)
      rw [if_neg (fun h => h9 h.2), if_neg (fun h => ha h.1), if_pos ⟨hA, hF⟩]

theorem hexDigit_ascii {b : UInt8} {n : Nat} (h : hexDigit b = some n) : b.toNat < 128 := by
  have bound : ∀ c : Char, c.toNat < 128 → b ≤ c.toUInt8 → b.toNat < 128 := by
    intro c hc hb
    rw [UInt8.le_iff_toNat_le, toUInt8_toNat hc] at hb
    omega
  rw [hexDigit] at h
  split at h
  · next hr => exact bound '9' (by decide) hr.2
  · split at h
    · next hr => exact bound 'f' (by decide) hr.2
    · split at h
      · next hr => exact bound 'F' (by decide) hr.2
      · cases h

theorem toUInt8_ofUInt8 (b : UInt8) : (Char.ofUInt8 b).toUInt8 = b := by
  apply UInt8.toNat_inj.mp
  have hb : b.toNat < 256 := b.toNat_lt
  rw [Char.toUInt8, UInt32.toNat_toUInt8, show (Char.ofUInt8 b).val.toNat = b.toNat from
    ofUInt8_toNat b]
  omega

theorem isHexDigit_of_byte {b : UInt8} {n : Nat} (h : hexDigit b = some n) :
    IsHexDigit (Char.ofUInt8 b) n := by
  have hb := hexDigit_ascii h
  have hc : (Char.ofUInt8 b).toNat < 128 := by rwa [ofUInt8_toNat]
  rw [← toUInt8_ofUInt8 b] at h
  exact (hexDigit_iff hc).mp h

theorem hexValue_eq_some_iff {a b c d : UInt8} {n : Nat} :
    Parser.hexValue [a, b, c, d] = some n ↔
      ∃ n₁ n₂ n₃ n₄, hexDigit a = some n₁ ∧ hexDigit b = some n₂ ∧ hexDigit c = some n₃ ∧
        hexDigit d = some n₄ ∧ n = ((n₁ * 16 + n₂) * 16 + n₃) * 16 + n₄ := by
  simp only [Parser.hexValue, List.foldlM_cons, List.foldlM_nil, Nat.zero_mul, Nat.zero_add]
  cases hexDigit a <;> cases hexDigit b <;> cases hexDigit c <;> cases hexDigit d <;>
    simp [eq_comm]

/-- A byte that a string passes through as it stands. -/
def PlainByte (b : UInt8) : Prop := b ≠ '"'.toUInt8 ∧ b ≠ '\\'.toUInt8 ∧ ¬b < 0x20

theorem plainByte_encode {c : Char} (hc : 0x20 ≤ c.toNat) (hq : c ≠ '"') (hb : c ≠ '\\') :
    ∀ b ∈ String.utf8EncodeChar c, PlainByte b := by
  intro b hmem
  by_cases hlow : c.toNat < 128
  · rw [encode_ascii hlow] at hmem
    obtain rfl : b = c.toUInt8 := by simpa using hmem
    refine ⟨mt (toUInt8_inj hlow (by decide)).mp hq, mt (toUInt8_inj hlow (by decide)).mp hb, ?_⟩
    rw [UInt8.lt_iff_toNat_lt, toUInt8_toNat hlow]
    exact Nat.not_lt.mpr hc
  · have high := encode_high (Nat.le_of_not_lt hlow) hmem
    refine ⟨?_, ?_, ?_⟩
    · rintro rfl; revert high; decide
    · rintro rfl; revert high; decide
    · rw [UInt8.lt_iff_toNat_lt]
      have : (0x20 : UInt8).toNat = 32 := rfl
      omega

namespace Parser

variable {p q : Parser} {cs rest : List Char}

theorem hex4_reads {digits : List Char} {n : Nat} (hd : IsHex4 digits n)
    (h : p.At (digits ++ rest)) : ∃ q, p.hex4 = .ok (n, q) ∧ q.At rest := by
  have hlen := h.rest_length
  have hslice := h.slice_prefix
  have hnext := h.advance
  rw [hd.length] at hslice hnext
  rw [utf8_append, List.length_append, hd.length] at hlen
  have hvalue : hexValue (utf8 digits) = some n := by
    rw [length_utf8_of_ascii hd.ascii]
    cases hd with
    | mk h₁ h₂ h₃ h₄ =>
      exact hexValue_eq_some_iff.mpr ⟨_, _, _, _, (hexDigit_iff h₁.ascii).mpr h₁,
        (hexDigit_iff h₂.ascii).mpr h₂, (hexDigit_iff h₃.ascii).mpr h₃,
        (hexDigit_iff h₄.ascii).mpr h₄, rfl⟩
  refine ⟨p.advance 4, ?_, hnext⟩
  simp only [hex4]
  rw [if_neg (by omega), hslice, Outcome.ok_bind, hvalue]
  rfl

theorem four_of_length {l : List UInt8} (h : 4 ≤ l.length) :
    ∃ a b c d tail, l = a :: b :: c :: d :: tail := by
  obtain _ | ⟨a, _ | ⟨b, _ | ⟨c, _ | ⟨d, tail⟩⟩⟩⟩ := l
  · simp at h
  · simp at h
  · simp at h
  · simp at h
  · exact ⟨a, b, c, d, tail, rfl⟩

theorem hex4_sound {n : Nat} (h : p.At cs) (hx : p.hex4 = .ok (n, q)) :
    ∃ digits rest, cs = digits ++ rest ∧ IsHex4 digits n ∧ q.At rest := by
  simp only [hex4] at hx
  split at hx
  · cases hx
  · next hroom =>
    have hrest := h.rest
    rw [Parser.rest] at hrest
    rw [slice, if_pos ⟨Nat.le_add_right _ _, Nat.le_of_not_lt hroom⟩, Outcome.ok_bind,
      Nat.add_sub_cancel_left, hrest] at hx
    have hlen := h.rest_length
    -- the four bytes are there, and are ASCII because they are digits
    obtain ⟨a, b, c, d, tail, hb⟩ := four_of_length (l := utf8 cs) (by omega)
    rw [hb, List.take_succ_cons, List.take_succ_cons, List.take_succ_cons,
      List.take_succ_cons, List.take_zero] at hx
    cases hv : hexValue [a, b, c, d] with
    | none => rw [hv] at hx; cases hx
    | some value =>
      rw [hv] at hx
      cases hx
      obtain ⟨n₁, n₂, n₃, n₄, h₁, h₂, h₃, h₄, rfl⟩ := hexValue_eq_some_iff.mp hv
      obtain ⟨cs₁, rfl, hb₁⟩ := ascii_head hb (hexDigit_ascii h₁)
      obtain ⟨cs₂, rfl, hb₂⟩ := ascii_head hb₁.symm (hexDigit_ascii h₂)
      obtain ⟨cs₃, rfl, hb₃⟩ := ascii_head hb₂.symm (hexDigit_ascii h₃)
      obtain ⟨cs₄, rfl, hb₄⟩ := ascii_head hb₃.symm (hexDigit_ascii h₄)
      have hd : IsHex4 [Char.ofUInt8 a, Char.ofUInt8 b, Char.ofUInt8 c, Char.ofUInt8 d] _ :=
        .mk (isHexDigit_of_byte h₁) (isHexDigit_of_byte h₂) (isHexDigit_of_byte h₃)
          (isHexDigit_of_byte h₄)
      have hnext := At.advance (show At _ ([_, _, _, _] ++ cs₄) from h)
      rw [hd.length] at hnext
      exact ⟨_, cs₄, rfl, hd, hnext⟩

theorem isHighSurrogate_iff (n : Nat) : isHighSurrogate n = true ↔ HighSurrogate n := by
  rw [isHighSurrogate, Bool.and_eq_true, decide_eq_true_eq, decide_eq_true_eq, HighSurrogate]

theorem isLowSurrogate_iff (n : Nat) : isLowSurrogate n = true ↔ LowSurrogate n := by
  rw [isLowSurrogate, Bool.and_eq_true, decide_eq_true_eq, decide_eq_true_eq, LowSurrogate]

theorem fromU32_unit {n : Nat} (h : n < 0x10000) (hh : ¬HighSurrogate n)
    (hl : ¬LowSurrogate n) : fromU32 n = some (Char.ofNat n) := by
  rw [fromU32, if_pos]
  rw [HighSurrogate] at hh
  rw [LowSurrogate] at hl
  rw [Nat.isValidChar]
  omega

theorem fromU32_pair {high low : Nat} (hh : HighSurrogate high) (hl : LowSurrogate low) :
    fromU32 (pairCode high low) =
      some (Char.ofNat (0x10000 + (high - 0xD800) * 0x400 + (low - 0xDC00))) := by
  rw [HighSurrogate] at hh
  rw [LowSurrogate] at hl
  have code : pairCode high low = 0x10000 + (high - 0xD800) * 0x400 + (low - 0xDC00) := by
    unfold pairCode
    omega
  rw [code, fromU32, if_pos]
  rw [Nat.isValidChar]
  omega

theorem unicodeEscape_reads {code : List Char} {c : Char} (hc : IsUnicode code c)
    (h : p.At (code ++ rest)) : ∃ q, p.unicodeEscape = .ok (c, q) ∧ q.At rest := by
  cases hc with
  | unit hd hh hl =>
    obtain ⟨q, hq, hat⟩ := hex4_reads hd h
    refine ⟨q, ?_, hat⟩
    rw [unicodeEscape, hq, Outcome.ok_bind]
    split
    next first q pair =>
    obtain ⟨rfl, rfl⟩ := Prod.mk.inj pair
    rw [if_neg (mt (isHighSurrogate_iff _).mp hh), if_neg (mt (isLowSurrogate_iff _).mp hl),
      fromU32_unit hd.lt hh hl]
  | pair hd hd' hh hl =>
    rw [List.append_assoc] at h
    obtain ⟨q, hq, hat⟩ := hex4_reads hd h
    have hat₁ : (q.advance 1).At _ := hat.step (by decide)
    have hat₂ : (q.advance 2).At _ := hat₁.step (by decide)
    obtain ⟨r, hr, hat'⟩ := hex4_reads hd' hat₂
    refine ⟨r, ?_, hat'⟩
    rw [unicodeEscape, hq, Outcome.ok_bind]
    split
    next first q pair =>
    obtain ⟨rfl, rfl⟩ := Prod.mk.inj pair
    have marks : q.peek = some '\\'.toUInt8 ∧ q.b[q.i + 1]? = some 'u'.toUInt8 :=
      ⟨hat.peek_cons (by decide), hat₁.peek_cons (by decide)⟩
    rw [if_pos ((isHighSurrogate_iff _).mpr hh), if_neg (not_not_intro marks), hr,
      Outcome.ok_bind]
    split
    next low r pair =>
    obtain ⟨rfl, rfl⟩ := Prod.mk.inj pair
    rw [if_neg (by rw [(isLowSurrogate_iff _).mpr hl]; decide), fromU32_pair hh hl]

theorem unicodeEscape_sound {c : Char} (h : p.At cs) (hx : p.unicodeEscape = .ok (c, q)) :
    ∃ code rest, cs = code ++ rest ∧ IsUnicode code c ∧ q.At rest := by
  rw [unicodeEscape] at hx
  obtain ⟨⟨first, r⟩, hfirst, hx⟩ := Outcome.bind_eq_ok hx
  obtain ⟨digits, rest, rfl, hd, hat⟩ := hex4_sound h hfirst
  split at hx
  next first' r' pair =>
  obtain ⟨rfl, rfl⟩ := Prod.mk.inj pair
  split at hx
  · next hh =>
    rw [isHighSurrogate_iff] at hh
    split at hx
    · cases hx
    · next marks =>
      obtain ⟨hslash, hu⟩ := Decidable.not_not.mp marks
      obtain ⟨rest, rfl⟩ := (hat.peek_iff (by decide)).mp hslash
      have hat₁ : (r.advance 1).At _ := hat.step (by decide)
      obtain ⟨rest, rfl⟩ := (hat₁.peek_iff (by decide)).mp hu
      have hat₂ : (r.advance 2).At _ := hat₁.step (by decide)
      obtain ⟨⟨low, t⟩, hlow, hx⟩ := Outcome.bind_eq_ok hx
      obtain ⟨digits', rest, rfl, hd', hat'⟩ := hex4_sound hat₂ hlow
      split at hx
      next low' t' pair =>
      obtain ⟨rfl, rfl⟩ := Prod.mk.inj pair
      split at hx
      · cases hx
      · next hl =>
        rw [Bool.not_eq_true', Bool.not_eq_false, isLowSurrogate_iff] at hl
        rw [fromU32_pair hh hl] at hx
        obtain ⟨rfl, rfl⟩ := Prod.mk.inj (Outcome.ok.inj hx)
        exact ⟨_, rest, by simp, .pair hd hd' hh hl, hat'⟩
  · next hh =>
    rw [isHighSurrogate_iff] at hh
    split at hx
    · cases hx
    · next hl =>
      rw [isLowSurrogate_iff] at hl
      rw [fromU32_unit hd.lt hh hl] at hx
      cases hx
      exact ⟨digits, rest, rfl, .unit hd hh hl, hat⟩

theorem shortEscape_short {letter c : Char} (h : IsShort letter c) :
    shortEscape letter.toUInt8 = some c.toUInt8 := by
  cases h <;> rfl

theorem isShort_of_byte {esc b : UInt8} (h : shortEscape esc = some b) :
    ∃ letter c, IsShort letter c ∧ esc = letter.toUInt8 ∧ b = c.toUInt8 := by
  rw [shortEscape] at h
  split at h
  · next hc => cases h; exact ⟨_, _, .quote, hc, rfl⟩
  · split at h
    · next hc => cases h; exact ⟨_, _, .backslash, hc, rfl⟩
    · split at h
      · next hc => cases h; exact ⟨_, _, .slash, hc, rfl⟩
      · split at h
        · next hc => cases h; exact ⟨_, _, .backspace, hc, rfl⟩
        · split at h
          · next hc => cases h; exact ⟨_, _, .formFeed, hc, rfl⟩
          · split at h
            · next hc => cases h; exact ⟨_, _, .lineFeed, hc, rfl⟩
            · split at h
              · next hc => cases h; exact ⟨_, _, .carriageReturn, hc, rfl⟩
              · split at h
                · next hc => cases h; exact ⟨_, _, .tab, hc, rfl⟩
                · cases h

/-- Plain bytes are copied one by one. -/
theorem stringLoop_plain (bytes : List UInt8) (plain : ∀ b ∈ bytes, PlainByte b)
    {p : Parser} {tail : List UInt8} (h : p.rest = bytes ++ tail) (fuel : Nat)
    (buf : List UInt8) :
    stringLoop fuel p buf = .spin ∨ ∃ fuel',
      stringLoop fuel p buf = stringLoop fuel' (p.advance bytes.length) (buf ++ bytes) := by
  induction bytes generalizing p fuel buf with
  | nil => exact Or.inr ⟨fuel, by rw [List.append_nil]; rfl⟩
  | cons b bytes ih =>
    cases fuel with
    | zero => exact Or.inl rfl
    | succ fuel =>
      have hpeek : p.peek = some b := by
        rw [peek, ← List.head?_drop, ← rest, h]
        rfl
      have hrest : (p.advance 1).rest = bytes ++ tail := by
        rw [rest, advance, ← List.drop_drop, ← rest, h]
        rfl
      obtain ⟨hq, hb, hc⟩ := plain b List.mem_cons_self
      have turn : stringLoop (fuel + 1) p buf = stringLoop fuel (p.advance 1) (buf ++ [b]) := by
        rw [stringLoop, hpeek]
        simp only
        rw [if_neg hq, if_neg hb, if_neg hc]
      rw [turn]
      rcases ih (fun c hm => plain c (List.mem_cons_of_mem b hm)) hrest fuel (buf ++ [b]) with
        hspin | ⟨fuel', hrun⟩
      · exact Or.inl hspin
      · refine Or.inr ⟨fuel', ?_⟩
        rw [hrun, List.append_assoc, advance, advance, advance, List.length_cons, Nat.add_assoc,
          Nat.add_comm 1]
        rfl

theorem stringLoop_char {c : Char} (h : p.At (c :: rest)) (hc : 0x20 ≤ c.toNat) (hq : c ≠ '"')
    (hb : c ≠ '\\') (fuel : Nat) (done : List Char) :
    stringLoop fuel p (utf8 done) = .spin ∨ ∃ fuel' q,
      stringLoop fuel p (utf8 done) = stringLoop fuel' q (utf8 (done ++ [c])) ∧ q.At rest := by
  have hrest := h.rest
  rw [utf8_cons] at hrest
  rcases stringLoop_plain _ (plainByte_encode hc hq hb) hrest fuel (utf8 done) with
    hspin | ⟨fuel', hrun⟩
  · exact Or.inl hspin
  · have hone : utf8 [c] = String.utf8EncodeChar c := by rw [utf8_cons, utf8_nil, List.append_nil]
    rw [← hone, ← utf8_append] at hrun
    exact Or.inr ⟨fuel', _, hrun, At.advance (show At _ ([c] ++ _) from h)⟩

theorem stringLoop_close (h : p.At ('"' :: rest)) (fuel : Nat) (done : List Char) :
    stringLoop (fuel + 1) p (utf8 done) = .ok (String.ofList done, p.advance 1) := by
  rw [stringLoop, h.peek_cons (by decide)]
  simp only [if_true, fromUtf8_utf8]

theorem stringLoop_short {letter c : Char} (hs : IsShort letter c)
    (h : p.At ('\\' :: letter :: rest)) (fuel : Nat) (done : List Char) :
    stringLoop (fuel + 1) p (utf8 done) =
      stringLoop fuel ((p.advance 1).advance 1) (utf8 (done ++ [c])) := by
  have hnext : (p.advance 1).At (letter :: rest) := h.step (by decide)
  have hone : '\\'.toUInt8 ≠ '"'.toUInt8 := by decide
  rw [stringLoop, h.peek_cons (by decide)]
  simp only [if_neg hone, if_true, hnext.peek_cons hs.ascii.1, shortEscape_short hs]
  rw [utf8_append, utf8_cons_ascii hs.ascii.2, utf8_nil]

theorem stringLoop_unicode (h : p.At ('\\' :: 'u' :: rest)) (fuel : Nat) (done : List Char) :
    stringLoop (fuel + 1) p (utf8 done) = (do
      let (c, q) ← ((p.advance 1).advance 1).unicodeEscape
      stringLoop fuel q (utf8 (done ++ [c]))) := by
  have hnext : (p.advance 1).At ('u' :: rest) := h.step (by decide)
  have hone : '\\'.toUInt8 ≠ '"'.toUInt8 := by decide
  have hletter : shortEscape 'u'.toUInt8 = none := rfl
  have hbuf : ∀ c, utf8 (done ++ [c]) = utf8 done ++ String.utf8EncodeChar c := by
    intro c
    rw [utf8_append, utf8_cons, utf8_nil, List.append_nil]
  rw [stringLoop, h.peek_cons (by decide)]
  simp only [if_neg hone, if_true, hnext.peek_cons (by decide), hletter, hbuf]

theorem stringLoop_reads {text content : List Char} (hc : IsChars text content) (fuel : Nat)
    (done : List Char) (h : p.At (text ++ '"' :: rest)) :
    Reads True (String.ofList (done ++ content)) rest (stringLoop fuel p (utf8 done)) := by
  induction hc generalizing fuel done p with
  | nil =>
    cases fuel with
    | zero => exact Reads.spin
    | succ fuel =>
      rw [stringLoop_close h, List.append_nil]
      exact Reads.ok trivial (h.step (by decide))
  | @plain c text content hc hq hb _ ih =>
    rcases stringLoop_char h hc hq hb fuel done with hspin | ⟨fuel', q, hrun, hat⟩
    · rw [hspin]
      exact Reads.spin
    · rw [hrun, List.append_cons]
      exact ih fuel' (done ++ [c]) hat
  | @short letter c text content hs _ ih =>
    cases fuel with
    | zero => exact Reads.spin
    | succ fuel =>
      have hnext : (p.advance 1).At (letter :: (text ++ '"' :: rest)) := h.step (by decide)
      rw [stringLoop_short hs h, List.append_cons]
      exact ih fuel (done ++ [c]) (hnext.step hs.ascii.1)
  | @unicode code text content c hu _ ih =>
    cases fuel with
    | zero => exact Reads.spin
    | succ fuel =>
      have h : p.At ('\\' :: 'u' :: (code ++ (text ++ '"' :: rest))) := by simpa using h
      have hnext : (p.advance 1).At ('u' :: (code ++ (text ++ '"' :: rest))) := h.step (by decide)
      obtain ⟨q, hq, hat⟩ := unicodeEscape_reads hu (hnext.step (by decide))
      rw [stringLoop_unicode h, hq, Outcome.ok_bind, List.append_cons]
      exact ih fuel (done ++ [c]) hat

/-- After a backslash only a short escape or a `\u` is accepted. -/
theorem stringLoop_escape {fuel : Nat} {buf : List UInt8} {r : String × Parser}
    (h : p.At ('\\' :: rest)) (hx : stringLoop (fuel + 1) p buf = .ok r) :
    (∃ letter c rest', rest = letter :: rest' ∧ IsShort letter c) ∨
      ∃ rest', rest = 'u' :: rest' := by
  have hnext : (p.advance 1).At rest := h.step (by decide)
  have hone : '\\'.toUInt8 ≠ '"'.toUInt8 := by decide
  rw [stringLoop, h.peek_cons (by decide)] at hx
  simp only [if_neg hone, if_true] at hx
  split at hx
  · cases hx
  · next esc hesc =>
    split at hx
    · next byte hshort =>
      obtain ⟨letter, c, hs, rfl, _⟩ := isShort_of_byte hshort
      obtain ⟨rest', rfl⟩ := (hnext.peek_iff hs.ascii.1).mp hesc
      exact Or.inl ⟨letter, c, rest', rfl, hs⟩
    · split at hx
      · next hu =>
        subst hu
        exact Or.inr ((hnext.peek_iff (by decide)).mp hesc)
      · cases hx

theorem stringLoop_control {c : Char} (h : p.At (c :: rest)) (hq : c ≠ '"') (hb : c ≠ '\\')
    (hc : c.toNat < 0x20) (fuel : Nat) (buf : List UInt8) :
    stringLoop (fuel + 1) p buf = .err (p.err "unescaped control character in string") := by
  have ascii : c.toNat < 128 := by omega
  have hlow : c.toUInt8 < 0x20 := by
    rw [UInt8.lt_iff_toNat_lt, toUInt8_toNat ascii]
    exact hc
  rw [stringLoop, h.peek_cons ascii]
  simp only
  rw [if_neg (mt (toUInt8_inj ascii (by decide)).mp hq),
    if_neg (mt (toUInt8_inj ascii (by decide)).mp hb), if_pos hlow]

theorem stringLoop_sound {s : String} (fuel : Nat) (done : List Char) (h : p.At cs)
    (hx : stringLoop fuel p (utf8 done) = .ok (s, q)) :
    ∃ text content rest, cs = text ++ '"' :: rest ∧ IsChars text content ∧
      s = String.ofList (done ++ content) ∧ q.At rest := by
  -- on the unread text: every turn of the loop takes at least one character
  induction hn : cs.length using Nat.strongRecOn generalizing cs p fuel done with
  | ind n ih =>
    subst hn
    cases fuel with
    | zero => cases hx
    | succ fuel =>
      cases cs with
      | nil =>
        rw [stringLoop, h.peek_nil] at hx
        cases hx
      | cons c rest =>
        by_cases hq : c = '"'
        · subst hq
          rw [stringLoop_close h] at hx
          cases hx
          exact ⟨[], [], rest, rfl, .nil, by rw [List.append_nil], h.step (by decide)⟩
        by_cases hb : c = '\\'
        · subst hb
          rcases stringLoop_escape h hx with ⟨letter, c, rest, rfl, hs⟩ | ⟨rest, rfl⟩
          · have hnext : (p.advance 1).At (letter :: rest) := h.step (by decide)
            rw [stringLoop_short hs h] at hx
            obtain ⟨text, content, rest, rfl, hchars, hs', hat⟩ :=
              ih _ (by simp only [List.length_cons]; omega) _ _ (hnext.step hs.ascii.1) hx rfl
            rw [List.append_assoc] at hs'
            exact ⟨'\\' :: letter :: text, c :: content, rest, rfl, .short hs hchars, hs', hat⟩
          · have hnext : (p.advance 1).At ('u' :: rest) := h.step (by decide)
            rw [stringLoop_unicode h] at hx
            obtain ⟨⟨c, r⟩, hcode, hx⟩ := Outcome.bind_eq_ok hx
            obtain ⟨code, rest, rfl, hu, hat⟩ := unicodeEscape_sound (hnext.step (by decide)) hcode
            obtain ⟨text, content, rest, rfl, hchars, hs', hat'⟩ :=
              ih _ (by simp only [List.length_cons, List.length_append]; omega) _ _ hat hx rfl
            rw [List.append_assoc] at hs'
            exact ⟨'\\' :: 'u' :: code ++ text, c :: content, rest, by simp,
              .unicode hu hchars, hs', hat'⟩
        by_cases hc : 0x20 ≤ c.toNat
        · rcases stringLoop_char h hc hq hb (fuel + 1) done with hspin | ⟨fuel', r, hrun, hat⟩
          · rw [hspin] at hx
            cases hx
          · rw [hrun] at hx
            obtain ⟨text, content, rest, rfl, hchars, hs, hat'⟩ :=
              ih _ (Nat.lt_succ_self _) _ _ hat hx rfl
            rw [List.append_assoc] at hs
            exact ⟨c :: text, c :: content, rest, rfl, .plain hc hq hb hchars, hs, hat'⟩
        · rw [stringLoop_control h hq hb (Nat.lt_of_not_le hc)] at hx
          cases hx

/-- A string token and the value it stands for. -/
theorem string_reads {text : List Char} {s : String} (hs : IsString text s)
    (h : p.At (text ++ rest)) : Reads True s rest p.string := by
  cases hs with
  | @mk text _ hc =>
    have h : p.At ('"' :: (text ++ '"' :: rest)) := by simpa using h
    rw [string, h.expect_cons (by decide), Outcome.ok_bind]
    simpa using stringLoop_reads hc _ [] (h.step (by decide))

theorem string_sound {s : String} (h : p.At cs) (hx : p.string = .ok (s, q)) :
    ∃ text rest, cs = text ++ rest ∧ IsString text s ∧ q.At rest := by
  rw [string] at hx
  obtain ⟨r, hr, hx⟩ := Outcome.bind_eq_ok hx
  obtain ⟨rest, rfl, hat⟩ := h.expect_ok (by decide) hr
  obtain ⟨text, content, rest, rfl, hc, rfl, hat'⟩ := stringLoop_sound _ [] hat hx
  refine ⟨'"' :: text ++ ['"'], rest, by simp, .mk ?_, hat'⟩
  rwa [List.nil_append, String.toList_ofList]

theorem literal_reads (word : String) (v : Value) (h : p.At (word.toList ++ rest)) :
    ∃ q, p.literal word v = .ok (v, q) ∧ q.At rest := by
  have hrest := h.rest
  rw [Parser.rest, utf8_append] at hrest
  refine ⟨p.advance (asBytes word).length, ?_, h.advance⟩
  rw [literal, slice, if_pos ⟨h.inside, Nat.le_refl _⟩, Outcome.ok_bind, hrest,
    List.take_of_length_le, if_pos]
  · rw [List.isPrefixOf_iff_prefix]
    exact List.prefix_append _ _
  · rw [← hrest, List.length_drop]

theorem literal_sound {word : String} {v w : Value}
    (hword : word.toList.all (fun c => c.toNat < 128) = true) (h : p.At cs)
    (hx : p.literal word v = .ok (w, q)) :
    w = v ∧ ∃ rest, cs = word.toList ++ rest ∧ q.At rest := by
  have hrest := h.rest
  rw [Parser.rest] at hrest
  rw [literal, slice, if_pos ⟨h.inside, Nat.le_refl _⟩, Outcome.ok_bind, hrest,
    List.take_of_length_le (by rw [← hrest, List.length_drop])] at hx
  split at hx
  · next hp =>
    have hascii : ∀ c ∈ word.toList, c.toNat < 128 :=
      fun c hc => of_decide_eq_true (List.all_eq_true.mp hword c hc)
    obtain ⟨rest, rfl⟩ := prefix_of_utf8 hascii (List.isPrefixOf_iff_prefix.mp hp)
    cases hx
    exact ⟨rfl, rest, rfl, h.advance⟩
  · cases hx

/-- A number splits into its sign, its digits and what follows. -/
theorem number_eq_ok_iff (sign : List Char) {ds : List Char} {v : Value}
    (hsign : sign = ['-'] ∨ sign = [] ∧ (ds ++ rest).head? ≠ some '-')
    (hds : ∀ c ∈ ds, c.isDigit = true)
    (hrest : ∀ c, rest.head? = some c → c.isDigit = false)
    (h : p.At (sign ++ ds ++ rest)) :
    p.number = .ok (v, q) ↔ IsDigits ds ∧ NumberEnds rest ∧
      ∃ n, parseI64 (sign ++ ds) = some n ∧ v = .int n ∧
        q = p.advance (utf8 (sign ++ ds)).length := by
  have hafter : (if p.peek = some '-'.toUInt8 then p.advance 1 else p) =
      p.advance (utf8 sign).length := by
    rcases hsign with rfl | ⟨rfl, hne⟩
    · have h : p.At ('-' :: (ds ++ rest)) := h
      rw [if_pos (h.peek_cons (by decide))]
      rfl
    · rw [if_neg]
      · rfl
      · intro hp
        obtain ⟨tail, ht⟩ := (h.peek_iff (by decide)).mp hp
        rw [List.nil_append] at ht
        rw [ht] at hne
        exact hne rfl
  have hat : (p.advance (utf8 sign).length).At (ds ++ rest) := by
    rw [List.append_assoc] at h
    exact h.advance
  have hend : (p.advance (utf8 (sign ++ ds)).length).At rest := h.advance
  have hlen : (utf8 ds).length = ds.length := by
    rw [length_utf8_of_ascii fun c hc => isDigit_ascii (hds c hc), List.length_map]
  have hrun : (ds ++ rest).takeWhile Char.isDigit = ds := by
    rw [List.takeWhile_append_of_pos hds]
    cases rest with
    | nil => simp
    | cons c rest => simp [hrest c rfl]
  have hskip : (p.advance (utf8 sign).length).skipWhile isAsciiDigit =
      p.advance (utf8 (sign ++ ds)).length := by
    rw [skipWhile, hat.rest, takeWhile_utf8 isAsciiDigit_ascii, onChar_isAsciiDigit, hrun,
      utf8_append, List.length_append, advance, advance, advance, Nat.add_assoc]
  have hpos : (p.advance (utf8 (sign ++ ds)).length).i =
      (p.advance (utf8 sign).length).i + ds.length := by
    rw [utf8_append, List.length_append, hlen, advance, advance, Nat.add_assoc]
  have hslice : (p.advance (utf8 (sign ++ ds)).length).slice p.i
      (p.advance (utf8 (sign ++ ds)).length).i = .ok (utf8 (sign ++ ds)) := h.slice_prefix
  rw [number]
  simp only [hafter, hskip]
  cases ds with
  | nil =>
    rw [if_pos (by rw [hpos]; rfl)]
    exact ⟨fun hx => (by cases hx), fun hx => absurd rfl hx.1.nonempty⟩
  | cons c ds =>
    have hc : c.toNat < 128 := isDigit_ascii (hds c List.mem_cons_self)
    have hlead : (p.advance (utf8 (sign ++ c :: ds)).length).index
        (p.advance (utf8 sign).length).i = .ok c.toUInt8 := by
      have hpeek : (p.advance (utf8 sign).length).peek = some c.toUInt8 := hat.peek_cons hc
      rw [peek] at hpeek
      rw [index, show (p.advance (utf8 (sign ++ c :: ds)).length).b =
        (p.advance (utf8 sign).length).b from rfl, hpeek]
    rw [if_neg (by rw [hpos, List.length_cons]; omega), hlead, Outcome.ok_bind]
    split
    · next hz =>
      obtain ⟨hzero, hlong⟩ := hz
      refine ⟨fun hx => (by cases hx), fun hx => ?_⟩
      have hone := hx.1.lead (by rw [(toUInt8_inj hc (by decide)).mp hzero]; rfl)
      rw [hpos, hone, Nat.add_sub_cancel_left] at hlong
      simp at hlong
    · next hz =>
      have hdigits : IsDigits (c :: ds) := by
        refine ⟨by simp, hds, fun hh => ?_⟩
        obtain rfl : c = '0' := Option.some.inj hh
        cases ds with
        | nil => rfl
        | cons d ds => exact False.elim (hz ⟨rfl, by rw [hpos]; simp⟩)
      split
      · next hf =>
        refine ⟨fun hx => (by cases hx), fun hx => ?_⟩
        rcases hf with hf | hf | hf <;> obtain ⟨tail, rfl⟩ := (hend.peek_iff (by decide)).mp hf
        · exact absurd rfl (hx.2.1 _ rfl).2.1
        · exact absurd rfl (hx.2.1 _ rfl).2.2.1
        · exact absurd rfl (hx.2.1 _ rfl).2.2.2
      · next hf =>
        have hends : NumberEnds rest := by
          intro d hd
          have next : ∀ e : Char, e.toNat < 128 → d = e →
              (p.advance (utf8 (sign ++ c :: ds)).length).peek = some e.toUInt8 := by
            rintro e he rfl
            obtain ⟨tail, rfl⟩ := List.head?_eq_some_iff.mp hd
            exact hend.peek_cons he
          refine ⟨hrest d hd, fun he => hf ?_, fun he => hf ?_, fun he => hf ?_⟩
          · exact Or.inl (next '.' (by decide) he)
          · exact Or.inr (Or.inl (next 'e' (by decide) he))
          · exact Or.inr (Or.inr (next 'E' (by decide) he))
        rw [hslice, Outcome.ok_bind, fromUtf8_utf8]
        simp only [String.toList_ofList]
        split
        · next n hn =>
          constructor
          · intro hx
            cases hx
            exact ⟨hdigits, hends, n, hn, rfl, rfl⟩
          · rintro ⟨_, _, m, hm, rfl, rfl⟩
            rw [hn] at hm
            cases hm
            rfl
        · next hn =>
          refine ⟨fun hx => (by cases hx), ?_⟩
          rintro ⟨_, _, m, hm, _⟩
          rw [hn] at hm
          cases hm

theorem parseI64_digits {ds : List Char} (hd : IsDigits ds) {n : Int64} :
    parseI64 ds = some n ↔ n.toInt = (digitsValue ds : Int) := by
  cases ds with
  | nil => exact absurd rfl hd.nonempty
  | cons c ds =>
    have hc := hd.digits c List.mem_cons_self
    have hsigned : parseSigned (c :: ds) = (parseDigits (c :: ds)).map fun n :
        Nat => (n : Int) := by
      rw [parseSigned]
      · rintro tail h
        obtain rfl : c = '-' := (List.cons.inj h).1
        revert hc; decide
      · rintro tail h
        obtain rfl : c = '+' := (List.cons.inj h).1
        revert hc; decide
    rw [parseI64, hsigned, parseDigits, if_pos ⟨hd.nonempty, List.all_eq_true.mpr hd.digits⟩,
      Option.map_some, Option.bind_some, fitI64_eq_some_iff]

theorem parseI64_minus {ds : List Char} (hd : IsDigits ds) {n : Int64} :
    parseI64 ('-' :: ds) = some n ↔ n.toInt = -(digitsValue ds : Int) := by
  rw [parseI64, parseSigned, parseDigits,
    if_pos ⟨hd.nonempty, List.all_eq_true.mpr hd.digits⟩, Option.map_some, Option.bind_some,
    fitI64_eq_some_iff]

theorem number_head {text : List Char} {n : Int64} (h : IsNumber text n) :
    ∃ c cs, text = c :: cs ∧ (c = '-' || c.isDigit) = true := by
  cases h with
  | plain hd _ =>
    cases text with
    | nil => exact absurd rfl hd.nonempty
    | cons c cs =>
      have hc := hd.digits c List.mem_cons_self
      exact ⟨c, cs, rfl, by rw [hc, Bool.or_true]⟩
  | minus _ _ => exact ⟨'-', _, rfl, rfl⟩

theorem number_reads {text : List Char} {n : Int64} (hn : IsNumber text n)
    (hends : NumberEnds rest) (h : p.At (text ++ rest)) :
    ∃ q, p.number = .ok (.int n, q) ∧ q.At rest := by
  have hrest : ∀ c, rest.head? = some c → c.isDigit = false := fun c hc => (hends c hc).1
  refine ⟨_, ?_, h.advance⟩
  cases hn with
  | plain hd hv =>
    refine (number_eq_ok_iff [] (Or.inr ⟨rfl, ?_⟩) hd.digits hrest h).mpr
      ⟨hd, hends, n, (parseI64_digits hd).mpr hv, rfl, rfl⟩
    cases text with
    | nil => exact absurd rfl hd.nonempty
    | cons c cs =>
      intro hm
      obtain rfl : c = '-' := Option.some.inj hm
      have := hd.digits '-' List.mem_cons_self
      revert this; decide
  | minus hd hv =>
    exact (number_eq_ok_iff ['-'] (Or.inl rfl) hd.digits hrest h).mpr
      ⟨hd, hends, n, (parseI64_minus hd).mpr hv, rfl, rfl⟩

theorem number_sound {v : Value} (h : p.At cs) (hx : p.number = .ok (v, q)) :
    ∃ n text rest, v = .int n ∧ cs = text ++ rest ∧ IsNumber text n ∧ q.At rest := by
  -- the digits are whatever digits stand there
  have cut : ∀ ds : List Char, ds.takeWhile Char.isDigit ++ ds.dropWhile Char.isDigit = ds ∧
      (∀ c ∈ ds.takeWhile Char.isDigit, c.isDigit = true) ∧
      ∀ c, (ds.dropWhile Char.isDigit).head? = some c → c.isDigit = false := by
    intro ds
    refine ⟨List.takeWhile_append_dropWhile, fun c hc => List.mem_takeWhile_imp hc, ?_⟩
    intro c hc
    have := List.head?_dropWhile_not Char.isDigit ds
    rw [hc] at this
    simpa using this
  by_cases hm : cs.head? = some '-'
  · obtain ⟨ds, rfl⟩ := List.head?_eq_some_iff.mp hm
    obtain ⟨hcut, hds, hrest⟩ := cut ds
    generalize ds.takeWhile Char.isDigit = digits at *
    generalize ds.dropWhile Char.isDigit = rest at *
    subst hcut
    obtain ⟨hd, _, n, hn, rfl, rfl⟩ :=
      (number_eq_ok_iff ['-'] (Or.inl rfl) hds hrest h).mp hx
    exact ⟨n, '-' :: digits, rest, rfl, rfl, .minus hd ((parseI64_minus hd).mp hn), h.advance⟩
  · obtain ⟨hcut, hds, hrest⟩ := cut cs
    generalize cs.takeWhile Char.isDigit = digits at *
    generalize cs.dropWhile Char.isDigit = rest at *
    subst hcut
    obtain ⟨hd, _, n, hn, rfl, rfl⟩ :=
      (number_eq_ok_iff [] (Or.inr ⟨rfl, hm⟩) hds hrest h).mp hx
    exact ⟨n, digits, rest, rfl, rfl, .plain hd ((parseI64_digits hd).mp hn), h.advance⟩

/-- The dispatch of `value`, on the next character. -/
theorem value_eq [Unicode] {c : Char} (h : p.At (c :: cs)) (fuel depth : Nat) :
    value (fuel + 1) depth p =
      if depth > maxDepth then .err (p.err "nesting too deep")
      else if c = '{' then object fuel depth p
      else if c = '[' then array fuel depth p
      else if c = '"' then (do
        let (s, p) ← p.string
        .ok (.str s, p))
      else if c = 't' then p.literal "true" (.bool true)
      else if c = 'f' then p.literal "false" (.bool false)
      else if c = 'n' then p.literal "null" .null
      else if c = '-' || c.isDigit then p.number
      else .err (p.err "unexpected character") := by
  obtain ⟨b, hpeek, same, hdigit⟩ := h.first
  rw [value, hpeek]
  simp only [same (d := '{') (by decide), same (d := '[') (by decide),
    same (d := '"') (by decide), same (d := 't') (by decide), same (d := 'f') (by decide),
    same (d := 'n') (by decide), same (d := '-') (by decide), hdigit]

theorem value_number [Unicode] {c : Char} (h : p.At (c :: cs)) {fuel depth : Nat}
    (shallow : ¬depth > maxDepth) (hc : (c = '-' || c.isDigit) = true) :
    value (fuel + 1) depth p = p.number := by
  have other : ∀ d : Char, (d = '-' || d.isDigit) = false → c ≠ d := by
    rintro d hd rfl
    rw [hd] at hc
    cases hc
  rw [value_eq h, if_neg shallow, if_neg (other _ (by decide)), if_neg (other _ (by decide)),
    if_neg (other _ (by decide)), if_neg (other _ (by decide)), if_neg (other _ (by decide)),
    if_neg (other _ (by decide)), if_pos hc]

end Parser

end Json
