import Mathlib.Data.List.Basic

/-!
# UTF-8 text as bytes

A program that reads text byte by byte sees the encoding, while its specification
is written over characters. The two meet at ASCII: an ASCII byte in valid UTF-8 is
always a whole character, and no byte of a longer character is ASCII.
-/

namespace Utf8Text

/-- The bytes of a list of characters. -/
def utf8 (cs : List Char) : List UInt8 := cs.flatMap String.utf8EncodeChar

/-- `str::as_bytes`. -/
def asBytes (s : String) : List UInt8 := utf8 s.toList

/-- `String::from_utf8`, with the error dropped. -/
def fromUtf8 (bytes : List UInt8) : Option String := String.fromUTF8? bytes.toByteArray

@[simp] theorem utf8_nil : utf8 [] = [] := rfl

@[simp] theorem utf8_append (cs ds : List Char) : utf8 (cs ++ ds) = utf8 cs ++ utf8 ds := by
  simp [utf8]

theorem utf8_cons (c : Char) (cs : List Char) :
    utf8 (c :: cs) = String.utf8EncodeChar c ++ utf8 cs := by
  simp [utf8]

theorem asBytes_ofList (cs : List Char) : asBytes (String.ofList cs) = utf8 cs := by
  simp [asBytes]

theorem utf8_toByteArray (cs : List Char) : (utf8 cs).toByteArray = cs.utf8Encode := by
  simp [utf8, List.utf8Encode]

/-- The model's bytes are the bytes the string is stored as. -/
theorem asBytes_toByteArray (s : String) : (asBytes s).toByteArray = s.toByteArray := by
  rw [asBytes, utf8_toByteArray, String.utf8Encode_toList]

theorem length_asBytes (s : String) : (asBytes s).length = s.utf8ByteSize := by
  rw [← List.size_toByteArray, asBytes_toByteArray, String.utf8ByteSize]

theorem fromUtf8_utf8 (cs : List Char) : fromUtf8 (utf8 cs) = some (String.ofList cs) := by
  have valid : (cs.utf8Encode).IsValidUTF8 := ByteArray.isValidUTF8_utf8Encode
  rw [fromUtf8, utf8_toByteArray, String.fromUTF8?, dif_pos valid]
  congr 1

theorem fromUtf8_asBytes (s : String) : fromUtf8 (asBytes s) = some s := by
  rw [asBytes, fromUtf8_utf8, String.ofList_toList]

theorem asBytes_of_fromUtf8 {bytes : List UInt8} {text : String} (h : fromUtf8 bytes = some text) :
    asBytes text = bytes := by
  rw [fromUtf8, String.fromUTF8?] at h
  split at h
  · have same : text.toByteArray = bytes.toByteArray := by
      cases h
      rfl
    rw [← asBytes_toByteArray] at same
    have lists := congrArg (fun array => array.data.toList) same
    simpa using lists
  · cases h

theorem encode_ascii {c : Char} (h : c.toNat < 128) :
    String.utf8EncodeChar c = [c.toUInt8] := by
  have hle : c.val.toNat ≤ 0x7f := by
    have : c.toNat = c.val.toNat := rfl
    omega
  simp only [String.utf8EncodeChar, hle, if_true]
  rfl

theorem encode_high {c : Char} (h : 128 ≤ c.toNat) {b : UInt8}
    (hb : b ∈ String.utf8EncodeChar c) : 128 ≤ b.toNat := by
  have hlt : ¬ c.val.toNat ≤ 0x7f := by
    have : c.toNat = c.val.toNat := rfl
    omega
  simp only [String.utf8EncodeChar, hlt, if_false] at hb
  split at hb
  · simp only [List.mem_cons, List.not_mem_nil, or_false] at hb
    rcases hb with rfl | rfl <;> simp only [UInt8.toNat_ofNat'] <;> omega
  · split at hb
    · simp only [List.mem_cons, List.not_mem_nil, or_false] at hb
      rcases hb with rfl | rfl | rfl <;> simp only [UInt8.toNat_ofNat'] <;> omega
    · simp only [List.mem_cons, List.not_mem_nil, or_false] at hb
      rcases hb with rfl | rfl | rfl | rfl <;> simp only [UInt8.toNat_ofNat'] <;> omega

theorem encode_ne_nil (c : Char) : String.utf8EncodeChar c ≠ [] :=
  String.utf8EncodeChar_ne_nil

theorem utf8_cons_ascii {c : Char} (h : c.toNat < 128) (cs : List Char) :
    utf8 (c :: cs) = c.toUInt8 :: utf8 cs := by
  rw [utf8_cons, encode_ascii h]
  rfl

theorem ofUInt8_toNat (b : UInt8) : (Char.ofUInt8 b).toNat = b.toNat := UInt8.toNat_toUInt32 b

theorem toUInt8_toNat {c : Char} (h : c.toNat < 128) : c.toUInt8.toNat = c.toNat := by
  have : c.toNat = c.val.toNat := rfl
  simp only [Char.toUInt8, UInt32.toNat_toUInt8]
  omega

theorem ofUInt8_toUInt8 {c : Char} (h : c.toNat < 128) : Char.ofUInt8 c.toUInt8 = c := by
  apply Char.ext
  apply UInt32.toNat_inj.mp
  exact (ofUInt8_toNat c.toUInt8).trans (toUInt8_toNat h)

/-- An ASCII byte at the front of encoded text is its first character. -/
theorem ascii_head {cs : List Char} {b : UInt8} {bs : List UInt8}
    (h : utf8 cs = b :: bs) (hb : b.toNat < 128) :
    ∃ rest, cs = Char.ofUInt8 b :: rest ∧ bs = utf8 rest := by
  cases cs with
  | nil => cases h
  | cons c rest =>
    by_cases hc : c.toNat < 128
    · rw [utf8_cons_ascii hc] at h
      obtain ⟨rfl, rfl⟩ := List.cons.inj h
      exact ⟨rest, by rw [ofUInt8_toUInt8 hc], rfl⟩
    · rw [utf8_cons] at h
      cases he : String.utf8EncodeChar c with
      | nil => exact False.elim (encode_ne_nil c he)
      | cons x xs =>
        rw [he] at h
        have hx : 128 ≤ x.toNat := encode_high (Nat.le_of_not_lt hc) (he ▸ List.mem_cons_self)
        obtain ⟨rfl, _⟩ := List.cons.inj h
        omega

/-- A test on bytes that only ASCII passes, seen as a test on characters. -/
def onChar (p : UInt8 → Bool) (c : Char) : Bool := decide (c.toNat < 128) && p c.toUInt8

theorem takeWhile_utf8 {p : UInt8 → Bool} (ascii : ∀ b, p b = true → b.toNat < 128)
    (cs : List Char) : (utf8 cs).takeWhile p = utf8 (cs.takeWhile (onChar p)) := by
  induction cs with
  | nil => rfl
  | cons c cs ih =>
    by_cases hc : c.toNat < 128
    · rw [utf8_cons_ascii hc]
      cases hp : p c.toUInt8 with
      | true => simp [onChar, hc, hp, ih, utf8_cons_ascii hc]
      | false => simp [onChar, hc, hp]
    · have stop : onChar p c = false := by simp [onChar, hc]
      rw [utf8_cons, List.takeWhile_cons, stop]
      cases he : String.utf8EncodeChar c with
      | nil => exact False.elim (encode_ne_nil c he)
      | cons x xs =>
        have hx : 128 ≤ x.toNat := encode_high (Nat.le_of_not_lt hc) (he ▸ List.mem_cons_self)
        have hp : ¬ p x = true := fun hp => by have := ascii x hp; omega
        simp [hp]

theorem drop_length_utf8 (cs ds : List Char) :
    (utf8 (cs ++ ds)).drop (utf8 cs).length = utf8 ds := by
  rw [utf8_append, List.drop_left]

theorem length_utf8_of_ascii {cs : List Char} (h : ∀ c ∈ cs, c.toNat < 128) :
    utf8 cs = cs.map Char.toUInt8 := by
  induction cs with
  | nil => rfl
  | cons c cs ih =>
    rw [utf8_cons_ascii (h c List.mem_cons_self), List.map_cons,
      ih fun d hd => h d (List.mem_cons_of_mem c hd)]

/-- ASCII text that the encoding starts with is text that the characters start with. -/
theorem prefix_of_utf8 {cs ds : List Char} (ascii : ∀ c ∈ cs, c.toNat < 128)
    (h : utf8 cs <+: utf8 ds) : cs <+: ds := by
  induction cs generalizing ds with
  | nil => exact List.nil_prefix
  | cons c cs ih =>
    have hc := ascii c List.mem_cons_self
    obtain ⟨tail, ht⟩ := h
    rw [utf8_cons_ascii hc, List.cons_append] at ht
    obtain ⟨rest, rfl, hr⟩ := ascii_head ht.symm (by rwa [toUInt8_toNat hc])
    rw [ofUInt8_toUInt8 hc]
    exact (List.prefix_cons_inj c).mpr
      (ih (fun d hd => ascii d (List.mem_cons_of_mem c hd)) ⟨tail, hr⟩)

end Utf8Text
