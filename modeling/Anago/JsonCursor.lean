import Mathlib.Data.List.TakeWhile
import Anago.JsonSafety
import Anago.JsonGrammar

/-!
# A parser position as the text still to be read

`p.At cs` says that the unread bytes of `p` are the encoding of `cs`. The byte tests
of the parser become tests of the first character, and its small steps consume
whole characters.
-/

namespace Json

open StdText DecimalText Utf8Text

structure Parser.At (p : Parser) (cs : List Char) : Prop where
  rest : p.rest = utf8 cs
  inside : p.i ≤ p.b.length

/-- The call reads `a` and leaves `rest` when it `fits`, and otherwise refuses. -/
def Reads {α : Type} (fits : Prop) (a : α) (rest : List Char)
    (x : Outcome Error (α × Parser)) : Prop :=
  x.UpTo fun r => (fits ∧ ∃ q, r = .ok (a, q) ∧ q.At rest) ∨ (¬fits ∧ ∃ e, r = .err e)

theorem Reads.ok {α : Type} {fits : Prop} {a : α} {rest : List Char} {q : Parser}
    (hf : fits) (hq : q.At rest) : Reads fits a rest (.ok (a, q)) :=
  Or.inr (Or.inl ⟨hf, q, rfl, hq⟩)

theorem Reads.err {α : Type} {fits : Prop} {a : α} {rest : List Char} {e : Error}
    (hf : ¬fits) : Reads fits a rest (.err e : Outcome Error (α × Parser)) :=
  Or.inr (Or.inr ⟨hf, e, rfl⟩)

theorem Reads.spin {α : Type} {fits : Prop} {a : α} {rest : List Char} :
    Reads fits a rest (.spin : Outcome Error (α × Parser)) := Or.inl rfl

theorem Reads.congr {α : Type} {fits fits' : Prop} {a : α} {rest : List Char}
    {x : Outcome Error (α × Parser)} (hx : Reads fits a rest x) (h : fits ↔ fits') :
    Reads fits' a rest x := by
  rwa [propext h] at hx

theorem Reads.fits {α : Type} {fits : Prop} {a : α} {rest : List Char}
    {x : Outcome Error (α × Parser)} (hx : Reads True a rest x) (hf : fits) :
    Reads fits a rest x := by
  rcases hx with rfl | ⟨_, q, rfl, hq⟩ | ⟨unfit, _⟩
  · exact Reads.spin
  · exact Reads.ok hf hq
  · exact absurd trivial unfit

/-- A call that reads part of what is to fit, and what follows it. -/
theorem Reads.bind {α β : Type} {fits fits' : Prop} {a : α} {b : β}
    {rest rest' : List Char} {x : Outcome Error (α × Parser)}
    {f : α × Parser → Outcome Error (β × Parser)} (hx : Reads fits a rest x)
    (part : fits' → fits)
    (hf : ∀ q, fits → q.At rest → Reads fits' b rest' (f (a, q))) :
    Reads fits' b rest' (x >>= f) := by
  rcases hx with rfl | ⟨fit, q, rfl, hq⟩ | ⟨unfit, e, rfl⟩
  · exact Or.inl rfl
  · exact hf q fit hq
  · exact Reads.err (mt part unfit)

theorem toUInt8_inj {c d : Char} (hc : c.toNat < 128) (hd : d.toNat < 128) :
    c.toUInt8 = d.toUInt8 ↔ c = d := by
  constructor
  · intro h
    rw [← ofUInt8_toUInt8 hc, h, ofUInt8_toUInt8 hd]
  · exact congrArg Char.toUInt8

theorem isAsciiDigit_iff {c : UInt8} : isAsciiDigit c = true ↔ 48 ≤ c.toNat ∧ c.toNat ≤ 57 := by
  simp only [isAsciiDigit, Bool.and_eq_true, decide_eq_true_eq, UInt8.le_iff_toNat_le]
  rfl

theorem onChar_isAsciiDigit : onChar isAsciiDigit = Char.isDigit := by
  funext c
  rw [Bool.eq_iff_iff, onChar, Bool.and_eq_true, decide_eq_true_eq, isAsciiDigit_iff,
    isDigit_iff]
  constructor
  · rintro ⟨hc, h⟩
    rwa [toUInt8_toNat hc] at h
  · intro h
    have hc : c.toNat < 128 := by omega
    rw [toUInt8_toNat hc]
    exact ⟨hc, h⟩

theorem isAsciiDigit_ascii (c : UInt8) (h : isAsciiDigit c = true) : c.toNat < 128 := by
  have := isAsciiDigit_iff.mp h
  omega

theorem isWs_ascii (c : UInt8) (h : isWs c = true) : c.toNat < 128 := by
  simp only [isWs, Bool.or_eq_true, decide_eq_true_eq] at h
  rcases h with ((rfl | rfl) | rfl) | rfl <;> decide

theorem onChar_isWs (c : Char) : onChar isWs c = true ↔ Blank c := by
  rw [onChar, Bool.and_eq_true, decide_eq_true_eq]
  simp only [isWs, Bool.or_eq_true, decide_eq_true_eq]
  constructor
  · rintro ⟨hc, h⟩
    rw [toUInt8_inj hc (by decide), toUInt8_inj hc (by decide), toUInt8_inj hc (by decide),
      toUInt8_inj hc (by decide)] at h
    rcases h with ((h | h) | h) | h
    · exact Or.inl h
    · exact Or.inr (Or.inl h)
    · exact Or.inr (Or.inr (Or.inl h))
    · exact Or.inr (Or.inr (Or.inr h))
  · rintro (rfl | rfl | rfl | rfl) <;> decide

/-- What a number must not run into. -/
def NumberEnds (rest : List Char) : Prop :=
  ∀ c, rest.head? = some c → c.isDigit = false ∧ c ≠ '.' ∧ c ≠ 'e' ∧ c ≠ 'E'

theorem numberEnds_nil : NumberEnds [] := by
  intro c h
  cases h

theorem numberEnds_cons {c : Char} {rest : List Char} (hd : c.isDigit = false)
    (hdot : c ≠ '.') (he : c ≠ 'e') (hE : c ≠ 'E') : NumberEnds (c :: rest) := by
  intro d h
  obtain rfl : c = d := Option.some.inj h
  exact ⟨hd, hdot, he, hE⟩

theorem numberEnds_ws {w rest : List Char} (hw : Ws w) (h : NumberEnds rest) :
    NumberEnds (w ++ rest) := by
  cases w with
  | nil => exact h
  | cons c w =>
    rcases hw c List.mem_cons_self with rfl | rfl | rfl | rfl <;>
      exact numberEnds_cons (by decide) (by decide) (by decide) (by decide)

namespace Parser.At

variable {p : Parser} {cs ds : List Char}

theorem rest_length (h : p.At cs) : p.i + (utf8 cs).length = p.b.length := by
  have hl : p.rest.length = p.b.length - p.i := by rw [Parser.rest, List.length_drop]
  have := h.inside
  rw [h.rest] at hl
  omega

theorem advance (h : p.At (cs ++ ds)) : (p.advance (utf8 cs).length).At ds := by
  refine ⟨?_, ?_⟩
  · have hr := h.rest
    rw [Parser.rest] at hr
    rw [Parser.rest, Parser.advance, ← List.drop_drop, hr, drop_length_utf8]
  · have hl := h.rest_length
    rw [utf8_append, List.length_append] at hl
    simp only [Parser.advance]
    omega

theorem peek_eq (h : p.At cs) : p.peek = (utf8 cs).head? := by
  rw [← h.rest, Parser.peek, Parser.rest, List.head?_drop]

theorem step {c : Char} (h : p.At (c :: cs)) (hc : c.toNat < 128) :
    (p.advance 1).At cs := by
  have := advance (show p.At ([c] ++ cs) from h)
  rwa [utf8_cons_ascii hc] at this

theorem peek_cons {c : Char} (h : p.At (c :: cs)) (hc : c.toNat < 128) :
    p.peek = some c.toUInt8 := by
  rw [h.peek_eq, utf8_cons_ascii hc]
  rfl

theorem peek_nil (h : p.At []) : p.peek = none := h.peek_eq

/-- The next byte is an ASCII character exactly when the next character is. -/
theorem peek_iff (h : p.At cs) {c : Char} (hc : c.toNat < 128) :
    p.peek = some c.toUInt8 ↔ ∃ rest, cs = c :: rest := by
  constructor
  · intro hp
    rw [h.peek_eq] at hp
    cases hb : utf8 cs with
    | nil => rw [hb] at hp; cases hp
    | cons b bs =>
      rw [hb] at hp
      obtain rfl : b = c.toUInt8 := Option.some.inj hp
      obtain ⟨rest, hr, _⟩ := ascii_head hb (by rw [toUInt8_toNat hc]; exact hc)
      rw [ofUInt8_toUInt8 hc] at hr
      exact ⟨rest, hr⟩
  · rintro ⟨rest, rfl⟩
    exact h.peek_cons hc

/-- The tests on the next byte are tests on the next character. -/
theorem first {c : Char} (h : p.At (c :: cs)) : ∃ b, p.peek = some b ∧
    (∀ {d : Char}, d.toNat < 128 → (b = d.toUInt8 ↔ c = d)) ∧
    isAsciiDigit b = c.isDigit := by
  cases hb : utf8 (c :: cs) with
  | nil =>
    rw [utf8_cons] at hb
    exact absurd (List.append_eq_nil_iff.mp hb).1 (encode_ne_nil c)
  | cons b bs =>
    have hpeek : p.peek = some b := by rw [h.peek_eq, hb]; rfl
    refine ⟨b, hpeek, ?_, ?_⟩
    · intro d hd
      have := h.peek_iff hd
      simpa [hpeek] using this
    · by_cases hc : c.toNat < 128
      · obtain rfl : c.toUInt8 = b := Option.some.inj ((h.peek_cons hc).symm.trans hpeek)
        rw [← onChar_isAsciiDigit, onChar, decide_eq_true hc, Bool.true_and]
      · have hbyte : isAsciiDigit b = false := by
          rw [Bool.eq_false_iff]
          intro hd
          obtain ⟨rest, hr, _⟩ := ascii_head hb (isAsciiDigit_ascii b hd)
          obtain rfl : c = Char.ofUInt8 b := (List.cons.inj hr).1
          have hlow := isAsciiDigit_ascii b hd
          exact hc (by rwa [ofUInt8_toNat])
        rw [hbyte, eq_comm, Bool.eq_false_iff]
        exact fun hd => hc (isDigit_ascii hd)

theorem skipWhile (h : p.At cs) {test : UInt8 → Bool}
    (ascii : ∀ b, test b = true → b.toNat < 128) :
    (p.skipWhile test).At (cs.dropWhile (onChar test)) := by
  rw [Parser.skipWhile, h.rest, takeWhile_utf8 ascii]
  apply advance
  rwa [List.takeWhile_append_dropWhile]

theorem skipWs (h : p.At cs) : ∃ w rest, cs = w ++ rest ∧ Ws w ∧ p.skipWs.At rest := by
  refine ⟨cs.takeWhile (onChar isWs), cs.dropWhile (onChar isWs),
    List.takeWhile_append_dropWhile.symm, ?_, h.skipWhile isWs_ascii⟩
  intro c hc
  exact (onChar_isWs c).mp (List.mem_takeWhile_imp hc)

/-- Whitespace before a character that is none is skipped, all of it. -/
theorem skipWs_cons {w rest : List Char} {c : Char} (h : p.At (w ++ c :: rest)) (hw : Ws w)
    (hc : ¬Blank c) : p.skipWs.At (c :: rest) := by
  have hs := h.skipWhile isWs_ascii
  have hcut : (w ++ c :: rest).dropWhile (onChar isWs) = c :: rest := by
    rw [List.dropWhile_append_of_pos fun a ha => (onChar_isWs a).mpr (hw a ha),
      List.dropWhile_cons_of_neg (mt (onChar_isWs c).mp hc)]
  rwa [hcut] at hs

theorem skipWs_end {w : List Char} (h : p.At w) (hw : Ws w) : p.skipWs.At [] := by
  have hs := h.skipWhile isWs_ascii
  rwa [List.dropWhile_eq_nil_iff.mpr fun a ha => (onChar_isWs a).mpr (hw a ha)] at hs

theorem expect_cons {c : Char} (h : p.At (c :: cs)) (hc : c.toNat < 128) :
    p.expect c.toUInt8 = .ok (p.advance 1) := by
  rw [Parser.expect, if_pos (h.peek_cons hc)]

theorem expect_ok {q : Parser} {c : Char} (h : p.At cs) (hc : c.toNat < 128)
    (hx : p.expect c.toUInt8 = .ok q) : ∃ rest, cs = c :: rest ∧ q.At rest := by
  rw [Parser.expect] at hx
  split at hx
  · next hp =>
    obtain ⟨rest, rfl⟩ := (h.peek_iff hc).mp hp
    cases hx
    exact ⟨rest, rfl, h.step hc⟩
  · cases hx

theorem slice_prefix (h : p.At (cs ++ ds)) :
    p.slice p.i (p.i + (utf8 cs).length) = .ok (utf8 cs) := by
  have hl := h.rest_length
  have hr := h.rest
  rw [utf8_append] at hl hr
  rw [Parser.rest] at hr
  rw [List.length_append] at hl
  rw [Parser.slice, if_pos ⟨by omega, by omega⟩, hr, Nat.add_sub_cancel_left, List.take_left]

end Parser.At

theorem Parser.at_start (s : String) : (Parser.mk (asBytes s) 0).At s.toList :=
  ⟨rfl, Nat.zero_le _⟩

end Json
