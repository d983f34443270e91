import Anago.JsonParser

/-!
# The JSON parser is total and stays inside its buffer

Every parser function, started inside the buffer, ends with an answer: it neither
indexes out of range nor runs out of fuel, an accepted value leaves the position
inside the buffer and at least as far along as it must be, and the offset of an error
lies in the input.
-/

namespace Json

open StdText DecimalText Utf8Text

/-- A parser over `b` that has reached `i` and is not past the end. -/
def Past (b : List UInt8) (i : Nat) (p : Parser) : Prop :=
  p.b = b ∧ i ≤ p.i ∧ p.i ≤ b.length

/-- The call answers, and leaves the parser at `i` or further. -/
def Safe {α : Type} (b : List UInt8) (i : Nat) (x : Outcome Error (α × Parser)) : Prop :=
  x.Sat (fun r => Past b i r.2) (fun e => e.offset ≤ b.length)

variable {b : List UInt8} {i : Nat} {p : Parser}

theorem Past.le (h : Past b i p) {j : Nat} (hj : j ≤ i) : Past b j p :=
  ⟨h.1, Nat.le_trans hj h.2.1, h.2.2⟩

theorem Past.self (h : Past b i p) : Past b p.i p := ⟨h.1, Nat.le_refl _, h.2.2⟩

theorem Safe.le {α : Type} {x : Outcome Error (α × Parser)} (h : Safe b i x) {j : Nat}
    (hj : j ≤ i) : Safe b j x :=
  Outcome.Sat.mono h fun _ hr => hr.le hj

theorem Safe.bind {α β : Type} {x : Outcome Error (α × Parser)}
    {f : α × Parser → Outcome Error (β × Parser)} {j : Nat} (hx : Safe b i x)
    (hf : ∀ a q, Past b i q → Safe b j (f (a, q))) : Safe b j (x >>= f) :=
  Outcome.Sat.bind hx fun r hr => hf r.1 r.2 hr

namespace Parser

theorem lt_of_peek {c : UInt8} (h : p.peek = some c) : p.i < p.b.length := by
  rw [peek, List.getElem?_eq_some_iff] at h
  exact h.1

theorem past_advance (h : Past b i p) {n : Nat} (hn : p.i + n ≤ b.length) :
    Past b (p.i + n) (p.advance n) := ⟨h.1, Nat.le_refl _, hn⟩

theorem past_step (h : Past b i p) {c : UInt8} (hc : p.peek = some c) :
    Past b (p.i + 1) (p.advance 1) := by
  apply past_advance h
  have := lt_of_peek hc
  rwa [h.1] at this

theorem length_takeWhile_rest (p : Parser) (test : UInt8 → Bool) :
    (p.rest.takeWhile test).length ≤ p.b.length - p.i := by
  have := (List.takeWhile_prefix test (l := p.rest)).length_le
  rwa [rest, List.length_drop] at this

theorem past_skipWhile (h : Past b i p) (test : UInt8 → Bool) :
    Past b p.i (p.skipWhile test) := by
  have hl := length_takeWhile_rest p test
  rw [h.1] at hl
  have := h.2.2
  exact (past_advance h (by omega)).le (Nat.le_add_right _ _)

theorem past_skipWs (h : Past b i p) : Past b p.i p.skipWs := past_skipWhile h isWs

theorem expect_sat (h : Past b i p) (c : UInt8) :
    (p.expect c).Sat (Past b (p.i + 1)) (fun e => e.offset ≤ b.length) := by
  rw [expect]
  split
  · next hc => exact past_step h hc
  · exact h.2.2

theorem slice_sat (h : Past b i p) {start stop : Nat} (hs : start ≤ stop)
    (he : stop ≤ b.length) :
    p.slice start stop = .ok ((b.drop start).take (stop - start)) := by
  rw [slice, h.1, if_pos ⟨hs, he⟩]

theorem literal_safe (h : Past b i p) (word : String) (v : Value) :
    Safe b (p.i + (asBytes word).length) (p.literal word v) := by
  rw [literal, slice_sat h (h.1 ▸ h.2.2) (h.1 ▸ Nat.le_refl _), Outcome.ok_bind]
  split
  · next hp =>
    have hlen := (List.isPrefixOf_iff_prefix.mp hp).length_le
    rw [List.length_take, List.length_drop, h.1] at hlen
    have := h.2.2
    exact past_advance h (by omega)
  · exact h.2.2

theorem hex4_safe (h : Past b i p) : Safe b (p.i + 4) p.hex4 := by
  simp only [hex4]
  split
  · exact h.2.2
  · next hs =>
    rw [h.1] at hs
    rw [slice_sat h (by omega) (by omega), Outcome.ok_bind]
    split
    · exact ⟨h.1, Nat.le_refl _, by simp only; omega⟩
    · exact h.2.2

theorem unicodeEscape_safe (h : Past b i p) : Safe b p.i p.unicodeEscape := by
  rw [unicodeEscape]
  refine (hex4_safe h).bind fun first q hq => ?_
  have hq' : Past b p.i q := hq.le (Nat.le_add_right _ _)
  -- the pair is taken apart by `split`: reducing it would unfold the range tests
  split
  next first q pair =>
  obtain ⟨rfl, rfl⟩ := Prod.mk.inj pair
  split
  · split
    · exact hq.2.2
    · next hpair =>
      have hl : q.i + 1 < b.length := by
        have hu : q.b[q.i + 1]? = some 'u'.toUInt8 := (Decidable.not_not.mp hpair).2
        rw [List.getElem?_eq_some_iff] at hu
        exact hq.1 ▸ hu.1
      have hn : Past b (q.i + 2) (q.advance 2) := past_advance hq (by omega)
      refine (hex4_safe hn).bind fun low r hr => ?_
      have hr' : Past b p.i r :=
        hr.le (Nat.le_trans hq'.2.1 (Nat.le_trans (Nat.le_add_right _ _)
          (Nat.le_add_right _ _)))
      split
      next low r pair =>
      obtain ⟨rfl, rfl⟩ := Prod.mk.inj pair
      split
      · exact hr.2.2
      · split
        · exact hr'
        · exact hr.2.2
  · split
    · exact hq.2.2
    · split
      · exact hq'
      · exact hq.2.2

theorem stringLoop_safe (fuel : Nat) (buf : List UInt8) (h : Past b i p)
    (enough : b.length - p.i < fuel) : Safe b (p.i + 1) (stringLoop fuel p buf) := by
  induction fuel generalizing p i buf with
  | zero => omega
  | succ fuel ih =>
    rw [stringLoop]
    split
    · exact h.2.2
    · next c hc =>
      have hstep := past_step h hc
      have hlt := lt_of_peek hc
      rw [h.1] at hlt
      -- every further turn starts past this byte, so its fuel is enough
      have again : ∀ q : Parser, Past b (p.i + 1) q → ∀ buf,
          Safe b (p.i + 1) (stringLoop fuel q buf) := fun q hq buf =>
        (ih buf hq (by have := hq.2.1; omega)).le (Nat.le_succ_of_le hq.2.1)
      simp only
      split
      · split
        · exact hstep
        · exact hstep.2.2
      · split
        · split
          · exact hstep.2.2
          · next esc he =>
            have hesc := past_step hstep he
            have hesc' : Past b (p.i + 1) ((p.advance 1).advance 1) :=
              hesc.le (Nat.le_succ_of_le hstep.2.1)
            split
            · exact again _ hesc' _
            · split
              · refine (unicodeEscape_safe hesc').bind fun ch q hq => ?_
                exact again q (hq.le hesc'.2.1) _
              · exact hesc.2.2
        · split
          · exact h.2.2
          · exact again _ hstep _

theorem string_safe (h : Past b i p) : Safe b (p.i + 2) p.string := by
  rw [string]
  refine Outcome.Sat.bind (expect_sat h _) fun q hq => ?_
  have := stringLoop_safe (q.b.length - q.i + 1) [] hq (by rw [hq.1]; omega)
  exact Safe.le this (by have := hq.2.1; omega)

theorem number_safe (h : Past b i p) : Safe b (p.i + 1) p.number := by
  rw [number]
  have hsign : Past b p.i (if p.peek = some '-'.toUInt8 then p.advance 1 else p) := by
    split
    · next hc => exact (past_step h hc).le (Nat.le_succ _)
    · exact h.self
  generalize (if p.peek = some '-'.toUInt8 then p.advance 1 else p) = q at hsign
  have hq := past_skipWhile hsign isAsciiDigit
  generalize q.skipWhile isAsciiDigit = r at hq
  have hr := hq.2.1
  split
  · exact hq.2.2
  · next hne =>
    have hpast : Past b (p.i + 1) r := ⟨hq.1, by have := hsign.2.1; omega, hq.2.2⟩
    have hidx : ∃ c, r.index q.i = .ok c := by
      have hlt : q.i < r.b.length := by have := hq.2.2; rw [hq.1]; omega
      exact ⟨r.b[q.i], by rw [index, List.getElem?_eq_getElem hlt]⟩
    obtain ⟨lead, hlead⟩ := hidx
    rw [hlead, Outcome.ok_bind]
    split
    · exact hsign.2.2
    · split
      · exact hq.2.2
      · rw [slice_sat hq (by have := hpast.2.1; omega) hq.2.2, Outcome.ok_bind]
        split
        · exact hq.2.2
        · split
          · exact hpast
          · exact h.2.2

variable [Unicode]

/-- One unit of fuel a call: three calls pass between two bytes at most. -/
theorem calls_safe (fuel : Nat) :
    (∀ depth i p, Past b i p → 3 * (b.length - p.i) + 1 ≤ fuel →
      Safe b (p.i + 1) (value fuel depth p)) ∧
    (∀ depth i p, Past b i p → p.i < b.length → 3 * (b.length - p.i) ≤ fuel →
      Safe b (p.i + 1) (object fuel depth p)) ∧
    (∀ depth i p obj, Past b i p → 3 * (b.length - p.i) + 2 ≤ fuel →
      Safe b (p.i + 1) (objectLoop fuel depth p obj)) ∧
    (∀ depth i p, Past b i p → p.i < b.length → 3 * (b.length - p.i) ≤ fuel →
      Safe b (p.i + 1) (array fuel depth p)) ∧
    (∀ depth i p items, Past b i p → 3 * (b.length - p.i) + 2 ≤ fuel →
      Safe b (p.i + 1) (arrayLoop fuel depth p items)) := by
  induction fuel with
  | zero =>
    refine ⟨?_, ?_, ?_, ?_, ?_⟩ <;> intros <;> omega
  | succ fuel ih =>
    obtain ⟨hvalue, hobject, hobjectLoop, harray, harrayLoop⟩ := ih
    refine ⟨?_, ?_, ?_, ?_, ?_⟩
    · intro depth i p h enough
      rw [value]
      split
      · exact h.2.2
      · split
        · exact h.2.2
        · next c hc =>
          have hlt : p.i < b.length := by have := lt_of_peek hc; rwa [h.1] at this
          split
          · exact hobject depth i p h hlt (by omega)
          · split
            · exact harray depth i p h hlt (by omega)
            · split
              · refine (string_safe h).bind fun s q hq => ?_
                exact hq.le (Nat.le_succ _)
              · split
                · exact (literal_safe h "true" _).le (Nat.add_le_add_left (by decide) _)
                · split
                  · exact (literal_safe h "false" _).le (Nat.add_le_add_left (by decide) _)
                  · split
                    · exact (literal_safe h "null" _).le (Nat.add_le_add_left (by decide) _)
                    · split
                      · exact number_safe h
                      · exact h.2.2
    · intro depth i p h hlt enough
      rw [object]
      refine Outcome.Sat.bind (expect_sat h _) fun q hq => ?_
      have hws := past_skipWs hq
      simp only
      split
      · next hc => exact (past_step hws hc).le (by have := hq.2.1; have := hws.2.1; omega)
      · exact (hobjectLoop depth _ _ [] hws (by
          have := hq.2.1; have := hws.2.1; omega)).le
          (by have := hq.2.1; have := hws.2.1; omega)
    · intro depth i p obj h enough
      rw [objectLoop]
      have hws := past_skipWs h
      simp only
      generalize p.skipWs = q at hws
      split
      · exact hws.2.2
      · refine (string_safe hws).bind fun key r hr => ?_
        have hr' := past_skipWs hr
        refine Outcome.Sat.bind (expect_sat hr' _) fun t ht => ?_
        have ht' := past_skipWs ht
        have far : p.i + 3 ≤ t.skipWs.i := by
          have := hws.2.1; have := hr.2.1; have := hr'.2.1; have := ht.2.1
          have := ht'.2.1
          omega
        refine (hvalue (depth + 1) _ _ ht' (by omega)).bind fun v u hu => ?_
        simp only
        split
        · exact hws.2.2
        · have hu' := past_skipWs hu
          have far' : p.i + 3 ≤ u.skipWs.i := by
            have := hu.2.1; have := hu'.2.1
            omega
          split
          · next hc =>
            have hnext := past_step hu' hc
            exact (hobjectLoop depth _ _ _ hnext
              (by have := hnext.2.1; have := hnext.2.2; omega)).le
              (by have := hnext.2.1; omega)
          · split
            · next hc => exact (past_step hu' hc).le (by omega)
            · exact hu'.2.2
    · intro depth i p h hlt enough
      rw [array]
      refine Outcome.Sat.bind (expect_sat h _) fun q hq => ?_
      have hws := past_skipWs hq
      simp only
      split
      · next hc => exact (past_step hws hc).le (by have := hq.2.1; have := hws.2.1; omega)
      · exact (harrayLoop depth _ _ [] hws (by
          have := hq.2.1; have := hws.2.1; omega)).le
          (by have := hq.2.1; have := hws.2.1; omega)
    · intro depth i p items h enough
      rw [arrayLoop]
      have hws := past_skipWs h
      simp only
      refine (hvalue (depth + 1) _ _ hws (by have := hws.2.1; omega)).bind fun v u hu => ?_
      have hu' := past_skipWs hu
      have far : p.i + 1 ≤ u.skipWs.i := by
        have := hws.2.1; have := hu.2.1; have := hu'.2.1
        omega
      simp only
      split
      · next hc =>
        have hnext := past_step hu' hc
        exact (harrayLoop depth _ _ _ hnext (by have := hnext.2.1; have := hnext.2.2; omega)).le
          (by have := hnext.2.1; omega)
      · split
        · next hc => exact (past_step hu' hc).le (by omega)
        · exact hu'.2.2

theorem value_safe (depth : Nat) (h : Past b i p) :
    Safe b (p.i + 1) (p.value (parseFuel b) depth) :=
  (calls_safe (parseFuel b)).1 depth i p h (by
    rw [parseFuel]
    omega)

end Parser

/-- `parse` answers every input, and an error points into it. -/
theorem parse_sat [Unicode] (input : String) :
    (parse input).Sat (fun _ => True) (fun e => e.offset ≤ (asBytes input).length) := by
  have start : Past (asBytes input) 0 ⟨asBytes input, 0⟩ := ⟨rfl, Nat.le_refl _, Nat.zero_le _⟩
  have hws := Parser.past_skipWs start
  rw [parse]
  generalize (Parser.mk (asBytes input) 0).skipWs = p at hws
  have hfuel : parseFuel p.b = parseFuel (asBytes input) := by rw [hws.1]
  rw [hfuel]
  refine Outcome.Sat.bind (Parser.value_safe 0 hws) fun r hr => ?_
  have hend := Parser.past_skipWs hr
  simp only
  split
  · exact hend.2.2
  · trivial

end Json
