import Anago.DnsWire

/-!
# Names on the wire

What it is for a name to stand at a place of a message, whatever pointers it takes. The
reader finds the labels that stand there, and gives their text.
-/

open StdText Utf8Text Utf8Lossy

namespace DnsWire

/-- A name stands at a place: its labels, where it ends in the stream, and how many pointers
it takes. -/
inductive NameAt (message : List UInt8) : Nat → List (List UInt8) → Nat → Nat → Prop
  | root {pos : Nat} : message[pos]? = some 0 → NameAt message pos [] (pos + 1) 0
  | label {pos after jumps : Nat} {length : UInt8} {label : List UInt8}
    {labels : List (List UInt8)} :
    message[pos]? = some length → 0 < length.toNat → length.toNat < 64 →
    slice message (pos + 1) (pos + 1 + length.toNat) = some label →
    NameAt message (pos + 1 + length.toNat) labels after jumps →
    NameAt message pos (label :: labels) after jumps
  | pointer {pos after jumps : Nat} {high low : UInt8} {labels : List (List UInt8)} :
    message[pos]? = some high → 192 ≤ high.toNat → message[pos + 1]? = some low →
    NameAt message (target high low) labels after jumps →
    NameAt message pos labels (pos + 2) (jumps + 1)

/-- A name whose pointers lead to names that end before them. -/
inductive PriorName (message : List UInt8) : Nat → List (List UInt8) → Nat → Nat → Prop
  | root {pos : Nat} : message[pos]? = some 0 → PriorName message pos [] (pos + 1) 0
  | label {pos after jumps : Nat} {length : UInt8} {label : List UInt8}
    {labels : List (List UInt8)} :
    message[pos]? = some length → 0 < length.toNat → length.toNat < 64 →
    slice message (pos + 1) (pos + 1 + length.toNat) = some label →
    PriorName message (pos + 1 + length.toNat) labels after jumps →
    PriorName message pos (label :: labels) after jumps
  | pointer {pos after jumps : Nat} {high low : UInt8} {labels : List (List UInt8)} :
    message[pos]? = some high → 192 ≤ high.toNat → message[pos + 1]? = some low → after ≤ pos →
    PriorName message (target high low) labels after jumps →
    PriorName message pos labels (pos + 2) (jumps + 1)

/-- The text of some labels after that of others. -/
def textAfter (name : List Char) (labels : List (List UInt8)) : List Char := labels.foldl push name

/-- The text a name is read as. -/
def textOf (labels : List (List UInt8)) : List Char := textAfter [] labels

/-- One round of the loop. -/
theorem readNameLoop_eq (message : List UInt8) (pos : Nat) (after : Option Nat) (jumps : Nat)
    (name : List Char) :
    readNameLoop message pos after jumps name =
      match message[pos]? with
      | none => .error (.malformed "a name runs past the end")
      | some length =>
        if length.toNat / 64 = 0 then
          if length.toNat = 0 then .ok (name, after.getD (pos + 1))
          else
            match slice message (pos + 1) (pos + 1 + length.toNat) with
            | none => .error (.malformed "a label runs past the end")
            | some label =>
              readNameLoop message (pos + 1 + length.toNat) after jumps (push name label)
        else if length.toNat / 64 = 3 then
          match message[pos + 1]? with
          | none => .error (.malformed "a pointer runs past the end")
          | some low =>
            if maxJumps < jumps + 1 then .error (.malformed "compression pointers in a loop")
            else readNameLoop message (target length low)
              (some (after.getD (pos + 2))) (jumps + 1) name
        else .error (.malformed "a label length that is not one") := by
  rw [readNameLoop.eq_def]
  split
  · next byte => rw [byte]
  · next length byte =>
    rw [byte]
    simp only
    split
    · split
      · rfl
      · split
        · next cut => rw [cut]
        · next label found => rw [found]
    · rfl

/-- What the loop answers, if there is a name. -/
theorem readNameLoop_of_nameAt {message : List UInt8} {pos stop jumps : Nat}
    {labels : List (List UInt8)} (h : NameAt message pos labels stop jumps) :
    ∀ (after : Option Nat) (before : Nat) (name : List Char), before + jumps ≤ maxJumps →
      readNameLoop message pos after before name = .ok (textAfter name labels,
        after.getD stop) := by
  induction h with
  | root byte =>
    intro after before name few
    rw [readNameLoop_eq]
    simp [byte, textAfter]
  | @label pos stop jumps length label labels byte positive short found _ ih =>
    intro after before name few
    rw [readNameLoop_eq]
    have small : length.toNat / 64 = 0 := by omega
    have nonzero : ¬length.toNat = 0 := by omega
    simp only [byte, small, nonzero, if_true, if_false, found]
    exact ih after before (push name label) few
  | @pointer pos stop jumps high low labels byte large next _ ih =>
    intro after before name few
    rw [readNameLoop_eq]
    have bound : high.toNat < 256 := high.toNat_lt
    have three : high.toNat / 64 = 3 := by omega
    have allowed : ¬maxJumps < before + 1 := by omega
    simp only [byte, three, next, allowed, if_true, if_false, show ¬(3 : Nat) = 0 by omega]
    rw [ih (some (after.getD (pos + 2))) (before + 1) name (by omega)]
    cases after <;> rfl

/-- What the loop answers stands there. -/
theorem nameAt_of_readNameLoop {message : List UInt8} {text : List Char} {stop : Nat} (pos : Nat)
    (after : Option Nat) (before : Nat) (name : List Char)
    (h : readNameLoop message pos after before name = .ok (text, stop)) :
    ∃ labels stop' jumps, NameAt message pos labels stop' jumps ∧
      (jumps = 0 ∨ before + jumps ≤ maxJumps) ∧
      text = textAfter name labels ∧ stop = after.getD stop' := by
  induction pos, after, before, name using readNameLoop.induct message with
  | case1 pos after before name byte =>
    rw [readNameLoop_eq, byte] at h
    cases h
  | case2 pos after before name length byte small zero =>
    rw [readNameLoop_eq, byte] at h
    simp only [zero, if_true] at h
    cases h
    have none : length = 0 := UInt8.toNat_inj.mp zero
    exact ⟨[], pos + 1, 0, .root (none ▸ byte), Or.inl rfl, rfl, rfl⟩
  | case3 pos after before name length byte small nonzero cut =>
    rw [readNameLoop_eq, byte] at h
    simp only [small, nonzero, if_true, if_false, cut] at h
    cases h
  | case4 pos after before name length byte small nonzero label found ih =>
    rw [readNameLoop_eq, byte] at h
    simp only [small, nonzero, if_true, if_false, found] at h
    obtain ⟨labels, stop', jumps, there, few, rfl, rfl⟩ := ih h
    exact ⟨label :: labels, stop', jumps, .label byte (by omega) (by omega) found there,
      few, rfl, rfl⟩
  | case5 pos after before name length byte other three cut =>
    rw [readNameLoop_eq, byte] at h
    simp only [three, if_true, cut] at h
    cases h
  | case6 pos after before name length byte other three low next many =>
    rw [readNameLoop_eq, byte] at h
    simp only [three, if_true, next, many] at h
    cases h
  | case7 pos after before name length byte other three low next few ih =>
    rw [readNameLoop_eq, byte] at h
    simp only [three, if_true, if_false, next, few] at h
    obtain ⟨labels, stop', jumps, there, few', rfl, rfl⟩ := ih h
    refine ⟨labels, pos + 2, jumps + 1, .pointer byte (by omega) next there,
      Or.inr (by omega), rfl, ?_⟩
    cases after <;> rfl
  | case8 pos after before name length byte other three =>
    rw [readNameLoop_eq, byte] at h
    simp only [other, three, if_false] at h
    cases h

/-- A name is read exactly where one stands, and the text is that of its labels. -/
theorem readName_eq_ok {message : List UInt8} {start stop : Nat} {text : List Char} :
    readName message start = .ok (text, stop) ↔
      ∃ labels jumps, NameAt message start labels stop jumps ∧ jumps ≤ maxJumps ∧
      text = textOf labels := by
  constructor
  · intro h
    obtain ⟨labels, _, jumps, there, few, rfl, rfl⟩ := nameAt_of_readNameLoop start none 0 [] h
    exact ⟨labels, jumps, there, by omega, rfl⟩
  · rintro ⟨labels, jumps, there, few, rfl⟩
    exact readNameLoop_of_nameAt there none 0 [] (by omega)

/-- There is one name at a place. -/
theorem NameAt.unique {message : List UInt8} {pos stop stop' jumps jumps' : Nat}
    {labels labels' : List (List UInt8)} (h : NameAt message pos labels stop jumps)
    (h' : NameAt message pos labels' stop' jumps') : labels = labels' ∧ stop = stop' ∧
    jumps = jumps' := by
  induction h generalizing labels' stop' jumps' with
  | root byte =>
    cases h' with
    | root _ => exact ⟨rfl, rfl, rfl⟩
    | label byte' positive _ _ _ =>
      cases byte.symm.trans byte'
      exact absurd positive (by decide)
    | pointer byte' large _ _ =>
      cases byte.symm.trans byte'
      exact absurd large (by decide)
  | label byte positive short found _ ih =>
    cases h' with
    | root byte' =>
      cases byte.symm.trans byte'
      exact absurd positive (by decide)
    | label byte' _ _ found' there' =>
      cases byte.symm.trans byte'
      cases found.symm.trans found'
      obtain ⟨rfl, rfl, rfl⟩ := ih there'
      exact ⟨rfl, rfl, rfl⟩
    | pointer byte' large _ _ =>
      cases byte.symm.trans byte'
      omega
  | pointer byte large next _ ih =>
    cases h' with
    | root byte' =>
      cases byte.symm.trans byte'
      exact absurd large (by decide)
    | label byte' _ short _ _ =>
      cases byte.symm.trans byte'
      omega
    | pointer byte' _ next' there' =>
      cases byte.symm.trans byte'
      cases next.symm.trans next'
      obtain ⟨rfl, _, rfl⟩ := ih there'
      exact ⟨rfl, rfl, rfl⟩

theorem PriorName.nameAt {message : List UInt8} {pos after jumps : Nat} {labels : List (List UInt8)}
    (h : PriorName message pos labels after jumps) : NameAt message pos labels after jumps := by
  induction h with
  | root byte => exact .root byte
  | label byte positive short found _ ih => exact .label byte positive short found ih
  | pointer byte large next _ _ ih => exact .pointer byte large next ih

end DnsWire
