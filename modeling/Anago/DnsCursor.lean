import Anago.DnsWire
import Mathlib.Data.List.Chain

/-!
# The name reader ends

A turn of the reader's loop goes on with the next label, follows a pointer or stops. Between
two pointers it only moves forward, and it follows so many pointers and no more, so every
name is read in a bounded number of turns, within the message.
-/

namespace DnsWire

/-- Where the loop of `read_name` is. -/
structure Cursor where
  pos : Nat
  after : Option Nat
  jumps : Nat
  name : List Char

abbrev Outcome := Except DnsError (List Char × Nat)

/-- The bytes a turn of the loop reads, and how it stops or where it goes on. -/
structure Turn where
  reads : List Nat
  next : Outcome ⊕ Cursor

/-- The body of the loop in `read_name`. -/
def turn (message : List UInt8) (c : Cursor) : Turn :=
  match message[c.pos]? with
  | none => ⟨[], .inl (.error (.malformed "a name runs past the end"))⟩
  | some length =>
    if length.toNat / 64 = 0 then
      if length.toNat = 0 then ⟨[c.pos], .inl (.ok (c.name, c.after.getD (c.pos + 1)))⟩
      else
        match slice message (c.pos + 1) (c.pos + 1 + length.toNat) with
        | none => ⟨[c.pos], .inl (.error (.malformed "a label runs past the end"))⟩
        | some label =>
          ⟨c.pos :: List.range' (c.pos + 1) length.toNat,
            .inr { c with pos := c.pos + 1 + length.toNat, name := push c.name label }⟩
    else if length.toNat / 64 = 3 then
      match message[c.pos + 1]? with
      | none => ⟨[c.pos], .inl (.error (.malformed "a pointer runs past the end"))⟩
      | some low =>
        if maxJumps < c.jumps + 1 then
          ⟨[c.pos, c.pos + 1], .inl (.error (.malformed "compression pointers in a loop"))⟩
        else
          ⟨[c.pos, c.pos + 1],
            .inr { c with
              pos := target length low
              after := some (c.after.getD (c.pos + 2))
              jumps := c.jumps + 1 }⟩
    else ⟨[c.pos], .inl (.error (.malformed "a label length that is not one"))⟩

/-- So many turns of the loop: where they were taken, and the outcome if there is one. -/
def walk (message : List UInt8) : Nat → Cursor → List Cursor × Option Outcome
  | 0, _ => ([], none)
  | fuel + 1, c =>
    match (turn message c).next with
    | .inl outcome => ([c], some outcome)
    | .inr next => (c :: (walk message fuel next).1, (walk message fuel next).2)

def first (start : Nat) : Cursor := ⟨start, none, 0, []⟩

/-- `read_name` from a cursor. -/
def nameAt (message : List UInt8) (c : Cursor) : Outcome :=
  readNameLoop message c.pos c.after c.jumps c.name

theorem nameAt_turn (message : List UInt8) (c : Cursor) :
    nameAt message c = match (turn message c).next with
      | .inl outcome => outcome
      | .inr next => nameAt message next := by
  rw [nameAt, readNameLoop, turn]
  cases message[c.pos]? with
  | none => rfl
  | some length =>
    simp only
    split
    · split
      · rfl
      · cases slice message (c.pos + 1) (c.pos + 1 + length.toNat) with
        | none => rfl
        | some label => rfl
    · split
      · cases message[c.pos + 1]? with
        | none => rfl
        | some low =>
          simp only
          split <;> rfl
      · rfl

/-- How a turn goes on: forward past a label, or over one more pointer. -/
structure Advances (message : List UInt8) (c next : Cursor) : Prop where
  either : (next.jumps = c.jumps ∧ c.pos < next.pos ∧ next.pos ≤ message.length ∧
    next.after = c.after) ∨
    (next.jumps = c.jumps + 1 ∧ next.jumps ≤ maxJumps ∧ c.pos + 2 ≤ message.length ∧
      next.after = some (c.after.getD (c.pos + 2)))

theorem turn_advances {message : List UInt8} {c next : Cursor}
    (h : (turn message c).next = .inr next) :
    Advances message c next := by
  rw [turn] at h
  split at h
  · cases h
  next length hbyte =>
  split at h
  · split at h
    · cases h
    · split at h
      · cases h
      next label hslice =>
      obtain ⟨_, bound, _⟩ := slice_eq_some hslice
      obtain rfl := Sum.inr.inj h
      exact ⟨.inl ⟨rfl, by simp only; omega, bound, rfl⟩⟩
  · split at h
    · split at h
      · cases h
      next low hlow =>
      split at h
      · cases h
      next room =>
      have lt := get_lt hlow
      obtain rfl := Sum.inr.inj h
      exact ⟨.inr ⟨rfl, by simp only; omega, by omega, rfl⟩⟩
    · cases h

/-- How a turn stops with a name. -/
theorem turn_stops {message : List UInt8} {c : Cursor} {name : List Char} {stop : Nat}
    (h : (turn message c).next = .inl (.ok (name, stop))) :
    c.pos < message.length ∧ stop = c.after.getD (c.pos + 1) := by
  rw [turn] at h
  split at h
  · cases h
  next length hbyte =>
  have lt := get_lt hbyte
  split at h
  · split at h
    · exact ⟨lt, (Prod.mk.inj (Except.ok.inj (Sum.inl.inj h))).2.symm⟩
    · split at h <;> cases h
  · split at h
    · split at h
      · cases h
      · split at h <;> cases h
    · cases h

/-- A turn reads bytes of the message. -/
theorem turn_reads (message : List UInt8) (c : Cursor) :
    ∀ i ∈ (turn message c).reads, i < message.length := by
  rw [turn]
  split
  · simp
  next length hbyte =>
  have lt := get_lt hbyte
  split
  · split
    · simpa using lt
    · split
      · simpa using lt
      next label hslice =>
      obtain ⟨_, bound, _⟩ := slice_eq_some hslice
      intro i hi
      rcases List.mem_cons.mp hi with rfl | hi
      · exact lt
      · obtain ⟨_, high⟩ := List.mem_range'_1.mp hi
        omega
  · split
    · split
      · simpa using lt
      next low hlow =>
      have lt' := get_lt hlow
      split
      · simpa using ⟨lt, lt'⟩
      · simpa using ⟨lt, lt'⟩
    · simpa using lt

/-- What is left to do: pointers first, then bytes. -/
def measure (message : List UInt8) (c : Cursor) : Nat :=
  (maxJumps - c.jumps) * (message.length + 1) + (message.length - c.pos)

theorem measure_advances {message : List UInt8} {c next : Cursor} (h : Advances message c next) :
    measure message next < measure message c := by
  rw [measure, measure]
  rcases h.either with ⟨jumps, forward, bound, _⟩ | ⟨jumps, bound, _, _⟩
  · rw [jumps]
    omega
  · have more : maxJumps - c.jumps = maxJumps - next.jumps + 1 := by omega
    rw [more, Nat.succ_mul]
    omega

/-- Enough turns give the outcome of the reader. -/
theorem walk_outcome {message : List UInt8} {fuel : Nat} {c : Cursor}
    (enough : measure message c < fuel) :
    (walk message fuel c).2 = some (nameAt message c) := by
  induction fuel generalizing c with
  | zero => cases enough
  | succ fuel ih =>
    rw [walk, nameAt_turn]
    cases h : (turn message c).next with
    | inl outcome => rfl
    | inr next =>
      have less := measure_advances (turn_advances h)
      exact ih (by omega)

/-- The turns of a walk are turns of the loop, one after the other. -/
theorem walk_isChain (message : List UInt8) (fuel : Nat) (c : Cursor) :
    (walk message fuel c).1.IsChain (Advances message) ∧
    ∀ other ∈ (walk message fuel c).1.head?, other = c := by
  induction fuel generalizing c with
  | zero => exact ⟨List.IsChain.nil, by rintro _ ⟨⟩⟩
  | succ fuel ih =>
    rw [walk]
    cases h : (turn message c).next with
    | inl outcome => exact ⟨List.isChain_singleton c, by rintro _ ⟨⟩; rfl⟩
    | inr next =>
      obtain ⟨chain, head⟩ := ih next
      refine ⟨List.isChain_cons.mpr ⟨?_, chain⟩, by rintro _ ⟨⟩; rfl⟩
      intro other hother
      rw [head other hother]
      exact turn_advances h

/-- A walk follows no more pointers than are allowed. -/
theorem walk_jumps {message : List UInt8} {fuel : Nat} {c : Cursor} (room : c.jumps ≤ maxJumps) :
    ∀ other ∈ (walk message fuel c).1, other.jumps ≤ maxJumps := by
  induction fuel generalizing c with
  | zero => simp [walk]
  | succ fuel ih =>
    rw [walk]
    cases h : (turn message c).next with
    | inl outcome => simpa using room
    | inr next =>
      have later : next.jumps ≤ maxJumps := by
        rcases (turn_advances h).either with ⟨jumps, _⟩ | ⟨_, bound, _⟩
        · rwa [jumps]
        · exact bound
      exact List.forall_mem_cons.mpr ⟨room, ih later⟩

/-- What holds of a name's end while it is read: nothing was jumped over yet, or the end is known.
-/
def EndsAfter (message : List UInt8) (start : Nat) (c : Cursor) : Prop :=
  match c.after with
  | none => start ≤ c.pos
  | some stop => start < stop ∧ stop ≤ message.length

theorem endsAfter_advances {message : List UInt8} {start : Nat} {c next : Cursor}
    (h : Advances message c next) (before : EndsAfter message start c) :
    EndsAfter message start next := by
  rcases h.either with ⟨_, forward, _, after⟩ | ⟨_, _, bound, after⟩
  · rw [EndsAfter, after]
    cases hafter : c.after with
    | none =>
      rw [EndsAfter, hafter] at before
      exact Nat.le_of_lt (Nat.lt_of_le_of_lt before forward)
    | some stop =>
      rw [EndsAfter, hafter] at before
      exact before
  · rw [EndsAfter, after]
    cases hafter : c.after with
    | none =>
      rw [EndsAfter, hafter] at before
      exact ⟨by simp only [Option.getD_none]; omega, bound⟩
    | some stop =>
      rw [EndsAfter, hafter] at before
      exact before

theorem nameAt_bounds {message : List UInt8} {start : Nat} {c : Cursor}
    (before : EndsAfter message start c) {name : List Char} {stop : Nat}
    (h : nameAt message c = .ok (name, stop)) : start < stop ∧ stop ≤ message.length := by
  induction hm : measure message c using Nat.strong_induction_on generalizing c with
  | _ n ih =>
    rw [nameAt_turn] at h
    cases hnext : (turn message c).next with
    | inl outcome =>
      rw [hnext] at h
      simp only at h
      rw [h] at hnext
      obtain ⟨lt, rfl⟩ := turn_stops hnext
      rw [EndsAfter] at before
      cases hafter : c.after with
      | none =>
        rw [hafter] at before
        exact ⟨by simp only [Option.getD_none]; simp only at before; omega, lt⟩
      | some stop =>
        rw [hafter] at before
        exact before
    | inr next =>
      rw [hnext] at h
      have less := measure_advances (turn_advances hnext)
      exact ih _ (hm ▸ less) (endsAfter_advances (turn_advances hnext) before) h rfl

/-- A name that is read ends after its start, within the message. -/
theorem readName_bounds {message : List UInt8} {start : Nat} {name : List Char} {stop : Nat}
    (h : readName message start = .ok (name, stop)) : start < stop ∧ stop ≤ message.length :=
  @nameAt_bounds message start (first start) (Nat.le_refl start) name stop h

/-- Where the questions' names are read from, and what comes of it. -/
def skipQuestionsLog (message : List UInt8) : Nat → Nat → List Nat × Except DnsError Nat
  | 0, pos => ([], .ok pos)
  | questions + 1, pos =>
    match skipName message pos with
    | .error e => ([pos], .error e)
    | .ok after =>
      if after + 4 ≤ message.length then
        let (starts, result) := skipQuestionsLog message questions (after + 4)
        (pos :: starts, result)
      else ([pos], .error (.malformed "a question runs past the end"))

/-- Where the answers' names are read from, and what comes of it. -/
def readAnswersLog (message : List UInt8) (wanted : List Char) :
    Nat → Nat → List String → List Nat × Except DnsError (List String)
  | 0, _, values => ([], .ok values)
  | answers + 1, pos, values =>
    match readName message pos with
    | .error e => ([pos], .error e)
    | .ok (owner, after) =>
      let rdata := after + 10
      if message.length < rdata then ([pos], .ok values)
      else
        let kind := u16At message after
        let class' := u16At message (after + 2)
        let stop := rdata + u16At message (rdata - 2)
        if message.length < stop then ([pos], .ok values)
        else
          let values :=
            if kind = typeTxt ∧ class' = classIn ∧ fold owner = wanted then
              values ++
                [String.ofList (readCharacterStrings ((message.drop rdata).take (stop - rdata)))]
            else values
          let (starts, result) := readAnswersLog message wanted answers stop values
          (pos :: starts, result)

/-- `read_txt`, with the places where it reads a name. -/
def readTxtLog (message : List UInt8) (id : UInt16) (name : String) :
    List Nat × Except DnsError Reply :=
  if message.length < headerLen then ([], .error (.malformed "shorter than a header"))
  else if u16At message 0 ≠ id.toNat then ([], .error .notOurQuestion)
  else if (message.getD 2 0).toNat / 128 = 0
    then ([], .error (.malformed "not marked as an answer"))
  else
    let truncated := decide ((message.getD 2 0).toNat / 2 % 2 = 1)
    let rcode := (message.getD 3 0).toNat % 16
    let (starts, skipped) := skipQuestionsLog message (u16At message 4) headerLen
    match skipped with
    | .error e => (starts, .error e)
    | .ok pos =>
      let (starts', read) := readAnswersLog message (fold name.toList) (u16At message 6) pos []
      (starts ++ starts', read.map fun values => ⟨rcode, truncated, values⟩)

theorem skipQuestionsLog_eq (message : List UInt8) (questions pos : Nat) :
    (skipQuestionsLog message questions pos).2 = skipQuestions message questions pos ∧
      (skipQuestionsLog message questions pos).1.length ≤ questions := by
  induction questions generalizing pos with
  | zero => exact ⟨rfl, Nat.le_refl 0⟩
  | succ questions ih =>
    rw [skipQuestionsLog, skipQuestions]
    cases skipName message pos with
    | error e => exact ⟨rfl, by simp⟩
    | ok after =>
      simp only
      split
      · exact ⟨(ih (after + 4)).1, Nat.succ_le_succ (ih (after + 4)).2⟩
      · exact ⟨rfl, by simp⟩

theorem readAnswersLog_eq (message : List UInt8) (wanted : List Char) (answers pos : Nat)
    (values : List String) :
    (readAnswersLog message wanted answers pos values).2 =
      readAnswers message wanted answers pos values ∧
      (readAnswersLog message wanted answers pos values).1.length ≤ answers := by
  induction answers generalizing pos values with
  | zero => exact ⟨rfl, Nat.le_refl 0⟩
  | succ answers ih =>
    rw [readAnswersLog, readAnswers]
    cases readName message pos with
    | error e => exact ⟨rfl, by simp⟩
    | ok found =>
      obtain ⟨owner, after⟩ := found
      simp only
      split
      · exact ⟨rfl, by simp⟩
      · split
        · exact ⟨rfl, by simp⟩
        · exact ⟨(ih _ _).1, Nat.succ_le_succ (ih _ _).2⟩

theorem readTxtLog_eq (message : List UInt8) (id : UInt16) (name : String) :
    (readTxtLog message id name).2 = readTxt message id name ∧
      (readTxtLog message id name).1.length ≤ u16At message 4 + u16At message 6 := by
  rw [readTxtLog, readTxt]
  split
  · exact ⟨rfl, Nat.zero_le _⟩
  · split
    · exact ⟨rfl, Nat.zero_le _⟩
    · split
      · exact ⟨rfl, Nat.zero_le _⟩
      · obtain ⟨skipped, few⟩ := skipQuestionsLog_eq message (u16At message 4) headerLen
        rw [← skipped]
        simp only
        cases h : (skipQuestionsLog message (u16At message 4) headerLen).2 with
        | error e => exact ⟨rfl, Nat.le_add_right_of_le few⟩
        | ok pos =>
          obtain ⟨read, few'⟩ := readAnswersLog_eq message (fold name.toList)
            (u16At message 6) pos []
          refine ⟨by simp only [read], ?_⟩
          rw [List.length_append]
          exact Nat.add_le_add few few'

/-- So many turns are enough for every name of a message. -/
def enoughTurns (message : List UInt8) : Nat := (maxJumps + 1) * (message.length + 1)

/-- Reading a name ends: within so many turns and so many pointers, moving forward between
them, inside the message and after its start. -/
theorem readName_ends (message : List UInt8) (start : Nat) :
    (walk message (enoughTurns message) (first start)).2 = some (readName message start) ∧
    (walk message (enoughTurns message) (first start)).1.IsChain (Advances message) ∧
    (∀ c ∈ (walk message (enoughTurns message) (first start)).1, c.jumps ≤ maxJumps ∧
      ∀ i ∈ (turn message c).reads, i < message.length) ∧
    (∀ name stop, readName message start = .ok (name, stop) →
      start < stop ∧ stop ≤ message.length) ∧
    ∀ id name, (readTxtLog message id name).2 = readTxt message id name ∧
      (readTxtLog message id name).1.length ≤ u16At message 4 + u16At message 6 := by
  refine ⟨walk_outcome ?_, (walk_isChain message _ _).1,
    fun c h => ⟨walk_jumps (Nat.zero_le maxJumps) c h, turn_reads message c⟩, fun name stop =>
      readName_bounds, readTxtLog_eq message⟩
  rw [measure, enoughTurns, first, Nat.succ_mul, Nat.sub_zero]
  omega

end DnsWire
