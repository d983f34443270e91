import Anago.DnsAnswers

/-!
# Truncated answers

What is read of an answer that was cut off somewhere after its questions. A record that is
cut inside its fixed part or its data ends the reading; a cut before the owner of a record
has ended makes the whole answer an error, and so does a name of too many pointers.
-/

open StdText Utf8Text Utf8Lossy

namespace DnsWire

section
variable {message : List UInt8} {pos stop jumps k : Nat} {labels : List (List UInt8)}

theorem getElem?_cut {i : Nat} (h : i < k) : (message.take k)[i]? = message[i]? := by
  rw [List.getElem?_take, if_pos h]

theorem slice_cut {start : Nat} (h : stop ≤ k) :
    slice (message.take k) start stop = slice message start stop := by
  rw [slice, slice, List.length_take, List.drop_take, List.take_take]
  by_cases inside : start ≤ stop ∧ stop ≤ message.length
  · rw [if_pos inside, if_pos (by omega), show min (stop - start) (k - start) =
      stop - start by omega]
  · rw [if_neg inside, if_neg (by omega)]

theorem u16At_cut {i : Nat} (h : i + 2 ≤ k) : u16At (message.take k) i = u16At message i := by
  simp only [u16At, List.getD_eq_getElem?_getD]
  rw [getElem?_cut (by omega), getElem?_cut (by omega)]

theorem PriorName.pos_lt (h : PriorName message pos labels stop jumps) : pos < stop := by
  induction h with
  | root _ => omega
  | label _ _ _ _ _ ih => omega
  | pointer _ _ _ _ _ _ => omega

/-- A name stands there, written with however many pointers: a bound on `_free` is none on them. -/
def Written (message : List UInt8) (pos : Nat) (labels : List (List UInt8)) (stop _free : Nat) :
    Prop :=
  ∃ jumps, PriorName message pos labels stop jumps

/-- A name that is read to its end. -/
def Followed (message : List UInt8) (pos : Nat) (labels : List (List UInt8)) (stop : Nat) : Prop :=
  ∃ jumps ≤ maxJumps, PriorName message pos labels stop jumps

/-- A name that ends before the cut is still there. -/
theorem PriorName.cut (h : PriorName message pos labels stop jumps) :
    stop ≤ k → PriorName (message.take k) pos labels stop jumps := by
  induction h with
  | root byte =>
    intro inside
    exact .root ((getElem?_cut inside).trans byte)
  | label byte positive short found rest ih =>
    intro inside
    have before := rest.pos_lt
    exact .label ((getElem?_cut (by omega)).trans byte) positive short
      ((slice_cut (by omega)).trans found) (ih inside)
  | pointer byte large next prior _ ih =>
    intro inside
    exact .pointer ((getElem?_cut (by omega)).trans byte) large
      ((getElem?_cut (by omega)).trans next) prior
      (ih (by omega))

/-- A name that stands before the cut stands in the whole message, and ends before the cut. -/
theorem NameAt.uncut (h : NameAt (message.take k) pos labels stop jumps) :
    NameAt message pos labels stop jumps ∧ stop ≤ k := by
  have within : ∀ {i : Nat} {b : UInt8}, (message.take k)[i]? = some b →
      i < k ∧ message[i]? = some b := by
    intro i b there
    have lt := get_lt there
    rw [List.length_take] at lt
    rw [getElem?_cut (by omega)] at there
    exact ⟨by omega, there⟩
  induction h with
  | root byte =>
    obtain ⟨lt, byte⟩ := within byte
    exact ⟨.root byte, lt⟩
  | label byte positive short found _ ih =>
    obtain ⟨lt, byte⟩ := within byte
    obtain ⟨_, inside, _⟩ := slice_eq_some found
    rw [List.length_take] at inside
    rw [slice_cut (by omega)] at found
    exact ⟨.label byte positive short found ih.1, ih.2⟩
  | pointer byte large next _ ih =>
    obtain ⟨_, byte⟩ := within byte
    obtain ⟨lt, next⟩ := within next
    exact ⟨.pointer byte large next ih.1, lt⟩

theorem Questions.le {questions : Nat}
    (h : Questions (Written message) message questions pos stop) :
    pos ≤ stop := by
  induction h with
  | none => exact Nat.le_refl _
  | question written _ _ _ ih =>
    obtain ⟨_, there⟩ := written
    have before := there.pos_lt
    omega

/-- The questions are passed over just when each of their names is read to its end. -/
theorem Questions.cut_iff {questions : Nat}
    (h : Questions (Written message) message questions pos stop) :
    stop ≤ k → ∀ stop', Questions (NameAt (message.take k)) (message.take k) questions pos stop' ↔
      stop' = stop ∧ Questions (PriorName message) message questions pos stop := by
  induction h with
  | none =>
    intro _ stop'
    constructor
    · rintro ⟨⟩
      exact ⟨rfl, .none⟩
    · rintro ⟨rfl, _⟩
      exact .none
  | @question pos after stop free questions labels written _ inside rest ih =>
    intro within stop'
    obtain ⟨jumps, there⟩ := written
    have before := rest.le
    constructor
    · intro passed
      cases passed with
      | question there' few' _ rest' =>
        obtain ⟨rfl, rfl, rfl⟩ := there.nameAt.unique there'.uncut.1
        obtain ⟨rfl, named⟩ := (ih within stop').mp rest'
        exact ⟨rfl, .question there few' inside named⟩
    · rintro ⟨rfl, named⟩
      cases named with
      | question there' few' _ named =>
        obtain ⟨_, rfl, _⟩ := there.nameAt.unique there'.nameAt
        have passed := (ih within stop').mpr ⟨rfl, named⟩
        refine .question (there'.cut (by omega)).nameAt few' ?_ passed
        rw [List.length_take]
        omega

theorem Header.cut {id : UInt16} (h : Header message id) (inside : headerLen ≤ k) :
    Header (message.take k) id := by
  have twelve : headerLen = 12 := rfl
  refine ⟨?_, ?_, ?_⟩
  · rw [List.length_take]
    exact Nat.le_min.mpr ⟨inside, h.length⟩
  · rw [u16At_cut (by omega)]
    exact h.id
  · rw [List.getD_eq_getElem?_getD, getElem?_cut (by omega), ← List.getD_eq_getElem?_getD]
    exact h.answer

section
variable {record : Record} {after : Nat}

theorem RecordAt.bounds (h : RecordAt (Written message) message pos record after stop) :
    pos < after ∧ after + 10 ≤ stop := by
  obtain ⟨_, ⟨jumps, there⟩, _⟩ := h.owner
  have ends := h.ends
  exact ⟨there.pos_lt, by omega⟩

/-- A record that lies before the cut is still there. -/
theorem RecordAt.cut (h : RecordAt (Written message) message pos record after stop)
    (followed : Followed message pos record.owner after) (inside : stop ≤ k) :
    RecordAt (NameAt (message.take k)) (message.take k) pos record after stop := by
  obtain ⟨_, bound⟩ := h.bounds
  obtain ⟨jumps, few, there⟩ := followed
  refine ⟨⟨jumps, (there.cut (by omega)).nameAt, few⟩, ?_, ?_, ?_, ?_, ?_⟩
  · rw [u16At_cut (by omega)]
    exact h.kind
  · rw [u16At_cut (by omega)]
    exact h.class'
  · rw [u16At_cut (by omega)]
    exact h.ends
  · rw [List.length_take]
    exact Nat.le_min.mpr ⟨inside, h.inside⟩
  · have length : min (stop - (after + 10)) (k - (after + 10)) = stop - (after + 10) := by omega
    rw [List.drop_take, List.take_take, length]
    exact h.rdata

/-- A record that is cut after its owner ends the answers. -/
theorem RecordAt.cut_short {answers : Nat}
    (h : RecordAt (Written message) message pos record after stop)
    (followed : Followed message pos record.owner after) (owner : after ≤ k) (short : k < stop) :
    Answers (message.take k) (answers + 1) pos [] := by
  obtain ⟨jumps, few, there⟩ := followed
  refine .cut (there.cut owner).nameAt few ?_
  rw [List.length_take]
  by_cases fixed : after + 10 ≤ k
  · rw [u16At_cut (by omega), ← h.ends]
    omega
  · omega

/-- If the owner is cut, or cannot be followed, there is no reading on. -/
theorem RecordAt.cut_owner {answers : Nat} {records : List Record}
    (h : RecordAt (Written message) message pos record after stop)
    (fails : ¬(after ≤ k ∧ Followed message pos record.owner after)) :
    ¬Answers (message.take k) (answers + 1) pos records := by
  obtain ⟨_, ⟨jumps, there⟩, _⟩ := h.owner
  have ends : ∀ {labels : List (List UInt8)} {after' jumps' : Nat},
      NameAt (message.take k) pos labels after' jumps' → ¬jumps' ≤ maxJumps := by
    intro labels after' jumps' there' few
    obtain ⟨whole, inside⟩ := there'.uncut
    obtain ⟨_, rfl, rfl⟩ := there.nameAt.unique whole
    exact fails ⟨inside, jumps, few, there⟩
  intro answered
  cases answered with
  | record here _ =>
    obtain ⟨_, there', few⟩ := here.owner
    exact ends there' few
  | cut there' few _ => exact ends there' few

end

theorem Laid.start_le {placed : List Placed} (h : Laid (Written message) message pos placed stop) :
    ∀ p ∈ placed, pos ≤ p.start ∧ p.start < p.after ∧ p.after < p.stop := by
  induction h with
  | none => exact fun p mem => absurd mem List.not_mem_nil
  | record placed here _ ih =>
    intro p mem
    obtain ⟨_, _⟩ := here.bounds
    rcases List.mem_cons.mp mem with rfl | mem
    · omega
    · have later := ih p mem
      omega

theorem Laid.followed {placed : List Placed}
    (h : Laid (PriorName message) message pos placed stop) :
    ∀ p ∈ placed, Followed message p.start p.record.owner p.after := by
  induction h with
  | none => exact fun p mem => absurd mem List.not_mem_nil
  | record placed here _ ih =>
    obtain ⟨jumps, there, few⟩ := here.owner
    exact List.forall_mem_cons.mpr ⟨⟨jumps, few, there⟩, ih⟩

/-- The owner of a record the cut leaves something of is whole, and can be followed. -/
def Placed.Reached (message : List UInt8) (k : Nat) (placed : Placed) : Prop :=
  placed.start ≤ k →
    placed.after ≤ k ∧ Followed message placed.start placed.record.owner placed.after

/-- The reader finds the records before the cut, unless the cut is at the start of a record
or in its owner, or it gives an owner up. -/
theorem Laid.answers_cut {placed : List Placed}
    (h : Laid (Written message) message pos placed stop) :
    pos ≤ k → ∀ records, Answers (message.take k) placed.length pos records ↔
      (∀ p ∈ placed, p.Reached message k) ∧
        records = (placed.filter fun p => p.stop ≤ k).map Placed.record := by
  induction h with
  | none =>
    intro _ records
    constructor
    · intro answered
      cases answered
      simp
    · rintro ⟨_, rfl⟩
      exact .none
  | @record placed rest stop here laid ih =>
    intro before records
    obtain ⟨_, _⟩ := here.bounds
    rw [List.length_cons, List.forall_mem_cons]
    by_cases reached : placed.after ≤ k ∧
      Followed message placed.start placed.record.owner placed.after
    case neg =>
      constructor
      · exact fun answered => absurd answered (here.cut_owner reached)
      · rintro ⟨⟨fine, _⟩, _⟩
        exact absurd (fine before) reached
    obtain ⟨owner, followed⟩ := reached
    by_cases inside : placed.stop ≤ k
    · rw [List.filter_cons_of_pos (by simpa using inside), List.map_cons]
      have there := here.cut followed inside
      rw [there.answers_iff]
      constructor
      · rintro ⟨records, rfl, answered⟩
        obtain ⟨fine, rfl⟩ := (ih inside _).mp answered
        exact ⟨⟨fun _ => ⟨owner, followed⟩, fine⟩, rfl⟩
      · rintro ⟨⟨_, fine⟩, rfl⟩
        exact ⟨_, rfl, (ih inside _).mpr ⟨fine, rfl⟩⟩
    · have later : ∀ p ∈ rest, k < p.start := fun p mem => by
        have start := laid.start_le p mem
        omega
      have none : (rest.filter fun p => p.stop ≤ k) = [] := by
        refine List.filter_eq_nil_iff.mpr fun p mem => ?_
        have start := laid.start_le p mem
        simp only [decide_eq_true_eq]
        omega
      rw [List.filter_cons_of_neg (by simpa using inside), none]
      have found : Answers (message.take k) (rest.length + 1) placed.start [] :=
        here.cut_short followed owner (by omega)
      constructor
      · intro answered
        refine ⟨⟨fun _ => ⟨owner, followed⟩, fun p mem start => ?_⟩, answered.unique found⟩
        exact absurd start (Nat.not_le.mpr (later p mem))
      · rintro ⟨_, rfl⟩
        exact found

/-- What comes back of a truncated answer is what arrived whole, exactly if the names of the
questions can be followed, the cut is neither at the start of a record nor in its owner, the owners
before it can be followed, and no record that arrived is mistaken for one at the name. -/
theorem readTxt_truncated {query : List UInt8} {id : UInt16} {name : String} {placed : List Placed}
    (asked : txtQuery id name = .ok query) (header : Header message id)
    (marked : truncatedBit message = true)
    (questions : Questions (Written message) message (u16At message 4) headerLen pos)
    (laid : Laid (Written message) message pos placed stop)
    (count : placed.length = u16At message 6) (cut : pos ≤ k) :
    (∃ reply, readTxt (message.take k) id name = .ok reply ∧ reply.truncated = true ∧
      reply.values = valuesAt name ((placed.filter fun p => p.stop ≤ k).map Placed.record)) ↔
    Questions (PriorName message) message (u16At message 4) headerLen pos ∧
      (∀ p ∈ placed, p.Reached message k) ∧
        ∀ p ∈ placed, p.stop ≤ k → ¬p.record.Mistaken name := by
  have long : headerLen ≤ k := questions.le.trans cut
  have twelve : headerLen = 12 := rfl
  have counted : u16At (message.take k) 6 = placed.length := by rw [u16At_cut (by omega), count]
  have asked_for : u16At (message.take k) 4 = u16At message 4 := u16At_cut (by omega)
  have marked : truncatedBit (message.take k) = true := by
    rw [truncatedBit, List.getD_eq_getElem?_getD, getElem?_cut (by omega),
      ← List.getD_eq_getElem?_getD]
    exact marked
  have passed := questions.cut_iff cut
  have found := laid.answers_cut cut
  have askable := askable_of_txtQuery asked
  have mistaken : (∀ record ∈ (placed.filter fun p => p.stop ≤ k).map Placed.record,
      ¬record.Mistaken name) ↔ ∀ p ∈ placed, p.stop ≤ k → ¬p.record.Mistaken name := by
    rw [List.forall_mem_map, List.forall_mem_filter]
    simp only [decide_eq_true_eq]
  rw [← mistaken]
  constructor
  · rintro ⟨reply, read, _, values⟩
    obtain ⟨_, pos', records, passed', answered, rfl⟩ := readTxt_eq_ok.mp read
    rw [asked_for] at passed'
    obtain ⟨rfl, named⟩ := (passed pos').mp passed'
    rw [counted] at answered
    obtain ⟨fine, rfl⟩ := (found records).mp answered
    exact ⟨named, fine, (valuesAt_iff askable answered.named).mp values⟩
  · rintro ⟨named, fine, own⟩
    have passed' := (passed pos).mpr ⟨rfl, named⟩
    have answered := (found _).mpr ⟨fine, rfl⟩
    have values := (valuesAt_iff askable answered.named).mpr own
    rw [← asked_for] at passed'
    rw [← counted] at answered
    exact ⟨_, readTxt_eq_ok.mpr ⟨header.cut long, pos, _, passed', answered, rfl⟩, marked, values⟩

end

theorem compressedAnswer_asked :
    Questions (Written compressedAnswer) compressedAnswer (u16At compressedAnswer 4) headerLen 22 :=
  compressedAnswer_question.mono fun _ _ _ jumps there => ⟨jumps, there⟩

theorem compressedAnswer_written :
    Laid (Written compressedAnswer) compressedAnswer 22 compressedRecords 56 :=
  compressedAnswer_laid.mono fun _ _ _ jumps there => ⟨jumps, there⟩

/-- Cut in the data of the second record, it gives the first. -/
theorem readTxt_truncated_sample :
    ∃ reply, readTxt (compressedAnswer.take 55) 7 "ab.c" = .ok reply ∧ reply.truncated = true ∧
      reply.values =
        valuesAt "ab.c" ((compressedRecords.filter fun p => p.stop ≤ 55).map Placed.record) := by
  have asked : txtQuery 7 "ab.c" = .ok _ := rfl
  refine (readTxt_truncated asked compressedAnswer_header (by decide) compressedAnswer_asked
    compressedAnswer_written (by decide) (by decide)).mpr ⟨compressedAnswer_question, ?_, ?_⟩
  · have before : ∀ p ∈ compressedRecords, p.after ≤ 55 := by decide
    exact fun p mem _ => ⟨before p mem, compressedAnswer_laid.followed p mem⟩
  · simp [compressedRecords, compressedFirst, compressedSecond, Record.Mistaken, HasDot]

/-- Cut between its two records, it gives nothing. -/
theorem readTxt_loses_what_arrived :
    ¬∀ k, 22 ≤ k → ∃ reply, readTxt (compressedAnswer.take k) 7 "ab.c" = .ok reply ∧
      reply.truncated = true ∧ reply.values =
        valuesAt "ab.c" ((compressedRecords.filter fun p => p.stop ≤ k).map Placed.record) := by
  intro all
  obtain ⟨reply, read, _, _⟩ := all 39 (by decide)
  obtain ⟨_, pos, records, passed, answered, _⟩ := readTxt_eq_ok.mp read
  obtain ⟨rfl, _⟩ := (compressedAnswer_asked.cut_iff (by decide) pos).mp passed
  have count : u16At (compressedAnswer.take 39) 6 = compressedRecords.length := by decide
  rw [count] at answered
  obtain ⟨fine, _⟩ := (compressedAnswer_written.answers_cut (by decide) records).mp answered
  have second : compressedSecond ∈ compressedRecords := List.mem_cons_of_mem _ List.mem_cons_self
  have whole := (fine compressedSecond second (by decide)).1
  exact absurd whole (by decide)

end DnsWire
