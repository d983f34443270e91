import Anago.DnsLabels

/-!
# Answers

A message has a header, questions and then answer records, one after another. What the reader
returns are the values of the TXT records among them whose owner has the text of the name.
-/

open StdText Utf8Text Utf8Lossy

namespace DnsWire

/-- An answer record, with its owner as labels. -/
structure Record where
  owner : List (List UInt8)
  kind : Nat
  class' : Nat
  rdata : List UInt8
  deriving DecidableEq

namespace Record

/-- The character-strings of a record, joined. -/
def value (record : Record) : String := String.ofList (readCharacterStrings record.rdata)

/-- A TXT record at the name. -/
def At (record : Record) (name : String) : Prop :=
  record.kind = typeTxt ∧ record.class' = classIn ∧ SameLabels record.owner name

/-- A TXT record the reader takes. -/
def Matches (record : Record) (name : String) : Prop :=
  record.kind = typeTxt ∧ record.class' = classIn ∧ SameText record.owner name

instance (record : Record) (name : String) : Decidable (record.At name) :=
  inferInstanceAs (Decidable (_ = _ ∧ _ = _ ∧ (_ : List (List Char)) = _))

instance (record : Record) (name : String) : Decidable (record.Matches name) :=
  inferInstanceAs (Decidable (_ = _ ∧ _ = _ ∧ (_ : List Char) = _))

end Record

/-- The values of some records, in order. -/
def valuesAt (name : String) (records : List Record) : List String :=
  (records.filter fun record => record.At name).map Record.value

/-- The header of an answer to the question of this id. -/
structure Header (message : List UInt8) (id : UInt16) : Prop where
  length : headerLen ≤ message.length
  id : u16At message 0 = id.toNat
  answer : (message.getD 2 0).toNat / 128 = 1

def truncatedBit (message : List UInt8) : Bool := decide ((message.getD 2 0).toNat / 2 % 2 = 1)

def rcodeOf (message : List UInt8) : Nat := (message.getD 3 0).toNat % 16

section
variable (Stands : Nat → List (List UInt8) → Nat → Nat → Prop) (message : List UInt8)

/-- So many questions stand from one place to another, by what it is for a name to stand at one. -/
inductive Questions : Nat → Nat → Nat → Prop
  | none {pos : Nat} : Questions 0 pos pos
  | question {pos after stop jumps questions : Nat} {labels : List (List UInt8)} :
    Stands pos labels after jumps → jumps ≤ maxJumps → after + 4 ≤ message.length →
    Questions questions (after + 4) stop → Questions (questions + 1) pos stop

/-- A record stands at a place. Its owner ends at `after`, the record at `stop`. -/
structure RecordAt (pos : Nat) (record : Record) (after stop : Nat) : Prop where
  owner : ∃ jumps, Stands pos record.owner after jumps ∧ jumps ≤ maxJumps
  kind : record.kind = u16At message after
  class' : record.class' = u16At message (after + 2)
  ends : stop = after + 10 + u16At message (after + 8)
  inside : stop ≤ message.length
  rdata : record.rdata = (message.drop (after + 10)).take (stop - (after + 10))

end

/-- A record and its place. -/
structure Placed where
  start : Nat
  record : Record
  after : Nat
  stop : Nat

/-- Whole records stand one after another, from one place to another. -/
inductive Laid (Stands : Nat → List (List UInt8) → Nat → Nat → Prop) (message : List UInt8) :
    Nat → List Placed → Nat → Prop
  | none {pos : Nat} : Laid Stands message pos [] pos
  | record (placed : Placed) {rest : List Placed} {stop : Nat} :
    RecordAt Stands message placed.start placed.record placed.after placed.stop →
    Laid Stands message placed.stop rest stop →
    Laid Stands message placed.start (placed :: rest) stop

/-- The records that are there, of so many that should be: all, or those before one that is cut
short after its owner. -/
inductive Answers (message : List UInt8) : Nat → Nat → List Record → Prop
  | none {pos : Nat} : Answers message 0 pos []
  | record {pos after stop answers : Nat} {record : Record} {records : List Record} :
    RecordAt (NameAt message) message pos record after stop → Answers message answers stop records →
    Answers message (answers + 1) pos (record :: records)
  | cut {pos after jumps answers : Nat} {owner : List (List UInt8)} :
    NameAt message pos owner after jumps → jumps ≤ maxJumps →
    message.length < after + 10 + u16At message (after + 8) → Answers message (answers + 1) pos []

theorem skipName_eq_ok {message : List UInt8} {pos after : Nat} :
    skipName message pos = .ok after ↔ ∃ labels jumps, NameAt message pos labels after jumps ∧
      jumps ≤ maxJumps := by
  rw [skipName]
  constructor
  · intro h
    cases found : readName message pos with
    | error e =>
      rw [found] at h
      cases h
    | ok result =>
      rw [found] at h
      cases h
      obtain ⟨labels, jumps, there, few, _⟩ := readName_eq_ok.mp found
      exact ⟨labels, jumps, there, few⟩
  · rintro ⟨labels, jumps, there, few⟩
    rw [readName_eq_ok.mpr ⟨labels, jumps, there, few, rfl⟩]
    rfl

theorem skipQuestions_eq_ok {message : List UInt8} {questions : Nat} :
    ∀ {pos stop : Nat}, skipQuestions message questions pos = .ok stop ↔
      Questions (NameAt message) message questions pos stop := by
  induction questions with
  | zero =>
    intro pos stop
    constructor
    · intro h
      cases h
      exact .none
    · rintro ⟨⟩
      rfl
  | succ questions ih =>
    intro pos stop
    rw [skipQuestions]
    constructor
    · intro h
      split at h
      · cases h
      next after found =>
      split at h
      · next inside =>
        obtain ⟨labels, jumps, there, few⟩ := skipName_eq_ok.mp found
        exact .question there few inside (ih.mp h)
      · cases h
    · rintro (_ | ⟨there, few, inside, rest⟩)
      rw [skipName_eq_ok.mpr ⟨_, _, there, few⟩]
      simp only [if_pos inside]
      exact ih.mpr rest

/-- One round over the answers. -/
theorem readAnswers_succ {message : List UInt8} {wanted : List Char} {answers pos after jumps : Nat}
    {owner : List (List UInt8)} (there : NameAt message pos owner after jumps)
    (few : jumps ≤ maxJumps) (values : List String) :
    readAnswers message wanted (answers + 1) pos values =
      if message.length < after + 10 + u16At message (after + 8) then .ok values
      else
        readAnswers message wanted answers (after + 10 + u16At message (after + 8))
          (if u16At message after = typeTxt ∧ u16At message (after + 2) = classIn ∧
            fold (textOf owner) = wanted then
            values ++ [String.ofList (readCharacterStrings
              ((message.drop (after + 10)).take (after + 10 + u16At message
                (after + 8) - (after + 10))))]
          else values) := by
  rw [readAnswers, readName_eq_ok.mpr ⟨owner, jumps, there, few, rfl⟩]
  simp only [show after + 10 - 2 = after + 8 by omega]
  by_cases cut : message.length < after + 10
  · rw [if_pos cut, if_pos (by omega)]
  · rw [if_neg cut]

/-- The values the reader returns are those of the records it takes. -/
theorem readAnswers_eq_ok {message : List UInt8} {name : String} {answers : Nat} :
    ∀ {pos : Nat} {values values' : List String},
      readAnswers message (fold name.toList) answers pos values = .ok values' ↔
        ∃ records, Answers message answers pos records ∧
          values' = values ++ (records.filter fun record => record.Matches name).map
            Record.value := by
  induction answers with
  | zero =>
    intro pos values values'
    constructor
    · intro h
      cases h
      exact ⟨[], .none, by simp⟩
    · rintro ⟨_, ⟨⟩, rfl⟩
      simp [readAnswers]
  | succ answers ih =>
    intro pos values values'
    -- what a record adds is what the reader adds for it
    have added : ∀ {after stop : Nat} {record : Record},
        RecordAt (NameAt message) message pos record after stop →
        ∀ records : List Record,
        values ++ ((record :: records).filter fun record => record.Matches name).map Record.value =
          (if u16At message after = typeTxt ∧ u16At message (after + 2) = classIn ∧
              fold (textOf record.owner) = fold name.toList
                then values ++ [record.value] else values) ++
            (records.filter fun record => record.Matches name).map Record.value := by
      intro after stop record there records
      have same : (u16At message after = typeTxt ∧ u16At message (after + 2) = classIn ∧
          fold (textOf record.owner) = fold name.toList) ↔ record.Matches name := by
        rw [← there.kind, ← there.class']
        rfl
      by_cases taken : record.Matches name
      · rw [if_pos (same.mpr taken), List.filter_cons_of_pos (by simpa using taken), List.map_cons]
        simp
      · rw [if_neg (mt same.mp taken), List.filter_cons_of_neg (by simpa using taken)]
    constructor
    · intro h
      cases found : readName message pos with
      | error e =>
        rw [readAnswers, found] at h
        cases h
      | ok result =>
        obtain ⟨text, after⟩ := result
        obtain ⟨owner, jumps, there, few, rfl⟩ := readName_eq_ok.mp found
        rw [readAnswers_succ there few] at h
        split at h
        · next cut =>
          cases h
          exact ⟨[], .cut there few cut, by simp⟩
        next inside =>
        obtain ⟨records, rest, rfl⟩ := ih.mp h
        let record : Record :=
          ⟨owner, u16At message after, u16At message (after + 2), (message.drop (after + 10)).take
            (after + 10 + u16At message (after + 8) - (after + 10))⟩
        have here : RecordAt (NameAt message) message pos record after
            (after + 10 + u16At message (after + 8)) :=
          ⟨⟨jumps, there, few⟩, rfl, rfl, rfl, by omega, rfl⟩
        exact ⟨record :: records, .record here rest, (added here records).symm⟩
    · rintro ⟨records, answered, rfl⟩
      cases answered with
      | @record _ after stop _ record records here rest =>
        obtain ⟨jumps, there, few⟩ := here.owner
        have inside := here.inside
        rw [readAnswers_succ there few, ← here.ends, if_neg (by omega), ← here.rdata]
        exact ih.mpr ⟨records, rest, added here records⟩
      | cut there few short =>
        rw [readAnswers_succ there few, if_pos short]
        simp

/-- A message is read exactly if it is an answer whose questions can be passed over and whose
records can be read up to one that is cut short. -/
theorem readTxt_eq_ok {message : List UInt8} {id : UInt16} {name : String} {reply : Reply} :
    readTxt message id name = .ok reply ↔
      Header message id ∧ ∃ pos records,
      Questions (NameAt message) message (u16At message 4) headerLen pos ∧
        Answers message (u16At message 6) pos records ∧
        reply = ⟨rcodeOf message, truncatedBit message,
          (records.filter fun record => record.Matches name).map Record.value⟩ := by
  have bound : (message.getD 2 0).toNat < 256 := UInt8.toNat_lt _
  constructor
  · intro h
    rw [readTxt] at h
    split at h
    · cases h
    next long =>
    split at h
    · cases h
    next ours =>
    split at h
    · cases h
    next marked =>
    simp only at h
    split at h
    · cases h
    next pos passed =>
    cases found : readAnswers message (fold name.toList) (u16At message 6) pos [] with
    | error e =>
      rw [found] at h
      cases h
    | ok values =>
      rw [found] at h
      cases h
      obtain ⟨records, answered, rfl⟩ := readAnswers_eq_ok.mp found
      exact ⟨⟨by omega, not_not.mp ours, by omega⟩, pos, records,
        skipQuestions_eq_ok.mp passed, answered, rfl⟩
  · rintro ⟨header, pos, records, passed, answered, rfl⟩
    have long := header.length
    have marked := header.answer
    have read : readAnswers message (fold name.toList) (u16At message 6) pos [] =
        .ok ((records.filter fun record => record.Matches name).map Record.value) :=
      readAnswers_eq_ok.mpr ⟨records, answered, rfl⟩
    rw [readTxt, if_neg (by omega), if_neg (not_not.mpr header.id), if_neg (by omega)]
    simp only [skipQuestions_eq_ok.mpr passed, read]
    rfl

/-- Where a record stands, the answers are that record and those behind it. -/
theorem RecordAt.answers_iff {message : List UInt8} {answers pos after stop : Nat} {record : Record}
    {records : List Record} (here : RecordAt (NameAt message) message pos record after stop) :
    Answers message (answers + 1) pos records ↔
      ∃ rest, records = record :: rest ∧ Answers message answers stop rest := by
  obtain ⟨jumps, there, few⟩ := here.owner
  constructor
  · intro answered
    cases answered with
    | @record _ after' stop' _ record' rest here' answered =>
      obtain ⟨jumps', there', few'⟩ := here'.owner
      obtain ⟨labels, rfl, _⟩ := there.unique there'
      have ends : stop = stop' := here.ends.trans here'.ends.symm
      subst ends
      have same : record' = record := by
        cases record
        cases record'
        simp only [Record.mk.injEq]
        exact ⟨labels.symm, here'.kind.trans here.kind.symm, here'.class'.trans here.class'.symm,
          here'.rdata.trans here.rdata.symm⟩
      exact ⟨rest, by rw [same], answered⟩
    | cut there' few' short =>
      obtain ⟨_, rfl, _⟩ := there.unique there'
      have inside := here.inside
      rw [here.ends] at inside
      omega
  · rintro ⟨rest, rfl, answered⟩
    exact .record here answered

/-- The records of a message are those there are. -/
theorem Answers.unique {message : List UInt8} {answers pos : Nat} {records records' : List Record}
    (h : Answers message answers pos records) (h' : Answers message answers pos records') :
    records = records' := by
  induction h generalizing records' with
  | none =>
    cases h'
    rfl
  | record here _ ih =>
    obtain ⟨rest, rfl, answered⟩ := here.answers_iff.mp h'
    rw [ih answered]
  | cut there few short =>
    cases h' with
    | record here' _ =>
      have empty : Answers message 1 _ [] := .cut there few short
      obtain ⟨rest, none, _⟩ := here'.answers_iff.mp empty
      cases none
    | cut _ _ _ => rfl

/-- The owner of a record that stands somewhere has no empty label. -/
theorem Answers.named {message : List UInt8} {answers pos : Nat} {records : List Record}
    (h : Answers message answers pos records) : ∀ record ∈ records,
    ∀ label ∈ record.owner, label ≠ [] := by
  induction h with
  | none => exact fun record mem => absurd mem List.not_mem_nil
  | cut _ _ _ => exact fun record mem => absurd mem List.not_mem_nil
  | @record pos after stop answers record records here rest ih =>
    intro record' mem
    rcases List.mem_cons.mp mem with rfl | mem
    · obtain ⟨jumps, there, few⟩ := here.owner
      exact there.named
    · exact ih record' mem

/-- A TXT record at some other name, whose labels have the text of this one's. -/
def Record.Mistaken (record : Record) (name : String) : Prop :=
  record.kind = typeTxt ∧ record.class' = classIn ∧ SameText record.owner name ∧ HasDot record.owner

section
variable {name : String}

theorem Record.at_iff (askable : Askable name) {record : Record}
    (named : ∀ label ∈ record.owner, label ≠ []) :
    record.At name ↔ record.Matches name ∧ ¬record.Mistaken name := by
  rw [Record.At, Record.Matches, Record.Mistaken, sameLabels_iff askable named]
  tauto

theorem filter_at (askable : Askable name) {records : List Record}
    (named : ∀ record ∈ records, ∀ label ∈ record.owner, label ≠ []) :
    (records.filter fun record => record.At name).Sublist
    (records.filter fun record => record.Matches name) := by
  have same : (records.filter fun record => record.At name) =
      (records.filter fun record => record.Matches name).filter fun record => record.At name := by
    rw [List.filter_filter]
    refine List.filter_congr fun record mem => ?_
    have at_matches := (Record.at_iff askable (named record mem)).mp
    by_cases here : record.At name
    · simp [here, (at_matches here).1]
    · simp [here]
  rw [same]
  exact List.filter_sublist

/-- The values are those of the records at the name, unless one is mistaken for such a record. -/
theorem valuesAt_iff (askable : Askable name) {records : List Record}
    (named : ∀ record ∈ records, ∀ label ∈ record.owner, label ≠ []) :
    (records.filter fun record => record.Matches name).map Record.value = valuesAt name records ↔
      ∀ record ∈ records, ¬record.Mistaken name := by
  constructor
  · intro same record mem mistaken
    have lengths := congrArg List.length same
    rw [valuesAt, List.length_map, List.length_map] at lengths
    have filters := (filter_at askable named).eq_of_length lengths.symm
    have taken : record ∈ records.filter fun record => record.Matches name :=
      List.mem_filter.mpr ⟨mem, decide_eq_true ⟨mistaken.1, mistaken.2.1, mistaken.2.2.1⟩⟩
    rw [← filters] at taken
    have here : record.At name := of_decide_eq_true (List.mem_filter.mp taken).2
    exact ((Record.at_iff askable (named record mem)).mp here).2 mistaken
  · intro none
    rw [valuesAt]
    refine congrArg (List.map Record.value) (List.filter_congr fun record mem => ?_)
    have own := Record.at_iff askable (named record mem)
    by_cases here : record.Matches name
    · simp [here, own.mpr ⟨here, none record mem⟩]
    · simp [here, mt own.mp fun both => here both.1]

end

/-- What is read comes from the TXT records at the name and from no other record, exactly if no
TXT record has an owner with a dot inside a label that spells the name otherwise. -/
theorem readTxt_only_own {message query : List UInt8} {id : UInt16} {name : String} {reply : Reply}
    (asked : txtQuery id name = .ok query) (read : readTxt message id name = .ok reply) :
    ∃ pos records, Questions (NameAt message) message (u16At message 4) headerLen pos ∧
      Answers message (u16At message 6) pos records ∧
      (reply.values = valuesAt name records ↔ ∀ record ∈ records, ¬record.Mistaken name) := by
  obtain ⟨_, pos, records, passed, answered, rfl⟩ := readTxt_eq_ok.mp read
  exact ⟨pos, records, passed, answered, valuesAt_iff (askable_of_txtQuery asked) answered.named⟩

section
variable {message : List UInt8} {Stands Stands' : Nat → List (List UInt8) → Nat → Nat → Prop}
  {pos stop : Nat}

theorem Questions.mono {questions : Nat}
    (sub : ∀ pos labels after jumps, Stands pos labels after jumps → Stands' pos labels after jumps)
    (h : Questions Stands message questions pos stop) :
    Questions Stands' message questions pos stop := by
  induction h with
  | none => exact .none
  | question there few inside _ ih => exact .question (sub _ _ _ _ there) few inside ih

theorem Laid.mono {placed : List Placed}
    (sub : ∀ pos labels after jumps, Stands pos labels after jumps → Stands' pos labels after jumps)
    (h : Laid Stands message pos placed stop) : Laid Stands' message pos placed stop := by
  induction h with
  | none => exact .none
  | record placed here _ ih =>
    obtain ⟨⟨jumps, there, few⟩, kind, class', ends, inside, rdata⟩ := here
    exact .record placed ⟨⟨jumps, sub _ _ _ _ there, few⟩, kind, class', ends, inside, rdata⟩ ih

end

theorem Laid.answers {message : List UInt8} {pos stop : Nat} {placed : List Placed}
    (h : Laid (NameAt message) message pos placed stop) :
    Answers message placed.length pos (placed.map Placed.record) := by
  induction h with
  | none => exact .none
  | record placed here _ ih => exact .record here ih

/-- A length and so many bytes. -/
def characterString (chunk : List UInt8) : List UInt8 := UInt8.ofNat chunk.length :: chunk

/-- ASCII text that was split in any way is joined. -/
theorem readCharacterStrings_join {chunks : List (List UInt8)}
    (fits : ∀ chunk ∈ chunks, chunk.length ≤ 255 ∧ ∀ b ∈ chunk, b.toNat < 128) :
    readCharacterStrings (chunks.flatMap characterString) = chunks.flatten.map fun b =>
      Char.ofNat b.toNat := by
  induction chunks with
  | nil => simp [readCharacterStrings]
  | cons chunk chunks ih =>
    obtain ⟨short, ascii⟩ := fits chunk List.mem_cons_self
    have rest := ih fun chunk mem => fits chunk (List.mem_cons_of_mem _ mem)
    have length : (UInt8.ofNat chunk.length).toNat = chunk.length := by
      rw [UInt8.toNat_ofNat']
      omega
    rw [List.flatMap_cons, characterString, List.cons_append, readCharacterStrings, length,
      List.take_left, List.drop_left, rest, lossy_ascii ascii, List.flatten_cons, List.map_append]

/-- Of a message whose records are all there, every TXT record at the name is read, in order
and whole, whatever follows the answers. -/
theorem readTxt_complete {message query : List UInt8} {id : UInt16} {name : String} {pos stop : Nat}
    {placed : List Placed} (asked : txtQuery id name = .ok query) (header : Header message id)
    (questions : Questions (NameAt message) message (u16At message 4) headerLen pos)
    (laid : Laid (NameAt message) message pos placed stop)
    (count : placed.length = u16At message 6) :
    ∃ reply, readTxt message id name = .ok reply ∧ reply.rcode = rcodeOf message ∧
      reply.values = ((placed.map Placed.record).filter fun record =>
        record.Matches name).map Record.value ∧
      (∀ p ∈ placed, p.record.At name → p.record.Matches name) ∧
      (valuesAt name (placed.map Placed.record)).Sublist reply.values ∧
      ((∀ p ∈ placed, ¬HasDot p.record.owner) →
        reply.values = valuesAt name (placed.map Placed.record)) ∧
      ∀ p ∈ placed, ∀ chunks : List (List UInt8),
        (∀ chunk ∈ chunks, chunk.length ≤ 255 ∧ ∀ b ∈ chunk, b.toNat < 128) →
        p.record.rdata = chunks.flatMap characterString →
        p.record.value = String.ofList (chunks.flatten.map fun b => Char.ofNat b.toNat) := by
  have askable := askable_of_txtQuery asked
  have answered := laid.answers
  have named := answered.named
  rw [count] at answered
  refine ⟨_, readTxt_eq_ok.mpr ⟨header, pos, _, questions, answered, rfl⟩, rfl, rfl, ?_, ?_, ?_, ?_⟩
  · intro p mem here
    exact ((Record.at_iff askable (named _ (List.mem_map_of_mem mem))).mp here).1
  · exact (filter_at askable named).map Record.value
  · intro plain
    refine (valuesAt_iff askable named).mpr ?_
    rintro _ part ⟨_, _, _, dot⟩
    obtain ⟨p, mem, rfl⟩ := List.mem_map.mp part
    exact plain p mem dot
  · intro p mem chunks fits same
    rw [Record.value, same, readCharacterStrings_join fits]

/-- Two TXT records, one with its owner as a pointer and its value in two pieces, the other
with an owner in upper case that ends in a pointer. It is marked as truncated. -/
def compressedAnswer : List UInt8 :=
  [0, 7, 134, 0, 0, 1, 0, 2, 0, 0, 0, 1] ++ [2, 97, 98, 1, 99, 0, 0, 16, 0, 1] ++
    [192, 12, 0, 16, 0, 1, 0, 0, 0, 60, 0, 5, 2, 104, 105, 1, 33] ++
    [2, 65, 66, 192, 15, 0, 16, 0, 1, 0, 0, 0, 60, 0, 2, 1, 120] ++
      [0, 0, 41, 4, 208, 0, 0, 0, 0, 0, 0]

def compressedFirst : Placed := ⟨22, ⟨[[97, 98], [99]], 16, 1, [2, 104, 105, 1, 33]⟩, 24, 39⟩

def compressedSecond : Placed := ⟨39, ⟨[[65, 66], [99]], 16, 1, [1, 120]⟩, 44, 56⟩

def compressedRecords : List Placed := [compressedFirst, compressedSecond]

theorem compressedAnswer_laid :
    Laid (PriorName compressedAnswer) compressedAnswer 22 compressedRecords 56 := by
  have c : PriorName compressedAnswer 15 [[99]] 18 0 :=
    .label rfl (by decide) (by decide) rfl (.root rfl)
  have abc : PriorName compressedAnswer 12 [[97, 98], [99]] 18 0 :=
    .label rfl (by decide) (by decide) rfl c
  have first : PriorName compressedAnswer 22 [[97, 98], [99]] 24 1 :=
    .pointer rfl (by decide) rfl (by decide) abc
  have second : PriorName compressedAnswer 39 [[65, 66], [99]] 44 1 :=
    .label rfl (by decide) (by decide) rfl (.pointer rfl (by decide) rfl (by decide) c)
  refine .record compressedFirst ⟨⟨1, first, by decide⟩, ?_, ?_, ?_, ?_, ?_⟩
    (.record compressedSecond ⟨⟨1, second, by decide⟩, ?_, ?_, ?_, ?_, ?_⟩ .none)
  all_goals decide

theorem compressedAnswer_header : Header compressedAnswer 7 := ⟨by decide, by decide, by decide⟩

theorem compressedAnswer_question :
    Questions (PriorName compressedAnswer) compressedAnswer
      (u16At compressedAnswer 4) headerLen 22 := by
  rw [show u16At compressedAnswer 4 = 1 by decide]
  have name : PriorName compressedAnswer 12 [[97, 98], [99]] 18 0 :=
    .label rfl (by decide) (by decide) rfl (.label rfl (by decide) (by decide) rfl (.root rfl))
  exact .question name (by decide) (by decide) .none

theorem readTxt_complete_sample :
    ∃ reply, readTxt compressedAnswer 7 "ab.c" = .ok reply ∧ reply.values = ["hi!", "x"] := by
  have asked : txtQuery 7 "ab.c" = .ok _ := rfl
  obtain ⟨reply, read, _, _, _, _, values, _⟩ :=
    readTxt_complete asked compressedAnswer_header
      (compressedAnswer_question.mono fun _ _ _ _ => PriorName.nameAt)
      (compressedAnswer_laid.mono fun _ _ _ _ => PriorName.nameAt) (by decide)
  have plain : ∀ p ∈ compressedRecords, ¬HasDot p.record.owner := by
    simp [compressedRecords, compressedFirst, compressedSecond, HasDot]
  have own : ∀ p ∈ compressedRecords, p.record.At "ab.c" := by decide
  refine ⟨reply, read, ?_⟩
  have first := own compressedFirst List.mem_cons_self
  have second := own compressedSecond (List.mem_cons_of_mem _ List.mem_cons_self)
  simp [values plain, valuesAt, compressedRecords, first, second]
  simp [compressedFirst, compressedSecond, Record.value, readCharacterStrings, lossy_ascii]

/-- A TXT record whose owner is one label with a dot in it. -/
def dottedAnswer : List UInt8 :=
  [0, 7, 132, 0, 0, 0, 0, 1, 0, 0, 0, 0] ++ [3, 97, 46, 98, 0] ++ [0, 16, 0, 1, 0, 0, 0,
    60, 0, 2] ++ [1, 118]

def dottedRecord : Record := ⟨[[97, 46, 98]], 16, 1, [1, 118]⟩

theorem dottedAnswer_laid : Answers dottedAnswer 1 12 [dottedRecord] := by
  have owner : NameAt dottedAnswer 12 [[97, 46, 98]] 17 0 :=
    .label rfl (by decide) (by decide) rfl (.root rfl)
  have here : RecordAt (NameAt dottedAnswer) dottedAnswer 12 dottedRecord 17 29 :=
    ⟨⟨0, owner, by decide⟩, by decide, by decide, by decide, by decide, by decide⟩
  exact .record here .none

theorem dottedRecord_taken : dottedRecord.Matches "a.b" ∧ ¬dottedRecord.At "a.b" := by
  constructor
  · have text : SameText dottedRecord.owner "a.b" := by
      rw [SameText, dottedRecord, textOf_eq (by decide)]
      simp [lossy_ascii, fold]
    exact ⟨rfl, rfl, text⟩
  · intro here
    have labels : dottedRecord.owner.map wireLabel = (labelsOf "a.b").map fun label =>
        label.map toAsciiLowercase :=
      here.2.2
    exact absurd labels (by decide)

theorem readTxt_dottedAnswer : readTxt dottedAnswer 7 "a.b" = .ok ⟨0, false, ["v"]⟩ := by
  have header : Header dottedAnswer 7 := ⟨by decide, by decide, by decide⟩
  refine readTxt_eq_ok.mpr ⟨header, 12, [dottedRecord], .none, dottedAnswer_laid, ?_⟩
  have value : dottedRecord.value = "v" := by
    simp [Record.value, dottedRecord, readCharacterStrings, lossy_ascii]
  simp [dottedRecord_taken.1, value]
  decide

theorem readTxt_only_own_sample :
    ∃ pos records, Questions (NameAt dottedAnswer) dottedAnswer
      (u16At dottedAnswer 4) headerLen pos ∧
      Answers dottedAnswer (u16At dottedAnswer 6) pos records ∧
      (["v"] = valuesAt "a.b" records ↔ ∀ record ∈ records, ¬record.Mistaken "a.b") :=
  readTxt_only_own rfl readTxt_dottedAnswer

/-- It answers for a name of two labels. -/
theorem readTxt_takes_others :
    ¬∀ (query : List UInt8) (reply : Reply), txtQuery 7 "a.b" = .ok query →
      readTxt dottedAnswer 7 "a.b" = .ok reply →
      ∃ pos records, Questions (NameAt dottedAnswer) dottedAnswer
        (u16At dottedAnswer 4) headerLen pos ∧
        Answers dottedAnswer (u16At dottedAnswer 6) pos records ∧
        reply.values = valuesAt "a.b" records := by
  intro all
  obtain ⟨pos, records, passed, answered, same⟩ := all _ _ rfl readTxt_dottedAnswer
  rw [show u16At dottedAnswer 4 = 0 by decide] at passed
  rw [show u16At dottedAnswer 6 = 1 by decide] at answered
  cases passed
  obtain rfl := answered.unique dottedAnswer_laid
  simp [valuesAt, dottedRecord_taken.2] at same

end DnsWire
