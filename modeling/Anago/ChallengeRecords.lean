import Anago.ChallengeComment
import Anago.Interleaving

/-!
# One challenge name and all who write to it

Runs of anago list the records at a name, sweep what they can tell is litter, publish their
own and take them out again; other ACME clients come and go between any two calls. Every
call may be carried out and answered, carried out and not answered, or not carried out.
-/

open Interleaving

namespace Cfapi

/-- `PER_PAGE`. -/
def perPage : Nat := 100

/-- A record as Cloudflare has it. -/
structure Stored where
  id : String
  kind : String
  content : String
  comment : Option String
  deriving DecidableEq, Repr

/-- A record as a listing is read. -/
def Stored.read (stored : Stored) : Record :=
  ⟨stored.id, stored.kind, stored.content, commentAt stored.comment⟩

/-- The records at one name. -/
structure Zone where
  records : List Stored
  /-- All there ever were: no id is given twice. -/
  ever : List Stored
  deriving DecidableEq, Repr

inductive Request where
  | create (record : Stored)
  | delete (id : String)
  deriving DecidableEq, Repr

namespace Zone

def taken (zone : Zone) (id : String) : Bool := zone.ever.any fun record => decide (record.id = id)

def apply (zone : Zone) : Request → Zone
  | .create record =>
    if zone.taken record.id then zone
    else ⟨zone.records ++ [record], zone.ever ++ [record]⟩
  | .delete id => { zone with records := zone.records.filter fun record => decide (record.id ≠ id) }

end Zone

/-- What becomes of a call. -/
inductive Fate where
  | done
  | unheard
  | failed
  deriving DecidableEq, Repr

/-- What becomes of a call, and the id that Cloudflare gives what it creates. -/
structure Answer where
  fate : Fate
  id : String
  deriving DecidableEq, Repr

def Answer.carried (answer : Answer) (request : Request) : Option Request :=
  if answer.fate = .failed then none else some request

/-- A published record, which removes itself. -/
structure Challenge where
  /-- `none` once the record is gone. -/
  recordId : Option String
  deriving DecidableEq, Repr

/-- Disarms the guard if, and only if, the record is gone. -/
def Challenge.settle (challenge : Challenge) (removed : Bool) : Challenge :=
  if removed then { challenge with recordId := none } else challenge

/-- Where a run of `issue_dns01` is. -/
inductive Stage where
  /-- The values still to publish, and what is still to be swept for the first of them, once
  the records are listed. With no value left it waits for the CA. -/
  | publishing (ahead : List String) (stale : Option (List Record))
  | removing
  /-- Returning with an error: the guards are dropped. -/
  | leaving
  | finished
  deriving DecidableEq, Repr

structure Run where
  now : Int64
  pid : UInt32
  stage : Stage
  published : List Challenge
  /-- The records that `left_behind` names. -/
  left : List String
  deriving DecidableEq, Repr

namespace Run

def new (now : Int64) (pid : UInt32) (values : List String) : Run :=
  ⟨now, pid, .publishing values none, [], []⟩

def leave (run : Run) : Run := { run with stage := .leaving }

/-- The next call of a run, and what comes of it: the run afterwards, and what Cloudflare is to
carry out. -/
def step (run : Run) (answer : Answer) (zone : Zone) : Run × Option Request :=
  match run.stage with
  | .publishing [] _ =>
    (if answer.fate = .done then { run with stage := .removing } else run.leave, none)
  | .publishing (value :: ahead) none =>
    let stale := staleChallenges (zone.records.map Stored.read) run.now
    -- a full page may not be all there is
    (if answer.fate = .done ∧ zone.records.length < perPage then
      { run with stage := .publishing (value :: ahead) (some stale) }
      else run.leave, none)
  | .publishing (value :: ahead) (some (stale :: rest)) =>
    (if answer.fate = .done then { run with stage := .publishing (value :: ahead) (some rest) }
      else run.leave, answer.carried (.delete stale.id))
  | .publishing (value :: ahead) (some []) =>
    if zone.taken answer.id then (run.leave, none)
    else
      (if answer.fate = .done then
        { run with
          stage := .publishing ahead none
          published := run.published ++ [⟨some answer.id⟩] }
        else run.leave,
        answer.carried (.create ⟨answer.id, "TXT", value, some (challengeComment run.now run.pid)⟩))
  | .removing =>
    match run.published with
    | [] => ({ run with stage := .finished }, none)
    | challenge :: rest =>
      match challenge.recordId with
      | none => ({ run with published := rest }, none)
      | some id =>
        let settled := challenge.settle (answer.fate = .done)
        -- a guard that is still armed is dropped like the others
        (if answer.fate = .done then { run with published := rest }
          else { run with stage := .leaving, published := settled :: rest },
          answer.carried (.delete id))
  | .leaving =>
    match run.published with
    | [] => ({ run with stage := .finished }, none)
    | challenge :: rest =>
      match challenge.recordId with
      | none => ({ run with published := rest }, none)
      | some id =>
        ({ run with
            published := rest
            left := if answer.fate = .done then run.left else run.left ++ [id] },
          answer.carried (.delete id))
  | .finished => (run, none)

end Run

/-- Who writes to the name: a run of anago, or another ACME client. -/
inductive Client where
  | anago (run : Run)
  | other
  deriving DecidableEq, Repr

def Client.isAnago : Client → Bool
  | anago _ => true
  | other => false

inductive Input where
  | answer (answer : Answer)
  | request (request : Request)
  deriving DecidableEq, Repr

/-- What is noted: who made a record, and whether its maker was told, and what a run of anago
took out. -/
inductive Note (ι : Type) where
  | made (maker : ι) (record : Stored) (told : Bool)
  | removed (run : ι) (now : Int64) (record : Stored)
  deriving DecidableEq

variable {ι : Type}

def act (_ : ι) : Client → Input → Zone → Zone × Client
  | .anago run, .answer answer, zone =>
    let (run, request) := run.step answer zone
    (request.elim zone zone.apply, .anago run)
  | .other, .request request, zone => (zone.apply request, .other)
  | client, _, zone => (zone, client)

/-- What is noted of a request of run `i` that is carried out. -/
def noteRequest (i : ι) (now : Int64) (told : Bool) (zone : Zone) : Request → Option (Note ι)
  | .create record => some (.made i record told)
  | .delete id => (zone.records.find? fun record => decide (record.id = id)).map (.removed i now ·)

def note (i : ι) : Client → Input → Zone → Option (Note ι)
  | .anago run, .answer answer, zone =>
    (run.step answer zone).2.bind (noteRequest i run.now (answer.fate = .done) zone)
  | .other, .request (.create record), zone =>
    if zone.taken record.id then none else some (.made i record true)
  | _, _, _ => none

namespace Run

/-- The ids of the guards that are armed. -/
def armed (run : Run) : List String := run.published.filterMap Challenge.recordId

/-- The run has listed nothing that is still to be swept, and is not over. -/
structure Unlisted (run : Run) : Prop where
  unlisted : ∀ ahead stale, run.stage ≠ .publishing ahead (some stale)
  on : run.stage ≠ .finished

/-- All a step of a run can come to. -/
inductive Steps (run : Run) (answer : Answer) (zone : Zone) : Run × Option Request → Prop
  | quiet {run' : Run} : run'.now = run.now → run'.armed = run.armed → run'.left = run.left →
    (∀ ahead stale, run'.stage = .publishing ahead (some stale) →
      stale = staleChallenges (zone.records.map Stored.read) run.now) →
    (run'.stage = .finished → run.stage = .finished ∨ run'.armed = []) →
    Steps run answer zone (run', none)
  | sweeps {ahead : List String} {stale : Record} {rest : List Record} {run' : Run} :
    run.stage = .publishing ahead (some (stale :: rest)) → run'.now = run.now →
    run'.armed = run.armed → run'.left = run.left →
    (∀ ahead' stale', run'.stage = .publishing ahead' (some stale') → stale' = rest) →
    run'.stage ≠ .finished →
    Steps run answer zone (run', answer.carried (.delete stale.id))
  | creates {record : Stored} {run' : Run} : zone.taken record.id = false →
    record.comment = some (challengeComment run.now run.pid) → run'.now = run.now →
    run'.left = run.left → run'.Unlisted →
    run'.armed = (if answer.fate = .done then run.armed ++ [record.id] else run.armed) →
    Steps run answer zone (run', answer.carried (.create record))
  | removes {id : String} {run' : Run} : id ∈ run.armed → run'.now = run.now → run'.Unlisted →
    (∀ id' ∈ run'.armed, id' ∈ run.armed) →
    (∀ id', id' ∈ run.armed ∨ id' ∈ run.left →
      (id' ∈ run'.armed ∨ id' ∈ run'.left) ∨ id' = id ∧ answer.fate = .done) →
    Steps run answer zone (run', answer.carried (.delete id))

theorem step_steps (run : Run) (answer : Answer) (zone : Zone) :
    run.Steps answer zone (run.step answer zone) := by
  obtain ⟨now, pid, stage, published, left⟩ := run
  cases stage with
  | publishing ahead stale =>
    cases ahead with
    | nil =>
      by_cases done : answer.fate = .done
      · simp only [step, done, if_true]
        exact .quiet rfl rfl rfl nofun nofun
      · simp only [step, done, if_false]
        exact .quiet rfl rfl rfl nofun nofun
    | cons value ahead =>
      cases stale with
      | none =>
        simp only [step]
        split
        · refine .quiet rfl rfl rfl ?_ nofun
          rintro _ _ ⟨⟩
          rfl
        · exact .quiet rfl rfl rfl nofun nofun
      | some stale =>
        cases stale with
        | cons stale rest =>
          simp only [step]
          refine .sweeps rfl ?_ ?_ ?_ ?_ ?_
          · split <;> rfl
          · split <;> rfl
          · split <;> rfl
          · split
            · rintro _ _ ⟨⟩
              rfl
            · nofun
          · split <;> nofun
        | nil =>
          cases taken : zone.taken answer.id with
          | true =>
            simp only [step, taken, if_true]
            exact .quiet rfl rfl rfl nofun nofun
          | false =>
            simp only [step, taken, Bool.false_eq_true, if_false]
            refine .creates taken rfl ?_ ?_ ?_ ?_
            · split <;> rfl
            · split <;> rfl
            · split <;> exact ⟨nofun, nofun⟩
            · split
              · simp [armed]
              · rfl
  | removing =>
    cases published with
    | nil =>
      simp only [step]
      exact .quiet rfl rfl rfl nofun fun _ => Or.inr rfl
    | cons challenge rest =>
      obtain ⟨recordId⟩ := challenge
      cases recordId with
      | none =>
        simp only [step]
        exact .quiet rfl rfl rfl nofun nofun
      | some id =>
        simp only [step]
        refine .removes (by simp [armed]) ?_ ?_ ?_ ?_
        · split <;> rfl
        · split <;> exact ⟨nofun, nofun⟩
        · by_cases done : answer.fate = .done
          · simp only [done, if_true]
            intro id' mem
            exact List.mem_cons_of_mem id mem
          · simp only [done, if_false, decide_false, Challenge.settle]
            exact fun id' mem => mem
        · by_cases done : answer.fate = .done
          · simp only [done, if_true]
            rintro id' (mem | mem)
            · rcases List.mem_cons.mp mem with rfl | mem
              · exact Or.inr ⟨rfl, trivial⟩
              · exact Or.inl (Or.inl mem)
            · exact Or.inl (Or.inr mem)
          · simp only [done, if_false, decide_false, Challenge.settle]
            exact fun id' mem => Or.inl mem
  | leaving =>
    cases published with
    | nil =>
      simp only [step]
      exact .quiet rfl rfl rfl nofun fun _ => Or.inr rfl
    | cons challenge rest =>
      obtain ⟨recordId⟩ := challenge
      cases recordId with
      | none =>
        simp only [step]
        exact .quiet rfl rfl rfl nofun nofun
      | some id =>
        simp only [step]
        refine .removes (by simp [armed]) rfl ⟨nofun, nofun⟩
          (fun id' mem => List.mem_cons_of_mem id mem) ?_
        rintro id' (mem | mem)
        · rcases List.mem_cons.mp mem with rfl | mem
          · by_cases done : answer.fate = .done
            · exact Or.inr ⟨rfl, done⟩
            · exact Or.inl (Or.inr (by simp [done]))
          · exact Or.inl (Or.inl mem)
        · refine Or.inl (Or.inr ?_)
          by_cases done : answer.fate = .done <;> simp [done, mem]
  | finished =>
    simp only [step]
    exact .quiet rfl rfl rfl nofun fun _ => Or.inl rfl

/-- A record is made with the time of the run. -/
theorem creates_dated (run : Run) {answer : Answer} {zone : Zone} {record : Stored}
    (h : (run.step answer zone).2 = some (.create record)) :
    record.comment = some (challengeComment run.now run.pid) := by
  have carried : ∀ {request : Request}, answer.carried request = some (.create record) →
      request = .create record := by
    intro request same
    rw [Answer.carried] at same
    split at same
    · cases same
    · exact Option.some.inj same
  have steps := run.step_steps answer zone
  generalize run.step answer zone = after at steps h
  cases steps with
  | quiet => cases h
  | sweeps => cases carried h
  | creates _ dated =>
    cases carried h
    exact dated
  | removes => cases carried h

end Run

namespace Zone

theorem taken_iff {zone : Zone} {id : String} :
    zone.taken id = true ↔ ∃ record ∈ zone.ever, record.id = id := by
  simp [taken]

/-- What a zone holds it held before all, and one id is one record. -/
structure Sound (zone : Zone) : Prop where
  held : ∀ record ∈ zone.records, record ∈ zone.ever
  ids : ∀ record ∈ zone.ever, ∀ record' ∈ zone.ever, record.id = record'.id → record = record'

theorem Sound.apply {zone : Zone} (h : zone.Sound) (request : Request) :
    (zone.apply request).Sound := by
  cases request with
  | delete id => exact ⟨fun record mem => h.held record (List.mem_filter.mp mem).1, h.ids⟩
  | create record =>
    rw [Zone.apply]
    split
    · exact h
    next free =>
    have new : ∀ record' ∈ zone.ever, record'.id ≠ record.id := fun record' mem same =>
      free (taken_iff.mpr ⟨record', mem, same⟩)
    constructor
    · intro record' mem
      rcases List.mem_append.mp mem with mem | mem
      · exact List.mem_append_left _ (h.held record' mem)
      · exact List.mem_append_right _ mem
    · intro a ha b hb same
      rcases List.mem_append.mp ha with ha | ha <;> rcases List.mem_append.mp hb with hb | hb
      · exact h.ids a ha b hb same
      · cases List.mem_singleton.mp hb
        exact absurd same (new a ha)
      · cases List.mem_singleton.mp ha
        exact absurd same.symm (new b hb)
      · exact (List.mem_singleton.mp ha).trans (List.mem_singleton.mp hb).symm

theorem mem_ever_apply {zone : Zone} {record : Stored} (h : record ∈ zone.ever)
    (request : Request) :
    record ∈ (zone.apply request).ever := by
  cases request with
  | delete id => exact h
  | create other =>
    rw [apply]
    split
    · exact h
    · exact List.mem_append_left _ h

/-- What is there after a request was there before, or is what it made. -/
theorem mem_records_apply {zone : Zone} {request : Request} {record : Stored}
    (h : record ∈ (zone.apply request).records) :
    (record ∈ zone.records ∧ request ≠ .delete record.id) ∨
      (request = .create record ∧ zone.taken record.id = false) := by
  cases request with
  | delete id =>
    obtain ⟨mem, other⟩ := List.mem_filter.mp h
    refine Or.inl ⟨mem, ?_⟩
    rintro ⟨⟩
    simp at other
  | create made =>
    rw [apply] at h
    split at h
    · exact Or.inl ⟨h, nofun⟩
    · next free =>
      rcases List.mem_append.mp h with mem | mem
      · exact Or.inl ⟨mem, nofun⟩
      · cases List.mem_singleton.mp mem
        exact Or.inr ⟨rfl, by simpa using free⟩

end Zone

/-- What is always so of the zone and of what was noted. `role` says who is a run of anago. -/
structure Kept (role : ι → Bool) (past : List (Note ι)) (zone : Zone) : Prop where
  sound : zone.Sound
  made : ∀ maker record told, .made maker record told ∈ past → record ∈ zone.ever
  maker : ∀ maker maker' record told told', .made maker record told ∈ past →
    .made maker' record told' ∈ past → maker = maker'
  removed : ∀ run now record, .removed run now record ∈ past →
    role run = true ∧ ((∃ told, .made run record told ∈ past) ∨ Stale now record.read)

/-- What a run of anago knows, and what it still answers for. -/
structure Knows (past : List (Note ι)) (zone : Zone) (i : ι) (run : Run) : Prop where
  stale : ∀ ahead stale, run.stage = .publishing ahead (some stale) →
    ∀ record ∈ stale, Stale run.now record ∧ ∃ stored ∈ zone.ever, record = stored.read
  armed : ∀ id ∈ run.armed, ∃ record, .made i record true ∈ past ∧ record.id = id
  tidy : ∀ record, .made i record true ∈ past → record ∈ zone.records →
    record.id ∈ run.armed ∨ record.id ∈ run.left
  finished : run.stage = .finished → run.armed = []

def Fact (role : ι → Bool) (past : List (Note ι)) (zone : Zone) (i : ι) (client : Client) : Prop :=
  client.isAnago = role i ∧ ∀ run, client = .anago run → Knows past zone i run

section
variable {role : ι → Bool} {past : List (Note ι)} {zone : Zone} {i : ι}

/-- Nothing noted, and nothing asked of the zone. -/
theorem Kept.request (h : Kept role past zone) (request : Request) :
    Kept role past (zone.apply request) where
  sound := h.sound.apply request
  made := fun maker record told mem => Zone.mem_ever_apply (h.made maker record told mem) request
  maker := h.maker
  removed := h.removed

/-- A record is made by who made it, and by nobody before. -/
theorem Kept.create (h : Kept role past zone) {record : Stored}
    (free : zone.taken record.id = false) (told : Bool) : Kept role (past ++ [.made i record told])
    (zone.apply (.create record)) where
  sound := h.sound.apply _
  made := by
    intro maker record' told' mem
    rcases List.mem_append.mp mem with mem | mem
    · exact Zone.mem_ever_apply (h.made maker record' told' mem) _
    · cases List.mem_singleton.mp mem
      simp [Zone.apply, free]
  maker := by
    have new : ∀ maker told, .made maker record told ∉ past := by
      intro maker told mem
      have taken := Zone.taken_iff.mpr ⟨record, h.made maker record told mem, rfl⟩
      cases free.symm.trans taken
    intro maker maker' record' told' told'' mem mem'
    rcases List.mem_append.mp mem with mem | mem <;> rcases List.mem_append.mp mem' with mem' | mem'
    · exact h.maker maker maker' record' told' told'' mem mem'
    · cases List.mem_singleton.mp mem'
      exact absurd mem (new maker told')
    · cases List.mem_singleton.mp mem
      exact absurd mem' (new maker' told'')
    · cases List.mem_singleton.mp mem
      cases List.mem_singleton.mp mem'
      rfl
  removed := by
    intro run now record' mem
    rcases List.mem_append.mp mem with mem | mem
    · obtain ⟨anago, mine | stale⟩ := h.removed run now record' mem
      · exact ⟨anago, Or.inl (mine.imp fun told mem => List.mem_append_left _ mem)⟩
      · exact ⟨anago, Or.inr stale⟩
    · cases List.mem_singleton.mp mem

/-- What a run may take out: its own, and what it can tell is litter. -/
theorem Kept.delete (h : Kept role past zone) (anago : role i = true) {now : Int64} {id : String}
    (allowed : ∀ record ∈ zone.records, record.id = id →
      (∃ told, .made i record told ∈ past) ∨ Stale now record.read) :
    Kept role (past ++ ((zone.records.find? fun record => decide (record.id = id)).map
      (Note.removed i now ·)).toList) (zone.apply (.delete id)) := by
  cases found : zone.records.find? fun record => decide (record.id = id) with
  | none =>
    rw [Option.map_none, Option.toList_none, List.append_nil]
    exact h.request _
  | some record =>
    have mem := List.mem_of_find?_eq_some found
    have same : record.id = id := by simpa using List.find?_some found
    rw [Option.map_some, Option.toList_some]
    refine ⟨h.sound.apply _, ?_, ?_, ?_⟩
    · intro maker record' told mem
      exact h.made maker record' told (by simpa using mem)
    · intro maker maker' record' told told' mem mem'
      exact h.maker maker maker' record' told told' (by simpa using mem) (by simpa using mem')
    · intro run now' record' noted
      rcases List.mem_append.mp noted with noted | noted
      · obtain ⟨known, mine | stale⟩ := h.removed run now' record' noted
        · exact ⟨known, Or.inl (mine.imp fun told mem => List.mem_append_left _ mem)⟩
        · exact ⟨known, Or.inr stale⟩
      · cases List.mem_singleton.mp noted
        exact ⟨anago, (allowed record mem same).imp_left
          (Exists.imp fun told mem => List.mem_append_left _ mem)⟩

/-- What others did to the zone since takes nothing from what a run knows. -/
theorem Knows.since {run : Run} (h : Knows past zone i run) {more : List (Note ι)} {zone' : Zone}
    (ever : ∀ record ∈ zone.ever, record ∈ zone'.ever)
    (mine : ∀ record told, .made i record told ∉ more)
    (old : ∀ record, .made i record true ∈ past → record ∈ zone'.records → record ∈ zone.records) :
    Knows (past ++ more) zone' i run where
  stale := by
    intro ahead stale stage record mem
    obtain ⟨known, stored, hstored, same⟩ := h.stale ahead stale stage record mem
    exact ⟨known, stored, ever stored hstored, same⟩
  armed := by
    intro id mem
    obtain ⟨record, made, same⟩ := h.armed id mem
    exact ⟨record, List.mem_append_left _ made, same⟩
  tidy := by
    intro record made mem
    rcases List.mem_append.mp made with made | made
    · exact h.tidy record made (old record made mem)
    · exact absurd made (mine record true)
  finished := h.finished

/-- The run goes on, and forgets no record that is still there. -/
theorem Knows.become {run run' : Run} (h : Knows past zone i run)
    (stale : ∀ ahead stale, run'.stage = .publishing ahead (some stale) →
      ∀ record ∈ stale, Stale run'.now record ∧ ∃ stored ∈ zone.ever, record = stored.read)
    (armed : ∀ id ∈ run'.armed, id ∈ run.armed)
    (tidy : ∀ record ∈ zone.records, record.id ∈ run.armed ∨ record.id ∈ run.left →
      record.id ∈ run'.armed ∨ record.id ∈ run'.left)
    (finished : run'.stage = .finished → run'.armed = []) : Knows past zone i run' where
  stale := stale
  armed := fun id mem => h.armed id (armed id mem)
  tidy := fun record made mem => tidy record mem (h.tidy record made mem)
  finished := finished

/-- Taking a record out makes none. -/
theorem noteRequest_delete (now : Int64) (told : Bool) (zone : Zone) (id : String) :
    ∀ record told', .made i record told' ∉ (noteRequest i now told zone (.delete id)).toList := by
  intro record told'
  rw [noteRequest]
  cases zone.records.find? fun record => decide (record.id = id) with
  | none => simp
  | some record => simp

theorem Knows.delete {run : Run} (h : Knows past zone i run) (now : Int64)
    (told : Bool) (id : String) :
    Knows (past ++ (noteRequest i now told zone (.delete id)).toList)
      (zone.apply (.delete id)) i run :=
  h.since (fun _ mem => mem) (noteRequest_delete now told zone id) fun _ _ mem =>
    (List.mem_filter.mp mem).1

/-- What the step of a run keeps. -/
theorem Kept.steps (h : Kept role past zone) (anago : role i = true) {run : Run}
    (knows : Knows past zone i run) {answer : Answer} {after : Run × Option Request}
    (steps : run.Steps answer zone after) :
    let past' := past ++ (after.2.bind (noteRequest i run.now (answer.fate = .done) zone)).toList
    let zone' := after.2.elim zone zone.apply
    Kept role past' zone' ∧ Knows past' zone' i after.1 := by
  have nothing : past ++ (none : Option (Note ι)).toList = past := List.append_nil past
  cases steps with
  | @quiet run' now armed left listed finished =>
    simp only [Option.bind_none, Option.elim_none, nothing]
    refine ⟨h, knows.become ?_ (by simp [armed]) (by simp [armed, left]) ?_⟩
    · intro ahead stale stage record mem
      rw [listed ahead stale stage, mem_staleChallenges] at mem
      obtain ⟨listed, known⟩ := mem
      obtain ⟨stored, hstored, rfl⟩ := List.mem_map.mp listed
      rw [now]
      exact ⟨known, stored, h.sound.held stored hstored, rfl⟩
    · intro ended
      rcases finished ended with before | none
      · exact armed.trans (knows.finished before)
      · exact none
  | @sweeps ahead stale rest run' stage now armed left next on =>
    have mine := knows.stale ahead (stale :: rest) stage
    have goesOn : ∀ {past' : List (Note ι)} {zone' : Zone}, zone'.ever = zone.ever →
        Knows past' zone' i run → Knows past' zone' i run' := by
      intro past' zone' same knows
      refine knows.become ?_ (by simp [armed]) (by simp [armed, left]) fun ended => absurd ended on
      intro ahead' stale' stage' record mem
      rw [next ahead' stale' stage'] at mem
      rw [now, same]
      exact mine record (List.mem_cons_of_mem stale mem)
    by_cases failed : answer.fate = .failed
    · simp only [Answer.carried, failed, if_true, Option.bind_none, Option.elim_none, nothing]
      exact ⟨h, goesOn rfl knows⟩
    · simp only [Answer.carried, failed, if_false, Option.bind_some, Option.elim_some]
      refine ⟨h.delete anago fun record mem same => ?_,
        goesOn rfl (knows.delete run.now _ stale.id)⟩
      obtain ⟨known, stored, hstored, rfl⟩ := mine stale (by simp)
      rw [h.sound.ids record (h.sound.held record mem) stored hstored same]
      exact Or.inr known
  | @creates record run' free _ now left unlisted armed =>
    by_cases failed : answer.fate = .failed
    · simp only [Answer.carried, failed, if_true, Option.bind_none, Option.elim_none, nothing]
      rw [failed] at armed
      exact ⟨h, knows.become (fun ahead stale stage => absurd stage (unlisted.unlisted ahead stale))
        (by simp [armed]) (by simp [armed, left]) fun ended => absurd ended unlisted.on⟩
    · simp only [Answer.carried, failed, if_false, Option.bind_some, Option.elim_some, noteRequest,
        Option.toList_some]
      refine ⟨h.create free _, ?_, ?_, ?_, fun ended => absurd ended unlisted.on⟩
      · exact fun ahead stale stage => absurd stage (unlisted.unlisted ahead stale)
      · intro id mem
        by_cases done : answer.fate = .done
        · rw [armed, if_pos done] at mem
          rcases List.mem_append.mp mem with mem | mem
          · obtain ⟨record', made, same⟩ := knows.armed id mem
            exact ⟨record', List.mem_append_left _ made, same⟩
          · cases List.mem_singleton.mp mem
            exact ⟨record, by simp [done], rfl⟩
        · rw [armed, if_neg done] at mem
          obtain ⟨record', made, same⟩ := knows.armed id mem
          exact ⟨record', List.mem_append_left _ made, same⟩
      · have grows : ∀ id ∈ run.armed, id ∈ run'.armed := by
          intro id mem
          rw [armed]
          split
          · exact List.mem_append_left _ mem
          · exact mem
        intro record' made mem
        rcases List.mem_append.mp made with made | made
        · rcases Zone.mem_records_apply mem with ⟨mem, _⟩ | ⟨same, _⟩
          · rw [left]
            exact (knows.tidy record' made mem).imp_left (grows record'.id)
          · cases same
            cases free.symm.trans (Zone.taken_iff.mpr ⟨record, h.made i record true made, rfl⟩)
        · obtain ⟨rfl, done⟩ : record' = record ∧ answer.fate = .done := by simpa using made
          rw [armed, if_pos done]
          exact Or.inl (by simp)
  | @removes id run' mem now unlisted fewer all =>
    have nothingStale : ∀ ahead stale, run'.stage ≠ .publishing ahead (some stale) :=
      unlisted.unlisted
    have on : run'.stage = .finished → run'.armed = [] := fun ended => absurd ended unlisted.on
    by_cases failed : answer.fate = .failed
    · simp only [Answer.carried, failed, if_true, Option.bind_none, Option.elim_none, nothing]
      refine ⟨h,
        knows.become (fun ahead stale stage => absurd stage (nothingStale ahead stale)) fewer ?_ on⟩
      intro record _ known
      rcases all record.id known with kept | ⟨_, done⟩
      · exact kept
      · cases failed.symm.trans done
    · simp only [Answer.carried, failed, if_false, Option.bind_some, Option.elim_some]
      refine ⟨h.delete anago fun record hrecord same => ?_,
        (knows.delete run.now _ id).become
          (fun ahead stale stage => absurd stage (nothingStale ahead stale)) fewer ?_ on⟩
      · obtain ⟨record', made, same'⟩ := knows.armed id mem
        rw [h.sound.ids record (h.sound.held record hrecord) record' (h.made i record' true made)
          (same.trans same'.symm)]
        exact Or.inl ⟨true, made⟩
      · intro record there known
        rcases all record.id known with kept | ⟨gone, _⟩
        · exact kept
        · exact absurd gone (by simpa using (List.mem_filter.mp there).2)

/-- A client that is no run makes and takes out what it likes. -/
theorem Kept.stranger (h : Kept role past zone) (request : Request) :
    Kept role (past ++ (note i .other (.request request) zone).toList) (zone.apply request) := by
  cases request with
  | delete id =>
    have unnoted : note i .other (.request (.delete id)) zone = none := rfl
    rw [unnoted, Option.toList_none, List.append_nil]
    exact h.request _
  | create record =>
    cases taken : zone.taken record.id with
    | true =>
      simp only [note, taken, if_true, Option.toList_none, List.append_nil]
      exact h.request _
    | false =>
      simp only [note, taken, Bool.false_eq_true, if_false, Option.toList_some]
      exact h.create taken true

/-- What a step does to the zone, and that what is noted of it is noted of who took it. -/
theorem act_cases (i : ι) (client : Client) (input : Input) (zone : Zone) :
    ((act i client input zone).1 = zone ∨ ∃ request,
      (act i client input zone).1 = zone.apply request) ∧
      ∀ maker record told, note i client input zone = some (.made maker record told) →
      maker = i := by
  constructor
  · cases client with
    | other =>
      cases input with
      | answer answer => exact Or.inl rfl
      | request request => exact Or.inr ⟨request, rfl⟩
    | anago run =>
      cases input with
      | request request => exact Or.inl rfl
      | answer answer =>
        simp only [act]
        cases (run.step answer zone).2 with
        | none => exact Or.inl rfl
        | some request => exact Or.inr ⟨request, rfl⟩
  · intro maker record told noted
    cases client with
    | other =>
      cases input with
      | answer answer => cases noted
      | request request =>
        cases request with
        | delete id => cases noted
        | create made =>
          simp only [note] at noted
          split at noted
          · cases noted
          · cases noted
            rfl
    | anago run =>
      cases input with
      | request request => cases noted
      | answer answer =>
        obtain ⟨request, _, noted⟩ := Option.bind_eq_some_iff.mp noted
        cases request with
        | create made =>
          cases noted
          rfl
        | delete id =>
          obtain ⟨_, _, noted⟩ := Option.map_eq_some_iff.mp noted
          cases noted

/-- The others leave alone what a run knows. -/
theorem Fact.others {client client' : Client} {input : Input} {j : ι} (different : j ≠ i)
    (kept : Kept role past zone) (h : Fact role past zone j client') :
    Fact role (past ++ (note i client input zone).toList)
      (act i client input zone).1 j client' := by
  obtain ⟨after, by_⟩ := act_cases i client input zone
  refine ⟨h.1, fun run hrun => (h.2 run hrun).since ?_ ?_ ?_⟩
  · intro record mem
    rcases after with same | ⟨request, same⟩
    · rw [same]
      exact mem
    · rw [same]
      exact Zone.mem_ever_apply mem request
  · intro record told mem
    exact different (by_ j record told (by simpa using mem))
  · intro record made mem
    rcases after with same | ⟨request, same⟩
    · rw [same] at mem
      exact mem
    · rw [same] at mem
      rcases Zone.mem_records_apply mem with ⟨mem, _⟩ | ⟨_, free⟩
      · exact mem
      · cases free.symm.trans (Zone.taken_iff.mpr ⟨record, kept.made j record true made, rfl⟩)

theorem Fact.own {client : Client} {input : Input} (kept : Kept role past zone)
    (h : Fact role past zone i client) :
    let past' := past ++ (note i client input zone).toList
    let after := act i client input zone
    Kept role past' after.1 ∧ Fact role past' after.1 i after.2 := by
  have nothing : past ++ (none : Option (Note ι)).toList = past := List.append_nil past
  cases client with
  | other =>
    cases input with
    | answer answer =>
      simp only [note, act, nothing]
      exact ⟨kept, h⟩
    | request request => exact ⟨kept.stranger request, h.1, nofun⟩
  | anago run =>
    cases input with
    | request request =>
      simp only [note, act, nothing]
      exact ⟨kept, h⟩
    | answer answer =>
      obtain ⟨kept', knows⟩ := kept.steps h.1.symm (h.2 run rfl) (run.step_steps answer zone)
      refine ⟨kept', h.1, ?_⟩
      rintro _ ⟨⟩
      exact knows

end

/-- A zone with whatever there is in it, and runs that have not begun. -/
structure Starts (world : World Zone ι Client) : Prop where
  sound : world.shared.Sound
  fresh : ∀ i run, world.locals i = .anago run → ∃ now pid values, run = .new now pid values

variable [DecidableEq ι]

theorem kept_run {world : World Zone ι Client} (starts : Starts world) (events : List (ι × Input)) :
    let role := fun i => (world.locals i).isAnago
    let past := log act note world events
    let final := run act world events
    Kept role past final.shared ∧ ∀ i, Fact role past final.shared i (final.locals i) := by
  intro role
  refine @run_keeps _ _ _ _ _ _ act note (Kept role) (Fact role) ?_ ?_ world ?_ ?_ events
  · exact fun past zone i client input kept fact => Fact.own kept fact
  · exact fun past zone i client input j client' different kept _ fact =>
      Fact.others different kept fact
  · exact ⟨starts.sound, nofun, nofun, nofun⟩
  · intro i
    refine ⟨rfl, fun run hrun => ?_⟩
    obtain ⟨now, pid, values, rfl⟩ := starts.fresh i run hrun
    exact ⟨nofun, nofun, nofun, fun _ => rfl⟩

/-- A client that is no run makes only what it was asked to. -/
theorem made_by_stranger {world : World Zone ι Client} (starts : Starts world)
    {events : List (ι × Input)} {i : ι} (stranger : world.locals i = .other)
    {record : Stored} {told : Bool} (made : .made i record told ∈ log act note world events) :
    (i, .request (.create record)) ∈ events := by
  obtain ⟨before, ⟨j, input⟩, after, rfl, noted⟩ := Runs.exists_of_mem_log made
  have same : i = j := (act_cases j _ input _).2 i record told noted
  subst same
  have role : ((run act world before).locals i).isAnago = (world.locals i).isAnago :=
    ((kept_run starts before).2 i).1
  have noted : note i ((run act world before).locals i) input (run act world before).shared =
      some (.made i record told) := noted
  generalize (run act world before).locals i = client at role noted
  cases client with
  | anago _ =>
    rw [stranger] at role
    cases role
  | other =>
    cases input with
    | answer answer => cases noted
    | request request =>
      cases request with
      | delete id => cases noted
      | create record' =>
        simp only [note] at noted
        split at noted
        · cases noted
        · cases noted
          simp

/-- What a run makes has a time that can be read. -/
theorem made_by_anago {world : World Zone ι Client} {events : List (ι × Input)} {i : ι}
    (anago : (world.locals i).isAnago = true) (starts : Starts world)
    {record : Stored} {told : Bool} (made : .made i record told ∈ log act note world events) :
    record.read.comment.bind writtenAt ≠ none := by
  obtain ⟨before, ⟨j, input⟩, after, rfl, noted⟩ := Runs.exists_of_mem_log made
  have same : i = j := (act_cases j _ input _).2 i record told noted
  subst same
  have role : ((run act world before).locals i).isAnago = (world.locals i).isAnago :=
    ((kept_run starts before).2 i).1
  have noted : note i ((run act world before).locals i) input (run act world before).shared =
      some (.made i record told) := noted
  generalize (run act world before).locals i = client at role noted
  generalize (run act world before).shared = zone at noted
  cases client with
  | other => cases role.trans anago
  | anago run =>
    cases input with
    | request _ => cases noted
    | answer answer =>
      obtain ⟨request, asked, noted⟩ := Option.bind_eq_some_iff.mp noted
      cases request with
      | delete id =>
        obtain ⟨_, _, noted⟩ := Option.map_eq_some_iff.mp noted
        cases noted
      | create record' =>
        cases noted
        have dated := run.creates_dated asked
        rw [Stored.read, dated, commentAt_challengeComment, Option.bind_some,
          writtenAt_challengeComment]
        exact Option.some_ne_none _

/-- Runs of anago take out their own records and their own litter and nothing else, and leave
nothing of their own that they were told of and could take out. -/
theorem challenges_kept_apart {world : World Zone ι Client} (starts : Starts world)
    {events : List (ι × Input)}
    (strangers : ∀ i record, world.locals i = .other → (i, .request (.create record)) ∈ events →
      ∀ text, record.comment = some text →
        challengeMarker.toList.isPrefixOf (StdText.trim text.toList) = false) :
    let past := log act note world events
    let final := run act world events
    (∀ i now record, .removed i now record ∈ past →
      (∃ told, .made i record told ∈ past) ∨ Stale now record.read) ∧
    (∀ i j now record told, world.locals j = .other → .removed i now record ∈ past →
      .made j record told ∉ past) ∧
    (∀ i now record, .removed i now record ∈ past → record.read.comment.bind writtenAt ≠ none) ∧
    (∀ now pid, writtenAt (challengeComment now pid) = some now ∧
      (commentAt (some (challengeComment now pid))).bind writtenAt = some now) ∧
    ∀ i ended, final.locals i = .anago ended → ended.stage = .finished → ended.left = [] →
      ∀ record ∈ final.shared.records, .made i record true ∉ past := by
  intro past final
  obtain ⟨kept, facts⟩ := kept_run starts events
  refine ⟨fun i now record removed => (kept.removed i now record removed).2, ?_, ?_, ?_, ?_⟩
  · intro i j now record told stranger removed made
    obtain ⟨anago, mine | ⟨_, written, hwritten, _⟩⟩ := kept.removed i now record removed
    · obtain ⟨told', mine⟩ := mine
      cases kept.maker i j record told' told mine made
      rw [stranger] at anago
      cases anago
    · have unmarked := strangers j record stranger (made_by_stranger starts stranger made)
      cases (writtenAt_commentAt unmarked).symm.trans hwritten
  · intro i now record removed
    obtain ⟨anago, ⟨told, mine⟩ | ⟨_, written, hwritten, _⟩⟩ := kept.removed i now record removed
    · exact made_by_anago anago starts mine
    · rw [hwritten]
      exact Option.some_ne_none written
  · intro now pid
    rw [commentAt_challengeComment]
    exact ⟨writtenAt_challengeComment now pid, writtenAt_challengeComment now pid⟩
  · intro i ended hended finished left record mem made
    have knows := (facts i).2 ended hended
    rcases knows.tidy record made mem with armed | named
    · rw [knows.finished finished] at armed
      cases armed
    · rw [left] at named
      cases named

/-- One run that publishes one value, and one other client. -/
def sampleWorld : World Zone Bool Client :=
  ⟨⟨[], []⟩, fun other => if other then .other else .anago (.new 1000 7 ["v"])⟩

theorem sample_starts : Starts sampleWorld := by
  refine ⟨⟨nofun, nofun⟩, fun i run hrun => ?_⟩
  cases i with
  | true => cases hrun
  | false =>
    cases hrun
    exact ⟨1000, 7, ["v"], rfl⟩

def sampleRecord (comment : String) : Stored := ⟨"s", "TXT", "w", some comment⟩

/-- The other client comes first, and then the run gets `answers` to its calls. -/
def sampleEvents (comment : String) (answers : List Answer) : List (Bool × Input) :=
  (true, .request (.create (sampleRecord comment))) :: answers.map fun answer =>
    (false, .answer answer)

theorem sampleEvents_created {comment : String} {answers : List Answer} {i : Bool} {record : Stored}
    (h : (i, .request (.create record)) ∈ sampleEvents comment answers) :
    record = sampleRecord comment := by
  have both : i = true ∧ record = sampleRecord comment := by simpa [sampleEvents] using h
  exact both.2

/-- A run from end to end, beside somebody else's challenge. -/
theorem challenges_kept_apart_sample :
    let events := sampleEvents "certbot"
      [⟨.done, ""⟩, ⟨.done, "a"⟩, ⟨.done, ""⟩, ⟨.unheard, ""⟩, ⟨.done, ""⟩, ⟨.done, ""⟩]
    ∀ record ∈ (run act sampleWorld events).shared.records,
      .made false record true ∉ log act note sampleWorld events := by
  intro events
  have apart := @challenges_kept_apart Bool _ sampleWorld sample_starts events ?_
  · exact apart.2.2.2.2 false _ rfl (by decide +kernel) (by decide +kernel)
  intro i record _ created text htext
  cases sampleEvents_created created
  cases htext
  decide

/-- A comment that starts with a space does not start with the marker, but is trimmed before it is
looked at; and a run that is not told of its record leaves it. -/
theorem stranger_swept :
    (¬∀ (world : World Zone Bool Client) (events : List (Bool × Input)), Starts world →
      (∀ i record, world.locals i = .other → (i, .request (.create record)) ∈ events →
        ∀ text, record.comment = some text →
        challengeMarker.toList.isPrefixOf text.toList = false) →
      ∀ i j now record told, world.locals j = .other →
        .removed i now record ∈ log act note world events →
        .made j record told ∉ log act note world events) ∧
    ¬∀ (world : World Zone Bool Client) (events : List (Bool × Input)), Starts world →
      ∀ i ended, (run act world events).locals i = .anago ended →
      ended.stage = .finished → ended.left = [] →
        ∀ record ∈ (run act world events).shared.records, ∀ told,
          .made i record told ∉ log act note world events := by
  constructor
  · intro claim
    let events := sampleEvents " anago DNS-01 challenge at=0" [⟨.done, ""⟩, ⟨.done, ""⟩]
    refine claim sampleWorld events sample_starts ?_ false true 1000
      (sampleRecord " anago DNS-01 challenge at=0") true rfl ?_ ?_
    · intro i record _ created text htext
      cases sampleEvents_created created
      cases htext
      decide
    · decide +kernel
    · decide +kernel
  · intro claim
    let events := sampleEvents "certbot" [⟨.done, ""⟩, ⟨.unheard, "a"⟩, ⟨.done, ""⟩]
    exact claim sampleWorld events sample_starts false _ rfl (by decide +kernel) (by decide +kernel)
      ⟨"a", "TXT", "v", some (challengeComment 1000 7)⟩ (by decide +kernel) false
        (by decide +kernel)

end Cfapi
