import Anago.DnsWire
import Anago.RenewalLoop

/-!
# Waiting for a challenge record

The zone's nameservers are asked again and again whether they hand out the value. The wait
ends when all that answer do, when one that answers has not done so for a minute, or when
none can be asked. Times are in nanoseconds.
-/

open DnsWire RenewalLoop

namespace DnsProbe

def pollInterval : Nat := Duration.ofSecs 2

def pollTimeout : Nat := Duration.ofSecs 60

def blindAfter : Nat := Duration.ofSecs 10

def settle : Nat := Duration.ofSecs 5

inductive Answer where
  | serving
  | notYet
  | silent
  deriving DecidableEq, Repr

inductive Look where
  | served
  | missing
  | unobservable
  deriving DecidableEq, Repr

def heard (answers : List Answer) : List Answer := answers.filter (· ≠ .silent)

/-- The answers as one observation. -/
def look (answers : List Answer) : Look :=
  if heard answers = [] then .unobservable
  else if (heard answers).all (· = .serving) then .served
  else .missing

inductive Step where
  | again (pause : Nat)
  | settle (pause : Nat)
  | blind (pause : Nat)
  | giveUp (waited : Nat)
  deriving DecidableEq, Repr

/-- `until`. The next interval, never past the deadline. -/
def untilDeadline (deadline elapsed : Nat) : Nat := min pollInterval (deadline - elapsed)

def nextStep (look : Look) (elapsed : Nat) : Step :=
  match look with
  | .served => .settle settle
  | .unobservable =>
    if blindAfter ≤ elapsed then .blind settle else .again (untilDeadline blindAfter elapsed)
  | .missing =>
    -- no time remains, or less than none
    if pollTimeout ≤ elapsed then .giveUp elapsed
      else .again (min pollInterval (pollTimeout - elapsed))

inductive Outcome where
  | served (waited : Nat)
  | blind (waited : Nat)
  deriving DecidableEq, Repr

inductive ProbeError where
  | name (e : DnsError)
  | unreachable (why : String)
  | notServed (name : String) (waited : Nat)
  deriving DecidableEq, Repr

/-- `read`. One reply as one answer. -/
def readReply (reply : Reply) (value : String) : Answer :=
  if ¬reply.answered then .silent
  else if reply.holds value then .serving
  else if reply.truncated then .silent
  else .notYet

/-- One round of questions: what the query to each server gives, the clock when all are
through, and the clock after the pause that follows. -/
structure Round where
  query : (server name : String) → Except ProbeError Reply
  elapsed : Nat
  rested : Nat

namespace Round

def ask (round : Round) (server name value : String) : Answer :=
  match round.query server name with
  | .ok reply => readReply reply value
  | .error _ => .silent

def answers (round : Round) (servers : List String) (name value : String) : List Answer :=
  servers.map fun server => round.ask server name value

end Round

/-- The loop of `wait` from round `n` on, and the round it ends in. -/
def waitLoop (servers : List String) (name value : String) (rounds : Nat → Round) :
    Nat → Nat → Option (Nat × Except ProbeError Outcome)
  | 0, _ => none
  | fuel + 1, n =>
    match nextStep (look ((rounds n).answers servers name value)) (rounds n).elapsed with
    | .settle _ => some (n, .ok (.served (rounds n).rested))
    | .blind _ => some (n, .ok (.blind (rounds n).rested))
    | .again _ => waitLoop servers name value rounds fuel (n + 1)
    | .giveUp waited => some (n, .error (.notServed name waited))

/-- `wait`. Without a server to ask there is no round. -/
def wait (servers : List String) (name value : String) (rounds : Nat → Round) (fuel : Nat) :
    Option (Nat × Except ProbeError Outcome) :=
  match txtQuery 0 name with
  | .error e => some (0, .error (.name e))
  | .ok _ =>
    if servers = [] then some (0, .ok (.blind 0))
    else waitLoop servers name value rounds fuel 0

section
variable (servers : List String) (name value : String) (rounds : Nat → Round)

def answersAt (n : Nat) : List Answer := (rounds n).answers servers name value

def lookAt (n : Nat) : Look := look (answersAt servers name value rounds n)

def stepAt (n : Nat) : Step := nextStep (lookAt servers name value rounds n) (rounds n).elapsed

/-- The loop goes on after this round. -/
def Goes (n : Nat) : Prop := ∃ pause, stepAt servers name value rounds n = .again pause

end

namespace Step

def pause : Step → Nat
  | .again pause => pause
  | .settle pause => pause
  | .blind pause => pause
  | .giveUp _ => 0

end Step

/-- By when a wait on such a look has to end. -/
def deadline : Look → Nat
  | .served => 0
  | .missing => pollTimeout
  | .unobservable => blindAfter

theorem heard_eq_nil {answers : List Answer} : heard answers = [] ↔ ∀ a ∈ answers, a = .silent := by
  rw [heard, List.filter_eq_nil_iff]
  refine forall₂_congr fun a _ => ?_
  cases a <;> decide

theorem all_heard {answers : List Answer} :
    (heard answers).all (· = .serving) = true ↔ ∀ a ∈ answers, a ≠ .silent → a = .serving := by
  rw [List.all_eq_true, heard, List.forall_mem_filter]
  refine forall₂_congr fun a _ => ?_
  cases a <;> decide

theorem look_eq_unobservable {answers : List Answer} :
    look answers = .unobservable ↔ ∀ a ∈ answers, a = .silent := by
  rw [← heard_eq_nil, look]
  by_cases none : heard answers = []
  · simp [none]
  · rw [if_neg none]
    split <;> simp [none]

theorem look_eq_served {answers : List Answer} :
    look answers = .served ↔ (∃ a ∈ answers, a ≠ .silent) ∧ ∀ a ∈ answers, a ≠ .silent →
      a = .serving := by
  have some : (∃ a ∈ answers, a ≠ .silent) ↔ ¬heard answers = [] := by
    rw [heard_eq_nil]
    push Not
    rfl
  rw [some, ← all_heard, look]
  by_cases none : heard answers = []
  · simp [none]
  · rw [if_neg none]
    split
    · next all => simp [none, all]
    · next other => simp [other]

/-- What each kind of step says of the look and the clock. -/
theorem nextStep_cases (look : Look) (elapsed : Nat) :
    (look = .served ∧ nextStep look elapsed = .settle settle) ∨
    (look = .unobservable ∧ blindAfter ≤ elapsed ∧ nextStep look elapsed = .blind settle) ∨
    (look = .missing ∧ pollTimeout ≤ elapsed ∧ nextStep look elapsed = .giveUp elapsed) ∨
    (elapsed < deadline look ∧ nextStep look elapsed = .again
      (min pollInterval (deadline look - elapsed))) := by
  cases look with
  | served => exact Or.inl ⟨rfl, rfl⟩
  | missing =>
    by_cases late : pollTimeout ≤ elapsed
    · exact Or.inr (Or.inr (Or.inl ⟨rfl, late, if_pos late⟩))
    · exact Or.inr (Or.inr (Or.inr ⟨Nat.lt_of_not_le late, if_neg late⟩))
  | unobservable =>
    by_cases late : blindAfter ≤ elapsed
    · exact Or.inr (Or.inl ⟨rfl, late, if_pos late⟩)
    · exact Or.inr (Or.inr (Or.inr ⟨Nat.lt_of_not_le late, if_neg late⟩))

section
variable (servers : List String) (name value : String) (rounds : Nat → Round)

/-- The clock: a round takes its time, and a pause at least its own. -/
def Ticks : Prop :=
  ∀ n, (rounds n).elapsed + (stepAt servers name value rounds n).pause ≤ (rounds n).rested ∧
    (rounds n).rested ≤ (rounds (n + 1)).elapsed

/-- What is to be of a wait that ends in round `n`. -/
structure Right (n : Nat) (ending : Except ProbeError Outcome) : Prop where
  served : (∃ waited, ending = .ok (.served waited)) ↔
    (∃ a ∈ answersAt servers name value rounds n, a ≠ .silent) ∧
      ∀ a ∈ answersAt servers name value rounds n, a ≠ .silent → a = .serving
  notServed : ∀ name' waited, ending = .error (.notServed name' waited) →
    lookAt servers name value rounds n = .missing ∧ pollTimeout ≤ (rounds n).elapsed
  blind : ∀ waited, ending = .ok (.blind waited) →
    (∀ i ≤ n, ∀ a ∈ answersAt servers name value rounds i, a = .silent) ∧
    blindAfter ≤ (rounds n).elapsed
  pauses : ∀ i < n, ∃ pause, stepAt servers name value rounds i = .again pause ∧ 0 < pause ∧
    (rounds i).elapsed + pause ≤ deadline (lookAt servers name value rounds i)

/-- The loop comes to a round late enough to go on blind in which nobody answers, after one
in which the record was missing. -/
def LosesSight : Prop :=
  ∃ i j, i < j ∧ lookAt servers name value rounds i = .missing ∧
    lookAt servers name value rounds j = .unobservable ∧ blindAfter ≤ (rounds j).elapsed ∧
    ∀ m < j, Goes servers name value rounds m

variable {servers name value rounds}

/-- Two seconds a round. Each deadline is a whole number of them, so a clipped pause loses none. -/
theorem elapsed_succ (ticks : Ticks servers name value rounds) {n : Nat}
    (paced : 2000000000 * n ≤ (rounds n).elapsed) (goes : Goes servers name value rounds n) :
    2000000000 * (n + 1) ≤ (rounds (n + 1)).elapsed ∧ n < 30 := by
  obtain ⟨pause, again⟩ := goes
  obtain ⟨waited, next⟩ := ticks n
  rw [again] at waited
  rcases nextStep_cases (lookAt servers name value rounds n) (rounds n).elapsed with
    ⟨_, step⟩ | ⟨_, _, step⟩ | ⟨_, _, step⟩ | ⟨early, step⟩
  · cases again.symm.trans step
  · cases again.symm.trans step
  · cases again.symm.trans step
  · cases again.symm.trans step
    have interval : pollInterval = 2000000000 := rfl
    rw [Step.pause, interval] at waited
    have whole : deadline (lookAt servers name value rounds n) = 0 ∨
        deadline (lookAt servers name value rounds n) = 10000000000 ∨
        deadline (lookAt servers name value rounds n) = 60000000000 := by
      cases lookAt servers name value rounds n
      · exact Or.inl rfl
      · exact Or.inr (Or.inr rfl)
      · exact Or.inr (Or.inl rfl)
    generalize deadline (lookAt servers name value rounds n) = limit at early waited whole
    generalize (rounds n).elapsed = now at *
    generalize (rounds (n + 1)).elapsed = later at *
    omega

theorem wait_ends (ticks : Ticks servers name value rounds) (fuel : Nat) :
    ∀ n, 30 < n + fuel → 2000000000 * n ≤ (rounds n).elapsed → n ≤ 30 →
      (∀ i < n, Goes servers name value rounds i) →
      ∃ m ending, waitLoop servers name value rounds fuel n = some (m, ending) ∧ m ≤ 30 ∧
        (∀ i < m, Goes servers name value rounds i) ∧ ¬Goes servers name value rounds m ∧
        ((lookAt servers name value rounds m = .served ∧ ending = .ok (.served (rounds m).rested)) ∨
          (lookAt servers name value rounds m = .unobservable ∧ blindAfter ≤ (rounds m).elapsed ∧
            ending = .ok (.blind (rounds m).rested)) ∨
          (lookAt servers name value rounds m = .missing ∧ pollTimeout ≤ (rounds m).elapsed ∧
            ending = .error (.notServed name (rounds m).elapsed))) := by
  induction fuel with
  | zero =>
    intro n long _ short
    omega
  | succ fuel ih =>
    intro n long paced short before
    have round : ∀ step, nextStep (lookAt servers name value rounds n) (rounds n).elapsed = step →
        waitLoop servers name value rounds (fuel + 1) n =
          match step with
          | .settle _ => some (n, .ok (.served (rounds n).rested))
          | .blind _ => some (n, .ok (.blind (rounds n).rested))
          | .again _ => waitLoop servers name value rounds fuel (n + 1)
          | .giveUp waited => some (n, .error (.notServed name waited)) := by
      rintro _ rfl
      rfl
    have stays : ∀ {step : Step}, nextStep (lookAt servers name value rounds n)
        (rounds n).elapsed = step →
        (∀ pause, step ≠ .again pause) → ¬Goes servers name value rounds n := by
      rintro _ rfl other ⟨pause, again⟩
      exact other pause again
    rcases nextStep_cases (lookAt servers name value rounds n) (rounds n).elapsed with
      ⟨seen, step⟩ | ⟨seen, late, step⟩ | ⟨seen, late, step⟩ | ⟨early, step⟩
    · exact ⟨n, _, round _ step, short, before, stays step (by simp), Or.inl ⟨seen, rfl⟩⟩
    · exact ⟨n, _, round _ step, short, before, stays step (by simp),
        Or.inr (Or.inl ⟨seen, late, rfl⟩)⟩
    · exact ⟨n, _, round _ step, short, before, stays step (by simp),
        Or.inr (Or.inr ⟨seen, late, rfl⟩)⟩
    · have goes : Goes servers name value rounds n := ⟨_, step⟩
      obtain ⟨paced, short⟩ := elapsed_succ ticks paced goes
      rw [round _ step]
      refine ih (n + 1) (by omega) paced short fun i le => ?_
      rcases Nat.lt_succ_iff_lt_or_eq.mp le with lt | rfl
      · exact before i lt
      · exact goes

theorem pauses_of_goes {n : Nat} (goes : ∀ i < n, Goes servers name value rounds i) :
    ∀ i < n, ∃ pause, stepAt servers name value rounds i = .again pause ∧ 0 < pause ∧
      (rounds i).elapsed + pause ≤ deadline (lookAt servers name value rounds i) := by
  intro i lt
  obtain ⟨pause, again⟩ := goes i lt
  refine ⟨pause, again, ?_⟩
  rcases nextStep_cases (lookAt servers name value rounds i) (rounds i).elapsed with
    ⟨_, step⟩ | ⟨_, _, step⟩ | ⟨_, _, step⟩ | ⟨early, step⟩
  · cases again.symm.trans step
  · cases again.symm.trans step
  · cases again.symm.trans step
  · cases again.symm.trans step
    have interval : pollInterval = 2000000000 := rfl
    rw [interval]
    omega

theorem not_goes_of_blind {n : Nat} (seen : lookAt servers name value rounds n = .unobservable)
    (late : blindAfter ≤ (rounds n).elapsed) : ¬Goes servers name value rounds n := by
  rintro ⟨pause, again⟩
  rw [stepAt, seen, nextStep, if_pos late] at again
  cases again

/-- While the loop goes on a record is missing or nobody answers. -/
theorem look_of_goes {n : Nat} (goes : Goes servers name value rounds n) :
    lookAt servers name value rounds n = .missing ∨
      lookAt servers name value rounds n = .unobservable := by
  obtain ⟨pause, again⟩ := goes
  rw [stepAt] at again
  cases seen : lookAt servers name value rounds n with
  | served =>
    rw [seen] at again
    cases again
  | missing => exact Or.inl rfl
  | unobservable => exact Or.inr rfl

/-- Sight is lost in the round the wait ends in, if at all. -/
theorem losesSight_iff {n : Nat} (goes : ∀ i < n, Goes servers name value rounds i)
    (ends : ¬Goes servers name value rounds n) :
    LosesSight servers name value rounds ↔
      (∃ i < n, lookAt servers name value rounds i = .missing) ∧
        lookAt servers name value rounds n = .unobservable ∧ blindAfter ≤ (rounds n).elapsed := by
  constructor
  · rintro ⟨i, j, lt, missing, seen, late, goes'⟩
    have reached : ¬n < j := fun beyond => ends (goes' n beyond)
    have last : ¬j < n := fun before => not_goes_of_blind seen late (goes j before)
    obtain rfl : j = n := by omega
    exact ⟨⟨i, lt, missing⟩, seen, late⟩
  · rintro ⟨⟨i, lt, missing⟩, seen, late⟩
    exact ⟨i, n, lt, missing, seen, late, goes⟩

/-- If no record was found missing, nobody ever answered. -/
theorem silent_iff {n : Nat} (goes : ∀ i < n, Goes servers name value rounds i)
    (seen : lookAt servers name value rounds n = .unobservable) :
    (∀ i ≤ n, ∀ a ∈ answersAt servers name value rounds i, a = .silent) ↔
      ¬∃ i < n, lookAt servers name value rounds i = .missing := by
  constructor
  · rintro silent ⟨i, lt, missing⟩
    have unobservable : lookAt servers name value rounds i = .unobservable :=
      look_eq_unobservable.mpr (silent i (Nat.le_of_lt lt))
    rw [missing] at unobservable
    cases unobservable
  · intro none i le
    refine look_eq_unobservable.mp ?_
    rcases Nat.lt_or_eq_of_le le with lt | rfl
    · rcases look_of_goes (goes i lt) with missing | unobservable
      · exact absurd ⟨i, lt, missing⟩ none
      · exact unobservable
    · exact seen

/-- The wait ends after at most 31 looks, and as it should, exactly if it does not lose sight
of a record it has seen missing. -/
theorem wait_right_iff {query : List UInt8} {fuel : Nat} (asked : txtQuery 0 name = .ok query)
    (asks : servers ≠ []) (ticks : Ticks servers name value rounds) (enough : 30 < fuel) :
    ∃ n ending, wait servers name value rounds fuel = some (n, ending) ∧ n ≤ 30 ∧
      (Right servers name value rounds n ending ↔ ¬LosesSight servers name value rounds) := by
  obtain ⟨n, ending, ends, short, goes, finished, how⟩ :=
    wait_ends ticks fuel 0 (by omega) (by omega) (by omega)
      (fun i lt => absurd lt (Nat.not_lt_zero i))
  refine ⟨n, ending, ?_, short, ?_⟩
  · rw [wait, asked]
    simp only [if_neg asks]
    exact ends
  have pauses := pauses_of_goes goes
  have answered : lookAt servers name value rounds n = .served ↔ _ := look_eq_served
  rw [losesSight_iff goes finished]
  rcases how with ⟨seen, rfl⟩ | ⟨seen, late, rfl⟩ | ⟨seen, late, rfl⟩
  · refine iff_of_true ⟨?_, ?_, ?_, pauses⟩ ?_
    · exact iff_of_true ⟨_, rfl⟩ (answered.mp seen)
    · rintro _ _ ⟨⟩
    · rintro _ ⟨⟩
    · simp [seen]
  · rw [and_iff_left ⟨seen, late⟩, ← silent_iff goes seen]
    constructor
    · intro right
      exact (right.blind _ rfl).1
    · intro silent
      refine ⟨?_, ?_, fun _ _ => ⟨silent, late⟩, pauses⟩
      · rw [seen] at answered
        exact iff_of_false (by rintro ⟨_, ⟨⟩⟩) (mt answered.mpr (by rintro ⟨⟩))
      · rintro _ _ ⟨⟩
  · refine iff_of_true ⟨?_, fun _ _ _ => ⟨seen, late⟩, ?_, pauses⟩ ?_
    · rw [seen] at answered
      exact iff_of_false (by rintro ⟨_, ⟨⟩⟩) (mt answered.mpr (by rintro ⟨⟩))
    · rintro _ ⟨⟩
    · simp [seen]

end

theorem pause_le (look : Look) (elapsed : Nat) : (nextStep look elapsed).pause ≤ settle := by
  have interval : pollInterval ≤ settle := by decide
  rcases nextStep_cases look elapsed with ⟨_, step⟩ | ⟨_, _, step⟩ | ⟨_, _, step⟩ | ⟨_, step⟩
  · exact step ▸ Nat.le_refl _
  · exact step ▸ Nat.le_refl _
  · exact step ▸ Nat.zero_le _
  · exact step ▸ (Nat.min_le_left _ _).trans interval

/-- A round every ten seconds. -/
def slowRounds (query : Nat → String → Except ProbeError Reply) (n : Nat) : Round :=
  ⟨fun server _ => query n server, 10000000000 * n, 10000000000 * (n + 1)⟩

theorem slowRounds_ticks (servers : List String) (name value : String)
    (query : Nat → String → Except ProbeError Reply) :
    Ticks servers name value (slowRounds query) := by
  intro n
  have pause := pause_le (lookAt servers name value (slowRounds query) n)
    (slowRounds query n).elapsed
  have five : settle = 5000000000 := rfl
  refine ⟨?_, Nat.le_refl _⟩
  rw [five] at pause
  simp only [stepAt, slowRounds] at pause ⊢
  omega

/-- One server cannot be reached, one has the record from the second look on, one has it at once. -/
def mixedRounds : Nat → Round :=
  slowRounds fun n server =>
    if server = "a" then .error (.unreachable "timed out")
    else if server = "b" ∧ n = 0 then .ok ⟨0, false, []⟩
    else .ok ⟨0, false, ["v"]⟩

theorem wait_right_iff_sample :
    let ending : Except ProbeError Outcome := .ok (.served 20000000000)
    wait ["a", "b", "c"] "a.b" "v" mixedRounds 31 = some (1, ending) ∧
      lookAt ["a", "b", "c"] "a.b" "v" mixedRounds 0 = .missing ∧
      Right ["a", "b", "c"] "a.b" "v" mixedRounds 1 ending := by
  intro ending
  have waited : wait ["a", "b", "c"] "a.b" "v" mixedRounds 31 = some (1, ending) := rfl
  obtain ⟨n, found, ends, _, right⟩ := @wait_right_iff ["a", "b", "c"] "a.b" "v" mixedRounds _ 31
    rfl (by decide) (slowRounds_ticks _ _ _ _) (by decide)
  cases waited.symm.trans ends
  refine ⟨waited, by decide, right.mpr ?_⟩
  rintro ⟨i, j, _, _, silent, _⟩
  by_cases first : j = 0
  · subst first
    revert silent
    decide
  · have answers : answersAt ["a", "b", "c"] "a.b" "v" mixedRounds j =
        [.silent, .serving, .serving] := by
      simp [answersAt, Round.answers, Round.ask, mixedRounds, slowRounds, first,
        readReply, Reply.answered, Reply.holds, rcodeOk]
    rw [lookAt, answers] at silent
    revert silent
    decide

/-- One answer without the value, then none from any of four servers. -/
def lostRounds : Nat → Round :=
  slowRounds fun n _ => if n = 0 then .ok ⟨0, false, []⟩ else .error (.unreachable "timed out")

/-- The record was seen missing, and the wait ends as if nobody had answered. -/
theorem wait_goes_on_blind :
    Ticks ["a", "b", "c", "d"] "a.b" "v" lostRounds ∧
      ¬∀ n ending, wait ["a", "b", "c", "d"] "a.b" "v" lostRounds 31 = some (n, ending) →
        Right ["a", "b", "c", "d"] "a.b" "v" lostRounds n ending := by
  refine ⟨slowRounds_ticks _ _ _ _, fun all => ?_⟩
  have right := all 1 (.ok (.blind 20000000000)) rfl
  have first : Answer.notYet ∈ answersAt ["a", "b", "c", "d"] "a.b" "v" lostRounds 0 := by decide
  cases (right.blind _ rfl).1 0 (by decide) _ first

end DnsProbe
