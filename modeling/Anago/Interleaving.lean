import Mathlib.Logic.Function.Basic
import Anago.Runs

/-!
# Processes over a shared state

Each process has a state of its own and all see one shared state. An event lets one
process take one atomic step. The order of the events is arbitrary, so what holds of
every list of events holds of every interleaving.

`run_keeps` is the rule the proofs use: a process keeps what it relies on by its own
steps, and the steps of the others do not disturb it. The history of what was noted so
far may be spoken of everywhere.
-/

universe u v w x y

namespace Interleaving

variable {σ : Type u} {ι : Type v} {κ : Type w} {β : Type x} {γ : Type y}

structure World (σ : Type u) (ι : Type v) (κ : Type w) where
  shared : σ
  locals : ι → κ

variable [DecidableEq ι] (act : ι → κ → β → σ → σ × κ) (note : ι → κ → β → σ → Option γ)

/-- One step of process `event.1` on the input `event.2`. -/
def step (world : World σ ι κ) (event : ι × β) : World σ ι κ :=
  let after := act event.1 (world.locals event.1) event.2 world.shared
  ⟨after.1, Function.update world.locals event.1 after.2⟩

/-- What is noted of a step. -/
def noted (world : World σ ι κ) (event : ι × β) : Option γ :=
  note event.1 (world.locals event.1) event.2 world.shared

abbrev run (world : World σ ι κ) (events : List (ι × β)) : World σ ι κ :=
  Runs.run (step act) world events

abbrev log (world : World σ ι κ) (events : List (ι × β)) : List γ :=
  Runs.log (step act) (noted note) world events

@[simp] theorem step_shared (world : World σ ι κ) (event : ι × β) :
    (step act world event).shared =
      (act event.1 (world.locals event.1) event.2 world.shared).1 := rfl

@[simp] theorem step_own (world : World σ ι κ) (event : ι × β) :
    (step act world event).locals event.1 =
      (act event.1 (world.locals event.1) event.2 world.shared).2 :=
  Function.update_self _ _ _

theorem step_other (world : World σ ι κ) (event : ι × β) {j : ι} (h : j ≠ event.1) :
    (step act world event).locals j = world.locals j :=
  Function.update_of_ne h _ _

variable {act note}

/-- An invariant of the shared state and a fact about each process, each kept by the
process whose step it is and undisturbed by the steps of the others. -/
theorem run_keeps {Inv : List γ → σ → Prop} {Fact : List γ → σ → ι → κ → Prop}
    (own : ∀ past s i l b, Inv past s → Fact past s i l →
      Inv (past ++ (note i l b s).toList) (act i l b s).1 ∧
        Fact (past ++ (note i l b s).toList) (act i l b s).1 i (act i l b s).2)
    (others : ∀ past s i l b j m, j ≠ i → Inv past s → Fact past s i l → Fact past s j m →
      Fact (past ++ (note i l b s).toList) (act i l b s).1 j m)
    {world : World σ ι κ} (inv : Inv [] world.shared)
    (fact : ∀ i, Fact [] world.shared i (world.locals i)) (events : List (ι × β)) :
    let past := log act note world events
    let final := run act world events
    Inv past final.shared ∧ ∀ i, Fact past final.shared i (final.locals i) := by
  have keep := @Runs.run_log _ _ _ (step act) (noted note)
    (fun past world => Inv past world.shared ∧ ∀ i, Fact past world.shared i (world.locals i))
    ?_ world [] ⟨inv, fact⟩ events
  · simpa using keep
  rintro past world ⟨i, b⟩ ⟨hinv, hfact⟩
  obtain ⟨hinv', hown⟩ := own past world.shared i (world.locals i) b hinv (hfact i)
  refine ⟨hinv', fun j => ?_⟩
  by_cases h : j = i
  · subst h
    rw [step_own]
    exact hown
  · rw [step_other act world (i, b) h]
    exact others past world.shared i (world.locals i) b j (world.locals j) h hinv
      (hfact i) (hfact j)

/-- The same along a run each of whose steps suits the world it is taken in, without a
history. -/
theorem along_keeps {Suits : World σ ι κ → ι × β → Prop} {Inv : σ → Prop} {Fact : σ → ι → κ → Prop}
    (own : ∀ world i b, Suits world (i, b) → Inv world.shared →
      Fact world.shared i (world.locals i) →
        let after := act i (world.locals i) b world.shared
        Inv after.1 ∧ Fact after.1 i after.2)
    (others : ∀ s i l b j m, j ≠ i → Inv s → Fact s i l → Fact s j m → Fact (act i l b s).1 j m)
    {world : World σ ι κ} (inv : Inv world.shared)
    (fact : ∀ i, Fact world.shared i (world.locals i)) {events : List (ι × β)}
    (along : Runs.Along (step act) Suits world events) :
    let final := run act world events
    Inv final.shared ∧ ∀ i, Fact final.shared i (final.locals i) := by
  refine @Runs.Along.keeps _ _ (step act)
    (fun world => Inv world.shared ∧ ∀ i, Fact world.shared i (world.locals i)) Suits ?_ world
    events along ⟨inv, fact⟩
  rintro world ⟨i, b⟩ suits ⟨hinv, hfact⟩
  obtain ⟨hinv', hown⟩ := own world i b suits hinv (hfact i)
  refine ⟨hinv', fun j => ?_⟩
  by_cases h : j = i
  · subst h
    rw [step_own]
    exact hown
  · rw [step_other act world (i, b) h]
    exact others world.shared i (world.locals i) b j (world.locals j) h hinv (hfact i) (hfact j)

/-- Two processes, told apart by a truth value. -/
def both (first second : κ) (i : Bool) : κ := if i then first else second

@[simp] theorem both_true (first second : κ) : both first second true = first := rfl

@[simp] theorem both_false (first second : κ) : both first second false = second := rfl

theorem step_both_true (act : Bool → κ → β → σ → σ × κ) (shared : σ) (first second : κ) (b : β) :
    step act ⟨shared, both first second⟩ (true, b) =
      ⟨(act true first b shared).1, both (act true first b shared).2 second⟩ := by
  rw [step]
  congr
  funext i
  cases i <;> simp

theorem step_both_false (act : Bool → κ → β → σ → σ × κ) (shared : σ) (first second : κ) (b : β) :
    step act ⟨shared, both first second⟩ (false, b) =
      ⟨(act false second b shared).1, both first (act false second b shared).2⟩ := by
  rw [step]
  congr
  funext i
  cases i <;> simp

end Interleaving
