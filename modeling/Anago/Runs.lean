import Mathlib.Data.List.Basic

/-!
# Runs of a deterministic machine

A machine is a step function; a run folds it over a list of operations, and a log keeps
what an observer notes down at each step. `run_keeps` is the rule for invariants of
states, `run_log` the rule for what relates a state to the log that led to it.
-/

universe u v w

namespace Runs

variable {σ : Type u} {ι : Type v} {β : Type w} (step : σ → ι → σ) (note : σ → ι → Option β)

def run (s : σ) (ops : List ι) : σ := ops.foldl step s

/-- What is noted along a run, in order. An operation is noted with the state it met. -/
def log : σ → List ι → List β
  | _, [] => []
  | s, op :: ops => (note s op).toList ++ log (step s op) ops

@[simp] theorem run_nil (s : σ) : run step s [] = s := rfl

@[simp] theorem run_cons (s : σ) (op : ι) (ops : List ι) :
    run step s (op :: ops) = run step (step s op) ops := rfl

@[simp] theorem run_append (s : σ) (ops ops' : List ι) :
    run step s (ops ++ ops') = run step (run step s ops) ops' := List.foldl_append

@[simp] theorem log_nil (s : σ) : log step note s [] = [] := rfl

@[simp] theorem log_cons (s : σ) (op : ι) (ops : List ι) :
    log step note s (op :: ops) = (note s op).toList ++ log step note (step s op) ops := rfl

/-- Every operation of a run is met in a state that suits it. -/
def Along (P : σ → ι → Prop) : σ → List ι → Prop
  | _, [] => True
  | s, op :: ops => P s op ∧ Along P (step s op) ops

theorem log_append (s : σ) (ops ops' : List ι) :
    log step note s (ops ++ ops') = log step note s ops ++ log step note (run step s ops) ops' := by
  induction ops generalizing s with
  | nil => rfl
  | cons op ops ih => simp [ih]

/-- A split of a list with one more element is at that element or before it. -/
theorem split_concat {l before after : List ι} {x last : ι}
    (h : l ++ [last] = before ++ x :: after) :
    (after = [] ∧ x = last ∧ before = l) ∨
      ∃ rest, after = rest ++ [last] ∧ l = before ++ x :: rest := by
  rcases List.eq_nil_or_concat after with rfl | ⟨rest, last', rfl⟩
  · have := List.append_inj' h rfl
    exact Or.inl ⟨rfl, (List.singleton_inj.mp this.2).symm, this.1.symm⟩
  · have h' : l ++ [last] = (before ++ x :: rest) ++ [last'] := by simpa using h
    have := List.append_inj' h' rfl
    exact Or.inr ⟨rest, by rw [List.singleton_inj.mp this.2, List.concat_eq_append], this.1⟩

variable {step note}

/-- What every operation keeps, a run keeps. -/
theorem run_keeps {Inv : σ → Prop} (keep : ∀ s op, Inv s → Inv (step s op)) {s : σ}
    (h : Inv s) (ops : List ι) : Inv (run step s ops) := by
  induction ops generalizing s with
  | nil => exact h
  | cons op ops ih => exact ih (keep s op h)

/-- What operations of a kind keep, a run keeps that meets each of them in a state of
that kind. -/
theorem run_keeps_of {Inv : σ → Prop} {Kind : σ → ι → Prop}
    (keep : ∀ s op, Kind s op → Inv s → Inv (step s op)) {s : σ} (h : Inv s) (ops : List ι)
    (kind : ∀ before op after, ops = before ++ op :: after → Kind (run step s before) op) :
    Inv (run step s ops) := by
  induction ops generalizing s with
  | nil => exact h
  | cons op ops ih =>
    refine ih (keep s op (kind [] op ops rfl) h) fun before op' after heq => ?_
    exact kind (op :: before) op' after (congrArg (op :: ·) heq)

theorem Along.before {P : σ → ι → Prop} {s : σ} {ops ops' : List ι}
    (h : Along step P s (ops ++ ops')) : Along step P s ops := by
  induction ops generalizing s with
  | nil => trivial
  | cons op ops ih => exact ⟨h.1, ih h.2⟩

theorem Along.append {P : σ → ι → Prop} {s : σ} {ops ops' : List ι} (h : Along step P s ops)
    (h' : Along step P (run step s ops) ops') : Along step P s (ops ++ ops') := by
  induction ops generalizing s with
  | nil => exact h'
  | cons op ops ih => exact ⟨h.1, ih h.2 h'⟩

theorem Along.mono {P Q : σ → ι → Prop} (weaker : ∀ s op, P s op → Q s op) {s : σ} {ops : List ι}
    (h : Along step P s ops) : Along step Q s ops := by
  induction ops generalizing s with
  | nil => trivial
  | cons op ops ih => exact ⟨weaker s op h.1, ih h.2⟩

/-- The operation at a place of such a run suits the state it meets there. -/
theorem Along.suits {P : σ → ι → Prop} {s : σ} {ops ops' : List ι} {op : ι}
    (h : Along step P s (ops ++ op :: ops')) : P (run step s ops) op := by
  induction ops generalizing s with
  | nil => exact h.1
  | cons _ ops ih => exact ih h.2

/-- What operations keep in states that suit them, such a run keeps. -/
theorem Along.keeps {Inv : σ → Prop} {P : σ → ι → Prop}
    (keep : ∀ s op, P s op → Inv s → Inv (step s op)) {s : σ} {ops : List ι}
    (along : Along step P s ops) (h : Inv s) : Inv (run step s ops) := by
  induction ops generalizing s with
  | nil => exact h
  | cons op ops ih => exact ih along.2 (keep s op along.1 h)

/-- What relates states to logs and is kept by every operation with its note, relates
the end of a run to its whole log. -/
theorem run_log {R : List β → σ → Prop}
    (keep : ∀ past s op, R past s → R (past ++ (note s op).toList) (step s op)) {s : σ}
    {past : List β} (h : R past s) (ops : List ι) :
    R (past ++ log step note s ops) (run step s ops) := by
  induction ops generalizing s past with
  | nil => simpa using h
  | cons op ops ih => simpa using ih (keep past s op h)

/-- The same along a run each of whose operations suits the state it meets. -/
theorem Along.log {R : List β → σ → Prop} {P : σ → ι → Prop}
    (keep : ∀ past s op, P s op → R past s → R (past ++ (note s op).toList) (step s op)) {s : σ}
    {past : List β} {ops : List ι} (along : Along step P s ops) (h : R past s) :
    R (past ++ Runs.log step note s ops) (run step s ops) := by
  induction ops generalizing s past with
  | nil => simpa using h
  | cons op ops ih => simpa using ih along.2 (keep past s op along.1 h)

/-- What is in a log was noted of some operation. -/
theorem exists_of_mem_log {s : σ} {ops : List ι} {b : β} (h : b ∈ log step note s ops) :
    ∃ before op after, ops = before ++ op :: after ∧ note (run step s before) op = some b := by
  induction ops generalizing s with
  | nil => cases h
  | cons op ops ih =>
    rw [log_cons] at h
    rcases List.mem_append.mp h with now | later
    · exact ⟨[], op, ops, rfl, by simpa using now⟩
    · obtain ⟨before, op', after, rfl, noted⟩ := ih later
      exact ⟨op :: before, op', after, rfl, noted⟩

/-- A relation that steps respect and that composes relates the ends of a run. -/
theorem run_relates {R : σ → σ → Prop} (refl : ∀ s, R s s)
    (trans : ∀ {a b c}, R a b → R b c → R a c) (steps : ∀ s op, R s (step s op)) (s : σ)
    (ops : List ι) : R s (run step s ops) := by
  induction ops generalizing s with
  | nil => exact refl s
  | cons op ops ih => exact trans (steps s op) (ih (step s op))

end Runs
