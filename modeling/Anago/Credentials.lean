import Mathlib.Logic.Function.Basic
import Anago.Runs

/-!
# Who a credential speaks for

A credential is enrolled for a holder and dies when that holder is retired, for good:
the holder may come back under another credential, the credential does not come back.
-/

universe u v

namespace Credentials

inductive Change (τ : Type u) (ν : Type v) where
  | enroll (token : τ) (holder : ν)
  | retire (holder : ν)
  deriving DecidableEq

variable {τ : Type u} {ν : Type v} [DecidableEq τ] [DecidableEq ν]

/-- The table of who each credential speaks for, after one change. -/
def apply (who : τ → Option ν) : Change τ ν → τ → Option ν
  | .enroll token holder => Function.update who token (some holder)
  | .retire holder => fun token => if who token = some holder then none else who token

def replay (who : τ → Option ν) (changes : List (Change τ ν)) : τ → Option ν :=
  Runs.run apply who changes

theorem replay_append (who : τ → Option ν) (changes changes' : List (Change τ ν)) :
    replay who (changes ++ changes') = replay (replay who changes) changes' :=
  Runs.run_append apply who changes changes'

theorem apply_retire (who : τ → Option ν) (holder : ν) (token : τ) :
    apply who (.retire holder) token =
      if who token = some holder then none else who token := rfl

@[simp] theorem apply_enroll_self (who : τ → Option ν) (token : τ) (holder : ν) :
    apply who (.enroll token holder) token = some holder := by
  rw [apply, Function.update_self]

theorem apply_enroll_of_ne {who : τ → Option ν} {token other : τ} (holder : ν)
    (h : other ≠ token) : apply who (.enroll token holder) other = who other := by
  rw [apply, Function.update_of_ne h]

theorem apply_other {who : τ → Option ν} {change : Change τ ν} {token : τ}
    (other : ∀ holder, change ≠ .enroll token holder) (h : who token = none) :
    apply who change token = none := by
  cases change with
  | enroll token' holder =>
    have hne : token ≠ token' := by
      rintro rfl
      exact other holder rfl
    rw [apply_enroll_of_ne holder hne, h]
  | retire holder =>
    rw [apply_retire, h]
    exact if_neg (fun h => nomatch h)

/-- A credential nobody enrolled speaks for nobody. -/
theorem replay_none {who : τ → Option ν} {token : τ} {changes : List (Change τ ν)}
    (never : ∀ holder, .enroll token holder ∉ changes) (h : who token = none) :
    replay who changes token = none := by
  induction changes generalizing who with
  | nil => exact h
  | cons change changes ih =>
    refine ih (fun holder hm => never holder (List.mem_cons_of_mem _ hm)) (apply_other ?_ h)
    rintro holder rfl
    exact never holder List.mem_cons_self

/-- A credential speaks for its holder until the holder is retired, and for nobody
from then on. -/
theorem replay_some {who : τ → Option ν} {token : τ} {holder : ν}
    {changes : List (Change τ ν)} (once : ∀ other, .enroll token other ∉ changes)
    (h : who token = some holder) :
    replay who changes token = if .retire holder ∈ changes then none else some holder := by
  induction changes generalizing who with
  | nil => exact h
  | cons change changes ih =>
    have rest : ∀ other, .enroll token other ∉ changes :=
      fun other hm => once other (List.mem_cons_of_mem _ hm)
    by_cases hnow : change = .retire holder
    · have gone : apply who change token = none := by
        rw [hnow, apply_retire, if_pos h]
      rw [if_pos (by rw [hnow]; exact List.mem_cons_self)]
      show replay (apply who change) changes token = none
      exact replay_none rest gone
    · have kept : apply who change token = some holder := by
        cases change with
        | enroll token' other =>
          have hne : token ≠ token' := by
            rintro rfl
            exact once other List.mem_cons_self
          rw [apply_enroll_of_ne other hne, h]
        | retire other =>
          have hne : who token ≠ some other := by
            rw [h]
            rintro heq
            cases heq
            exact hnow rfl
          rw [apply_retire, if_neg hne, h]
      have hmem : (.retire holder : Change τ ν) ∈ change :: changes ↔ .retire holder ∈ changes := by
        rw [List.mem_cons, or_iff_right (Ne.symm hnow)]
      rw [if_congr hmem rfl rfl]
      exact ih rest kept

end Credentials
