/-!
# How a call can end

A Rust call returns `Ok`, returns `Err`, or panics; a loop modelled with fuel can
also be cut off. The four ends are kept apart, so that "never panics" and "always
terminates" are statements about the model and not about its reader.

`Sat` is the rule of consequence used for safety: no panic, no cut-off, and a
property of either answer. `UpTo` is the order in which a cut-off approximates any
other end, and is what lets a result be computed without counting fuel.
-/

universe u v w

inductive Outcome (ε : Type u) (α : Type v) where
  | ok (value : α)
  | err (error : ε)
  | panic
  | spin
  deriving DecidableEq, Repr

namespace Outcome

variable {ε : Type u} {α β γ : Type v}

def bind (x : Outcome ε α) (f : α → Outcome ε β) : Outcome ε β :=
  match x with
  | ok a => f a
  | err e => err e
  | panic => panic
  | spin => spin

instance : Monad (Outcome ε) where
  pure := ok
  bind := bind

/-- `?` on a call that cannot panic. -/
def ofExcept : Except ε α → Outcome ε α
  | .ok a => ok a
  | .error e => err e

theorem ofExcept_eq_ok {x : Except ε α} {a : α} : ofExcept x = ok a ↔ x = .ok a := by
  cases x with
  | error e => exact ⟨fun h => (by cases h), fun h => (by cases h)⟩
  | ok b => exact ⟨fun h => congrArg Except.ok (ok.inj h), fun h => congrArg ok (Except.ok.inj h)⟩

theorem mapError_eq_ok {δ : Type u} {f : ε → δ} {x : Except ε α} {a : α}
    (h : x.mapError f = .ok a) : x = .ok a := by
  cases x with
  | error e => cases h
  | ok b => exact congrArg Except.ok (Except.ok.inj h)

def mapErr {δ : Type w} (f : ε → δ) : Outcome ε α → Outcome δ α
  | ok a => ok a
  | err e => err (f e)
  | panic => panic
  | spin => spin

theorem mapErr_eq_ok {δ : Type w} {f : ε → δ} {x : Outcome ε α} {a : α} (h : x.mapErr f = ok a) :
    x = ok a := by
  cases x with
  | ok b => exact congrArg ok (ok.inj h)
  | err e => cases h
  | panic => cases h
  | spin => cases h

@[simp] theorem ok_bind (a : α) (f : α → Outcome ε β) : (ok a >>= f) = f a := rfl

@[simp] theorem err_bind (e : ε) (f : α → Outcome ε β) :
    ((err e : Outcome ε α) >>= f) = err e := rfl

@[simp] theorem panic_bind (f : α → Outcome ε β) :
    ((panic : Outcome ε α) >>= f) = panic := rfl

@[simp] theorem spin_bind (f : α → Outcome ε β) :
    ((spin : Outcome ε α) >>= f) = spin := rfl

@[simp] theorem pure_eq_ok (a : α) : (pure a : Outcome ε α) = ok a := rfl

theorem bind_eq_ok {x : Outcome ε α} {f : α → Outcome ε β} {b : β}
    (h : (x >>= f) = ok b) : ∃ a, x = ok a ∧ f a = ok b := by
  cases x with
  | ok a => exact ⟨a, rfl, h⟩
  | err e => cases h
  | panic => cases h
  | spin => cases h

def isOk : Outcome ε α → Bool
  | ok _ => true
  | _ => false

/-- The call neither panics nor is cut off, and its answer satisfies the
condition of its kind. -/
def Sat (x : Outcome ε α) (good : α → Prop) (bad : ε → Prop) : Prop :=
  match x with
  | ok a => good a
  | err e => bad e
  | panic => False
  | spin => False

@[simp] theorem sat_ok {good : α → Prop} {bad : ε → Prop} (a : α) :
    Sat (ok a) good bad ↔ good a := Iff.rfl

@[simp] theorem sat_err {good : α → Prop} {bad : ε → Prop} (e : ε) :
    Sat (err e : Outcome ε α) good bad ↔ bad e := Iff.rfl

theorem Sat.bind {x : Outcome ε α} {f : α → Outcome ε β} {good : α → Prop}
    {good' : β → Prop} {bad : ε → Prop} (hx : Sat x good bad)
    (hf : ∀ a, good a → Sat (f a) good' bad) : Sat (x >>= f) good' bad := by
  cases x with
  | ok a => exact hf a hx
  | err e => exact hx
  | panic => exact hx.elim
  | spin => exact hx.elim

theorem Sat.mono {x : Outcome ε α} {good good' : α → Prop} {bad : ε → Prop}
    (hx : Sat x good bad) (h : ∀ a, good a → good' a) : Sat x good' bad := by
  cases x with
  | ok a => exact h a hx
  | err e => exact hx
  | panic => exact hx
  | spin => exact hx

theorem Sat.ok_or_err {x : Outcome ε α} {good : α → Prop} {bad : ε → Prop}
    (hx : Sat x good bad) : (∃ a, x = ok a) ∨ ∃ e, x = err e ∧ bad e := by
  cases x with
  | ok a => exact Or.inl ⟨a, rfl⟩
  | err e => exact Or.inr ⟨e, rfl, hx⟩
  | panic => exact hx.elim
  | spin => exact hx.elim

/-- A cut-off says nothing about what a longer run would have answered. -/
def UpTo (x : Outcome ε α) (good : Outcome ε α → Prop) : Prop :=
  x = spin ∨ good x

end Outcome
