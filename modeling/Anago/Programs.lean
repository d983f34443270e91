import Anago.Outcome
import Anago.Interleaving

/-!
# Programs of atomic steps

A program is a tree of atomic steps over a shared state. It is run alone with `exec`, or
step by step among others with `act`; what is left of it, run alone from where it stands,
gives what all of it would have given (`exec_act`).
-/

universe u v w x

inductive Program (σ : Type u) (ε : Type v) (α : Type w) where
  | ret (result : Outcome ε α)
  /-- One step: the effect, and what the rest makes of the state before it. -/
  | atomic (effect : σ → σ) (next : σ → Program σ ε α)

namespace Program

variable {σ : Type u} {ε : Type v} {α β : Type w}

def bind : Program σ ε α → (α → Program σ ε β) → Program σ ε β
  | ret (.ok a), f => f a
  | ret (.err e), _ => ret (.err e)
  | ret .panic, _ => ret .panic
  | ret .spin, _ => ret .spin
  | atomic effect next, f => atomic effect fun s => (next s).bind f

instance : Monad (Program σ ε) where
  pure a := ret (.ok a)
  bind := bind

/-- One step that only reads. -/
def look (f : σ → Outcome ε α) : Program σ ε α := atomic id fun s => ret (f s)

/-- One step that has its effect, unless it fails. -/
def alter (failure : Option ε) (effect : σ → σ) : Program σ ε PUnit.{w + 1} :=
  match failure with
  | some e => atomic id fun _ => ret (.err e)
  | none => atomic effect fun _ => ret (.ok ⟨⟩)

/-- The program and, however it ends, one more step. -/
def ensuring (after : σ → σ) : Program σ ε α → Program σ ε α
  | ret x => atomic after fun _ => ret x
  | atomic effect next => atomic effect fun s => (next s).ensuring after

/-- All of a program, with nothing in between. -/
def exec : Program σ ε α → σ → Outcome ε α × σ
  | ret x, s => (x, s)
  | atomic effect next, s => (next s).exec (effect s)

/-- One step of a process that runs the program. -/
def act {ι : Type x} (_ : ι) (p : Program σ ε α) (_ : Unit) (s : σ) : σ × Program σ ε α :=
  match p with
  | ret x => (s, ret x)
  | atomic effect next => (effect s, next s)

/-- What a run leaves that is stopped after `n` of its steps. -/
def stopped : Nat → Program σ ε α → σ → σ
  | n + 1, atomic effect next, s => (next s).stopped n (effect s)
  | _, _, s => s

/-- The state is in `Inv` at the start and after every step. -/
def Stays (Inv : σ → Prop) : Program σ ε α → σ → Prop
  | ret _, s => Inv s
  | atomic effect next, s => Inv s ∧ (next s).Stays Inv (effect s)

@[simp] theorem ret_ok_bind (a : α) (f : α → Program σ ε β) : (ret (.ok a) >>= f) = f a := rfl

/-- The rest of a program starts where the first part ended. -/
theorem exec_bind (p : Program σ ε α) (f : α → Program σ ε β) (s : σ) :
    (p >>= f).exec s = (ret (p.exec s).1 >>= f).exec (p.exec s).2 := by
  induction p generalizing s with
  | ret x => rfl
  | atomic effect next ih => exact ih s (effect s)

theorem exec_look_bind (f : σ → Outcome ε α) (g : α → Program σ ε β) (s : σ) :
    (look f >>= g).exec s = (ret (f s) >>= g).exec s := rfl

theorem exec_ensuring (after : σ → σ) (p : Program σ ε α) (s : σ) :
    (p.ensuring after).exec s = ((p.exec s).1, after (p.exec s).2) := by
  induction p generalizing s with
  | ret x => rfl
  | atomic effect next ih => exact ih s (effect s)

/-- One step first and the rest alone is all of it alone. -/
theorem exec_act {ι : Type x} (i : ι) (p : Program σ ε α) (s : σ) :
    (p.act i () s).2.exec (p.act i () s).1 = p.exec s := by
  cases p <;> rfl

section Stays

variable {Inv : σ → Prop}

theorem Stays.stopped {p : Program σ ε α} {s : σ} (h : p.Stays Inv s) (n : Nat) :
    Inv (p.stopped n s) := by
  induction n generalizing p s with
  | zero =>
    cases p with
    | ret x => exact h
    | atomic effect next => exact h.1
  | succ n ih =>
    cases p with
    | ret x => exact h
    | atomic effect next => exact ih h.2

theorem Stays.exec {p : Program σ ε α} {s : σ} (h : p.Stays Inv s) : Inv (p.exec s).2 := by
  induction p generalizing s with
  | ret x => exact h
  | atomic effect next ih => exact ih s h.2

theorem Stays.bind {p : Program σ ε α} {f : α → Program σ ε β} {s : σ} (h : p.Stays Inv s)
    (rest : ∀ a, (p.exec s).1 = .ok a → (f a).Stays Inv (p.exec s).2) : (p >>= f).Stays Inv s := by
  induction p generalizing s with
  | ret x =>
    cases x with
    | ok a => exact rest a rfl
    | err e => exact h
    | panic => exact h
    | spin => exact h
  | atomic effect next ih => exact ⟨h.1, ih s h.2 rest⟩

theorem Stays.look_bind {f : σ → Outcome ε α} {g : α → Program σ ε β} {s : σ} (h : Inv s)
    (rest : ∀ a, f s = .ok a → (g a).Stays Inv s) : (look f >>= g).Stays Inv s :=
  Stays.bind ⟨h, h⟩ rest

theorem Stays.alter (failure : Option ε) (effect : σ → σ) {s : σ} (h : Inv s)
    (kept : failure = none → Inv (effect s)) : (Program.alter failure effect).Stays Inv s := by
  cases failure with
  | some e => exact ⟨h, h⟩
  | none => exact ⟨h, kept rfl⟩

theorem Stays.ensuring {p : Program σ ε α} (after : σ → σ) {s : σ} (h : p.Stays Inv s)
    (kept : ∀ t, Inv t → Inv (after t)) : (p.ensuring after).Stays Inv s := by
  induction p generalizing s with
  | ret x => exact ⟨h, kept s h⟩
  | atomic effect next ih => exact ⟨h.1, ih s h.2⟩

end Stays

/-- A process on its own comes to its last step, and that gives what its program alone gives. -/
theorem run_alone {ι : Type x} [DecidableEq ι] (i : ι)
    (world : Interleaving.World σ ι (Program σ ε α)) (running : ∀ y, world.locals i ≠ ret y) :
    ∃ n, let last := Interleaving.run act world (List.replicate n (i, ()))
      (∀ y, last.locals i ≠ ret y) ∧ (∀ j, j ≠ i → last.locals j = world.locals j) ∧
        (last.locals i).act i () last.shared =
          (((world.locals i).exec world.shared).2, ret ((world.locals i).exec world.shared).1) := by
  cases hp : world.locals i with
  | ret y => exact absurd hp (running y)
  | atomic effect next =>
    induction hnext : next world.shared generalizing world effect next with
    | ret y =>
      refine ⟨0, running, fun _ _ => rfl, ?_⟩
      rw [List.replicate_zero, Interleaving.run, Runs.run_nil, hp, act, exec, hnext]
      rfl
    | atomic effect' next' ih =>
      have own : (Interleaving.step act world (i, ())).locals i = atomic effect' next' := by
        rw [Interleaving.step_own, hp, act, hnext]
      have shared : (Interleaving.step act world (i, ())).shared = effect world.shared := by
        rw [Interleaving.step_shared, hp, act]
      obtain ⟨n, last, others, ends⟩ := ih _ (Interleaving.step act world (i, ()))
        (fun y hy => by rw [own] at hy; cases hy) effect' next' own rfl
      refine ⟨n + 1, last,
        fun j hj => (others j hj).trans (Interleaving.step_other act world (i, ()) hj), ?_⟩
      rw [shared] at ends
      rw [exec, hnext]
      exact ends

end Program
