import Anago.Programs

/-!
# What a program ends with

A program comes to an end with a value or with an error, and leaves a state either way.
`Meets` speaks of both ends: what a rollback undoes is what is known after a failure.
-/

universe u v w

namespace Program

variable {σ : Type u} {ε δ : Type v} {α β : Type w}

/-- One step whose answer and effect come from the state before it. -/
def primitive (f : σ → Outcome ε α × σ) : Program σ ε α :=
  atomic (fun s => (f s).2) fun s => ret (f s).1

def mapErr (f : ε → δ) : Program σ ε α → Program σ δ α
  | ret x => ret (x.mapErr f)
  | atomic effect next => atomic effect fun s => (next s).mapErr f

/-- The program, and then what its value or its error calls for. -/
def settle (well : α → Program σ δ β) (badly : ε → Program σ δ β) : Program σ ε α → Program σ δ β
  | ret (.ok a) => well a
  | ret (.err e) => badly e
  | ret .panic => ret .panic
  | ret .spin => ret .spin
  | atomic effect next => atomic effect fun s => (next s).settle well badly

/-- `let _ =`: the program, however it ends. -/
def discard (p : Program σ ε α) : Program σ δ PUnit.{w + 1} :=
  p.settle (fun _ => ret (.ok ⟨⟩)) fun _ => ret (.ok ⟨⟩)

/-- The program and, when it fails, a clean-up that changes nothing about the failure. -/
def onErr (p : Program σ ε α) (cleanup : Program σ δ β) : Program σ ε α :=
  p.settle (fun a => ret (.ok a)) fun e =>
    cleanup.settle (fun _ => ret (.err e)) fun _ => ret (.err e)

/-- The program and, however it ends, a clean-up that changes nothing about the end. -/
def lastly (p : Program σ ε α) (cleanup : Program σ δ β) : Program σ ε α :=
  p.settle (fun a => cleanup.settle (fun _ => ret (.ok a)) fun _ => ret (.ok a))
    fun e => cleanup.settle (fun _ => ret (.err e)) fun _ => ret (.err e)

/-- The end is a value and a state in `Q`, or an error and a state in `E`. -/
inductive Ends (Q : α → σ → Prop) (E : ε → σ → Prop) : Outcome ε α × σ → Prop
  | ok {a : α} {s : σ} : Q a s → Ends Q E (.ok a, s)
  | err {e : ε} {s : σ} : E e s → Ends Q E (.err e, s)

/-- From every state in `P` the program ends as said. -/
def Meets (P : σ → Prop) (p : Program σ ε α) (Q : α → σ → Prop) (E : ε → σ → Prop) : Prop :=
  ∀ s, P s → Ends Q E (p.exec s)

section
variable {P P' : σ → Prop} {Q : α → σ → Prop} {E : ε → σ → Prop}

theorem exec_settle (well : α → Program σ δ β) (badly : ε → Program σ δ β)
    (p : Program σ ε α) (s : σ) :
    (p.settle well badly).exec s =
      match p.exec s with
      | (.ok a, t) => (well a).exec t
      | (.err e, t) => (badly e).exec t
      | (.panic, t) => (.panic, t)
      | (.spin, t) => (.spin, t) := by
  induction p generalizing s with
  | ret x => cases x <;> rfl
  | atomic effect next ih => exact ih s (effect s)

theorem exec_mapErr (f : ε → δ) (p : Program σ ε α) (s : σ) :
    (p.mapErr f).exec s = ((p.exec s).1.mapErr f, (p.exec s).2) := by
  induction p generalizing s with
  | ret x => rfl
  | atomic effect next ih => exact ih s (effect s)

theorem Meets.value {a : α} (h : ∀ s, P s → Q a s) : Meets P (ret (.ok a)) Q E :=
  fun s hs => .ok (h s hs)

theorem Meets.error {e : ε} (h : ∀ s, P s → E e s) :
    Meets P (ret (.err e)) Q E :=
  fun s hs => .err (h s hs)

theorem Meets.primitive {f : σ → Outcome ε α × σ} (h : ∀ s, P s → Ends Q E (f s)) :
    Meets P (primitive f) Q E :=
  fun s hs => h s hs

theorem Meets.look {f : σ → Outcome ε α} (h : ∀ s, P s → Ends Q E (f s, s)) :
    Meets P (look f) Q E :=
  fun s hs => h s hs

/-- The rest of a program starts from what its first part came to. -/
theorem Meets.bind {p : Program σ ε α} {f : α → Program σ ε β} {M : α → σ → Prop}
    {Q : β → σ → Prop} (first : Meets P p M E)
    (rest : ∀ a, Meets (M a) (f a) Q E) : Meets P (p >>= f) Q E := by
  intro s hs
  rw [exec_bind]
  have ends := first s hs
  revert ends
  generalize p.exec s = r
  rintro (h | h)
  · exact rest _ _ h
  · exact .err h

/-- The rule of consequence. -/
theorem Meets.mono {p : Program σ ε α} {Q' : α → σ → Prop} {E' : ε → σ → Prop}
    (h : Meets P p Q E) (before : ∀ s, P' s → P s) (well : ∀ a s, Q a s → Q' a s)
    (badly : ∀ e s, E e s → E' e s) : Meets P' p Q' E' := by
  intro s hs
  have ends := h s (before s hs)
  revert ends
  generalize p.exec s = r
  rintro (h | h)
  · exact .ok (well _ _ h)
  · exact .err (badly _ _ h)

theorem Meets.mapErr {p : Program σ ε α} {f : ε → δ} {E : δ → σ → Prop}
    (h : Meets P p Q fun e => E (f e)) : Meets P (p.mapErr f) Q E := by
  intro s hs
  rw [exec_mapErr]
  have ends := h s hs
  revert ends
  generalize p.exec s = r
  rintro (h | h)
  · exact .ok h
  · exact .err h

/-- What is done about a failure starts from where it left the state. -/
theorem Meets.settle {p : Program σ ε α} {well : α → Program σ δ β} {badly : ε → Program σ δ β}
    {Q' : β → σ → Prop} {E' : δ → σ → Prop} (h : Meets P p Q E)
    (hwell : ∀ a, Meets (Q a) (well a) Q' E') (hbadly : ∀ e, Meets (E e) (badly e) Q' E') :
    Meets P (p.settle well badly) Q' E' := by
  intro s hs
  rw [exec_settle]
  have ends := h s hs
  revert ends
  generalize p.exec s = r
  rintro (h | h)
  · exact hwell _ _ h
  · exact hbadly _ _ h

theorem Meets.discard {p : Program σ ε α} {R : σ → Prop} {E : δ → σ → Prop}
    (h : Meets P p (fun _ => R) fun _ => R) : Meets P (p.discard) (fun _ => R) E :=
  Meets.settle h (fun _ => Meets.value fun _ h => h) fun _ => Meets.value fun _ h => h

/-- The clean-up starts from where the failure left the state. -/
theorem Meets.onErr {p : Program σ ε α} {cleanup : Program σ δ β} {M : ε → σ → Prop}
    (h : Meets P p Q M) (after : ∀ e, Meets (M e) cleanup (fun _ => E e) fun _ => E e) :
    Meets P (p.onErr cleanup) Q E :=
  Meets.settle h (fun _ => Meets.value fun _ h => h) fun e =>
    Meets.settle (after e) (fun _ => Meets.error fun _ h => h) fun _ => Meets.error fun _ h => h

theorem Meets.lastly {p : Program σ ε α} {cleanup : Program σ δ β} {L : α → σ → Prop}
    {M : ε → σ → Prop} (h : Meets P p L M)
    (well : ∀ a, Meets (L a) cleanup (fun _ => Q a) fun _ => Q a)
    (badly : ∀ e, Meets (M e) cleanup (fun _ => E e) fun _ => E e) :
    Meets P (p.lastly cleanup) Q E :=
  Meets.settle h
    (fun a => Meets.settle (well a) (fun _ => Meets.value fun _ h => h) fun _ =>
      Meets.value fun _ h => h)
    fun e => Meets.settle (badly e) (fun _ => Meets.error fun _ h => h) fun _ =>
      Meets.error fun _ h => h

/-- From each state of its own. -/
theorem Meets.each {p : Program σ ε α} (h : ∀ s, P s → Meets (fun t => t = s) p Q E) :
    Meets P p Q E :=
  fun s hs => h s hs s rfl

/-- What is known whatever the state is. -/
theorem Meets.given {p : Program σ ε α} {fact : Prop} (h : fact → Meets P p Q E) :
    Meets (fun s => fact ∧ P s) p Q E :=
  fun s hs => h hs.1 s hs.2

end

end Program
