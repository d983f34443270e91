import Anago.Programs

/-!
# One lock

Every process runs a program that takes a lock, does what it does and gives the lock back;
outside of that it only reads. When what is left of a program at the lock is worth the
whole program there, the processes come out as if they had run one after the other, in
the order in which they got the lock.
-/

universe u v w x

open Interleaving Program

namespace CriticalSections

variable {σ : Type u} {ε : Type v} {α : Type w} {ι : Type x}

/-- The rest of a program that holds the lock: it ends when it gives the lock back. -/
def Inside (holder : σ → Option ι) (i : ι) : Program σ ε α → Prop
  | ret _ => False
  | atomic effect next => ∀ s, holder s = some i →
      (holder (effect s) = some i ∧ Inside holder i (next s)) ∨
        (holder (effect s) = none ∧ ∃ x, next s = ret x)

/-- The rest of a program that does not hold the lock: it reads, and it may take the lock
where it is free. Endings without the lock are `idle` ones. -/
def Outside (holder : σ → Option ι) (idle : Outcome ε α → Prop) (i : ι) : Program σ ε α → Prop
  | ret _ => True
  | atomic effect next => ∀ s,
      (effect s = s ∧ Outside holder idle i (next s) ∧ ∀ x, next s = ret x → idle x) ∨
        (holder s = none ∧ holder (effect s) = some i ∧ Inside holder i (next s))

/-- The rest of a program that holds the lock and does not give it back. -/
def Keeps (holder : σ → Option ι) (i : ι) {β : Type w} : Program σ ε β → Prop
  | ret _ => True
  | atomic effect next => ∀ s, holder s = some i →
      holder (effect s) = some i ∧ Keeps holder i (next s)

/-- The programs one after the other. -/
def serial (start : ι → Program σ ε α) (s : σ) (order : List ι) : σ :=
  order.foldl (fun s i => ((start i).exec s).2) s

theorem serial_concat (start : ι → Program σ ε α) (s : σ) (order : List ι) (i : ι) :
    serial start s (order ++ [i]) = ((start i).exec (serial start s order)).2 := by
  rw [serial, List.foldl_append]
  rfl

section
variable {holder : σ → Option ι} {i : ι} {β : Type w}

theorem Keeps.look (f : σ → Outcome ε β) : Keeps holder i (look f) := fun _ held => ⟨held, trivial⟩

theorem Keeps.alter {failure : Option ε} {effect : σ → σ}
    (keeps : ∀ s, holder s = some i → holder (effect s) = some i) :
    Keeps holder i (alter failure effect : Program σ ε PUnit.{w + 1}) := by
  cases failure with
  | none => exact fun s held => ⟨keeps s held, trivial⟩
  | some e => exact fun _ held => ⟨held, trivial⟩

theorem Keeps.bind {p : Program σ ε β} {f : β → Program σ ε α} (keeps : Keeps holder i p)
    (rest : ∀ b, Keeps holder i (f b)) : Keeps holder i (p >>= f) := by
  induction p with
  | ret x =>
    cases x with
    | ok b => exact rest b
    | err e => trivial
    | panic => trivial
    | spin => trivial
  | atomic effect next ih => exact fun s held => ⟨(keeps s held).1, ih s (keeps s held).2⟩

theorem Keeps.ensuring {p : Program σ ε β} {after : σ → σ} (keeps : Keeps holder i p)
    (last : ∀ s, holder s = some i → holder (after s) = some i) :
    Keeps holder i (p.ensuring after) := by
  induction p with
  | ret x => exact fun s held => ⟨last s held, trivial⟩
  | atomic effect next ih => exact fun s held => ⟨(keeps s held).1, ih s (keeps s held).2⟩

/-- A section that ends with giving the lock back. -/
theorem Inside.ensuring {p : Program σ ε α} {release : σ → σ} (keeps : Keeps holder i p)
    (free : ∀ s, holder (release s) = none) : Inside holder i (p.ensuring release) := by
  induction p with
  | ret x => exact fun s _ => Or.inr ⟨free s, x, rfl⟩
  | atomic effect next ih => exact fun s held => Or.inl ⟨(keeps s held).1, ih s (keeps s held).2⟩

/-- A read outside of the section. -/
theorem Outside.look {idle : Outcome ε α → Prop} {f : σ → Outcome ε β} {g : β → Program σ ε α}
    (rest : ∀ s, Outside holder idle i (ret (f s) >>= g))
    (hidle : ∀ s x, (ret (f s) >>= g) = ret x → idle x) :
    Outside holder idle i (look f >>= g) :=
  fun s => Or.inl ⟨rfl, rest s, hidle s⟩

end

variable [DecidableEq ι] (holder : σ → Option ι)

/-- The steps that take the lock. -/
def takes (i : ι) (p : Program σ ε α) (s : σ) : Prop :=
  holder s = none ∧ holder (p.act i () s).1 = some i

instance (i : ι) (p : Program σ ε α) (s : σ) : Decidable (takes holder i p s) :=
  inferInstanceAs (Decidable (_ ∧ _))

/-- Who takes the lock in a step. -/
def taken (i : ι) (p : Program σ ε α) (_ : Unit) (s : σ) : Option ι :=
  if takes holder i p s then some i else none

/-- A process that takes the lock is where it would be had it only started now. -/
def Fresh (start : ι → Program σ ε α) (world : World σ ι (Program σ ε α))
    (event : ι × Unit) : Prop :=
  takes holder event.1 (world.locals event.1) world.shared →
    (world.locals event.1).exec world.shared = (start event.1).exec world.shared

/-- The order in which the lock is got. -/
abbrev order (world : World σ ι (Program σ ε α)) (events : List (ι × Unit)) : List ι :=
  log act (taken holder) world events

/-- What holds between two steps. -/
structure Serial (idle : Outcome ε α → Prop) (start : ι → Program σ ε α) (s : σ) (past : List ι)
    (world : World σ ι (Program σ ε α)) : Prop where
  outside : ∀ j, holder world.shared ≠ some j → Outside holder idle j (world.locals j)
  free : holder world.shared = none → world.shared = serial start s past
  held : ∀ i, holder world.shared = some i → Inside holder i (world.locals i) ∧
    ∃ earlier, past = earlier ++ [i] ∧
      (world.locals i).exec world.shared = (start i).exec (serial start s earlier)

/-- The lock is got once, and given back at the end. -/
structure Once (past : List ι) (world : World σ ι (Program σ ε α)) : Prop where
  nodup : past.Nodup
  gone : ∀ j ∈ past, holder world.shared ≠ some j → ∃ x, world.locals j = ret x

variable {holder} {idle : Outcome ε α → Prop} {start : ι → Program σ ε α}

/-- What a step of one process does, as far as the lock goes. -/
theorem step_cases {s₀ : σ} {past : List ι} {world : World σ ι (Program σ ε α)} {i : ι}
    (h : Serial holder idle start s₀ past world) :
    let after := (world.locals i).act i () world.shared
    -- nothing changes outside of the section
    (holder world.shared ≠ some i ∧ after.1 = world.shared ∧ Outside holder idle i after.2 ∧
        ((∃ x, world.locals i = ret x) ∨ ∀ x, after.2 = ret x → idle x)) ∨
      (takes holder i (world.locals i) world.shared ∧ Inside holder i after.2) ∨
      (holder world.shared = some i ∧ holder after.1 = some i ∧ Inside holder i after.2) ∨
      (holder world.shared = some i ∧ holder after.1 = none ∧ ∃ x, after.2 = ret x) := by
  cases hp : world.locals i with
  | ret x =>
    refine Or.inl ⟨fun held => ?_, rfl, trivial, Or.inl ⟨x, rfl⟩⟩
    have inside := (h.held i held).1
    rw [hp] at inside
    exact inside
  | atomic effect next =>
    by_cases held : holder world.shared = some i
    · have inside := (h.held i held).1
      rw [hp] at inside
      rcases inside world.shared held with stays | leaves
      · exact Or.inr (Or.inr (Or.inl ⟨held, stays⟩))
      · exact Or.inr (Or.inr (Or.inr ⟨held, leaves⟩))
    · have outside := h.outside i held
      rw [hp] at outside
      rcases outside world.shared with ⟨same, outside, hidle⟩ | ⟨free, mine, inside⟩
      · exact Or.inl ⟨held, same, outside, Or.inr hidle⟩
      · exact Or.inr (Or.inl ⟨⟨free, mine⟩, inside⟩)

omit [DecidableEq ι] in
/-- While the lock is free or another's, a process is outside. -/
theorem Serial.apart {s₀ : σ} {past : List ι} {world : World σ ι (Program σ ε α)} {i j : ι}
    (h : Serial holder idle start s₀ past world) (hj : j ≠ i)
    (held : holder world.shared = none ∨ holder world.shared = some i) :
    Outside holder idle j (world.locals j) := by
  refine h.outside j fun mine => ?_
  rcases held with held | held
  · cases held.symm.trans mine
  · exact hj (Option.some.inj (held.symm.trans mine)).symm

/-- One step keeps the order. -/
theorem Serial.step {s₀ : σ} {past : List ι} {world : World σ ι (Program σ ε α)} {event : ι × Unit}
    (fresh : Fresh holder start world event) (h : Serial holder idle start s₀ past world) :
    Serial holder idle start s₀ (past ++ (noted (taken holder) world event).toList)
      (step act world event) := by
  obtain ⟨i, _⟩ := event
  have exec := exec_act i (world.locals i) world.shared
  have others : ∀ j, j ≠ i → (Interleaving.step act world (i, ())).locals j = world.locals j :=
    fun j hj => step_other act world (i, ()) hj
  have own : (Interleaving.step act world (i, ())).locals i = _ := step_own act world (i, ())
  have shared : (Interleaving.step act world (i, ())).shared = _ := step_shared act world (i, ())
  have quiet : ¬takes holder i (world.locals i) world.shared →
      past ++ (noted (taken holder) world (i, ())).toList = past := by
    intro not
    rw [noted, taken, if_neg not]
    exact List.append_nil past
  rcases step_cases (i := i) h with ⟨held, same, outside, _⟩ | ⟨takes, inside⟩
    | ⟨held, keeps, inside⟩ |
    ⟨held, leaves, x, ends⟩
  · rw [quiet fun takes => ?_]
    · refine ⟨fun j hj => ?_, fun free => ?_, fun j hj => ?_⟩
      · rw [shared, same] at hj
        by_cases hji : j = i
        · subst hji
          rwa [own]
        · rw [others j hji]
          exact h.outside j hj
      · rw [shared, same] at free ⊢
        exact h.free free
      · rw [shared, same] at hj ⊢
        rw [others j (by rintro rfl; exact held hj)]
        exact h.held j hj
    · have mine := takes.2
      rw [same, takes.1] at mine
      cases mine
  · have note : past ++ (noted (taken holder) world (i, ())).toList = past ++ [i] := by
      rw [noted, taken, if_pos takes]
      rfl
    rw [note]
    refine ⟨fun j hj => ?_, fun free => ?_, fun j hj => ?_⟩
    · have hji : j ≠ i := by
        rintro rfl
        rw [shared] at hj
        exact hj takes.2
      rw [others j hji]
      exact h.apart hji (Or.inl takes.1)
    · rw [shared, takes.2] at free
      cases free
    · rw [shared, takes.2] at hj
      cases hj
      rw [own, shared]
      exact ⟨inside, past, rfl, by rw [exec, fresh takes, h.free takes.1]⟩
  · obtain ⟨_, earlier, hpast, alone⟩ := h.held i held
    rw [quiet fun takes => by cases takes.1.symm.trans held]
    refine ⟨fun j hj => ?_, fun free => ?_, fun j hj => ?_⟩
    · have hji : j ≠ i := by
        rintro rfl
        rw [shared] at hj
        exact hj keeps
      rw [others j hji]
      exact h.apart hji (Or.inr held)
    · rw [shared, keeps] at free
      cases free
    · rw [shared, keeps] at hj
      cases hj
      rw [own, shared]
      exact ⟨inside, earlier, hpast, exec.trans alone⟩
  · obtain ⟨_, earlier, hpast, alone⟩ := h.held i held
    rw [quiet fun takes => by cases takes.1.symm.trans held]
    refine ⟨fun j hj => ?_, fun _ => ?_, fun j hj => ?_⟩
    · by_cases hji : j = i
      · subst hji
        rw [own, ends]
        trivial
      · rw [others j hji]
        exact h.apart hji (Or.inr held)
    · rw [ends, alone] at exec
      rw [shared, hpast, serial_concat]
      exact congrArg Prod.snd exec
    · rw [shared, leaves] at hj
      cases hj

theorem Once.step {s₀ : σ} {past : List ι} {world : World σ ι (Program σ ε α)} {event : ι × Unit}
    (h : Serial holder idle start s₀ past world) (once : Once holder past world) :
    Once holder (past ++ (noted (taken holder) world event).toList) (step act world event) := by
  obtain ⟨i, _⟩ := event
  have others : ∀ j, j ≠ i → (Interleaving.step act world (i, ())).locals j = world.locals j :=
    fun j hj => step_other act world (i, ()) hj
  have own : (Interleaving.step act world (i, ())).locals i = _ := step_own act world (i, ())
  have shared : (Interleaving.step act world (i, ())).shared = _ := step_shared act world (i, ())
  by_cases takes : takes holder i (world.locals i) world.shared
  · have new : i ∉ past := by
      intro hi
      have free := takes.1
      obtain ⟨x, hx⟩ := once.gone i hi (by rw [free]; exact fun h => by cases h)
      have mine := takes.2
      rw [hx, act, free] at mine
      cases mine
    have note : past ++ (noted (taken holder) world (i, ())).toList = past ++ [i] := by
      rw [noted, taken, if_pos takes]
      rfl
    rw [note]
    refine ⟨List.nodup_append.mpr ⟨once.nodup, List.nodup_cons.mpr
      ⟨List.not_mem_nil, List.nodup_nil⟩, ?_⟩, fun j hj held => ?_⟩
    · rintro j hj k hk rfl
      exact new (List.mem_singleton.mp hk ▸ hj)
    · have hji : j ≠ i := by
        rintro rfl
        rw [shared] at held
        exact held takes.2
      rw [others j hji]
      refine once.gone j ((List.mem_append.mp hj).resolve_right fun hj => hji
        (List.mem_singleton.mp hj)) ?_
      rw [takes.1]
      exact fun h => by cases h
  · have note : past ++ (noted (taken holder) world (i, ())).toList = past := by
      rw [noted, taken, if_neg takes]
      exact List.append_nil past
    rw [note]
    refine ⟨once.nodup, fun j hj held => ?_⟩
    by_cases hji : j = i
    · subst hji
      rw [shared] at held
      rw [own]
      rcases step_cases (i := j) h with ⟨before, same, _, _⟩ | ⟨takes', _⟩
        | ⟨_, keeps, _⟩ | ⟨_, _, ends⟩
      · obtain ⟨x, hx⟩ := once.gone j hj before
        exact ⟨x, by rw [hx]; rfl⟩
      · exact absurd takes' takes
      · exact absurd keeps held
      · exact ends
    · rw [others j hji]
      refine once.gone j hj fun mine => ?_
      have still := (h.held j mine).1
      rcases step_cases (i := i) h with ⟨_, same, _, _⟩ | ⟨takes', _⟩ | ⟨his, _, _⟩ | ⟨his, _, _⟩
      · rw [shared, same] at held
        exact held mine
      · exact takes takes'
      · exact hji (Option.some.inj (mine.symm.trans his))
      · exact hji (Option.some.inj (mine.symm.trans his))

omit [DecidableEq ι] in
/-- Nobody holds the lock and everybody is at the start. -/
theorem Serial.initial {s₀ : σ} (free : holder s₀ = none)
    (outside : ∀ i, Outside holder idle i (start i)) :
    Serial holder idle start s₀ [] ⟨s₀, start⟩ := by
  refine ⟨fun j _ => outside j, fun _ => rfl, fun i held => ?_⟩
  cases free.symm.trans held

theorem serial_run {s₀ : σ} (free : holder s₀ = none)
    (outside : ∀ i, Outside holder idle i (start i)) {events : List (ι × Unit)}
    (fresh : Runs.Along (step act) (Fresh holder start) ⟨s₀, start⟩ events) :
    let past := order holder ⟨s₀, start⟩ events
    let final := run act ⟨s₀, start⟩ events
    Serial holder idle start s₀ past final ∧ Once holder past final :=
  @Runs.Along.log _ _ _ (step act) (noted (taken holder))
    (fun past world => Serial holder idle start s₀ past world ∧ Once holder past world)
    (Fresh holder start) (fun _ _ _ fresh h => ⟨h.1.step fresh, h.2.step h.1⟩) _ [] events fresh
    ⟨Serial.initial free outside, ⟨List.nodup_nil, fun _ hj => (by cases hj)⟩⟩

/-- What a process ends with, it ends with alone as well, after those who got the lock before
it; or it never got it. -/
theorem Serial.ending {s₀ : σ} {past : List ι} {world : World σ ι (Program σ ε α)} {i : ι}
    (h : Serial holder idle start s₀ past world) (running : ∀ x, world.locals i ≠ ret x)
    {x : Outcome ε α} (ends : ((world.locals i).act i () world.shared).2 = ret x) :
    idle x ∨ ∃ earlier, past = earlier ++ [i] ∧
      (start i).exec (serial start s₀ earlier) =
        (x, ((world.locals i).act i () world.shared).1) := by
  have not : ∀ {p : Program σ ε α}, p = ret x → ¬Inside holder i p := by
    rintro p rfl inside
    exact inside
  rcases step_cases (i := i) h with ⟨_, _, _, ⟨y, hy⟩ | hidle⟩ | ⟨_, inside⟩
    | ⟨_, _, inside⟩ | ⟨held, _, _⟩
  · exact absurd hy (running y)
  · exact Or.inl (hidle x ends)
  · exact absurd inside (not ends)
  · exact absurd inside (not ends)
  · obtain ⟨_, earlier, hpast, alone⟩ := h.held i held
    refine Or.inr ⟨earlier, hpast, ?_⟩
    rw [← alone, ← exec_act i, ends]
    rfl

/-- A process that holds the lock, or is at its end, takes no lock on its own. -/
theorem quiet_alone {i : ι} (n : Nat) : ∀ {world : World σ ι (Program σ ε α)},
    (holder world.shared = some i ∧ Inside holder i (world.locals i)) ∨
    (∃ x, world.locals i = ret x) →
    Runs.Along (step act)
      (fun world event => ¬takes holder event.1 (world.locals event.1) world.shared)
      world (List.replicate n (i, ())) := by
  induction n with
  | zero => exact fun _ => trivial
  | succ n ih =>
    intro world state
    have own : (Interleaving.step act world (i, ())).locals i = _ := step_own act world (i, ())
    have shared : (Interleaving.step act world (i, ())).shared = _ := step_shared act world (i, ())
    refine ⟨fun takes => ?_, ih ?_⟩
    · rcases state with ⟨held, _⟩ | ⟨x, ended⟩
      · cases takes.1.symm.trans held
      · have mine := takes.2
        rw [ended, act, takes.1] at mine
        cases mine
    · rw [own, shared]
      rcases state with ⟨held, inside⟩ | ⟨x, ended⟩
      · cases hp : world.locals i with
        | ret x =>
          rw [hp] at inside
          exact inside.elim
        | atomic effect next =>
          rw [hp] at inside
          exact (inside world.shared held).imp id fun leaves => leaves.2
      · rw [ended]
        exact .inr ⟨x, rfl⟩

/-- A step that does not take the lock is not in the order. -/
theorem order_pass {world : World σ ι (Program σ ε α)} {i : ι}
    (here : ¬takes holder i (world.locals i) world.shared) (events : List (ι × Unit)) :
    order holder world ((i, ()) :: events) = order holder (step act world (i, ())) events := by
  rw [order, log, Runs.log_cons, noted, taken, if_neg here]
  rfl

/-- Without a step that takes the lock nobody is in the order. -/
theorem order_quiet {events : List (ι × Unit)} : ∀ {world : World σ ι (Program σ ε α)},
    Runs.Along (step act)
      (fun world event => ¬takes holder event.1 (world.locals event.1) world.shared)
      world events → order holder world events = [] := by
  induction events with
  | nil => exact fun _ => rfl
  | cons event events ih =>
    obtain ⟨i, _⟩ := event
    rintro world ⟨here, rest⟩
    exact (order_pass here events).trans (ih rest)

end CriticalSections
