import Anago.Json

/-!
# Fields a reader does not look for

What a reader of JSON looks at, and values that differ from each other only in fields it
does not know.
-/

namespace Json

/-- What a reader looks at. -/
inductive Schema where
  /-- A value nobody reads. -/
  | unread
  | whole
  | each (items : Schema)
  | fields (known : String → Schema)

namespace Schema

def isRead : Schema → Bool
  | unread => false
  | _ => true

/-- An object of which some fields are read, each as a whole. -/
def flat (names : List String) : Schema :=
  fields fun name => if name ∈ names then whole else unread

/-- The second value is the first one, with fields nobody reads put in or changed anywhere in it. -/
def Widens : Schema → Value → Value → Prop
  | each items, .arr vs, .arr vs' => List.Forall₂ (Widens items) vs vs'
  | fields known, .obj fs, .obj fs' =>
    List.Forall₂ (fun f f' => f'.1 = f.1 ∧ Widens (known f.1) f.2 f'.2)
      (fs.filter fun f => (known f.1).isRead) (fs'.filter fun f => (known f.1).isRead)
  | _, v, v' => v' = v

theorem get_filter {p : String → Bool} {name : String} (h : p name = true) (obj : Object) :
    Object.get (obj.filter fun f => p f.1) name = Object.get obj name := by
  rw [Object.get, Object.get, List.find?_filter]
  congr 2
  funext f
  by_cases same : f.1 = name
  · simp [same, h]
  · simp [same]

theorem get_related {R : String → Value → Value → Prop} {fs fs' : Object} (name : String)
    (h : List.Forall₂ (fun f f' => f'.1 = f.1 ∧ R f.1 f.2 f'.2) fs fs') :
    Option.Rel (R name) (Object.get fs name) (Object.get fs' name) := by
  induction h with
  | nil => exact Option.Rel.none
  | @cons f f' fs fs' related _ ih =>
    obtain ⟨key, value⟩ := f
    obtain ⟨key', value'⟩ := f'
    obtain ⟨same, related⟩ := related
    cases same
    by_cases here : key = name
    · subst here
      simpa [Object.get] using Option.Rel.some related
    · simpa [Object.get, here] using ih

/-- A reader of fields finds the same ones under the names it knows. -/
theorem Widens.fields {known : String → Schema} {v v' : Value} (h : Widens (.fields known) v v') :
    v' = v ∨ ∃ fs fs', v = .obj fs ∧ v' = .obj fs' ∧ ∀ name, (known name).isRead = true →
      Option.Rel (Widens (known name)) (Object.get fs name) (Object.get fs' name) := by
  cases v with
  | obj fs =>
    cases v' with
    | obj fs' =>
      refine Or.inr ⟨fs, fs', rfl, rfl, fun name reads => ?_⟩
      rw [Widens] at h
      have found := get_related (R := fun name => Widens (known name)) name h
      rwa [get_filter (p := fun name => (known name).isRead) reads,
        get_filter (p := fun name => (known name).isRead) reads] at found
    | _ => exact Or.inl h
  | _ => exact Or.inl h

/-- What is read as a whole is the same. -/
theorem eq_of_whole {found found' : Option Value} (h : Option.Rel (Widens .whole) found found') :
    found' = found := by
  cases h with
  | none => rfl
  | some same => exact congrArg some same

theorem Widens.flat {names : List String} {v v' : Value} (h : Widens (flat names) v v') :
    v' = v ∨ ∃ fs fs', v = .obj fs ∧ v' = .obj fs' ∧
      ∀ name ∈ names, Object.get fs' name = Object.get fs name := by
  rcases h.fields with same | ⟨fs, fs', hv, hv', same⟩
  · exact Or.inl same
  · refine Or.inr ⟨fs, fs', hv, hv', fun name known => ?_⟩
    have found := same name (by simp [known, isRead])
    rw [if_pos known] at found
    exact eq_of_whole found

theorem Widens.each {items : Schema} {v v' : Value} (h : Widens (.each items) v v') :
    v' = v ∨ ∃ vs vs', v = .arr vs ∧ v' = .arr vs' ∧ List.Forall₂ (Widens items) vs vs' := by
  cases v with
  | arr vs =>
    cases v' with
    | arr vs' =>
      rw [Widens] at h
      exact Or.inr ⟨vs, vs', rfl, rfl, h⟩
    | _ => exact Or.inl h
  | _ => exact Or.inl h

end Schema

end Json
