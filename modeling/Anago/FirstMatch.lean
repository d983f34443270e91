import Mathlib.Data.List.Basic

/-!
# Changing a list at the first match

`position` followed by an indexed read, write or removal, as code that keeps its
records in a vector does it. The search splits the list at the first match, and the
write or the removal happens at the split.
-/

namespace FirstMatch

variable {α : Type} {l : List α} {p : α → Bool}

theorem split {i : Fin l.length} (h : l.findFinIdx? p = some i) :
    ∃ before after, l = before ++ l.get i :: after ∧ before.length = i ∧
      p (l.get i) = true ∧ ∀ x ∈ before, p x = false := by
  obtain ⟨hp, hbefore⟩ := List.findFinIdx?_eq_some_iff.mp h
  refine ⟨l.take i, l.drop (i + 1), ?_, ?_, hp, ?_⟩
  · rw [List.get_eq_getElem, List.getElem_cons_drop, List.take_append_drop]
  · rw [List.length_take]
    omega
  · intro x hx
    obtain ⟨j, hj, rfl⟩ := List.mem_take_iff_getElem.mp hx
    simpa using hbefore ⟨j, by omega⟩ (by rw [Fin.lt_def]; simp only; omega)

theorem find_eq {i : Fin l.length} (h : l.findFinIdx? p = some i) :
    l.find? p = some (l.get i) := by
  obtain ⟨before, after, hl, _, hp, hbefore⟩ := split h
  rw [List.find?_eq_some_iff_append]
  exact ⟨hp, before, after, hl, fun x hx => by simp [hbefore x hx]⟩

theorem set_split (before after : List α) (a b : α) :
    (before ++ a :: after).set before.length b = before ++ b :: after := by
  rw [List.set_append_right _ _ (Nat.le_refl _), Nat.sub_self, List.set_cons_zero]

theorem erase_split (before after : List α) (a : α) :
    (before ++ a :: after).eraseIdx before.length = before ++ after := by
  rw [List.eraseIdx_append_of_length_le (Nat.le_refl _), Nat.sub_self, List.eraseIdx_cons_zero]

/-- Writing at the first match leaves everything else where it was. -/
theorem set_eq {i : Fin l.length} (h : l.findFinIdx? p = some i) (b : α) :
    ∃ before after, l = before ++ l.get i :: after ∧ p (l.get i) = true ∧
      (∀ x ∈ before, p x = false) ∧ l.set i b = before ++ b :: after := by
  obtain ⟨before, after, hl, hlen, hp, hbefore⟩ := split h
  refine ⟨before, after, hl, hp, hbefore, ?_⟩
  rw [← hlen]
  conv_lhs => rw [hl]
  exact set_split before after _ b

theorem erase_eq {i : Fin l.length} (h : l.findFinIdx? p = some i) :
    ∃ before after, l = before ++ l.get i :: after ∧ p (l.get i) = true ∧
      (∀ x ∈ before, p x = false) ∧ l.eraseIdx i = before ++ after := by
  obtain ⟨before, after, hl, hlen, hp, hbefore⟩ := split h
  refine ⟨before, after, hl, hp, hbefore, ?_⟩
  rw [← hlen]
  conv_lhs => rw [hl]
  exact erase_split before after _

end FirstMatch
