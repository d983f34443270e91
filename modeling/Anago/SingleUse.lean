import Mathlib.Data.List.Nodup

/-!
# Ledgers of single-use entries

A ledger only ever grows, and an entry of it can be spent once. What is said here
holds of any list of records that is changed in these ways alone.
-/

universe u v w x

namespace SingleUse

/-- How the entries of a ledger are read. -/
structure Book (ε : Type u) (σ : Type v) (κ : Type w) (τ : Type x) where
  /-- What spending an entry leaves as it is. -/
  terms : ε → σ
  key : σ → κ
  /-- When the entry was spent, if it was. -/
  spent : ε → Option τ
  allows : σ → τ → Prop

namespace Book

variable {ε : Type u} {σ : Type v} {κ : Type w} {τ : Type x} (book : Book ε σ κ τ)

def keyOf (e : ε) : κ := book.key (book.terms e)

/-- What one step may do to a ledger, with the spending it is. -/
inductive Step : List ε → Option (κ × τ) → List ε → Prop
  | keep {l : List ε} : Step l none l
  | add {l : List ε} {e : ε} : book.keyOf e ∉ l.map book.keyOf → book.spent e = none →
    Step l none (l ++ [e])
  | spend {before : List ε} {e e' : ε} {after : List ε} {t : τ} : book.spent e = none →
    book.allows (book.terms e) t → book.terms e' = book.terms e → book.spent e' = some t →
    Step (before ++ e :: after) (some (book.keyOf e, t)) (before ++ e' :: after)

/-- A ledger agrees with the list of all spendings there ever were. -/
structure Accounts (log : List (κ × τ)) (l : List ε) : Prop where
  distinct : (l.map book.keyOf).Nodup
  once : (log.map Prod.fst).Nodup
  recorded : ∀ k t, (k, t) ∈ log →
    ∃ e ∈ l, book.keyOf e = k ∧ book.spent e = some t ∧ book.allows (book.terms e) t
  counted : log.length = l.countP fun e => (book.spent e).isSome

/-- Entries stay where they are, on the same terms, and a spent one stays spent. -/
def Extends (l l' : List ε) : Prop :=
  ∀ (i : Nat) (e : ε), l[i]? = some e → ∃ e', l'[i]? = some e' ∧
    book.terms e' = book.terms e ∧ ∀ t, book.spent e = some t → book.spent e' = some t

variable {book}

theorem accounts_unspent {l : List ε} (distinct : (l.map book.keyOf).Nodup)
    (unspent : ∀ e ∈ l, book.spent e = none) : book.Accounts [] l where
  distinct := distinct
  once := List.nodup_nil
  recorded k t h := nomatch h
  counted := by
    symm
    rw [List.length_nil, List.countP_eq_zero]
    intro e he
    rw [unspent e he]
    exact Bool.false_ne_true

/-- An unspent entry's key is not among the spendings. -/
theorem Accounts.unspent_fresh {log : List (κ × τ)} {before after : List ε} {e : ε}
    (h : book.Accounts log (before ++ e :: after)) (unspent : book.spent e = none) :
    book.keyOf e ∉ log.map Prod.fst := by
  intro hm
  obtain ⟨⟨k, t⟩, hlog, hk⟩ := List.mem_map.mp hm
  obtain ⟨e', he', hkey, hspent, _⟩ := h.recorded k t hlog
  -- the keys are distinct, so the entry that was spent is this one
  have same : e' = e :=
    List.inj_on_of_nodup_map h.distinct he' (by simp) (hkey.trans hk)
  rw [same, unspent] at hspent
  cases hspent

theorem Accounts.step {log : List (κ × τ)} {l l' : List ε} {spending : Option (κ × τ)}
    (h : book.Accounts log l) (hs : book.Step l spending l') :
    book.Accounts (log ++ spending.toList) l' := by
  cases hs with
  | keep => simpa using h
  | @add _ e fresh unspent =>
    rw [Option.toList_none, List.append_nil]
    exact {
      distinct := by
        rw [List.map_append, List.map_singleton, ← List.concat_eq_append]
        exact h.distinct.concat fresh
      once := h.once
      recorded := by
        intro k t hlog
        obtain ⟨e', he', hrest⟩ := h.recorded k t hlog
        exact ⟨e', List.mem_append_left _ he', hrest⟩
      counted := by simpa [unspent] using h.counted }
  | @spend before e e' after t unspent allowed hterms hspent =>
    have hkey : book.keyOf e' = book.keyOf e := congrArg book.key hterms
    have fresh := h.unspent_fresh unspent
    rw [Option.toList_some]
    exact {
      distinct := by simpa [hkey] using h.distinct
      once := by
        rw [List.map_append, List.map_singleton, ← List.concat_eq_append]
        exact h.once.concat fresh
      recorded := by
        intro k t' hlog
        rcases List.mem_append.mp hlog with hlog | hlog
        · obtain ⟨f, hf, hfkey, hfspent, hfallows⟩ := h.recorded k t' hlog
          have other : f ≠ e := by
            rintro rfl
            rw [unspent] at hfspent
            cases hfspent
          refine ⟨f, ?_, hfkey, hfspent, hfallows⟩
          simp only [List.mem_append, List.mem_cons, other, false_or] at hf ⊢
          exact hf.imp_right Or.inr
        · cases List.mem_singleton.mp hlog
          exact ⟨e', by simp, hkey, hspent, hterms ▸ allowed⟩
      counted := by
        have := h.counted
        simp only [List.countP_append, List.countP_cons, unspent, hspent, Option.isSome_none,
          Option.isSome_some, List.length_append, List.length_singleton, if_true,
          Bool.false_eq_true, if_false] at this ⊢
        omega }

theorem extends_refl (l : List ε) : book.Extends l l :=
  fun _ e h => ⟨e, h, rfl, fun _ ht => ht⟩

theorem extends_trans {l m n : List ε} (hlm : book.Extends l m) (hmn : book.Extends m n) :
    book.Extends l n := by
  intro i e h
  obtain ⟨f, hf, hfterms, hfspent⟩ := hlm i e h
  obtain ⟨g, hg, hgterms, hgspent⟩ := hmn i f hf
  exact ⟨g, hg, hgterms.trans hfterms, fun t ht => hgspent t (hfspent t ht)⟩

theorem Step.extends {l l' : List ε} {spending : Option (κ × τ)}
    (hs : book.Step l spending l') : book.Extends l l' := by
  cases hs with
  | keep => exact extends_refl l
  | add _ _ =>
    intro i f h
    have inside : i < l.length := (List.getElem?_eq_some_iff.mp h).1
    exact ⟨f, by rwa [List.getElem?_append_left inside], rfl, fun _ ht => ht⟩
  | @spend before e e' after t unspent _ hterms _ =>
    intro i f h
    rcases Nat.lt_trichotomy i before.length with hi | hi | hi
    · rw [List.getElem?_append_left hi] at h
      exact ⟨f, by rwa [List.getElem?_append_left hi], rfl, fun _ ht => ht⟩
    · -- the entry that was spent now had not been spent before
      rw [hi, List.getElem?_append_right (Nat.le_refl _), Nat.sub_self,
        List.getElem?_cons_zero] at h
      obtain rfl := Option.some.inj h
      refine ⟨e', by simp [hi], hterms, fun s hs => ?_⟩
      rw [unspent] at hs
      cases hs
    · obtain ⟨j, rfl⟩ := Nat.exists_eq_add_of_lt hi
      refine ⟨f, ?_, rfl, fun _ ht => ht⟩
      rw [List.getElem?_append_right (by omega)] at h ⊢
      rw [show before.length + j + 1 - before.length = j + 1 by omega] at h ⊢
      exact h

end Book

end SingleUse
