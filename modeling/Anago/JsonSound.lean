import Anago.JsonReads

/-!
# Whatever the parser accepts is a document

The converse of `JsonReads`, again with one clause for each parser function: the text
taken by an accepting call derives the value returned, within the depth bound.
-/

namespace Json

open StdText DecimalText Utf8Text Value

namespace Parser

variable [Unicode] {p q : Parser} {cs : List Char} {v : Value} {depth : Nat}

def SoundValue (fuel : Nat) : Prop :=
  ∀ {depth : Nat} {p q : Parser} {cs : List Char} {v : Value}, p.At cs →
    value fuel depth p = .ok (v, q) →
    ∃ text rest, cs = text ++ rest ∧ IsValue text v ∧ q.At rest ∧ depth + v.depth ≤ maxDepth

def SoundElements (fuel : Nat) : Prop :=
  ∀ {depth : Nat} {p q : Parser} {cs : List Char} {v : Value} {items : List Value}, p.At cs →
    arrayLoop fuel depth p items = .ok (v, q) →
    ∃ body vs rest, cs = body ++ ']' :: rest ∧ IsElements body vs ∧ v = .arr (items ++ vs) ∧
      q.At rest ∧ depth + depthItems vs ≤ maxDepth

def SoundMembers (fuel : Nat) : Prop :=
  ∀ {depth : Nat} {p q : Parser} {cs : List Char} {v : Value} {obj : Object}, p.At cs →
    (obj.map Prod.fst).Nodup → objectLoop fuel depth p obj = .ok (v, q) →
    ∃ body fs rest, cs = body ++ '}' :: rest ∧ IsMembers body fs ∧ v = .obj (obj ++ fs) ∧
      ((obj ++ fs).map Prod.fst).Nodup ∧ q.At rest ∧ depth + depthFields fs ≤ maxDepth

theorem array_sound {fuel : Nat} (ih : ∀ k < fuel, SoundElements k) (shallow : depth ≤ maxDepth)
    (h : p.At cs) (hx : array fuel depth p = .ok (v, q)) :
    ∃ text rest, cs = text ++ rest ∧ IsValue text v ∧ q.At rest ∧
      depth + v.depth ≤ maxDepth := by
  cases fuel with
  | zero =>
    rw [array] at hx
    cases hx
  | succ fuel =>
    rw [array] at hx
    obtain ⟨r, hr, hx⟩ := Outcome.bind_eq_ok hx
    obtain ⟨rest, rfl, hat⟩ := h.expect_ok (by decide) hr
    obtain ⟨w, rest, rfl, hw, hat⟩ := hat.skipWs
    simp only at hx
    split at hx
    · next hend =>
      obtain ⟨rest, rfl⟩ := (hat.peek_iff (by decide)).mp hend
      cases hx
      exact ⟨'[' :: w ++ [']'], rest, by simp, .emptyArray hw, hat.step (by decide), shallow⟩
    · obtain ⟨body, vs, rest, rfl, hb, rfl, hq, fit⟩ := ih fuel (Nat.lt_succ_self _) hat hx
      exact ⟨'[' :: (w ++ body) ++ [']'], rest, by simp, .array (hb.ws_append hw), hq, fit⟩

theorem object_sound {fuel : Nat} (ih : ∀ k < fuel, SoundMembers k) (shallow : depth ≤ maxDepth)
    (h : p.At cs) (hx : object fuel depth p = .ok (v, q)) :
    ∃ text rest, cs = text ++ rest ∧ IsValue text v ∧ q.At rest ∧
      depth + v.depth ≤ maxDepth := by
  cases fuel with
  | zero =>
    rw [object] at hx
    cases hx
  | succ fuel =>
    rw [object] at hx
    obtain ⟨r, hr, hx⟩ := Outcome.bind_eq_ok hx
    obtain ⟨rest, rfl, hat⟩ := h.expect_ok (by decide) hr
    obtain ⟨w, rest, rfl, hw, hat⟩ := hat.skipWs
    simp only at hx
    split at hx
    · next hend =>
      obtain ⟨rest, rfl⟩ := (hat.peek_iff (by decide)).mp hend
      cases hx
      exact ⟨'{' :: w ++ ['}'], rest, by simp, .emptyObject hw, hat.step (by decide), shallow⟩
    · obtain ⟨body, fs, rest, rfl, hb, rfl, distinct, hq, fit⟩ :=
        @ih fuel (Nat.lt_succ_self _) _ _ _ _ _ [] hat List.nodup_nil hx
      exact ⟨'{' :: (w ++ body) ++ ['}'], rest, by simp, .object (hb.ws_append hw) distinct,
        hq, fit⟩

theorem value_sound {fuel : Nat} (harray : ∀ k < fuel, SoundElements k)
    (hobject : ∀ k < fuel, SoundMembers k) : SoundValue (fuel + 1) := by
  intro depth p q cs v h hx
  cases cs with
  | nil =>
    rw [value, h.peek_nil] at hx
    split at hx <;> cases hx
  | cons c cs =>
    rw [value_eq h] at hx
    split at hx
    · cases hx
    next hdepth =>
    have shallow : depth ≤ maxDepth := Nat.le_of_not_lt hdepth
    split at hx
    · exact object_sound hobject shallow h hx
    split at hx
    · exact array_sound harray shallow h hx
    split at hx
    · obtain ⟨⟨s, r⟩, hs, hx⟩ := Outcome.bind_eq_ok hx
      obtain ⟨text, rest, hcs, hstr, hat⟩ := string_sound h hs
      cases hx
      exact ⟨text, rest, hcs, .string hstr, hat, shallow⟩
    split at hx
    · obtain ⟨rfl, rest, hcs, hat⟩ := literal_sound (by decide) h hx
      exact ⟨_, rest, hcs, .true, hat, shallow⟩
    split at hx
    · obtain ⟨rfl, rest, hcs, hat⟩ := literal_sound (by decide) h hx
      exact ⟨_, rest, hcs, .false, hat, shallow⟩
    split at hx
    · obtain ⟨rfl, rest, hcs, hat⟩ := literal_sound (by decide) h hx
      exact ⟨_, rest, hcs, .null, hat, shallow⟩
    split at hx
    · obtain ⟨n, text, rest, rfl, hcs, hn, hat⟩ := number_sound h hx
      exact ⟨text, rest, hcs, .number hn, hat, shallow⟩
    · cases hx

theorem elements_sound {fuel : Nat} (ihv : SoundValue fuel) (ih : SoundElements fuel) :
    SoundElements (fuel + 1) := by
  intro depth p q cs v items h hx
  rw [arrayLoop] at hx
  obtain ⟨w, rest, rfl, hw, hat⟩ := h.skipWs
  obtain ⟨⟨u, r⟩, hu, hx⟩ := Outcome.bind_eq_ok hx
  obtain ⟨text, rest, rfl, hv, hat, fit⟩ := ihv hat hu
  obtain ⟨w', rest, rfl, hw', hat⟩ := hat.skipWs
  simp only at hx
  split at hx
  · next hsep =>
    obtain ⟨rest, rfl⟩ := (hat.peek_iff (by decide)).mp hsep
    obtain ⟨later, vs, rest, rfl, hl, rfl, hq, fit'⟩ := ih (hat.step (by decide)) hx
    refine ⟨w ++ text ++ w' ++ ',' :: later, u :: vs, rest, by simp, .more hw hv hw' hl,
      by simp, hq, ?_⟩
    rw [depthItems_cons]
    omega
  · split at hx
    · next hend =>
      obtain ⟨rest, rfl⟩ := (hat.peek_iff (by decide)).mp hend
      cases hx
      refine ⟨w ++ text ++ w', [u], rest, by simp, .last hw hv hw', rfl, hat.step (by decide), ?_⟩
      rw [depthItems_cons, depthItems]
      omega
    · cases hx

theorem members_sound {fuel : Nat} (ihv : SoundValue fuel) (ih : SoundMembers fuel) :
    SoundMembers (fuel + 1) := by
  intro depth p q cs v obj h distinct hx
  rw [objectLoop] at hx
  obtain ⟨w, rest, rfl, hw, hat⟩ := h.skipWs
  simp only at hx
  split at hx
  · cases hx
  obtain ⟨⟨key, r⟩, hkey, hx⟩ := Outcome.bind_eq_ok hx
  obtain ⟨name, rest, rfl, hn, hat⟩ := string_sound hat hkey
  obtain ⟨w₁, rest, rfl, h₁, hat⟩ := hat.skipWs
  obtain ⟨t, ht, hx⟩ := Outcome.bind_eq_ok hx
  obtain ⟨rest, rfl, hcolon⟩ := hat.expect_ok (by decide) ht
  obtain ⟨w₂, rest, rfl, h₂, hat⟩ := hcolon.skipWs
  obtain ⟨⟨u, s⟩, hu, hx⟩ := Outcome.bind_eq_ok hx
  obtain ⟨text, rest, rfl, hv, hat, fit⟩ := ihv hat hu
  obtain ⟨w₃, rest, rfl, h₃, hat⟩ := hat.skipWs
  simp only at hx
  split at hx
  · cases hx
  next obj' hins =>
  have distinct' := Object.insert_nodup distinct hins
  obtain rfl : obj ++ [(key, u)] = obj' := by
    by_cases old : key ∈ obj.map Prod.fst
    · rw [Object.insert_old u old] at hins
      cases hins
    · rw [Object.insert_new u old] at hins
      exact Except.ok.inj hins
  split at hx
  · next hsep =>
    obtain ⟨rest, rfl⟩ := (hat.peek_iff (by decide)).mp hsep
    obtain ⟨later, fs, rest, rfl, hl, rfl, distinct'', hq, fit'⟩ :=
      ih (hat.step (by decide)) distinct' hx
    refine ⟨w ++ name ++ w₁ ++ ':' :: (w₂ ++ text ++ w₃ ++ ',' :: later), (key, u) :: fs, rest,
      by simp, .more hw hn h₁ h₂ hv h₃ hl, by simp, by simpa using distinct'', hq, ?_⟩
    rw [depthFields_cons]
    omega
  · split at hx
    · next hend =>
      obtain ⟨rest, rfl⟩ := (hat.peek_iff (by decide)).mp hend
      cases hx
      refine ⟨w ++ name ++ w₁ ++ ':' :: (w₂ ++ text ++ w₃), [(key, u)], rest, by simp,
        .last hw hn h₁ h₂ hv h₃, rfl, distinct', hat.step (by decide), ?_⟩
      rw [depthFields_cons, depthFields]
      omega
    · cases hx

theorem calls_sound (fuel : Nat) : SoundValue fuel ∧ SoundElements fuel ∧ SoundMembers fuel := by
  induction fuel using Nat.strongRecOn with
  | ind fuel ih =>
    cases fuel with
    | zero =>
      refine ⟨?_, ?_, ?_⟩
      · intro depth p q cs v _ hx
        rw [value] at hx
        cases hx
      · intro depth p q cs v items _ hx
        rw [arrayLoop] at hx
        cases hx
      · intro depth p q cs v obj _ _ hx
        rw [objectLoop] at hx
        cases hx
    | succ fuel =>
      obtain ⟨ihv, ihe, ihm⟩ := ih fuel (Nat.lt_succ_self _)
      exact ⟨value_sound (fun k hk => (ih k (Nat.lt_succ_of_lt hk)).2.1)
          fun k hk => (ih k (Nat.lt_succ_of_lt hk)).2.2,
        elements_sound ihv ihe, members_sound ihv ihm⟩

end Parser

variable [Unicode]

theorem parse_sound {s : String} {v : Value} (h : parse s = .ok v) :
    IsDocument s.toList v ∧ v.depth ≤ maxDepth := by
  rw [parse] at h
  obtain ⟨w, rest, hcs, hw, hat⟩ := (Parser.at_start s).skipWs
  obtain ⟨⟨u, q⟩, hu, h⟩ := Outcome.bind_eq_ok h
  obtain ⟨text, rest, rfl, hv, hat, fit⟩ := (Parser.calls_sound _).1 hat hu
  obtain ⟨w', rest, rfl, hw', hat⟩ := hat.skipWs
  simp only at h
  split at h
  · cases h
  next hend =>
  have hlen := hat.rest_length
  have hnil : rest = [] := by
    cases rest with
    | nil => rfl
    | cons c rest =>
      have := List.length_pos_iff.mpr (encode_ne_nil c)
      rw [utf8_cons, List.length_append] at hlen
      omega
  subst hnil
  cases h
  rw [hcs, List.append_nil, ← List.append_assoc]
  exact ⟨.mk hw hv hw', by omega⟩

/-- The parser accepts the documents of bounded depth and nothing else, with their
values; on every input it answers, and an error points into the input. -/
theorem parse_exact (s : String) :
    (∀ v, parse s = .ok v ↔ IsDocument s.toList v ∧ v.depth ≤ maxDepth) ∧
      ((∃ v, parse s = .ok v) ∨
        ∃ e, parse s = .err e ∧ e.offset ≤ (asBytes s).length) := by
  refine ⟨fun v => ⟨parse_sound, fun h => (parse_document h.1).1 h.2⟩, ?_⟩
  rcases (parse_sat s).ok_or_err with ⟨v, hv⟩ | ⟨e, he, hle⟩
  · exact Or.inl ⟨v, hv⟩
  · exact Or.inr ⟨e, he, hle⟩

end Json
