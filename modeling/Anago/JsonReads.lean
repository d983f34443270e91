import Anago.JsonTokens

/-!
# The parser reads every document that fits

By induction on fuel, with one clause for each parser function: on the text of a
value the function returns that value and stops after it, when the value is not
nested too deep, and otherwise it refuses. Running out of fuel is left open here.
-/

namespace Json

open StdText DecimalText Utf8Text Value

theorem depthItems_cons (v : Value) (vs : List Value) :
    depthItems (v :: vs) = max (1 + v.depth) (depthItems vs) := by
  rw [depthItems]

theorem depthFields_cons (key : String) (v : Value) (fs : List (String × Value)) :
    depthFields ((key, v) :: fs) = max (1 + v.depth) (depthFields fs) := by
  rw [depthFields]

theorem numberEnds_ws_cons {w rest : List Char} (hw : Ws w) {c : Char}
    (hc : c = ',' ∨ c = ']' ∨ c = '}') :
    NumberEnds (w ++ c :: rest) := by
  apply numberEnds_ws hw
  rcases hc with rfl | rfl | rfl <;>
    exact numberEnds_cons (by decide) (by decide) (by decide) (by decide)

theorem new_key {obj : Object} {key : String} {v : Value} {fs : List (String × Value)}
    (distinct : ((obj ++ (key, v) :: fs).map Prod.fst).Nodup) : key ∉ obj.map Prod.fst := by
  rw [List.map_append, List.nodup_append] at distinct
  intro hm
  exact distinct.2.2 key hm key (by simp) rfl

namespace Parser

variable [Unicode] {p : Parser} {rest : List Char} {depth : Nat}

/-- The call on any value's text, as the induction hypothesis provides it. -/
def ReadsValues (fuel : Nat) : Prop :=
  ∀ {text : List Char} {v : Value}, IsValue text v → ∀ {rest : List Char}, NumberEnds rest →
    ∀ {depth : Nat} {p : Parser}, p.At (text ++ rest) →
      Reads (depth + v.depth ≤ maxDepth) v rest (value fuel depth p)

def ReadsElements (fuel : Nat) : Prop :=
  ∀ {body : List Char} {vs : List Value}, IsElements body vs → ∀ {rest : List Char}
    {depth : Nat} {p : Parser} (items : List Value), p.At (body ++ ']' :: rest) →
      Reads (depth + depthItems vs ≤ maxDepth) (.arr (items ++ vs)) rest
        (arrayLoop fuel depth p items)

def ReadsMembers (fuel : Nat) : Prop :=
  ∀ {body : List Char} {fs : List (String × Value)}, IsMembers body fs →
    ∀ {rest : List Char} {depth : Nat} {p : Parser} (obj : Object),
      ((obj ++ fs).map Prod.fst).Nodup → p.At (body ++ '}' :: rest) →
      Reads (depth + depthFields fs ≤ maxDepth) (.obj (obj ++ fs)) rest
        (objectLoop fuel depth p obj)

theorem array_empty {w : List Char} (hw : Ws w) (fuel : Nat)
    (h : p.At ('[' :: w ++ [']'] ++ rest)) :
    Reads True (.arr []) rest (array fuel depth p) := by
  cases fuel with
  | zero =>
    rw [array]
    exact Reads.spin
  | succ fuel =>
    have h : p.At ('[' :: (w ++ ']' :: rest)) := by simpa using h
    have hat := (h.step (by decide)).skipWs_cons hw (by simp [Blank])
    rw [array, h.expect_cons (by decide), Outcome.ok_bind]
    simp only
    rw [if_pos (hat.peek_cons (by decide))]
    exact Reads.ok trivial (hat.step (by decide))

theorem object_empty {w : List Char} (hw : Ws w) (fuel : Nat)
    (h : p.At ('{' :: w ++ ['}'] ++ rest)) :
    Reads True (.obj []) rest (object fuel depth p) := by
  cases fuel with
  | zero =>
    rw [object]
    exact Reads.spin
  | succ fuel =>
    have h : p.At ('{' :: (w ++ '}' :: rest)) := by simpa using h
    have hat := (h.step (by decide)).skipWs_cons hw (by simp [Blank])
    rw [object, h.expect_cons (by decide), Outcome.ok_bind]
    simp only
    rw [if_pos (hat.peek_cons (by decide))]
    exact Reads.ok trivial (hat.step (by decide))

theorem array_reads {fuel : Nat} (ih : ∀ k < fuel, ReadsElements k) {body : List Char}
    {items : List Value} (hb : IsElements body items) (h : p.At ('[' :: body ++ [']'] ++ rest)) :
    Reads (depth + depthItems items ≤ maxDepth) (.arr items) rest (array fuel depth p) := by
  cases fuel with
  | zero =>
    rw [array]
    exact Reads.spin
  | succ fuel =>
    obtain ⟨w, c, cs, rfl, hw, hc, hend, hb'⟩ := hb.trim
    have h : p.At ('[' :: (w ++ c :: (cs ++ ']' :: rest))) := by simpa using h
    have hat := (h.step (by decide)).skipWs_cons hw hc
    rw [array, h.expect_cons (by decide), Outcome.ok_bind]
    simp only
    rw [if_neg]
    · exact ih fuel (Nat.lt_succ_self _) hb' [] hat
    · intro hp
      obtain ⟨tail, ht⟩ := (hat.peek_iff (by decide)).mp hp
      exact hend (List.cons.inj ht).1

theorem object_reads {fuel : Nat} (ih : ∀ k < fuel, ReadsMembers k) {body : List Char}
    {fields : List (String × Value)} (hb : IsMembers body fields)
    (distinct : (fields.map Prod.fst).Nodup) (h : p.At ('{' :: body ++ ['}'] ++ rest)) :
    Reads (depth + depthFields fields ≤ maxDepth) (.obj fields) rest (object fuel depth p) := by
  cases fuel with
  | zero =>
    rw [object]
    exact Reads.spin
  | succ fuel =>
    obtain ⟨w, cs, rfl, hw, hb'⟩ := hb.trim
    have h : p.At ('{' :: (w ++ '"' :: (cs ++ '}' :: rest))) := by simpa using h
    have hat := (h.step (by decide)).skipWs_cons hw (by simp [Blank])
    rw [object, h.expect_cons (by decide), Outcome.ok_bind]
    simp only
    rw [if_neg]
    · exact ih fuel (Nat.lt_succ_self _) hb' [] distinct hat
    · intro hp
      obtain ⟨tail, ht⟩ := (hat.peek_iff (by decide)).mp hp
      exact absurd (List.cons.inj ht).1 (by decide)

theorem value_reads {fuel : Nat} (harray : ∀ k < fuel, ReadsElements k)
    (hobject : ∀ k < fuel, ReadsMembers k) : ReadsValues (fuel + 1) := by
  intro text v hv rest hends depth p h
  by_cases hdepth : depth > maxDepth
  · obtain ⟨c, cs, rfl, _, _⟩ := hv.head
    rw [value_eq h, if_pos hdepth]
    exact Reads.err (by omega)
  have shallow : depth ≤ maxDepth := Nat.le_of_not_lt hdepth
  cases hv with
  | null =>
    obtain ⟨q, hq, hat⟩ := literal_reads "null" .null h
    rw [value_eq h, if_neg hdepth]
    simp only [Char.reduceEq, if_false, if_true, hq]
    exact Reads.ok shallow hat
  | true =>
    obtain ⟨q, hq, hat⟩ := literal_reads "true" (.bool true) h
    rw [value_eq h, if_neg hdepth]
    simp only [Char.reduceEq, if_false, if_true, hq]
    exact Reads.ok shallow hat
  | false =>
    obtain ⟨q, hq, hat⟩ := literal_reads "false" (.bool false) h
    rw [value_eq h, if_neg hdepth]
    simp only [Char.reduceEq, if_false, if_true, hq]
    exact Reads.ok shallow hat
  | number hn =>
    obtain ⟨c, cs, rfl, hc⟩ := number_head hn
    obtain ⟨q, hq, hat⟩ := number_reads hn hends h
    rw [value_number h hdepth hc, hq]
    exact Reads.ok shallow hat
  | string hs =>
    obtain ⟨cs, rfl⟩ := hs.head
    have hread := string_reads hs h
    rw [value_eq h, if_neg hdepth]
    simp only [Char.reduceEq, if_false, if_true]
    exact hread.bind (fun _ => trivial) fun q _ hat => Reads.ok shallow hat
  | emptyArray hw =>
    have hread : Reads _ _ rest (array fuel depth p) := array_empty hw fuel h
    rw [value_eq h, if_neg hdepth]
    simp only [Char.reduceEq, if_false, if_true]
    exact hread.fits shallow
  | array hb =>
    have hread : Reads _ _ rest (array fuel depth p) := array_reads harray hb h
    rw [value_eq h, if_neg hdepth]
    simp only [Char.reduceEq, if_false, if_true]
    exact hread
  | emptyObject hw =>
    have hread : Reads _ _ rest (object fuel depth p) := object_empty hw fuel h
    rw [value_eq h, if_neg hdepth]
    simp only [Char.reduceEq, if_true]
    exact hread.fits shallow
  | object hb distinct =>
    have hread : Reads _ _ rest (object fuel depth p) :=
      object_reads hobject hb distinct h
    rw [value_eq h, if_neg hdepth]
    simp only [Char.reduceEq, if_true]
    exact hread

/-- One turn of the loop of `array`, up to the separator after the element. -/
theorem arrayLoop_turn {fuel : Nat} (ihv : ReadsValues fuel) {w text w' tail rest' : List Char}
    {c : Char} {v b : Value} {fits : Prop} {items : List Value} (hw : Ws w) (hv : IsValue text v)
    (hw' : Ws w') (hc : c = ',' ∨ c = ']') (h : p.At (w ++ text ++ w' ++ c :: tail))
    (part : fits → depth + 1 + v.depth ≤ maxDepth)
    (next : ∀ q : Parser, depth + 1 + v.depth ≤ maxDepth → q.At (c :: tail) → Reads fits b rest'
      (if q.peek = some ','.toUInt8 then arrayLoop fuel depth (q.advance 1) (items ++ [v])
       else if q.peek = some ']'.toUInt8 then .ok (.arr (items ++ [v]), q.advance 1)
       else .err (q.err "expected ',' or ']'"))) :
    Reads fits b rest' (arrayLoop (fuel + 1) depth p items) := by
  obtain ⟨d, ds, rfl, hd, _⟩ := hv.head
  have h : p.At (w ++ d :: (ds ++ (w' ++ c :: tail))) := by simpa using h
  have hat : p.skipWs.At (d :: ds ++ (w' ++ c :: tail)) := h.skipWs_cons hw hd
  have hends : NumberEnds (w' ++ c :: tail) := numberEnds_ws_cons hw' (hc.imp_right Or.inl)
  have hblank : ¬Blank c := by rcases hc with rfl | rfl <;> simp [Blank]
  rw [arrayLoop]
  exact (ihv hv hends hat).bind part fun q fit hq =>
    next q.skipWs fit (hq.skipWs_cons hw' hblank)

theorem elements_reads {fuel : Nat} (ihv : ReadsValues fuel) (ih : ReadsElements fuel) :
    ReadsElements (fuel + 1) := by
  intro body vs hb rest depth p items h
  cases hb with
  | @last w text w' v hw hv hw' =>
    refine arrayLoop_turn ihv hw hv hw' (Or.inr rfl) h ?_ fun q fit hq => ?_
    · rw [depthItems_cons]
      omega
    · rw [hq.peek_cons (by decide), if_neg (by decide), if_pos rfl]
      refine Reads.ok ?_ (hq.step (by decide))
      rw [depthItems_cons, depthItems]
      omega
  | @more w text w' later v vs hw hv hw' hl =>
    have h : p.At (w ++ text ++ w' ++ ',' :: (later ++ ']' :: rest)) := by simpa using h
    refine arrayLoop_turn ihv hw hv hw' (Or.inl rfl) h ?_ fun q fit hq => ?_
    · rw [depthItems_cons]
      omega
    · rw [hq.peek_cons (by decide), if_pos rfl, List.append_cons]
      refine (ih hl (items ++ [v]) (hq.step (by decide))).congr ?_
      rw [depthItems_cons]
      omega

theorem objectLoop_turn {fuel : Nat} (ihv : ReadsValues fuel)
    {w name w₁ w₂ text w₃ tail rest' : List Char} {c : Char} {key : String} {v b : Value}
    {fits : Prop} {obj : Object} (hw : Ws w) (hn : IsString name key) (h₁ : Ws w₁) (h₂ : Ws w₂)
    (hv : IsValue text v) (h₃ : Ws w₃) (hc : c = ',' ∨ c = '}')
    (h : p.At (w ++ name ++ w₁ ++ ':' :: (w₂ ++ text ++ w₃ ++ c :: tail)))
    (new : key ∉ obj.map Prod.fst) (part : fits → depth + 1 + v.depth ≤ maxDepth)
    (next : ∀ q : Parser, depth + 1 + v.depth ≤ maxDepth → q.At (c :: tail) → Reads fits b rest'
      (if q.peek = some ','.toUInt8 then objectLoop fuel depth (q.advance 1) (obj ++ [(key, v)])
       else if q.peek = some '}'.toUInt8 then .ok (.obj (obj ++ [(key, v)]), q.advance 1)
       else .err (q.err "expected ',' or '\x7d'"))) :
    Reads fits b rest' (objectLoop (fuel + 1) depth p obj) := by
  obtain ⟨d, ds, rfl, hd, _⟩ := hv.head
  obtain ⟨ns, rfl⟩ := hn.head
  have h : p.At (w ++ '"' :: (ns ++ (w₁ ++ ':' :: (w₂ ++ d :: (ds ++ (w₃ ++ c :: tail)))))) := by
    simpa using h
  have hname : p.skipWs.At ('"' :: (ns ++ (w₁ ++ ':' :: (w₂ ++ d :: (ds ++ (w₃ ++ c :: tail)))))) :=
    h.skipWs_cons hw (by simp [Blank])
  have hends : NumberEnds (w₃ ++ c :: tail) := numberEnds_ws_cons h₃ (hc.imp_right Or.inr)
  have hblank : ¬Blank c := by rcases hc with rfl | rfl <;> simp [Blank]
  rw [objectLoop]
  simp only
  rw [if_neg (not_not_intro (hname.peek_cons (by decide)))]
  refine (string_reads hn hname).bind (fun _ => trivial) fun q _ hq => ?_
  have hcolon := hq.skipWs_cons h₁ (by simp [Blank])
  simp only [hcolon.expect_cons (by decide), Outcome.ok_bind]
  have hvalue : (q.skipWs.advance 1).skipWs.At (d :: ds ++ (w₃ ++ c :: tail)) :=
    (hcolon.step (by decide)).skipWs_cons h₂ hd
  refine (ihv hv hends hvalue).bind part fun r fit hr => ?_
  simp only [Object.insert_new v new]
  exact next r.skipWs fit (hr.skipWs_cons h₃ hblank)

theorem members_reads {fuel : Nat} (ihv : ReadsValues fuel) (ih : ReadsMembers fuel) :
    ReadsMembers (fuel + 1) := by
  intro body fs hb rest depth p obj distinct h
  cases hb with
  | @last w name w₁ w₂ text w₃ key v hw hn h₁ h₂ hv h₃ =>
    have h : p.At (w ++ name ++ w₁ ++ ':' :: (w₂ ++ text ++ w₃ ++ '}' :: rest)) := by
      simpa using h
    refine objectLoop_turn ihv hw hn h₁ h₂ hv h₃ (Or.inr rfl) h (new_key distinct) ?_
      fun q fit hq => ?_
    · rw [depthFields_cons]
      omega
    · rw [hq.peek_cons (by decide), if_neg (by decide), if_pos rfl]
      refine Reads.ok ?_ (hq.step (by decide))
      rw [depthFields_cons, depthFields]
      omega
  | @more w name w₁ w₂ text w₃ later key v fs hw hn h₁ h₂ hv h₃ hl =>
    have h : p.At (w ++ name ++ w₁ ++ ':' :: (w₂ ++ text ++ w₃ ++
        ',' :: (later ++ '}' :: rest))) := by simpa using h
    refine objectLoop_turn ihv hw hn h₁ h₂ hv h₃ (Or.inl rfl) h (new_key distinct) ?_
      fun q fit hq => ?_
    · rw [depthFields_cons]
      omega
    · rw [hq.peek_cons (by decide), if_pos rfl, List.append_cons]
      refine (ih hl (obj ++ [(key, v)]) (by rwa [← List.append_cons])
        (hq.step (by decide))).congr ?_
      rw [depthFields_cons]
      omega

theorem calls_read (fuel : Nat) :
    ReadsValues fuel ∧ ReadsElements fuel ∧ ReadsMembers fuel := by
  induction fuel using Nat.strongRecOn with
  | ind fuel ih =>
    cases fuel with
    | zero =>
      refine ⟨?_, ?_, ?_⟩
      · intro text v _ rest _ depth p _
        rw [value]
        exact Reads.spin
      · intro body vs _ rest depth p items _
        rw [arrayLoop]
        exact Reads.spin
      · intro body fs _ rest depth p obj _ _
        rw [objectLoop]
        exact Reads.spin
    | succ fuel =>
      obtain ⟨ihv, ihe, ihm⟩ := ih fuel (Nat.lt_succ_self _)
      exact ⟨value_reads (fun k hk => (ih k (Nat.lt_succ_of_lt hk)).2.1)
          fun k hk => (ih k (Nat.lt_succ_of_lt hk)).2.2,
        elements_reads ihv ihe, members_reads ihv ihm⟩

end Parser

/-- A document is read back when it fits, and refused when it does not. -/
theorem parse_document [Unicode] {s : String} {v : Value} (hd : IsDocument s.toList v) :
    (v.depth ≤ maxDepth → parse s = .ok v) ∧
      (maxDepth < v.depth → ∃ e, parse s = .err e) := by
  generalize hcs : s.toList = cs at hd
  have start := Parser.at_start s
  have total := parse_sat s
  rw [hcs] at start
  cases hd with
  | @mk w text w' _ hw hv hw' =>
    obtain ⟨c, cs, rfl, hc, _⟩ := hv.head
    have start : (Parser.mk (asBytes s) 0).At (w ++ c :: (cs ++ w')) := by simpa using start
    have hat : (Parser.mk (asBytes s) 0).skipWs.At (c :: cs ++ w') := start.skipWs_cons hw hc
    have hends : NumberEnds w' := by simpa using numberEnds_ws hw' numberEnds_nil
    have hread : Reads (0 + v.depth ≤ maxDepth) v w' _ :=
      (Parser.calls_read (parseFuel (Parser.mk (asBytes s) 0).skipWs.b)).1 hv hends hat
    rw [parse] at total ⊢
    simp only at total ⊢
    rcases hread with hspin | ⟨fit, q, hq, hqat⟩ | ⟨unfit, e, he⟩
    · rw [hspin] at total
      exact total.elim
    · rw [hq, Outcome.ok_bind]
      simp only
      have hstop := (hqat.skipWs_end hw').rest_length
      rw [utf8_nil, List.length_nil] at hstop
      rw [if_neg (by omega)]
      exact ⟨fun _ => rfl, fun deep => by omega⟩
    · rw [he]
      exact ⟨fun shallow => by omega, fun _ => ⟨e, rfl⟩⟩

end Json
