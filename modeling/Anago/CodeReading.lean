import Anago.JoinCode
import Mathlib.Data.List.GetD
import Mathlib.Data.List.TakeWhile
import Mathlib.Data.Set.Function

/-!
# How a join code is read

What counts in a typed code are its characters other than hyphens and whitespace, in
capitals. A code is read from eight of the alphabet. A character outside it is named, unless
nine characters of the alphabet come before it.
-/

open StdText

namespace JoinCode

def skipped (c : Char) : Bool := c = '-' || isWhitespace c

/-- What counts in a typed code, as typed. -/
def typed (input : String) : List Char := input.toList.filter fun c => !skipped c

def capitals (cs : List Char) : List Char := cs.map toAsciiUppercase

def inAlphabet (c : Char) : Bool := decide (toAsciiUppercase c ∈ alphabet)

/-- `XXXX-XXXX`. -/
def grouped (chars : List Char) : String :=
  String.ofList (chars.take groupLen ++ '-' :: chars.drop groupLen)

/-- A code is read exactly, and the character to blame is named. -/
structure ReadsExactly (input : String) : Prop where
  accepted : ∀ code, parse input = .ok code ↔
    (typed input).length = codeLen ∧ (typed input).all inAlphabet = true ∧
      code.asStr = grouped (capitals (typed input))
  named : ∀ c, parse input = .error (.badChar c) ↔
    (typed input).find? (fun c => !inAlphabet c) = some c
  sized : (∃ n, parse input = .error (.wrongLength n)) ↔
    (typed input).length ≠ codeLen ∧ (typed input).all inAlphabet = true

/-- A character outside the alphabet comes after more of it than a code has. -/
def lateStranger (input : String) : Bool :=
  let front := (typed input).takeWhile inAlphabet
  codeLen < front.length && front.length < (typed input).length

theorem significant_typed (input kept : List Char) :
    significant input kept = significant (input.filter fun c => !skipped c) kept := by
  induction input generalizing kept with
  | nil => rfl
  | cons c rest ih =>
    by_cases skip : c = '-' ∨ isWhitespace c
    · have gone : skipped c = true := by simpa [skipped] using skip
      rw [significant, if_pos skip, ih, List.filter_cons_of_neg (by simp [gone])]
    · have stays : (!skipped c) = true := by simpa [skipped] using skip
      have same : (c :: rest).filter (fun c => !skipped c) = c :: rest.filter fun c => !skipped c :=
        List.filter_cons_of_pos stays
      rw [same, significant, significant, if_neg skip, if_neg skip]
      simp only [ih]

theorem skip_false {input : String} {c : Char} (h : c ∈ typed input) :
    ¬(c = '-' ∨ isWhitespace c) := by
  have stays := (List.mem_filter.mp h).2
  simpa [skipped] using stays

/-- Characters of the alphabet are kept while there is room. -/
theorem significant_good {front rest kept : List Char}
    (count : ∀ c ∈ front, ¬(c = '-' ∨ isWhitespace c)) (good : ∀ c ∈ front, inAlphabet c = true)
    (room : kept.length ≤ codeLen) :
    significant (front ++ rest) kept =
      if kept.length + front.length ≤ codeLen then significant rest (kept ++ capitals front)
      else .error (.wrongLength (codeLen + 1)) := by
  induction front generalizing kept with
  | nil => simp [capitals, room]
  | cons c front ih =>
    have here : toAsciiUppercase c ∈ alphabet := of_decide_eq_true (good c List.mem_cons_self)
    rw [List.cons_append, significant, if_neg (count c List.mem_cons_self)]
    simp only [not_not_intro here, if_false]
    by_cases full : kept.length = codeLen
    · rw [if_pos full, if_neg (by rw [full, List.length_cons]; omega)]
    · rw [if_neg full, ih (fun d hd => count d (List.mem_cons_of_mem c hd))
        (fun d hd => good d (List.mem_cons_of_mem c hd))
          (by rw [List.length_append, List.length_singleton]; omega)]
      have sum : (kept ++ [toAsciiUppercase c]).length + front.length =
          kept.length + (c :: front).length := by
        simp only [List.length_append, List.length_cons, List.length_nil]
        omega
      rw [sum, List.append_assoc, List.singleton_append]
      rfl

theorem significant_front {front : List Char} (rest : List Char)
    (count : ∀ c ∈ front, ¬(c = '-' ∨ isWhitespace c)) (good : ∀ c ∈ front, inAlphabet c = true) :
    significant (front ++ rest) [] =
      if front.length ≤ codeLen then significant rest (capitals front)
        else .error (.wrongLength (codeLen + 1)) := by
  have scan := @significant_good front rest [] count good (Nat.zero_le codeLen)
  simpa using scan

theorem significant_stranger {c : Char} {rest kept : List Char}
    (counts : ¬(c = '-' ∨ isWhitespace c)) (bad : inAlphabet c = false) :
    significant (c :: rest) kept = .error (.badChar c) := by
  have out : toAsciiUppercase c ∉ alphabet := of_decide_eq_false bad
  rw [significant, if_neg counts]
  simp only [out, not_false_eq_true, if_true]

theorem parse_error {input : String} {e : CodeError} (h : significant (typed input) [] = .error e) :
    parse input = .error e := by
  have read := (significant_typed input.toList []).trans h
  rw [parse]
  split
  · next other hother => rw [Except.error.inj (hother.symm.trans read)]
  · next chars hchars => cases hchars.symm.trans read

theorem parse_sized {input : String} {chars : List Char}
    (h : significant (typed input) [] = .ok chars) :
    (chars.length = codeLen → ∃ code, parse input = .ok code ∧ code.asStr = grouped chars) ∧
      (chars.length ≠ codeLen → parse input = .error (.wrongLength chars.length)) := by
  have read := (significant_typed input.toList []).trans h
  rw [parse]
  split
  · next other hother => cases hother.symm.trans read
  · next kept hkept =>
    obtain rfl := Except.ok.inj (hkept.symm.trans read)
    constructor
    · intro len
      rw [dif_pos len]
      exact ⟨_, rfl, rfl⟩
    · intro len
      rw [dif_neg len]

/-- What there can be in a typed code. -/
inductive Read (input : String) : Prop
  | whole (code : JoinCode) (good : (typed input).all inAlphabet = true)
    (len : (typed input).length = codeLen)
      (same : code.asStr = grouped (capitals (typed input))) (ok : parse input = .ok code)
  | sized (n : Nat) (good : (typed input).all inAlphabet = true)
    (len : (typed input).length ≠ codeLen)
      (error : parse input = .error (.wrongLength n))
  | stranger (front back : List Char) (c : Char) (split : typed input = front ++ c :: back)
      (good : ∀ d ∈ front, inAlphabet d = true) (bad : inAlphabet c = false)
      (error : parse input = .error (if front.length ≤ codeLen then .badChar c
        else .wrongLength (codeLen + 1)))

theorem read_typed (input : String) : Read input := by
  have count : ∀ c ∈ typed input, ¬(c = '-' ∨ isWhitespace c) := fun c hc => skip_false hc
  cases found : (typed input).find? fun c => !inAlphabet c with
  | none =>
    have good : ∀ c ∈ typed input, inAlphabet c = true := by
      intro c hc
      simpa using List.find?_eq_none.mp found c hc
    have all : (typed input).all inAlphabet = true := List.all_eq_true.mpr good
    have scan := significant_front [] count good
    rw [List.append_nil, significant] at scan
    have size : (capitals (typed input)).length = (typed input).length := List.length_map ..
    by_cases room : (typed input).length ≤ codeLen
    · rw [if_pos room] at scan
      obtain ⟨ok, short⟩ := parse_sized scan
      by_cases len : (typed input).length = codeLen
      · obtain ⟨code, hparse, same⟩ := ok (size.trans len)
        exact .whole code all len same hparse
      · exact .sized _ all len (short (by rwa [size]))
    · rw [if_neg room] at scan
      exact .sized _ all (by omega) (parse_error scan)
  | some c =>
    obtain ⟨bad, front, back, split, good⟩ := List.find?_eq_some_iff_append.mp found
    have bad : inAlphabet c = false := by simpa using bad
    have good : ∀ d ∈ front, inAlphabet d = true := fun d hd => by simpa using good d hd
    rw [split] at count
    have scan := significant_front (c :: back)
      (fun d hd => count d (List.mem_append_left _ hd)) good
    rw [significant_stranger (count c (by simp)) bad, ← split] at scan
    refine .stranger front back c split good bad (parse_error (scan.trans ?_))
    split <;> rfl

theorem takeWhile_split {front back : List Char} {c : Char}
    (good : ∀ d ∈ front, inAlphabet d = true) (bad : inAlphabet c = false) :
    (front ++ c :: back).takeWhile inAlphabet = front := by
  rw [List.takeWhile_append_of_pos good, List.takeWhile_cons_of_neg (by simp [bad]),
    List.append_nil]

theorem no_stranger {input : String} (good : (typed input).all inAlphabet = true) :
    (typed input).find? (fun c => !inAlphabet c) = none ∧ lateStranger input = false := by
  have all := List.all_eq_true.mp good
  constructor
  · rw [List.find?_eq_none]
    intro c hc
    simpa using all c hc
  · simp [lateStranger, List.takeWhile_eq_self_iff.mpr all]

/-- What is accepted, and as which code. -/
theorem parse_ok_iff (input : String) (code : JoinCode) :
    parse input = .ok code ↔ (typed input).length = codeLen ∧ (typed input).all inAlphabet = true ∧
      code.asStr = grouped (capitals (typed input)) := by
  cases read_typed input with
  | whole read good len same ok =>
    rw [ok]
    constructor
    · intro h
      rw [← Except.ok.inj h]
      exact ⟨len, good, same⟩
    · rintro ⟨_, _, h⟩
      rw [ext_text (same.trans h.symm)]
  | sized n good len error =>
    rw [error]
    simp [len]
  | stranger front back c split good bad error =>
    have notAll : (typed input).all inAlphabet = false := by
      rw [split, List.all_append, List.all_cons, bad]
      simp
    rw [error, notAll]
    split <;> simp

/-- Reading is exact for a text just if no stranger comes late in it. -/
theorem readsExactly_iff (input : String) : ReadsExactly input ↔ lateStranger input = false := by
  have accepted := parse_ok_iff input
  cases read_typed input with
  | whole code good len same ok =>
    obtain ⟨none, early⟩ := no_stranger good
    refine iff_of_true ⟨accepted, fun c => ?_, ?_⟩ early
    · rw [ok, none]
      simp
    · rw [ok]
      simp [len]
  | sized n good len error =>
    obtain ⟨none, early⟩ := no_stranger good
    refine iff_of_true ⟨accepted, fun c => ?_, ?_⟩ early
    · rw [error, none]
      simp
    · rw [error]
      simpa [len] using good
  | stranger front back c split good bad error =>
    have found : (typed input).find? (fun c => !inAlphabet c) = some c := by
      rw [List.find?_eq_some_iff_append]
      exact ⟨by simp [bad], front, back, split, fun d hd => by simp [good d hd]⟩
    have notAll : (typed input).all inAlphabet = false := by
      rw [split, List.all_append, List.all_cons, bad]
      simp
    have late : lateStranger input = decide (codeLen < front.length) := by
      rw [lateStranger, split, takeWhile_split good bad]
      simp
    by_cases early : front.length ≤ codeLen
    · rw [if_pos early] at error
      refine iff_of_true ⟨accepted, fun d => ?_, ?_⟩ (by rw [late]; simpa using early)
      · rw [error, found]
        simp
      · rw [error, notAll]
        simp
    · rw [if_neg early] at error
      refine iff_of_false (fun exact => ?_) (by rw [late]; simpa using early)
      have := (exact.named c).mpr found
      rw [error] at this
      cases this

theorem grouped_injective {a b : List Char} (same : a.length = b.length)
    (h : grouped a = grouped b) : a = b := by
  have texts := String.ofList_injective h
  obtain ⟨first, rest⟩ := List.append_inj texts (by rw [List.length_take, List.length_take, same])
  rw [← List.take_append_drop groupLen a, ← List.take_append_drop groupLen b, first,
    (List.cons.inj rest).2]

theorem inAlphabet_capitals {a b : List Char} (h : capitals a = capitals b) :
    a.all inAlphabet = b.all inAlphabet := by
  have through : ∀ cs : List Char, cs.all inAlphabet = (capitals cs).all fun c =>
      decide (c ∈ alphabet) := by
    intro cs
    rw [capitals, List.all_map]
    rfl
  rw [through, through, h]

/-- Two texts are one code if they agree up to case, hyphens and whitespace. -/
theorem parse_same_iff {first second : String} {code : JoinCode} (h : parse first = .ok code) :
    parse second = .ok code ↔ capitals (typed second) = capitals (typed first) := by
  obtain ⟨len, good, same⟩ := (parse_ok_iff first code).mp h
  rw [parse_ok_iff]
  constructor
  · rintro ⟨len', _, same'⟩
    refine grouped_injective ?_ (same'.symm.trans same)
    rw [capitals, capitals, List.length_map, List.length_map, len, len']
  · intro agree
    have lengths := congrArg List.length agree
    rw [capitals, capitals, List.length_map, List.length_map] at lengths
    rw [agree, lengths, inAlphabet_capitals agree]
    exact ⟨len, good, same⟩

/-- The positions a code can be drawn from. -/
def positions : Set (List Nat) :=
  {indices | indices.length = codeLen ∧ ∀ i ∈ indices, i < alphabet.length}

theorem mapM_positions {indices : List Nat} (h : ∀ i ∈ indices, i < alphabet.length) :
    indices.mapM (alphabet[·]?) = some (indices.map alphabet.getI) := by
  induction indices with
  | nil => rfl
  | cons i indices ih =>
    have here := h i List.mem_cons_self
    rw [List.mapM_cons, ih fun j hj => h j (List.mem_cons_of_mem i hj),
      List.getElem?_eq_getElem here, List.map_cons, List.getI_eq_getElem _ here]
    rfl

theorem fromIndices_positions {indices : List Nat} (h : indices ∈ positions) :
    ∃ code, fromIndices indices = some code ∧ code.asStr = grouped (indices.map alphabet.getI) := by
  obtain ⟨len, valid⟩ := h
  have drawn := mapM_positions valid
  rw [fromIndices, dif_pos len]
  split
  · next none => cases none.symm.trans drawn
  · next chars some =>
    rw [← Option.some.inj (some.symm.trans drawn)]
    exact ⟨_, rfl, rfl⟩

/-- Every parsed code is drawn from one list of positions, and every list gives one. -/
theorem fromIndices_bijOn :
    Set.BijOn fromIndices positions (some '' {code | ∃ input, parse input = .ok code}) := by
  have nodup : alphabet.Nodup := by decide
  refine ⟨?_, ?_, ?_⟩
  · intro indices h
    obtain ⟨code, drawn, _⟩ := fromIndices_positions h
    exact ⟨code, ⟨code.asStr, parse_asStr code⟩, drawn.symm⟩
  · intro first hfirst second hsecond h
    obtain ⟨code, drawn, text⟩ := fromIndices_positions hfirst
    obtain ⟨code', drawn', text'⟩ := fromIndices_positions hsecond
    obtain rfl := Option.some.inj (drawn.symm.trans (h.trans drawn'))
    have chars := grouped_injective (by rw [List.length_map, List.length_map, hfirst.1, hsecond.1])
      (text.symm.trans text')
    refine List.ext_getElem (hfirst.1.trans hsecond.1.symm) fun n hn hn' => ?_
    have valid := hfirst.2 _ (List.getElem_mem hn)
    have valid' := hsecond.2 _ (List.getElem_mem hn')
    have here : alphabet.getI first[n] = alphabet.getI second[n] := by
      have at_n := congrArg (·[n]?) chars
      simpa [hn, hn'] using at_n
    rw [List.getI_eq_getElem _ valid, List.getI_eq_getElem _ valid'] at here
    exact (List.getElem_inj nodup).mp here
  · rintro _ ⟨code, _, rfl⟩
    obtain ⟨text, chars, len, member, rfl⟩ := code
    have back : (chars.map alphabet.idxOf).map alphabet.getI = chars := by
      rw [List.map_map]
      refine (List.map_congr_left fun c hc => ?_).trans (List.map_id chars)
      have there := List.idxOf_lt_length_of_mem (member c hc)
      rw [Function.comp_apply, List.getI_eq_getElem _ there, List.getElem_idxOf there, id]
    have valid : chars.map alphabet.idxOf ∈ positions := by
      refine ⟨by rw [List.length_map, len], fun i hi => ?_⟩
      obtain ⟨c, hc, rfl⟩ := List.mem_map.mp hi
      exact List.idxOf_lt_length_of_mem (member c hc)
    obtain ⟨drawn, hdrawn, text⟩ := fromIndices_positions valid
    refine ⟨chars.map alphabet.idxOf, valid, hdrawn.trans ?_⟩
    rw [back] at text
    exact congrArg some (ext_text text)

/-- Reading is exact just where no stranger comes late; what is read is read again as itself,
and codes are told apart by their capitals. -/
theorem parse_reads_exactly (input : String) :
    (ReadsExactly input ↔ lateStranger input = false) ∧
    (∀ code, parse input = .ok code → parse code.asStr = .ok code) ∧
    (∀ second code, parse input = .ok code →
      (parse second = .ok code ↔ capitals (typed second) = capitals (typed input))) ∧
    Set.BijOn fromIndices positions (some '' {code | ∃ text, parse text = .ok code}) :=
  ⟨readsExactly_iff input, fun code _ => parse_asStr code, fun _ _ h => parse_same_iff h,
    fromIndices_bijOn⟩

/-- A ninth character hides the stranger after it. -/
theorem late_stranger_not_named :
    ¬ReadsExactly "ABCDEFGHJO" ∧ (typed "ABCDEFGHJO").find? (fun c => !inAlphabet c) = some 'O' ∧
      parse "ABCDEFGHJO" = .error (.wrongLength 9) := by
  refine ⟨?_, by decide, parse_error (by decide)⟩
  rw [readsExactly_iff]
  decide

end JoinCode
