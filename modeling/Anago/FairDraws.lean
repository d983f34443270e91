import Mathlib

/-!
# Fair draws

Labels are drawn from a stream of symbols: a symbol gives its label or is passed. Where symbols
can be relabelled, any two words of labels come from equally many streams.
-/

universe u v

namespace FairDraws

variable {α : Type u} {β : Type v} (accept : α → Option β)

/-- The first `k` labels of a stream. -/
def drawn : Nat → List α → Option (List β)
  | 0, _ => some []
  | _ + 1, [] => none
  | k + 1, a :: stream =>
    match accept a with
    | none => drawn (k + 1) stream
    | some b => (drawn k stream).map (b :: ·)

/-- `f` is its own inverse and changes the label `b` into `b'`, and `b'` into `b`. -/
structure Relabels [DecidableEq β] (f : α → α) (b b' : β) : Prop where
  twice : ∀ a, f (f a) = a
  label : ∀ a, accept (f a) = (accept a).map (Equiv.swap b b')

/-- Relabels the symbols that are drawn, the first by the first pair and so on. -/
def retarget (relabel : β → β → α → α) : List (β × β) → List α → List α
  | [], stream => stream
  | _ :: _, [] => []
  | (b, b') :: pairs, a :: stream =>
    match accept a with
    | none => a :: retarget relabel ((b, b') :: pairs) stream
    | some _ => relabel b b' a :: retarget relabel pairs stream

variable {accept} {relabel : β → β → α → α}

@[simp] theorem length_retarget (pairs : List (β × β)) (stream : List α) :
    (retarget accept relabel pairs stream).length = stream.length := by
  induction pairs, stream using retarget.induct accept with
  | case1 stream => rw [retarget]
  | case2 pair pairs => rw [retarget]
  | case3 b b' pairs a stream passed ih =>
    rw [retarget, passed]
    exact congrArg (· + 1) ih
  | case4 b b' pairs a stream label found ih =>
    rw [retarget, found]
    exact congrArg (· + 1) ih

variable [DecidableEq β]

theorem retarget_retarget {pairs : List (β × β)}
    (h : ∀ pair ∈ pairs, Relabels accept (relabel pair.1 pair.2) pair.1 pair.2) (stream : List α) :
    retarget accept relabel pairs (retarget accept relabel pairs stream) = stream := by
  induction pairs, stream using retarget.induct accept with
  | case1 stream => rw [retarget, retarget]
  | case2 pair pairs => rw [retarget, retarget]
  | case3 b b' pairs a stream passed ih =>
    rw [retarget, passed]
    simp only
    rw [retarget, passed]
    exact congrArg (a :: ·) (ih h)
  | case4 b b' pairs a stream label found ih =>
    obtain ⟨twice, relabelled⟩ := h (b, b') List.mem_cons_self
    rw [retarget, found]
    simp only at twice relabelled ⊢
    rw [retarget, relabelled, found]
    simp only [Option.map_some, twice]
    exact congrArg (a :: ·) (ih fun pair there => h pair (List.mem_cons_of_mem _ there))

/-- Relabelling a stream relabels what is drawn from it. -/
theorem drawn_retarget {pairs : List (β × β)}
    (h : ∀ pair ∈ pairs, Relabels accept (relabel pair.1 pair.2) pair.1 pair.2) (stream : List α) :
    drawn accept pairs.length (retarget accept relabel pairs stream) =
      (drawn accept pairs.length stream).map
        (List.zipWith (fun pair b => Equiv.swap pair.1 pair.2 b) pairs) := by
  induction pairs, stream using retarget.induct accept with
  | case1 stream => rw [List.length_nil, drawn, drawn]; rfl
  | case2 pair pairs => rw [retarget, List.length_cons, drawn]; rfl
  | case3 b b' pairs a stream passed ih =>
    rw [retarget, passed, List.length_cons, drawn, drawn, passed]
    exact ih h
  | case4 b b' pairs a stream label found ih =>
    obtain ⟨_, relabelled⟩ := h (b, b') List.mem_cons_self
    simp only at relabelled
    rw [retarget, found, List.length_cons, drawn, drawn, relabelled, found]
    simp only [Option.map_some, ih fun pair there => h pair (List.mem_cons_of_mem _ there),
      Option.map_map]
    rfl

omit [DecidableEq β] in
theorem zipWith_left {word word' : List β} (same : word.length = word'.length) {f : β × β → β → β}
    (h : ∀ b b', f (b, b') b = b') : List.zipWith f (word.zip word') word = word' := by
  induction word generalizing word' with
  | nil =>
    rw [List.length_eq_zero_iff.mp same.symm]
    rfl
  | cons b word ih =>
    cases word' with
    | nil => cases same
    | cons b' word' =>
      rw [List.zip_cons_cons, List.zipWith_cons_cons, h, ih (Nat.succ.inj same)]

omit [DecidableEq β] in
theorem zipWith_right {word word' : List β} (same : word.length = word'.length) {f : β × β → β → β}
    (h : ∀ b b', f (b, b') b' = b) : List.zipWith f (word.zip word') word' = word := by
  induction word generalizing word' with
  | nil => rfl
  | cons b word ih =>
    cases word' with
    | nil => cases same
    | cons b' word' =>
      rw [List.zip_cons_cons, List.zipWith_cons_cons, h, ih (Nat.succ.inj same)]

/-- Where symbols can be relabelled, any two words come from equally many streams of a length. -/
theorem equally_drawn {good : β → Prop}
    (h : ∀ b b', good b → good b' → Relabels accept (relabel b b') b b')
    {word word' : List β} (same : word.length = word'.length) (fine : ∀ b ∈ word, good b)
    (fine' : ∀ b ∈ word', good b) (n : Nat) :
    Nonempty ({stream : List α // stream.length = n ∧ drawn accept word.length stream = some word} ≃
      {stream : List α // stream.length = n ∧ drawn accept word.length stream = some word'}) := by
  let pairs := word.zip word'
  have count : pairs.length = word.length := by
    rw [List.length_zip]
    omega
  have fair : ∀ pair ∈ pairs, Relabels accept (relabel pair.1 pair.2) pair.1 pair.2 := by
    rintro ⟨b, b'⟩ there
    obtain ⟨left, right⟩ := List.of_mem_zip there
    exact h b b' (fine b left) (fine' b' right)
  have to_word' {stream : List α} (drew : drawn accept word.length stream = some word) :
      drawn accept word.length (retarget accept relabel pairs stream) = some word' := by
    rw [← count, drawn_retarget fair, count, drew]
    exact congrArg some (zipWith_left same fun b b' => Equiv.swap_apply_left b b')
  have to_word {stream : List α} (drew : drawn accept word.length stream = some word') :
      drawn accept word.length (retarget accept relabel pairs stream) = some word := by
    rw [← count, drawn_retarget fair, count, drew]
    exact congrArg some (zipWith_right same fun b b' => Equiv.swap_apply_right b b')
  exact ⟨{
    toFun := fun stream => ⟨retarget accept relabel pairs stream.1,
      (length_retarget pairs stream.1).trans stream.2.1, to_word' stream.2.2⟩
    invFun := fun stream => ⟨retarget accept relabel pairs stream.1,
      (length_retarget pairs stream.1).trans stream.2.1, to_word stream.2.2⟩
    left_inv := fun stream => Subtype.ext (retarget_retarget fair stream.1)
    right_inv := fun stream => Subtype.ext (retarget_retarget fair stream.1) }⟩

section

/-- At most `k` labels of a stream. -/
def taken (accept : α → Option β) : Nat → List α → List β
  | 0, _ => []
  | _ + 1, [] => []
  | k + 1, a :: stream =>
    match accept a with
    | none => taken accept (k + 1) stream
    | some b => b :: taken accept k stream

omit [DecidableEq β] in
/-- Labels are drawn from a first piece, and what is missing from the rest. -/
theorem drawn_append (k : Nat) (piece rest : List α) :
    drawn accept k (piece ++ rest) =
      (drawn accept (k - (taken accept k piece).length) rest).map (taken accept k piece ++ ·) := by
  induction k, piece using taken.induct accept with
  | case1 piece =>
    rw [taken, List.length_nil, Nat.sub_zero, drawn, drawn]
    rfl
  | case2 k =>
    rw [taken, List.nil_append]
    exact Option.map_id'.symm
  | case3 k a piece passed ih =>
    rw [List.cons_append, drawn, taken, passed]
    exact ih
  | case4 k a piece label found ih =>
    rw [List.cons_append, drawn, taken, found]
    simp only [ih, Option.map_map, List.length_cons, Nat.succ_eq_add_one, Nat.add_sub_add_right]
    rfl

omit [DecidableEq β] in
theorem length_taken_le (k : Nat) (stream : List α) : (taken accept k stream).length ≤ k := by
  induction k, stream using taken.induct accept with
  | case1 stream => rw [taken]; rfl
  | case2 k => rw [taken]; exact Nat.zero_le _
  | case3 k a stream passed ih => rwa [taken, passed]
  | case4 k a stream label found ih =>
    rw [taken, found, List.length_cons]
    omega

omit [DecidableEq β] in
theorem mem_taken {k : Nat} {stream : List α} {b : β} (h : b ∈ taken accept k stream) :
    ∃ a ∈ stream, accept a = some b := by
  induction k, stream using taken.induct accept with
  | case1 stream =>
    rw [taken] at h
    cases h
  | case2 k =>
    rw [taken] at h
    cases h
  | case3 k a stream passed ih =>
    rw [taken, passed] at h
    obtain ⟨a', inside, label⟩ := ih h
    exact ⟨a', List.mem_cons_of_mem _ inside, label⟩
  | case4 k a stream label found ih =>
    rw [taken, found] at h
    rcases List.mem_cons.mp h with rfl | h
    · exact ⟨a, List.mem_cons_self, found⟩
    · obtain ⟨a', inside, label⟩ := ih h
      exact ⟨a', List.mem_cons_of_mem _ inside, label⟩

omit [DecidableEq β] in
theorem drawn_eq_some {k : Nat} {stream : List α} {word : List β}
    (h : drawn accept k stream = some word) :
    word.length = k ∧ ∀ b ∈ word, ∃ a ∈ stream, accept a = some b := by
  induction k, stream using taken.induct accept generalizing word with
  | case1 stream =>
    rw [drawn] at h
    cases h
    exact ⟨rfl, by rintro _ ⟨⟩⟩
  | case2 k =>
    rw [drawn] at h
    cases h
  | case3 k a stream passed ih =>
    rw [drawn, passed] at h
    obtain ⟨len, labels⟩ := ih h
    refine ⟨len, fun b there => ?_⟩
    obtain ⟨a', inside, label⟩ := labels b there
    exact ⟨a', List.mem_cons_of_mem _ inside, label⟩
  | case4 k a stream label found ih =>
    rw [drawn, found] at h
    obtain ⟨rest, here, rfl⟩ := Option.map_eq_some_iff.mp h
    obtain ⟨len, labels⟩ := ih here
    refine ⟨by rw [List.length_cons, len], fun b there => ?_⟩
    rcases List.mem_cons.mp there with rfl | there
    · exact ⟨a, List.mem_cons_self, found⟩
    · obtain ⟨a', inside, label⟩ := labels b there
      exact ⟨a', List.mem_cons_of_mem _ inside, label⟩

omit [DecidableEq β] in
/-- A stream that starts with symbols of a word draws this word. -/
theorem drawn_symbols {symbol : β → α} {word : List β}
    (h : ∀ b ∈ word, accept (symbol b) = some b) (rest : List α) :
    drawn accept word.length (word.map symbol ++ rest) = some word := by
  induction word with
  | nil =>
    rw [List.map_nil, List.length_nil, drawn]
  | cons b word ih =>
    rw [List.map_cons, List.cons_append, List.length_cons, drawn, h b List.mem_cons_self]
    simp only [ih fun b there => h b (List.mem_cons_of_mem _ there), Option.map_some]

omit [DecidableEq β] in
theorem splitLengths_flatten (blocks : List (List α)) :
    (blocks.map List.length).splitLengths blocks.flatten = blocks := by
  induction blocks with
  | nil => rfl
  | cons block blocks ih =>
    rw [List.map_cons, List.splitLengths_cons, List.flatten_cons, List.take_left,
      List.drop_left, ih]

omit [DecidableEq β] in
theorem length_flatten {lengths : List Nat} {blocks : List (List α)}
    (h : blocks.map List.length = lengths) :
    blocks.flatten.length = lengths.sum := by
  rw [List.length_flatten, h]

omit [DecidableEq β] in
theorem flatten_cut {lengths : List Nat} {stream : List α} (h : stream.length = lengths.sum) :
    (lengths.splitLengths stream).flatten = stream :=
  List.flatten_splitLengths _ _ (Nat.le_of_eq h)

omit [DecidableEq β] in
theorem cut_flatten {lengths : List Nat} {blocks : List (List α)}
    (h : blocks.map List.length = lengths) :
    lengths.splitLengths blocks.flatten = blocks := by
  rw [← h]
  exact splitLengths_flatten blocks

omit [DecidableEq β] in
/-- Blocks of given lengths are a stream that was cut. -/
theorem cut (lengths : List Nat) (P : List α → Prop) :
    Nonempty ({blocks : List (List α) // blocks.map List.length = lengths ∧ P blocks.flatten} ≃
      {stream : List α // stream.length = lengths.sum ∧ P stream}) :=
  ⟨{
    toFun := fun blocks => ⟨blocks.1.flatten, length_flatten blocks.2.1, blocks.2.2⟩
    invFun := fun stream => ⟨lengths.splitLengths stream.1,
      List.map_splitLengths_length _ _ (Nat.le_of_eq stream.2.1.symm),
      (flatten_cut stream.2.1).symm ▸ stream.2.2⟩
    left_inv := fun blocks => Subtype.ext (cut_flatten blocks.2.1)
    right_inv := fun stream => Subtype.ext (flatten_cut stream.2.1) }⟩

end

end FairDraws
