import Mathlib.Data.List.Basic

/-!
# Words and quotes

A text is cut into words at blanks. A quote opens a run that goes to the same character, and
a backslash takes the next character as it is. What differs between the programs that read
so is a parameter: which characters quote and separate, whether a backslash counts in a run,
and which characters mean something else.
-/

namespace QuotedWords

/-- How a program reads its words. -/
structure Rules where
  blank : Char → Bool
  quote : Char → Bool
  /-- Whether a backslash counts in a run. -/
  escapes : Bool
  /-- What no word can have outside a run. -/
  barred : Char → Bool

/-- A character of a word, and whether it was quoted. -/
structure Piece where
  char : Char
  quoted : Bool
  deriving DecidableEq, Repr

abbrev Word := List Piece

/-- The characters of a word. -/
def text (word : Word) : List Char := word.map Piece.char

inductive Mode where
  | plain
  | run (quote : Char)
  | literal (within : Option Char)
  deriving DecidableEq, Repr

/-- Where a character that was taken as it is leads back to. -/
def back : Option Char → Mode
  | none => .plain
  | some quote => .run quote

def push (word : Option Word) (c : Char) (quoted : Bool) : Option Word :=
  some (word.getD [] ++ [⟨c, quoted⟩])

/-- The words of a text, where one has been begun. -/
def scan (rules : Rules) : Mode → Option Word → List Char → Option (List Word)
  | .plain, word, [] => some word.toList
  | .run _, _, [] => none
  | .literal _, _, [] => none
  | .literal within, word, c :: rest => scan rules (back within) (push word c true) rest
  | .run quote, word, c :: rest =>
    if c = quote then scan rules .plain word rest
    else if rules.escapes && c = '\\' then scan rules (.literal (some quote)) word rest
    else scan rules (.run quote) (push word c true) rest
  | .plain, word, c :: rest =>
    if c = '\\' then scan rules (.literal none) word rest
    else if rules.quote c then scan rules (.run c) (some (word.getD [])) rest
    else if rules.blank c then (scan rules .plain none rest).map (word.toList ++ ·)
    else if rules.barred c then none
    else scan rules .plain (push word c false) rest

def words (rules : Rules) (cs : List Char) : Option (List Word) := scan rules .plain none cs

variable {rules : Rules}

/-- A text that is read as pieces of the word it is in. -/
def Takes (rules : Rules) (cs : List Char) (pieces : Word) : Prop :=
  ∀ word rest, scan rules .plain word (cs ++ rest) =
    scan rules .plain (some (word.getD [] ++ pieces)) rest

theorem Takes.append {cs ds : List Char} {pieces pieces' : Word} (first : Takes rules cs pieces)
    (second : Takes rules ds pieces') : Takes rules (cs ++ ds) (pieces ++ pieces') := by
  intro word rest
  rw [List.append_assoc, first, second, Option.getD_some, List.append_assoc]

/-- A character that means itself outside a run. -/
def ordinary (rules : Rules) (c : Char) : Bool :=
  c != '\\' && !rules.quote c && !rules.blank c && !rules.barred c

theorem scan_ordinary {c : Char} (h : ordinary rules c = true) (word : Option Word)
    (rest : List Char) :
    scan rules .plain word (c :: rest) = scan rules .plain (push word c false) rest := by
  simp only [ordinary, Bool.and_eq_true, bne_iff_ne, Bool.not_eq_true'] at h
  obtain ⟨⟨⟨escape, quote⟩, blank⟩, barred⟩ := h
  simp [scan, escape, quote, blank, barred]

/-- The word of characters that stand for themselves. -/
def plainly (cs : List Char) : Word := cs.map fun c => ⟨c, false⟩

/-- The word of characters in a run. -/
def quotedly (cs : List Char) : Word := cs.map fun c => ⟨c, true⟩

@[simp] theorem text_nil : text [] = [] := rfl

@[simp] theorem text_plainly (cs : List Char) : text (plainly cs) = cs := by
  rw [text, plainly, List.map_map]
  exact List.map_id cs

@[simp] theorem text_quotedly (cs : List Char) : text (quotedly cs) = cs := by
  rw [text, quotedly, List.map_map]
  exact List.map_id cs

@[simp] theorem text_append (word word' : Word) :
    text (word ++ word') = text word ++ text word' := List.map_append

theorem takes_char {c : Char} (h : ordinary rules c = true) :
    Takes rules [c] [⟨c, false⟩] := fun word rest =>
  scan_ordinary h word rest

theorem takes_plainly {cs : List Char} (filled : cs ≠ []) (h : cs.all (ordinary rules) = true) :
    Takes rules cs (plainly cs) := by
  induction cs with
  | nil => exact absurd rfl filled
  | cons c cs ih =>
    rw [List.all_cons, Bool.and_eq_true] at h
    cases cs with
    | nil => exact takes_char h.1
    | cons d cs => exact (takes_char h.1).append (ih (List.cons_ne_nil d cs) h.2)

/-- A text that is read as pieces of the run it is in. -/
def Runs (rules : Rules) (quote : Char) (cs : List Char) (pieces : Word) : Prop :=
  ∀ word rest, scan rules (.run quote) (some word) (cs ++ rest) =
    scan rules (.run quote) (some (word ++ pieces)) rest

theorem runs_nil (quote : Char) : Runs rules quote [] [] := fun word rest => by
  rw [List.nil_append, List.append_nil]

theorem Runs.append {quote : Char} {cs ds : List Char} {pieces pieces' : Word}
    (first : Runs rules quote cs pieces) (second : Runs rules quote ds pieces') :
    Runs rules quote (cs ++ ds) (pieces ++ pieces') := by
  intro word rest
  rw [List.append_assoc, first, second, List.append_assoc]

theorem runs_char {quote c : Char} (other : c ≠ quote) (h : rules.escapes = false ∨ c ≠ '\\') :
    Runs rules quote [c] [⟨c, true⟩] := by
  intro word rest
  have no : (rules.escapes && decide (c = '\\')) = false := by
    rcases h with h | h <;> simp [h]
  simp [scan, other, no, push]

theorem runs_escaped {quote : Char} (escapes : rules.escapes = true)
    (other : quote ≠ '\\') (c : Char) :
    Runs rules quote ['\\', c] [⟨c, true⟩] := by
  intro word rest
  simp [scan, escapes, Ne.symm other, push, back]

/-- A text that is written character by character is read so in a run. -/
theorem runs_flatMap {quote : Char} {f : Char → List Char} {cs : List Char}
    (each : ∀ c ∈ cs, Runs rules quote (f c) [⟨c, true⟩]) : Runs rules quote (cs.flatMap f)
    (quotedly cs) := by
  induction cs with
  | nil => exact runs_nil quote
  | cons c cs ih =>
    exact (each c List.mem_cons_self).append (ih fun d hd => each d (List.mem_cons_of_mem c hd))

/-- A whole run is part of a word. -/
theorem Runs.takes {quote : Char} {cs : List Char} {pieces : Word}
    (body : Runs rules quote cs pieces) (quotes : rules.quote quote = true) (other : quote ≠ '\\') :
    Takes rules (quote :: (cs ++ [quote])) pieces := by
  intro word rest
  have opened : scan rules .plain word (quote :: (cs ++ [quote] ++ rest)) =
      scan rules (.run quote) (some (word.getD [])) (cs ++ [quote] ++ rest) := by
    simp [scan, other, quotes]
  rw [List.cons_append, opened, List.append_assoc, body]
  simp [scan]

/-- A word and a blank, before more words. -/
theorem words_cons {cs rest : List Char} {word : Word} (h : Takes rules cs word)
    (separates : rules.blank ' ' = true) (open_ : rules.quote ' ' = false) :
    words rules (cs ++ ' ' :: rest) = (words rules rest).map (word :: ·) := by
  rw [words, h]
  simp [scan, separates, open_, words]

theorem words_last {cs : List Char} {word : Word} (h : Takes rules cs word) :
    words rules cs = some [word] := by
  have whole := h none []
  rw [List.append_nil] at whole
  rw [words, whole]
  simp [scan]

/-- How often a character is in some words. -/
def total (q : Char) (ws : List Word) : Nat := (ws.flatMap text).count q

theorem total_cons (q : Char) (word : Word) (ws : List Word) :
    total q (word :: ws) = (text word).count q + total q ws := by
  rw [total, List.flatMap_cons, List.count_append]
  rfl

theorem count_push (q c : Char) (word : Option Word) (quoted : Bool) :
    (text ((push word c quoted).getD [])).count q =
    (text (word.getD [])).count q + [c].count q := by
  rw [push, Option.getD_some, text_append, List.count_append]
  rfl

/-- Reading adds no character. -/
theorem total_scan (q : Char) {mode : Mode} {word : Option Word} {cs : List Char} {ws : List Word}
    (h : scan rules mode word cs = some ws) :
    total q ws ≤ (text (word.getD [])).count q + cs.count q := by
  induction cs generalizing mode word ws with
  | nil =>
    cases mode with
    | plain =>
      rw [scan] at h
      obtain rfl := Option.some.inj h
      cases word with
      | none => exact Nat.le_refl 0
      | some word =>
        rw [Option.toList_some, total_cons]
        exact Nat.le_refl _
    | run quote => cases h
    | literal within => cases h
  | cons c rest ih =>
    have one : (c :: rest).count q = [c].count q + rest.count q := by
      rw [← List.count_append]
      rfl
    have pushed : ∀ {mode quoted}, scan rules mode (push word c quoted) rest = some ws →
        total q ws ≤ (text (word.getD [])).count q + (c :: rest).count q := by
      intro mode quoted h
      have bound := ih h
      rw [count_push] at bound
      omega
    have dropped : ∀ {mode word'}, word'.getD [] = word.getD [] →
        scan rules mode word' rest = some ws →
        total q ws ≤ (text (word.getD [])).count q + (c :: rest).count q := by
      intro mode word' same h
      have bound := ih h
      rw [same] at bound
      omega
    cases mode with
    | literal within => exact pushed h
    | run quote =>
      rw [scan] at h
      split at h
      · exact dropped rfl h
      · split at h
        · exact dropped rfl h
        · exact pushed h
    | plain =>
      rw [scan] at h
      split at h
      · exact dropped rfl h
      split at h
      · refine dropped ?_ h
        rfl
      split at h
      · obtain ⟨later, hlater, rfl⟩ := Option.map_eq_some_iff.mp h
        have bound := ih hlater
        have nothing : (text (Option.getD none [])).count q = 0 := rfl
        cases word with
        | none =>
          rw [Option.toList_none, List.nil_append]
          omega
        | some word =>
          rw [Option.toList_some, List.singleton_append, total_cons, Option.getD_some]
          omega
      split at h
      · cases h
      · exact pushed h

/-- A text in which reading loses a `q`. -/
def Loses (rules : Rules) (q : Char) (cs : List Char) : Prop :=
  ∀ word rest ws, scan rules .plain word (cs ++ rest) = some ws →
    total q ws < (text (word.getD [])).count q + (cs ++ rest).count q

/-- A quote outside a run is not part of the word. -/
theorem loses_quote {q : Char} {front : List Char} (before : front.all (ordinary rules) = true)
    (quotes : rules.quote q = true) (other : q ≠ '\\') (later : List Char) :
    Loses rules q (front ++ q :: later) := by
  induction front with
  | nil =>
    intro word rest ws h
    rw [List.nil_append, List.cons_append, scan, if_neg other, if_pos quotes] at h
    have bound := total_scan q h
    rw [Option.getD_some] at bound
    rw [List.nil_append, List.cons_append, List.count_cons_self]
    omega
  | cons c front ih =>
    rw [List.all_cons, Bool.and_eq_true] at before
    intro word rest ws h
    rw [List.cons_append, List.cons_append, scan_ordinary before.1] at h
    have bound := ih before.2 _ rest ws h
    rw [count_push] at bound
    have one : (c :: (front ++ q :: later ++ rest)).count q =
        [c].count q + (front ++ q :: later ++ rest).count q := by
      rw [← List.count_append]
      rfl
    rw [List.cons_append, List.cons_append, one]
    omega

/-- A text that stands for a word, and whether it is read as that word. -/
structure Part where
  shown : List Char
  meant : List Char
  kept : Bool

/-- What is to be known of a part: if it is not read as its word, it loses a `q`. -/
structure Part.Sound (rules : Rules) (q : Char) (part : Part) : Prop where
  count : part.shown.count q = part.meant.count q
  reads : part.kept = true → ∃ word, Takes rules part.shown word ∧ text word = part.meant
  loses : part.kept = false → Loses rules q part.shown

/-- Texts with a blank between them. -/
def spaced : List (List Char) → List Char
  | [] => []
  | [cs] => cs
  | cs :: ds :: rest => cs ++ ' ' :: spaced (ds :: rest)

theorem mem_spaced {c : Char} {texts : List (List Char)} (h : c ∈ spaced texts) :
    c = ' ' ∨ ∃ text ∈ texts, c ∈ text := by
  induction texts with
  | nil => cases h
  | cons cs texts ih =>
    cases texts with
    | nil => exact .inr ⟨cs, List.mem_cons_self, h⟩
    | cons ds texts =>
      rw [spaced, List.mem_append, List.mem_cons] at h
      rcases h with h | h | h
      · exact .inr ⟨cs, List.mem_cons_self, h⟩
      · exact .inl h
      · rcases ih h with blank | ⟨text, htext, there⟩
        · exact .inl blank
        · exact .inr ⟨text, List.mem_cons_of_mem cs htext, there⟩

theorem count_spaced {q : Char} (other : q ≠ ' ') {parts : List Part}
    (sound : ∀ part ∈ parts, part.Sound rules q) :
    (spaced (parts.map Part.shown)).count q = (parts.flatMap Part.meant).count q := by
  induction parts with
  | nil => rfl
  | cons part parts ih =>
    have here := (sound part List.mem_cons_self).count
    have later := ih fun other h => sound other (List.mem_cons_of_mem part h)
    cases parts with
    | nil => simpa [spaced] using here
    | cons next parts =>
      rw [List.map_cons, List.map_cons, spaced, List.count_append,
        List.count_cons_of_ne (Ne.symm other), List.flatMap_cons, List.count_append, here,
        ← List.map_cons, later]

/-- Parts that are all read as their words are read back. -/
theorem words_spaced (separates : rules.blank ' ' = true)
    (open_ : rules.quote ' ' = false) {q : Char} {parts : List Part} (filled : parts ≠ [])
    (sound : ∀ part ∈ parts, part.Sound rules q) (kept : parts.all Part.kept = true) :
    ∃ ws, words rules (spaced (parts.map Part.shown)) = some ws ∧
      ws.map text = parts.map Part.meant := by
  induction parts with
  | nil => exact absurd rfl filled
  | cons part parts ih =>
    rw [List.all_cons, Bool.and_eq_true] at kept
    obtain ⟨word, takes, meant⟩ := (sound part List.mem_cons_self).reads kept.1
    cases parts with
    | nil => exact ⟨[word], words_last takes, by simp [meant]⟩
    | cons next parts =>
      obtain ⟨ws, hws, texts⟩ := ih (List.cons_ne_nil next parts)
        (fun other h => sound other (List.mem_cons_of_mem part h)) kept.2
      refine ⟨word :: ws, ?_, by rw [List.map_cons, texts, meant]; rfl⟩
      rw [List.map_cons, List.map_cons, spaced, words_cons takes separates open_,
        ← List.map_cons, hws]
      rfl

/-- Where one is not, a `q` is missing from what is read. -/
theorem total_spaced (separates : rules.blank ' ' = true) (open_ : rules.quote ' ' = false)
    {q : Char} (other : q ≠ ' ') {parts : List Part} (sound : ∀ part ∈ parts, part.Sound rules q)
    (lost : parts.all Part.kept = false) {ws : List Word}
    (h : words rules (spaced (parts.map Part.shown)) = some ws) :
    total q ws < (parts.flatMap Part.meant).count q := by
  induction parts generalizing ws with
  | nil => cases lost
  | cons part parts ih =>
    have here := sound part List.mem_cons_self
    cases whole : part.kept with
    | false =>
      have all := count_spaced other sound
      rw [← all]
      cases parts with
      | nil =>
        have bound := here.loses whole none [] ws
        rw [List.append_nil] at bound
        have less := bound h
        simpa [spaced] using less
      | cons next parts =>
        have less := here.loses whole none _ ws h
        simpa [spaced] using less
    | true =>
      rw [List.all_cons, whole, Bool.true_and] at lost
      obtain ⟨word, takes, meant⟩ := here.reads whole
      cases parts with
      | nil => cases lost
      | cons next parts =>
        rw [List.map_cons, List.map_cons, spaced, words_cons takes separates open_,
          ← List.map_cons] at h
        obtain ⟨later, hlater, rfl⟩ := Option.map_eq_some_iff.mp h
        have less := ih (fun other h => sound other (List.mem_cons_of_mem part h)) lost hlater
        rw [total_cons, meant, List.flatMap_cons, List.count_append]
        omega

end QuotedWords
