import Mathlib.Data.List.TakeWhile

/-!
# Sections of settings as text

Files of `[Name]` headers and `key = value` lines, read as the WireGuard tools read
theirs: a line ends at its newline, everything from `#` on is a comment, and spaces do
not count. A setting belongs to the header above it.
-/

namespace SectionText

structure Section where
  name : List Char
  settings : List (List Char × List Char)
  deriving DecidableEq, Repr

/-- The value of a setting. -/
def Section.value (part : Section) (key : List Char) : Option (List Char) :=
  part.settings.lookup key

/-- `isspace`. -/
def isSpace (c : Char) : Bool := c = ' ' || (9 ≤ c.toNat && c.toNat ≤ 13)

/-- A line without its comment and its spaces. -/
def content (line : List Char) : List Char :=
  (line.takeWhile fun c => c ≠ '#').filter fun c => !isSpace c

/-- Adds one line to the sections read so far. -/
def addLine (sections : List Section) (line : List Char) : Option (List Section) :=
  match content line with
  | [] => some sections
  | '[' :: rest =>
    if rest.getLast? = some ']' then some (sections ++ [⟨rest.dropLast, []⟩]) else none
  | text =>
    match text.dropWhile (fun c => c ≠ '='), sections.getLast? with
    | _ :: value, some current =>
      some (sections.dropLast ++ [{ current with
        settings := current.settings ++ [(text.takeWhile (fun c => c ≠ '='), value)] }])
    | _, _ => none

def read (text : List Char) : Option (List Section) := (text.splitOn '\n').foldlM addLine []

/-- Text that comes through `content` as it is. -/
def Plain (cs : List Char) : Prop := ∀ c ∈ cs, c ≠ '#' ∧ isSpace c = false

instance : DecidablePred Plain := fun cs =>
  decidable_of_iff ((cs.all fun c => c ≠ '#' && !isSpace c) = true) (by simp [Plain])

/-- The text of some lines, each with its newline. -/
def unlines (lines : List (List Char)) : List Char := lines.flatMap fun line => line ++ ['\n']

theorem unlines_append (lines lines' : List (List Char)) :
    unlines (lines ++ lines') = unlines lines ++ unlines lines' := List.flatMap_append

theorem splitOn_unlines {lines : List (List Char)} (h : ∀ line ∈ lines, '\n' ∉ line) :
    (unlines lines).splitOn '\n' = lines ++ [[]] := by
  induction lines with
  | nil => rfl
  | cons line lines ih =>
    have none : ∀ c ∈ line, (c == '\n') = false := by
      intro c hc
      rw [beq_eq_false_iff_ne]
      rintro rfl
      exact h line List.mem_cons_self hc
    have rest := ih fun l hl => h l (List.mem_cons_of_mem _ hl)
    rw [List.splitOn_eq_splitOnP] at rest ⊢
    rw [unlines, List.flatMap_cons, List.append_assoc, List.singleton_append,
      List.splitOnP_append_cons_of_forall_mem none '\n' (by decide), List.cons_append, ← rest,
      unlines]

/-- Reading lines back is adding them one by one. -/
theorem read_unlines {lines : List (List Char)} (h : ∀ line ∈ lines, '\n' ∉ line) :
    read (unlines lines) = lines.foldlM addLine [] := by
  rw [read, splitOn_unlines h, List.foldlM_append]
  cases lines.foldlM addLine [] <;> rfl

theorem Plain.append {cs ds : List Char} (hc : Plain cs) (hd : Plain ds) : Plain (cs ++ ds) := by
  intro c h
  rcases List.mem_append.mp h with h | h
  · exact hc c h
  · exact hd c h

theorem Plain.no_newline {cs : List Char} (h : Plain cs) : '\n' ∉ cs := by
  intro hm
  have := (h _ hm).2
  revert this
  decide

/-- Only the spaces go, and what follows a `#`. -/
theorem content_eq {cs : List Char} (h : '#' ∉ cs) :
    content cs = cs.filter fun c => !isSpace c := by
  have all : ∀ c ∈ cs, decide (c ≠ '#') = true := by
    intro c hc
    exact decide_eq_true fun heq => h (heq ▸ hc)
  rw [content, List.takeWhile_eq_self_iff.mpr all]

theorem filter_plain {cs : List Char} (h : Plain cs) :
    (cs.filter fun c => !isSpace c) = cs := by
  rw [List.filter_eq_self]
  intro c hc
  rw [(h c hc).2, Bool.not_false]

theorem content_plain {cs : List Char} (h : Plain cs) : content cs = cs := by
  rw [content_eq fun hm => (h _ hm).1 rfl, filter_plain h]

/-- What a line is for. -/
inductive Line where
  | blank
  | header (name : List Char)
  | comment (text : List Char)
  | setting (key value : List Char)
  deriving DecidableEq, Repr

def Line.text : Line → List Char
  | blank => []
  | header name => '[' :: (name ++ [']'])
  | comment text => '#' :: text
  | setting key value => key ++ [' ', '=', ' '] ++ value

/-- The parts of the line are told apart when its text is read. -/
def Line.Proper : Line → Prop
  | blank => True
  | header name => Plain name
  | comment text => '\n' ∉ text
  | setting key value =>
    (Plain key ∧ key ≠ [] ∧ key.head? ≠ some '[' ∧ '=' ∉ key) ∧ Plain value

instance : DecidablePred Line.Proper := fun line =>
  match line with
  | .blank => inferInstanceAs (Decidable True)
  | .header name => inferInstanceAs (Decidable (Plain name))
  | .comment text => inferInstanceAs (Decidable ('\n' ∉ text))
  | .setting key value => inferInstanceAs (Decidable
      ((Plain key ∧ key ≠ [] ∧ key.head? ≠ some '[' ∧ '=' ∉ key) ∧ Plain value))

/-- Adds a line that is known to the sections before it. -/
def put (sections : List Section) : Line → Option (List Section)
  | .blank => some sections
  | .header name => some (sections ++ [⟨name, []⟩])
  | .comment _ => some sections
  | .setting key value =>
    match sections.getLast? with
    | some current =>
      some (sections.dropLast ++ [{ current with settings := current.settings ++ [(key, value)] }])
    | none => none

/-- The text of a file of lines. -/
def render (lines : List Line) : List Char := unlines (lines.map Line.text)

theorem render_append (lines lines' : List Line) :
    render (lines ++ lines') = render lines ++ render lines' := by
  rw [render, List.map_append, unlines_append]
  rfl

theorem addLine_header (sections : List Section) {name : List Char} (h : Plain name) :
    addLine sections (Line.header name).text = put sections (.header name) := by
  have hplain : Plain ('[' :: (name ++ [']'])) :=
    Plain.append (by decide : Plain ['[']) (h.append (by decide : Plain [']']))
  rw [Line.text, addLine, content_plain hplain]
  simp only [List.getLast?_append, List.getLast?_singleton, Option.some_or, if_true,
    List.dropLast_concat, put]

/-- The setting of a line `key = value` goes to the section above it. -/
theorem addLine_setting (sections : List Section) {key value : List Char} (hkey : Plain key)
    (hvalue : Plain value) (named : key ≠ []) (nobracket : key.head? ≠ some '[')
    (noequals : '=' ∉ key) :
    addLine sections (Line.setting key value).text = put sections (.setting key value) := by
  have before : ∀ c ∈ key, decide (c ≠ '=') = true := by
    intro c hc
    exact decide_eq_true fun heq => noequals (heq ▸ hc)
  have hcontent : content (key ++ [' ', '=', ' '] ++ value) = key ++ '=' :: value := by
    rw [content_eq, List.filter_append, List.filter_append, filter_plain hkey, filter_plain hvalue,
      List.append_assoc]
    · rfl
    · intro hm
      rcases List.mem_append.mp hm with hm | hm
      · rcases List.mem_append.mp hm with hm | hm
        · exact (hkey _ hm).1 rfl
        · revert hm
          decide
      · exact (hvalue _ hm).1 rfl
  have hdrop : (key ++ '=' :: value).dropWhile (fun c => c ≠ '=') = '=' :: value := by
    rw [List.dropWhile_append_of_pos before, List.dropWhile_cons_of_neg (by decide)]
  have htake : (key ++ '=' :: value).takeWhile (fun c => c ≠ '=') = key := by
    rw [List.takeWhile_append_of_pos before, List.takeWhile_cons_of_neg (by decide),
      List.append_nil]
  rw [Line.text, addLine, hcontent]
  split
  · next hnil => exact absurd (List.append_eq_nil_iff.mp hnil).1 named
  · next rest heq =>
    refine absurd ?_ nobracket
    have hhead : (key ++ '=' :: value).head? = some '[' := congrArg List.head? heq
    rwa [List.head?_append, Option.or_of_isSome (by simpa using named)] at hhead
  · rw [hdrop, htake, put]
    cases sections.getLast? <;> rfl

theorem addLine_text (sections : List Section) {line : Line} (h : line.Proper) :
    addLine sections line.text = put sections line := by
  cases line with
  | blank => rfl
  | header name => exact addLine_header sections h
  | comment text => rfl
  | setting key value =>
    obtain ⟨⟨hkey, named, nobracket, noequals⟩, hvalue⟩ := h
    exact addLine_setting sections hkey hvalue named nobracket noequals

theorem Line.Proper.no_newline {line : Line} (h : line.Proper) : '\n' ∉ line.text := by
  cases line with
  | blank => exact List.not_mem_nil
  | header name =>
    rw [Line.text, List.mem_cons, List.mem_append, List.mem_singleton]
    rintro (hc | hc | hc)
    · revert hc
      decide
    · exact Plain.no_newline h hc
    · revert hc
      decide
  | comment text =>
    rw [Line.text, List.mem_cons]
    rintro (hc | hc)
    · revert hc
      decide
    · exact h hc
  | setting key value =>
    obtain ⟨⟨hkey, _⟩, hvalue⟩ := h
    rw [Line.text, List.mem_append, List.mem_append]
    rintro ((hc | hc) | hc)
    · exact hkey.no_newline hc
    · revert hc
      decide
    · exact hvalue.no_newline hc

theorem foldlM_addLine {lines : List Line} (h : ∀ line ∈ lines, line.Proper)
    (sections : List Section) :
    (lines.map Line.text).foldlM addLine sections = lines.foldlM put sections := by
  induction lines generalizing sections with
  | nil => rfl
  | cons line lines ih =>
    rw [List.map_cons, List.foldlM_cons, List.foldlM_cons,
      addLine_text _ (h line List.mem_cons_self)]
    refine congrArg _ (funext fun sections => ih (fun l hl => h l ?_) sections)
    exact List.mem_cons_of_mem _ hl

/-- A rendered file is read back line by line. -/
theorem read_render {lines : List Line} (h : ∀ line ∈ lines, line.Proper) :
    read (render lines) = lines.foldlM put [] := by
  rw [render, read_unlines, foldlM_addLine h]
  intro text htext
  obtain ⟨line, hline, rfl⟩ := List.mem_map.mp htext
  exact (h line hline).no_newline

end SectionText
