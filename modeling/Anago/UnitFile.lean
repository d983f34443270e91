import Anago.QuotedWords
import Anago.SectionText
import Mathlib.Data.List.TakeWhile

/-!
# Reading a unit file

One directive a line. The words of a value are unquoted first, and `%%` in them is a percent
sign then; a command that begins with `:` expands no variable, and an entry of a list of
binds is cut at its colon.
-/

open QuotedWords

namespace UnitFile

inductive Item where
  | section (header : List Char)
  | entry (key value : List Char)
  | malformed (line : List Char)
  deriving DecidableEq, Repr

/-- A line, unless it is empty or a comment. -/
def item (line : List Char) : Option Item :=
  match line with
  | [] => none
  | c :: rest =>
    if c = '#' || c = ';' then none
    else if c = '[' then some (.section rest.dropLast)
    else
      match line.dropWhile (· != '=') with
      | _ :: value => some (.entry (line.takeWhile (· != '=')) value)
      | [] => some (.malformed line)

def items (text : List Char) : List Item := (text.splitOn '\n').filterMap item

def rules : Rules where
  blank c := c == ' ' || c == '\t' || c == '\n' || c == '\r'
  quote c := c == '\'' || c == '"'
  escapes := true
  barred _ := false

/-- A word whose percent signs are all doubled. -/
def percent : List Char → Option (List Char)
  | [] => some []
  | '%' :: '%' :: rest => (percent rest).map ('%' :: ·)
  | '%' :: _ => none
  | c :: rest => (percent rest).map (c :: ·)

def values (value : List Char) : Option (List (List Char)) := do
  let ws ← words rules value
  ws.mapM fun word => percent (text word)

/-- The words of a command, where no variable is expanded in them. -/
def command (value : List Char) : Option (List (List Char)) := do
  match ← values value with
  | (':' :: executable) :: arguments => some (executable :: arguments)
  | ws => if ws.any (·.contains '$') then none else some ws

/-- The source and the destination of a bind. -/
def bindEntry (word : List Char) : List Char × List Char :=
  match word.dropWhile (· != ':') with
  | _ :: destination => (word.takeWhile (· != ':'), destination)
  | [] => (word, word)

def binds (value : List Char) : Option (List (List Char × List Char)) :=
  (values value).map (·.map bindEntry)

/-- What a unit says of paths, and what else it says. -/
structure Reading where
  commands : List (Option (List (List Char)))
  writable : List (Option (List (List Char)))
  binds : List (Option (List (List Char × List Char)))
  readOnlyBinds : List (Option (List (List Char × List Char)))
  others : List Item
  deriving DecidableEq

/-- The values of a directive. -/
def valuesOf (key : String) (all : List Item) : List (List Char) :=
  all.filterMap fun
    | .entry k value => if k = key.toList then some value else none
    | _ => none

/-- The directives about paths. -/
def keys : List (List Char) :=
  ["ExecStart".toList, "ReadWritePaths".toList, "BindPaths".toList, "BindReadOnlyPaths".toList]

def aboutPaths : Item → Bool
  | .entry key _ => keys.contains key
  | _ => false

def readItems (all : List Item) : Reading where
  commands := (valuesOf "ExecStart" all).map command
  writable := (valuesOf "ReadWritePaths" all).map values
  binds := (valuesOf "BindPaths" all).map UnitFile.binds
  readOnlyBinds := (valuesOf "BindReadOnlyPaths" all).map UnitFile.binds
  others := all.filter fun one => !aboutPaths one

def read (text : List Char) : Reading := readItems (items text)

/-- A percent sign is doubled. -/
def double (c : Char) : List Char := if c = '%' then ['%', '%'] else [c]

def doubled (cs : List Char) : List Char := cs.flatMap double

theorem percent_doubled (cs : List Char) : percent (doubled cs) = some cs := by
  induction cs with
  | nil => rfl
  | cons c cs ih =>
    rw [doubled] at ih
    rw [doubled, List.flatMap_cons, double]
    split
    · next sign =>
      rw [List.cons_append, List.singleton_append, percent, ih, sign]
      rfl
    · next other =>
      rw [List.singleton_append, percent, ih]
      · rfl
      · rintro _ rfl
        exact absurd rfl other
      · exact other

theorem count_percent {q : Char} (other : q ≠ '%') {word meant : List Char}
    (h : percent word = some meant) :
    meant.count q = word.count q := by
  induction word using percent.induct generalizing meant with
  | case1 =>
    obtain rfl := Option.some.inj h
    rfl
  | case2 rest ih =>
    rw [percent] at h
    obtain ⟨later, hlater, rfl⟩ := Option.map_eq_some_iff.mp h
    rw [List.count_cons_of_ne (Ne.symm other), List.count_cons_of_ne (Ne.symm other),
      List.count_cons_of_ne (Ne.symm other), ih hlater]
  | case3 rest single =>
    rw [percent] at h
    · cases h
    · exact single
  | case4 c rest double sign ih =>
    rw [percent] at h
    · obtain ⟨later, hlater, rfl⟩ := Option.map_eq_some_iff.mp h
      rw [List.count_cons, List.count_cons, ih hlater]
    · exact double
    · exact sign

theorem count_mapM {q : Char} (other : q ≠ '%') {ws : List Word} {ps : List (List Char)}
    (h : (ws.mapM fun word => percent (text word)) = some ps) :
    ps.flatten.count q = total q ws := by
  induction ws generalizing ps with
  | nil =>
    obtain rfl := Option.some.inj h
    rfl
  | cons word ws ih =>
    simp only [List.mapM_cons, Option.bind_eq_bind, Option.bind_eq_some_iff] at h
    obtain ⟨first, hfirst, later, hlater, h⟩ := h
    obtain rfl := Option.some.inj h
    rw [List.flatten_cons, List.count_append, total_cons, count_percent other hfirst, ih hlater]

theorem mapM_text {ws : List Word} {texts : List (List Char)}
    (h : ws.map text = texts.map doubled) :
    (ws.mapM fun word => percent (text word)) = some texts := by
  induction ws generalizing texts with
  | nil =>
    cases texts with
    | nil => rfl
    | cons _ _ => cases h
  | cons word ws ih =>
    cases texts with
    | nil => cases h
    | cons first later =>
      obtain ⟨here, there⟩ := List.cons.inj h
      rw [List.mapM_cons, here, percent_doubled, ih there]
      rfl

theorem items_unlines {lines : List (List Char)} (h : ∀ line ∈ lines, '\n' ∉ line) :
    items (SectionText.unlines lines) = lines.filterMap item := by
  rw [items, SectionText.splitOn_unlines h, List.filterMap_append]
  exact List.append_nil _

/-- A line that sets a key. -/
theorem item_entry {key : List Char} (letter : key.head?.any Char.isAlpha = true) (h : '=' ∉ key)
    (value : List Char) :
    item (key ++ '=' :: value) = some (.entry key value) := by
  have word : ∀ d ∈ key, (d != '=') = true := by
    intro d hd
    rw [bne_iff_ne]
    rintro rfl
    exact h hd
  have front : (key ++ '=' :: value).takeWhile (· != '=') = key := by
    rw [List.takeWhile_append_of_pos word, List.takeWhile_cons_of_neg (by decide), List.append_nil]
  have rest : (key ++ '=' :: value).dropWhile (· != '=') = '=' :: value := by
    rw [List.dropWhile_append_of_pos word, List.dropWhile_cons_of_neg (by decide)]
  cases key with
  | nil => cases letter
  | cons c key =>
    rw [List.head?_cons, Option.any_some] at letter
    have comment : ¬(c = '#' || c = ';') = true := by
      rw [Bool.or_eq_true, decide_eq_true_eq, decide_eq_true_eq]
      rintro (rfl | rfl)
      all_goals cases letter
    have header : c ≠ '[' := by
      rintro rfl
      cases letter
    rw [List.cons_append] at front rest
    simp only [List.cons_append, item, comment, header, if_false, front, rest]
    rfl

/-- Values that are shown as their words are read back. -/
theorem values_parts {q : Char} {parts : List Part} (filled : parts ≠ [])
    (sound : ∀ part ∈ parts, part.Sound rules q) (kept : parts.all Part.kept = true)
    {texts : List (List Char)} (meant : parts.map Part.meant = texts.map doubled) :
    values (spaced (parts.map Part.shown)) = some texts := by
  obtain ⟨ws, hws, same⟩ := words_spaced rfl rfl filled sound kept
  rw [values, hws]
  exact mapM_text (same.trans meant)

/-- Where one is not, a quote is missing from what is read. -/
theorem values_lost {q : Char} (percentSign : q ≠ '%') (blank : q ≠ ' ') {parts : List Part}
    (sound : ∀ part ∈ parts, part.Sound rules q) (lost : parts.all Part.kept = false)
    {ps : List (List Char)} (h : values (spaced (parts.map Part.shown)) = some ps) :
    ps.flatten.count q < (parts.flatMap Part.meant).count q := by
  rw [values, Option.bind_eq_bind, Option.bind_eq_some_iff] at h
  obtain ⟨ws, hws, h⟩ := h
  rw [count_mapM percentSign h]
  exact total_spaced rfl rfl blank sound lost hws

theorem count_doubled {q : Char} (other : q ≠ '%') (cs : List Char) :
    (doubled cs).count q = cs.count q := by
  have same := count_percent other (percent_doubled cs)
  exact same.symm

theorem count_meant {q : Char} (other : q ≠ '%') {parts : List Part} {texts : List (List Char)}
    (meant : parts.map Part.meant = texts.map doubled) :
    (parts.flatMap Part.meant).count q = texts.flatten.count q := by
  rw [List.flatMap_def, meant]
  clear meant
  induction texts with
  | nil => rfl
  | cons cs texts ih =>
    rw [List.map_cons, List.flatten_cons, List.flatten_cons, List.count_append,
      List.count_append, ih, count_doubled other]

/-- What is read of a list of paths is those paths just if none of them is lost. -/
theorem values_iff {q : Char} (percentSign : q ≠ '%') (blank : q ≠ ' ') {parts : List Part}
    (filled : parts ≠ []) (sound : ∀ part ∈ parts, part.Sound rules q) {texts : List (List Char)}
    (meant : parts.map Part.meant = texts.map doubled) :
    values (spaced (parts.map Part.shown)) = some texts ↔ parts.all Part.kept = true := by
  constructor
  · intro h
    by_contra lost
    have less := values_lost percentSign blank sound (Bool.eq_false_iff.mpr lost) h
    rw [count_meant percentSign meant] at less
    exact Nat.lt_irrefl _ less
  · exact fun kept => values_parts filled sound kept meant

/-- The same of a command that expands no variable. -/
theorem command_iff {q : Char} (percentSign : q ≠ '%') (blank : q ≠ ' ') (colon : q ≠ ':')
    {parts : List Part} (filled : parts ≠ []) (sound : ∀ part ∈ parts, part.Sound rules q)
    {executable : List Char} {arguments : List (List Char)}
    (meant : parts.map Part.meant = ((':' :: executable) :: arguments).map doubled) :
    command (spaced (parts.map Part.shown)) = some (executable :: arguments) ↔
      parts.all Part.kept = true := by
  constructor
  · intro h
    by_contra lost
    rw [command, Option.bind_eq_bind, Option.bind_eq_some_iff] at h
    obtain ⟨ps, hps, h⟩ := h
    have less := values_lost percentSign blank sound (Bool.eq_false_iff.mpr lost) hps
    rw [count_meant percentSign meant] at less
    have same : ps.flatten.count q = (executable :: arguments).flatten.count q := by
      split at h
      · rw [← Option.some.inj h]
        simp [List.count_cons_of_ne (Ne.symm colon)]
      · split at h
        · cases h
        · rw [Option.some.inj h]
    rw [same, List.flatten_cons, List.flatten_cons, List.cons_append,
      List.count_cons_of_ne (Ne.symm colon)] at less
    exact Nat.lt_irrefl _ less
  · intro kept
    rw [command, values_parts filled sound kept meant]
    rfl

theorem bindEntry_plain {word : List Char} (h : ':' ∉ word) : bindEntry word = (word, word) := by
  have none : word.dropWhile (· != ':') = [] := by
    rw [List.dropWhile_eq_nil_iff]
    intro c hc
    rw [bne_iff_ne]
    rintro rfl
    exact h hc
  rw [bindEntry, none]

theorem count_bindEntry (q : Char) (word : List Char) :
    (bindEntry word).1.count q ≤ word.count q := by
  rw [bindEntry]
  split
  · exact (List.takeWhile_sublist _).count_le q
  · exact Nat.le_refl _

/-- The same of a list of binds, where no path has a colon. -/
theorem binds_iff {q : Char} (percentSign : q ≠ '%') (blank : q ≠ ' ') {parts : List Part}
    (filled : parts ≠ []) (sound : ∀ part ∈ parts, part.Sound rules q) {texts : List (List Char)}
    (meant : parts.map Part.meant = texts.map doubled) (colons : ∀ word ∈ texts, ':' ∉ word) :
    binds (spaced (parts.map Part.shown)) = some (texts.map fun word => (word, word)) ↔
      parts.all Part.kept = true := by
  constructor
  · intro h
    by_contra lost
    obtain ⟨ps, hps, h⟩ := Option.map_eq_some_iff.mp h
    have less := values_lost percentSign blank sound (Bool.eq_false_iff.mpr lost) hps
    rw [count_meant percentSign meant] at less
    have sources : ps.map (fun word => (bindEntry word).1) = texts := by
      have firsts := congrArg (List.map Prod.fst) h
      simpa [Function.comp_def] using firsts
    have bound : texts.flatten.count q ≤ ps.flatten.count q := by
      rw [← sources]
      clear * -
      induction ps with
      | nil => exact Nat.le_refl _
      | cons word ps ih =>
        have here := count_bindEntry q word
        rw [List.map_cons, List.flatten_cons, List.flatten_cons, List.count_append,
          List.count_append]
        omega
    omega
  · intro kept
    rw [binds, values_parts filled sound kept meant, Option.map_some]
    exact congrArg some (List.map_congr_left fun word h => bindEntry_plain (colons word h))

end UnitFile
