import Anago.ShellWords
import Anago.StdText
import Anago.UnixPath

/-!
# The crontab line

Where nothing schedules a sync, a person is given a line for a crontab. cron and then the
shell read it, and what they read is the command with its two paths, whatever these are
called; a path that no line can hold is refused.
-/

open StdText Utf8Text QuotedWords
open UnixPath (name)

namespace Crontab

inductive TimerError where
  | notText (path : UnixPath)
  | notOneLine (path : UnixPath)
  | backslash (path : UnixPath)
  deriving DecidableEq, Repr

/-- A character that needs no quotes. -/
def plain (c : Char) : Bool := c.isAlphanum || "/._-+,=:@".toList.contains c

/-- Renders a path as one shell word. -/
def shell (path : UnixPath) : Except TimerError String :=
  match path.toStr with
  | none => .error (.notText path)
  | some text =>
    if text.toList.any isControl then .error (.notOneLine path)
    else if text.toList.contains '\\' then .error (.backslash path)
    else if text.toList.all plain then .ok text
    else .ok ("'" ++ replace '\'' "'\\''" text ++ "'")

/-- `crontab_command`. -/
def crontabCommand (exec deviceFile : UnixPath) : Except TimerError String := do
  let exec ← shell exec
  let deviceFile ← shell deviceFile
  .ok (replace '%' "\\%" (exec ++ " sync --quiet --config " ++ deviceFile))

/-- A path that no line can hold. -/
def Refused (path : UnixPath) : Prop :=
  path.toStr = none ∨ ∃ text, path.toStr = some text ∧
    (text.toList.any isControl = true ∨ '\\' ∈ text.toList)

def quoteChar (c : Char) : List Char := if c = '\'' then ['\'', '\\', '\'', '\''] else [c]

/-- A path as it stands in the line that the shell reads. -/
def rendered (cs : List Char) : List Char :=
  if cs.all plain then cs else '\'' :: (cs.flatMap quoteChar ++ ['\''])

/-- A percent sign as cron takes it. -/
def percentChar (c : Char) : List Char := if c = '%' then ['\\', '%'] else [c]

theorem shell_ok_iff (path : UnixPath) :
    (∃ shown, shell path = .ok shown) ↔ ¬Refused path := by
  rw [shell, Refused]
  cases path.toStr with
  | none => simp
  | some text =>
    have slash : '\\' ∈ text.toList ↔ text.toList.contains '\\' = true := List.contains_iff_mem.symm
    simp only [Option.some.injEq, reduceCtorEq, false_or, exists_eq_left', slash]
    cases text.toList.any isControl with
    | true => simp
    | false =>
      cases text.toList.contains '\\' with
      | true => simp
      | false => cases text.toList.all plain <;> simp

/-- What `shell` renders, and of which characters. -/
theorem shell_ok {path : UnixPath} {shown : String} (h : shell path = .ok shown) :
    shown.toList = rendered (name path) ∧ (name path).any isControl = false ∧ '\\' ∉ name path ∧
      ∃ text, path.toStr = some text := by
  rw [shell] at h
  split at h
  · cases h
  next text htext =>
  obtain ⟨same, _⟩ := UnixPath.utf8_name htext
  split at h
  · cases h
  next control =>
  split at h
  · cases h
  next slash =>
  rw [Bool.not_eq_true] at control
  rw [same]
  refine ⟨?_, control, by simpa using slash, text, htext⟩
  split at h
  · next clear => rw [← Except.ok.inj h, rendered, if_pos clear]
  · next clear =>
    have quotes : (replace '\'' "'\\''" text).toList = text.toList.flatMap quoteChar := by
      rw [replace, String.toList_ofList]
      rfl
    have quote : "'".toList = ['\''] := by decide
    rw [← Except.ok.inj h, rendered, if_neg clear]
    simp only [String.toList_append, quotes, quote, List.cons_append, List.nil_append]

/-- A plain character is one of the shell's too. -/
theorem plain_ordinary {c : Char} (h : plain c = true) : ordinary Shell.rules c = true := by
  have marks : "\\' \t|&;<>()$`\"*?[\n".toList.all (fun d => !plain d) = true := by decide
  have other : ∀ d ∈ "\\' \t|&;<>()$`\"*?[\n".toList, c ≠ d := by
    rintro d hd rfl
    have barred := List.all_eq_true.mp marks c hd
    rw [h] at barred
    cases barred
  have barred : Shell.rules.barred c = false := by
    rw [Shell.rules]
    refine Bool.eq_false_iff.mpr fun there => ?_
    rw [List.contains_iff_mem] at there
    exact other c (List.mem_append_right "\\' \t".toList there) rfl
  simp only [ordinary, Bool.and_eq_true, bne_iff_ne, Bool.not_eq_true', Shell.rules,
    beq_eq_false_iff_ne, Bool.or_eq_false_iff]
  exact ⟨⟨⟨other _ (by decide), other _ (by decide)⟩, other _ (by decide),
    other _ (by decide)⟩, barred⟩

theorem runs_quoteChar (c : Char) : Runs Shell.rules '\'' (quoteChar c) [⟨c, true⟩] := by
  rw [quoteChar]
  split
  · next quote =>
    -- The run ends, one quote is taken as it is, and a new run begins.
    intro word rest
    rw [quote]
    simp [scan, Shell.rules, push, back]
  · next other => exact runs_char other (.inl rfl)

/-- The shell reads a path's own characters. -/
theorem takes_rendered {cs : List Char} (filled : cs ≠ []) :
    ∃ word, Takes Shell.rules (rendered cs) word ∧ text word = cs := by
  rw [rendered]
  split
  · next clear =>
    refine ⟨_, takes_plainly filled ?_, text_plainly cs⟩
    rw [List.all_eq_true] at clear ⊢
    exact fun c hc => plain_ordinary (clear c hc)
  · exact ⟨_, (runs_flatMap fun c _ => runs_quoteChar c).takes rfl (by decide), text_quotedly cs⟩

theorem passes_percentChar {c : Char} (slash : c ≠ '\\') : Shell.Passes (percentChar c) [c] := by
  rw [percentChar]
  split
  · next percent =>
    rw [percent]
    exact Shell.passes_percent
  · next other => exact Shell.passes_char slash other

theorem passes_clear {cs : List Char} (slash : '\\' ∉ cs) :
    Shell.Passes (cs.flatMap percentChar) cs := by
  have pass := @Shell.passes_flatMap percentChar (fun c => [c]) cs fun c hc =>
    passes_percentChar fun h => slash (h ▸ hc)
  rwa [List.flatMap_singleton'] at pass

/-- cron hands on a path as it was rendered. -/
theorem passes_rendered {cs : List Char} (slash : '\\' ∉ cs) :
    Shell.Passes ((rendered cs).flatMap percentChar) (rendered cs) := by
  rw [rendered]
  split
  · exact passes_clear slash
  · have quote : Shell.Passes ['\''] ['\''] := Shell.passes_char (by decide) (by decide)
    have body : Shell.Passes ((cs.flatMap quoteChar).flatMap percentChar)
        (cs.flatMap quoteChar) := by
      rw [List.flatMap_assoc]
      refine Shell.passes_flatMap fun c hc => ?_
      rw [quoteChar]
      split
      · exact (quote.append (Shell.passes_escape (by decide))).append quote
      · rw [List.flatMap_singleton]
        exact passes_percentChar fun h => slash (h ▸ hc)
    rw [List.flatMap_cons, List.flatMap_append]
    exact quote.append (body.append quote)

theorem rendered_line {cs : List Char} (control : cs.any isControl = false) :
    '\n' ∉ (rendered cs).flatMap percentChar := by
  have clean : '\n' ∉ cs := fun h => List.any_eq_false.mp control _ h rfl
  have percent : ∀ ds : List Char, '\n' ∉ ds → '\n' ∉ ds.flatMap percentChar := by
    intro ds hds h
    obtain ⟨c, hc, h⟩ := List.mem_flatMap.mp h
    rw [percentChar] at h
    split at h
    · revert h
      decide
    · exact hds (List.mem_singleton.mp h ▸ hc)
  refine percent _ ?_
  rw [rendered]
  split
  · exact clean
  · intro h
    rw [List.mem_cons, List.mem_append, List.mem_flatMap, List.mem_singleton] at h
    rcases h with h | ⟨c, hc, h⟩ | h
    · cases h
    · rw [quoteChar] at h
      split at h
      · revert h
        decide
      · exact clean (List.mem_singleton.mp h ▸ hc)
    · cases h

/-- What the shell is handed is what `shell` rendered. -/
theorem cronCommand_line {exec deviceFile : UnixPath} {line : String}
    (ok : crontabCommand exec deviceFile = .ok line) :
    Shell.cronCommand line.toList =
      rendered (name exec) ++ " sync --quiet --config ".toList ++ rendered (name deviceFile) := by
  simp only [crontabCommand, Bind.bind, Except.bind] at ok
  split at ok
  · cases ok
  next e he =>
  split at ok
  · cases ok
  next d hd =>
  obtain ⟨shownExec, controlExec, slashExec, _⟩ := shell_ok he
  obtain ⟨shownDevice, controlDevice, slashDevice, _⟩ := shell_ok hd
  have middle : '\\' ∉ " sync --quiet --config ".toList ∧
      '\n' ∉ (" sync --quiet --config ".toList).flatMap percentChar := by decide
  have chars : line.toList = (rendered (name exec)).flatMap percentChar ++
      (" sync --quiet --config ".toList).flatMap percentChar ++
        (rendered (name deviceFile)).flatMap percentChar := by
    rw [← Except.ok.inj ok, replace, String.toList_ofList, String.toList_append,
      String.toList_append, shownExec, shownDevice, ← List.flatMap_append, ← List.flatMap_append]
    rfl
  rw [chars]
  refine Shell.Passes.cronCommand ?_ ?_
  · rw [List.mem_append, List.mem_append]
    rintro ((h | h) | h)
    · exact rendered_line controlExec h
    · exact middle.2 h
    · exact rendered_line controlDevice h
  · exact ((passes_rendered slashExec).append (passes_clear middle.1)).append
      (passes_rendered slashDevice)

/-- The shell reads one simple command: the two paths and the words between them. -/
theorem simpleCommand_line {exec deviceFile : List Char}
    (slashes : (∃ rest, exec = '/' :: rest) ∧ ∃ rest, deviceFile = '/' :: rest) :
    Shell.simpleCommand (rendered exec ++ " sync --quiet --config ".toList ++ rendered deviceFile) =
      some [exec, "sync".toList, "--quiet".toList, "--config".toList, deviceFile] := by
  obtain ⟨⟨_, hexec⟩, ⟨_, hdevice⟩⟩ := slashes
  obtain ⟨first, takesFirst, textFirst⟩ :=
    takes_rendered (show exec ≠ [] by rw [hexec]; exact List.cons_ne_nil _ _)
  obtain ⟨last, takesLast, textLast⟩ :=
    takes_rendered (show deviceFile ≠ [] by rw [hdevice]; exact List.cons_ne_nil _ _)
  have middle : " sync --quiet --config ".toList =
      ' ' ::
        ("sync".toList ++ ' ' :: ("--quiet".toList ++ ' ' :: ("--config".toList ++ [' ']))) := by
          decide
  have fixed : ∀ word ∈ ["sync".toList, "--quiet".toList, "--config".toList],
      word ≠ [] ∧ word.all (ordinary Shell.rules) = true ∧
      Shell.expands (plainly word) = false := by decide
  have takes : ∀ word ∈ ["sync".toList, "--quiet".toList, "--config".toList],
      Takes Shell.rules word (plainly word) :=
    fun word h => takes_plainly (fixed word h).1 (fixed word h).2.1
  have split : rendered exec ++ " sync --quiet --config ".toList ++ rendered deviceFile =
      rendered exec ++
        ' ' :: ("sync".toList ++ ' ' :: ("--quiet".toList ++ ' ' :: ("--config".toList ++ ' ' ::
        rendered deviceFile))) := by
    rw [middle]
    simp only [List.append_assoc, List.cons_append, List.nil_append]
  have read :
      words Shell.rules (rendered exec ++ " sync --quiet --config ".toList ++ rendered deviceFile) =
      some [first, plainly "sync".toList, plainly "--quiet".toList,
        plainly "--config".toList, last] := by
    rw [split, words_cons takesFirst rfl rfl, words_cons (takes _ (by decide)) rfl rfl,
      words_cons (takes _ (by decide)) rfl rfl, words_cons (takes _ (by decide)) rfl rfl,
      words_last takesLast]
    rfl
  obtain ⟨assigns, reserved, expandsFirst⟩ := Shell.slash_word (textFirst.trans hexec)
  obtain ⟨_, _, expandsLast⟩ := Shell.slash_word (textLast.trans hdevice)
  have none : ∀ word ∈ [first, plainly "sync".toList, plainly "--quiet".toList,
      plainly "--config".toList, last], Shell.expands word = false :=
    List.forall_mem_cons.mpr ⟨expandsFirst, List.forall_mem_cons.mpr ⟨(fixed _ (by decide)).2.2,
      List.forall_mem_cons.mpr ⟨(fixed _ (by decide)).2.2,
        List.forall_mem_cons.mpr ⟨(fixed _ (by decide)).2.2,
          List.forall_mem_cons.mpr ⟨expandsLast, List.forall_mem_nil _⟩⟩⟩⟩⟩
  rw [Shell.simpleCommand_words read assigns reserved none]
  rw [List.map_cons, List.map_cons, List.map_cons, List.map_cons, List.map_cons, textFirst,
    text_plainly, text_plainly, text_plainly, textLast]
  rfl

/-- The line runs the command with its two paths, and is refused just for a path it cannot hold. -/
theorem crontab_runs (exec deviceFile : UnixPath)
    (absolute : exec.isAbsolute = true ∧ deviceFile.isAbsolute = true) :
    (∀ line, crontabCommand exec deviceFile = .ok line →
      (Shell.simpleCommand (Shell.cronCommand line.toList)).map (·.map utf8) =
        some [exec, asBytes "sync", asBytes "--quiet", asBytes "--config", deviceFile]) ∧
    ((∃ e, crontabCommand exec deviceFile = .error e) ↔ Refused exec ∨ Refused deviceFile) := by
  constructor
  · intro line ok
    have read := cronCommand_line ok
    simp only [crontabCommand, Bind.bind, Except.bind] at ok
    split at ok
    · cases ok
    next e he =>
    split at ok
    · cases ok
    next d hd =>
    obtain ⟨_, _, _, text, htext⟩ := shell_ok he
    obtain ⟨_, _, _, other, hother⟩ := shell_ok hd
    rw [read, simpleCommand_line ⟨UnixPath.name_absolute htext absolute.1,
      UnixPath.name_absolute hother absolute.2⟩, Option.map_some, List.map_cons, List.map_cons,
      List.map_cons, List.map_cons, List.map_cons, (UnixPath.utf8_name htext).2,
      (UnixPath.utf8_name hother).2]
    rfl
  · have first := shell_ok_iff exec
    have second := shell_ok_iff deviceFile
    simp only [crontabCommand, Bind.bind, Except.bind]
    cases he : shell exec with
    | error e =>
      have refused : Refused exec := by
        by_contra fine
        obtain ⟨shown, h⟩ := first.mpr fine
        cases he.symm.trans h
      exact ⟨fun _ => .inl refused, fun _ => ⟨e, rfl⟩⟩
    | ok e =>
      have fine : ¬Refused exec := first.mp ⟨e, he⟩
      cases hd : shell deviceFile with
      | error e' =>
        have refused : Refused deviceFile := by
          by_contra fine
          obtain ⟨shown, h⟩ := second.mpr fine
          cases hd.symm.trans h
        exact ⟨fun _ => .inr refused, fun _ => ⟨e', rfl⟩⟩
      | ok d =>
        have fine' : ¬Refused deviceFile := second.mp ⟨d, hd⟩
        refine iff_of_false ?_ (not_or_intro fine fine')
        rintro ⟨_, ⟨⟩⟩

theorem crontab_runs_sample :
    (∀ line, crontabCommand (asBytes "/opt/o'k/100% $HOME") (asBytes "/home/jo/#a;b") = .ok line →
      (Shell.simpleCommand (Shell.cronCommand line.toList)).map (·.map utf8) =
        some [asBytes "/opt/o'k/100% $HOME", asBytes "sync", asBytes "--quiet", asBytes "--config",
          asBytes "/home/jo/#a;b"]) ∧
    ((∃ e, crontabCommand (asBytes "/opt/o'k/100% $HOME") (asBytes "/home/jo/#a;b") = .error e) ↔
      Refused (asBytes "/opt/o'k/100% $HOME") ∨ Refused (asBytes "/home/jo/#a;b")) :=
  crontab_runs _ _ (by decide +kernel)

end Crontab
