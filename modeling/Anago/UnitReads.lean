import Anago.Systemd
import Anago.UnitFile

/-!
# What systemd reads of a unit

A unit names the paths it was given, unless one of them has an apostrophe and nothing else
that has it quoted: systemd takes that apostrophe for a quote.
-/

open StdText Utf8Text QuotedWords UnitFile
open UnixPath (name)

namespace Systemd

def quoteChar (c : Char) : List Char :=
  if c = '\\' then ['\\', '\\'] else if c = '"' then ['\\', '"'] else [c]

/-- A path as it stands in a unit, with its percent signs doubled before. -/
def rendered (cs : List Char) : List Char :=
  if cs.any needsQuotes then '"' :: (cs.flatMap quoteChar ++ ['"']) else cs

/-- Whether a path has an apostrophe and nothing that has it quoted. -/
def bare (cs : List Char) : Bool := cs.contains '\'' && !cs.any needsQuotes

theorem toList_replace (c : Char) (text s : String) :
    (replace c text s).toList = s.toList.flatMap fun d => if d = c then text.toList else [d] := by
  rw [replace, String.toList_ofList]

/-- What `escape` renders. -/
theorem escape_ok {path : UnixPath} {shown : String} (h : escape path = .ok shown) :
    (name path).any isControl = false ∧ shown.toList = rendered (doubled (name path)) ∧
      utf8 (name path) = path := by
  rw [escape] at h
  split at h
  · cases h
  next text htext =>
  obtain ⟨same, bytes⟩ := UnixPath.utf8_name htext
  have percents : (replace '%' "%%" text).toList = doubled text.toList := by
    rw [toList_replace]
    rfl
  split at h
  · cases h
  next control =>
  rw [Bool.not_eq_true] at control
  rw [same] at bytes ⊢
  refine ⟨control, ?_, bytes⟩
  have quotes : ∀ cs : List Char,
      ((cs.flatMap fun d => if d = '\\' then "\\\\".toList else [d]).flatMap fun d =>
      if d = '"' then "\\\"".toList else [d]) = cs.flatMap quoteChar := by
    intro cs
    rw [List.flatMap_assoc]
    refine List.flatMap_congr fun c _ => ?_
    by_cases slash : c = '\\'
    · rw [if_pos slash, quoteChar, if_pos slash]
      rfl
    · by_cases quote : c = '"'
      · rw [if_neg slash, quoteChar, if_neg slash, if_pos quote,
          List.flatMap_singleton, if_pos quote]
        rfl
      · rw [if_neg slash, quoteChar, if_neg slash, if_neg quote,
          List.flatMap_singleton, if_neg quote]
  simp only [percents] at h
  split at h
  · next needs =>
    rw [← Except.ok.inj h, rendered, if_pos needs]
    simp only [String.toList_append, toList_replace, percents, quotes]
    rfl
  · next needs =>
    rw [← Except.ok.inj h, rendered, if_neg needs, percents]

theorem bind_ok {path : UnixPath} {shown : String} (h : bind path = .ok shown) :
    escape path = .ok shown ∧ ':' ∉ shown.toList := by
  simp only [bind, Except.bind, Bind.bind] at h
  split at h
  · cases h
  next text htext =>
  split at h
  · cases h
  next colon =>
  rw [← Except.ok.inj h]
  exact ⟨htext, by simpa using colon⟩

theorem mem_doubled {c : Char} {cs : List Char} : c ∈ doubled cs ↔ c ∈ cs := by
  rw [doubled, List.mem_flatMap]
  constructor
  · rintro ⟨d, hd, h⟩
    rw [double] at h
    split at h
    · next sign =>
      simp only [List.mem_cons, List.not_mem_nil, or_false, or_self] at h
      rwa [h, ← sign]
    · rwa [List.mem_singleton.mp h]
  · intro h
    refine ⟨c, h, ?_⟩
    rw [double]
    split
    · next sign => simp [sign]
    · exact List.mem_singleton_self c

theorem doubled_needsQuotes (cs : List Char) :
    (doubled cs).any needsQuotes = cs.any needsQuotes := by
  rw [Bool.eq_iff_iff, List.any_eq_true, List.any_eq_true]
  simp only [mem_doubled]

theorem doubled_bare (cs : List Char) : bare (doubled cs) = bare cs := by
  have same : (doubled cs).contains '\'' = cs.contains '\'' := by
    rw [Bool.eq_iff_iff, List.contains_iff_mem, List.contains_iff_mem]
    exact mem_doubled
  rw [bare, bare, same, doubled_needsQuotes]

/-- What is not quoted and has no quote stands for itself. -/
theorem ordinary_of {c : Char} (quotes : needsQuotes c = false) (other : c ≠ '\'') :
    ordinary UnitFile.rules c = true := by
  rw [needsQuotes, Bool.or_eq_false_iff, Bool.or_eq_false_iff, beq_eq_false_iff_ne,
    beq_eq_false_iff_ne] at quotes
  obtain ⟨⟨white, quote⟩, slash⟩ := quotes
  have blank : UnitFile.rules.blank c = false := by
    rw [UnitFile.rules, Bool.or_eq_false_iff, Bool.or_eq_false_iff, Bool.or_eq_false_iff]
    have apart : ∀ d, isWhitespace d = true → (c == d) = false := by
      intro d hd
      rw [beq_eq_false_iff_ne]
      rintro rfl
      exact Bool.noConfusion (white.symm.trans hd)
    exact ⟨⟨⟨apart _ (by decide), apart _ (by decide)⟩, apart _ (by decide)⟩, apart _ (by decide)⟩
  have closed : UnitFile.rules.quote c = false := by
    rw [UnitFile.rules, Bool.or_eq_false_iff, beq_eq_false_iff_ne, beq_eq_false_iff_ne]
    exact ⟨other, quote⟩
  simp only [ordinary, blank, closed, Bool.and_eq_true, bne_iff_ne, Bool.not_eq_true']
  exact ⟨⟨⟨slash, trivial⟩, trivial⟩, rfl⟩

theorem runs_quoteChar (c : Char) : Runs UnitFile.rules '"' (quoteChar c) [⟨c, true⟩] := by
  rw [quoteChar]
  split
  · next slash =>
    rw [slash]
    exact runs_escaped rfl (by decide) _
  · split
    · next quote =>
      rw [quote]
      exact runs_escaped rfl (by decide) _
    · next slash quote => exact runs_char quote (.inr slash)

theorem count_quoteChar (cs : List Char) : (cs.flatMap quoteChar).count '\'' = cs.count '\'' := by
  induction cs with
  | nil => rfl
  | cons c cs ih =>
    have one : (quoteChar c).count '\'' = [c].count '\'' := by
      rw [quoteChar]
      split
      · next slash =>
        rw [slash]
        decide
      · split
        · next quote =>
          rw [quote]
          decide
        · rfl
    rw [List.flatMap_cons, List.count_append, ih, one, ← List.count_append]
    rfl

/-- A word as `escape` renders it. -/
def wordPart (cs : List Char) : Part := ⟨rendered cs, cs, !bare cs⟩

theorem wordPart_sound {cs : List Char} (filled : cs ≠ []) :
    (wordPart cs).Sound UnitFile.rules '\'' where
  count := by
    rw [wordPart, rendered]
    split
    · rw [List.count_cons_of_ne (by decide), List.count_append, count_quoteChar]
      rfl
    · rfl
  reads kept := by
    rw [wordPart, Bool.not_eq_true', bare] at kept
    rw [wordPart, rendered]
    split
    · exact ⟨_, (runs_flatMap fun c _ => runs_quoteChar c).takes rfl (by decide), text_quotedly cs⟩
    · next quotes =>
      rw [Bool.not_eq_true] at quotes
      rw [quotes, Bool.not_false, Bool.and_true, List.contains_eq_mem,
        decide_eq_false_iff_not] at kept
      refine ⟨_, takes_plainly filled ?_, text_plainly cs⟩
      rw [List.all_eq_true]
      intro c hc
      refine ordinary_of ?_ fun h => kept (h ▸ hc)
      exact Bool.eq_false_iff.mpr (List.any_eq_false.mp quotes c hc)
  loses lost := by
    rw [wordPart, Bool.not_eq_false', bare, Bool.and_eq_true, Bool.not_eq_true',
      List.contains_iff_mem] at lost
    obtain ⟨there, quotes⟩ := lost
    rw [wordPart, rendered, if_neg (by rw [quotes]; decide)]
    obtain ⟨front, later, rfl, before⟩ := List.eq_append_cons_of_mem there
    refine loses_quote ?_ rfl (by decide) later
    rw [List.all_eq_true]
    intro c hc
    refine ordinary_of ?_ fun h => before (h ▸ hc)
    exact Bool.eq_false_iff.mpr (List.any_eq_false.mp quotes c (List.mem_append_left _ hc))

/-- A word that always stands for itself. -/
def fixedPart (cs : List Char) : Part := ⟨cs, cs, true⟩

theorem fixedPart_sound {cs : List Char} (filled : cs ≠ [])
    (h : cs.all (ordinary UnitFile.rules) = true) :
    (fixedPart cs).Sound UnitFile.rules '\'' where
  count := rfl
  reads _ := ⟨_, takes_plainly filled h, text_plainly cs⟩
  loses := by
    rintro ⟨⟩

theorem fixedParts_sound {words : List (List Char)}
    (h : (words.all fun word => !word.isEmpty && word.all (ordinary UnitFile.rules)) = true) :
    ∀ part ∈ words.map fixedPart, part.Sound UnitFile.rules '\'' := by
  intro part hpart
  obtain ⟨word, hword, rfl⟩ := List.mem_map.mp hpart
  have solid := List.all_eq_true.mp h word hword
  rw [Bool.and_eq_true, Bool.not_eq_true', List.isEmpty_eq_false_iff] at solid
  exact fixedPart_sound solid.1 solid.2

/-- The same word after a colon. -/
def colonPart (part : Part) : Part := ⟨':' :: part.shown, ':' :: part.meant, part.kept⟩

theorem colonPart_sound {part : Part} (sound : part.Sound UnitFile.rules '\'') :
    (colonPart part).Sound UnitFile.rules '\'' where
  count := by
    rw [colonPart, List.count_cons_of_ne (by decide), List.count_cons_of_ne (by decide)]
    exact sound.count
  reads kept := by
    obtain ⟨word, takes, meant⟩ := sound.reads kept
    exact ⟨_, (takes_char (c := ':') (by decide)).append takes, by rw [text_append, meant]; rfl⟩
  loses lost := by
    intro word rest ws h
    have colon : ordinary UnitFile.rules ':' = true := by decide
    rw [colonPart, List.cons_append, scan_ordinary colon] at h
    have bound := sound.loses lost _ rest ws h
    rw [count_push] at bound
    rw [colonPart, List.cons_append, List.count_cons_of_ne (by decide)]
    exact bound

theorem rendered_line {cs : List Char} (plain : cs.any isControl = false) :
    '\n' ∉ rendered (doubled cs) := by
  have clean : '\n' ∉ doubled cs := by
    intro h
    exact List.any_eq_false.mp plain _ (mem_doubled.mp h) rfl
  rw [rendered]
  split
  · intro h
    rw [List.mem_cons, List.mem_append, List.mem_flatMap, List.mem_singleton] at h
    rcases h with h | ⟨c, hc, h⟩ | h
    · cases h
    · rw [quoteChar] at h
      split at h
      · revert h
        decide
      · split at h
        · revert h
          decide
        · exact clean (List.mem_singleton.mp h ▸ hc)
    · cases h
  · exact clean

def directive (key value : String) : Item := .entry key.toList value.toList

/-- What the hub's unit says besides its paths. -/
def unitTemplate : List Item :=
  [.section "Unit".toList, directive "Description" "anago — self-hosted WireGuard private network",
    directive "Documentation" "https://github.com/elpalaiso/anago",
    directive "After" "network-online.target", directive "Wants" "network-online.target",
    .section "Service".toList, directive "Type" "exec", directive "Restart" "on-failure",
    directive "RestartSec" "5s", directive "NoNewPrivileges" "yes", directive "ProtectHome" "tmpfs",
    directive "ProtectSystem" "strict", directive "PrivateTmp" "yes", .section "Install".toList,
    directive "WantedBy" "multi-user.target"]

/-- What the service says besides its paths. -/
def syncTemplate : List Item :=
  [.section "Unit".toList, directive "Description" "anago — pull the peer list from the hub",
    directive "Documentation" "https://github.com/elpalaiso/anago",
    .section "Service".toList, directive "Type" "oneshot", directive "TimeoutStartSec" "2min",
    directive "NoNewPrivileges" "yes", directive "ProtectSystem" "strict",
    directive "ProtectHome" "tmpfs", directive "PrivateTmp" "yes"]

/-- Lines that are read as some items. -/
structure ReadsAs (lines : List String) (all : List Item) : Prop where
  plain : ∀ line ∈ lines, '\n' ∉ line.toList
  items : lines.filterMap (fun line => item line.toList) = all

theorem ReadsAs.append {lines lines' : List String} {all all' : List Item}
    (first : ReadsAs lines all) (second : ReadsAs lines' all') :
    ReadsAs (lines ++ lines') (all ++ all') where
  plain line hline := (List.mem_append.mp hline).elim (first.plain line) (second.plain line)
  items := by rw [List.filterMap_append, first.items, second.items]

/-- Fixed lines, by their characters. -/
theorem readsAs_fixed {lines : List (List Char)} {all : List Item}
    (plain : (lines.all fun line => !line.contains '\n') = true) (h : lines.filterMap item = all) :
    ReadsAs (lines.map String.ofList) all where
  plain line hline := by
    obtain ⟨cs, hcs, rfl⟩ := List.mem_map.mp hline
    have clean := List.all_eq_true.mp plain cs hcs
    rw [String.toList_ofList]
    simpa using clean
  items := by
    rw [List.filterMap_map, ← h]
    exact List.filterMap_congr fun cs _ => by rw [Function.comp_apply, String.toList_ofList]

/-- A line of a list of texts. -/
theorem ReadsAs.line (key : List Char) (texts : List (List Char)) (line : String)
    (h : line.toList = key ++ '=' :: spaced texts)
    (letter : key.head?.any Char.isAlpha = true) (cut : '=' ∉ key) (clean : '\n' ∉ key)
    (plain : ∀ text ∈ texts, '\n' ∉ text) {rest : List String} {all : List Item}
    (later : ReadsAs rest all) :
    ReadsAs (line :: rest) (.entry key (spaced texts) :: all) where
  plain other hother := by
    rcases List.mem_cons.mp hother with rfl | hother
    · rw [h, List.mem_append, List.mem_cons]
      rintro (there | there | there)
      · exact clean there
      · cases there
      · rcases mem_spaced there with blank | ⟨text, htext, there⟩
        · cases blank
        · exact plain text htext there
    · exact later.plain other hother
  items := by rw [List.filterMap_cons, h, item_entry letter cut, later.items]

theorem ReadsAs.text {lines : List String} {all : List Item} (h : ReadsAs lines all) :
    UnitFile.items (unlines lines).toList = all := by
  have plain : ∀ line ∈ lines.map String.toList, '\n' ∉ line := by
    intro line hline
    obtain ⟨one, hone, rfl⟩ := List.mem_map.mp hline
    exact h.plain one hone
  rw [unlines, String.toList_ofList, items_unlines plain, List.filterMap_map]
  exact h.items

/-- The hub's unit with nothing in it. -/
def emptyUnit : List String := unitLines "" "" "" "" ""

theorem read_unitLines {exec stateDir wgDir tlsCert tlsKey : String}
    (plain : ∀ text ∈ [exec, stateDir, wgDir, tlsCert, tlsKey], '\n' ∉ text.toList) :
    read (unlines (unitLines exec stateDir wgDir tlsCert tlsKey)).toList =
      { commands := [command (spaced [':' :: exec.toList, "server".toList, "run".toList])]
        writable := [values (spaced [stateDir.toList, wgDir.toList])]
        binds := []
        readOnlyBinds := [UnitFile.binds (spaced [exec.toList, tlsCert.toList, tlsKey.toList])]
        others := unitTemplate } := by
  have start : ReadsAs (emptyUnit.take 15) (unitTemplate.take 7) :=
    @readsAs_fixed [_, _, _, _, _, _, _, _, _, _, _, _, _, _, _] _ rfl rfl
  have middle : ReadsAs ((emptyUnit.drop 16).take 7) ((unitTemplate.drop 7).take 5) :=
    @readsAs_fixed [_, _, _, _, _, _, _] _ rfl rfl
  have comment : ReadsAs ((emptyUnit.drop 24).take 1) [] := @readsAs_fixed [_] _ rfl rfl
  have rest : ReadsAs (emptyUnit.drop 26) (unitTemplate.drop 12) :=
    @readsAs_fixed [_, _, _, _] _ rfl rfl
  have split : unitLines exec stateDir wgDir tlsCert tlsKey =
      emptyUnit.take 15 ++ ("ExecStart=:" ++ exec ++ " server run") ::
        ((emptyUnit.drop 16).take 7 ++
        ("ReadWritePaths=" ++ stateDir ++ " " ++ wgDir) :: ((emptyUnit.drop 24).take 1 ++
        ("BindReadOnlyPaths=" ++ exec ++ " " ++ tlsCert ++ " " ++ tlsKey) :: emptyUnit.drop 26)) :=
          rfl
  simp only [List.forall_mem_cons, List.not_mem_nil, false_implies, implies_true, and_true] at plain
  obtain ⟨plainExec, plainState, plainWg, plainCert, plainKey⟩ := plain
  have command : "ExecStart=:".toList = "ExecStart".toList ++ ['=', ':'] := by decide
  have arguments : " server run".toList = ' ' :: ("server".toList ++ ' ' :: "run".toList) := by
    decide
  have writes : "ReadWritePaths=".toList = "ReadWritePaths".toList ++ ['='] := by decide
  have reaches : "BindReadOnlyPaths=".toList = "BindReadOnlyPaths".toList ++ ['='] := by decide
  have blank : " ".toList = [' '] := by decide
  have words : '\n' ∉ "server".toList ∧ '\n' ∉ "run".toList := by decide
  have last := ReadsAs.line "BindReadOnlyPaths".toList [exec.toList, tlsCert.toList, tlsKey.toList]
    ("BindReadOnlyPaths=" ++ exec ++ " " ++ tlsCert ++ " " ++ tlsKey)
    (by simp only [String.toList_append, reaches, blank, spaced, List.append_assoc,
          List.cons_append, List.nil_append])
    (by decide) (by decide) (by decide) (by simp [plainExec, plainCert, plainKey]) rest
  have write := ReadsAs.line "ReadWritePaths".toList [stateDir.toList, wgDir.toList]
    ("ReadWritePaths=" ++ stateDir ++ " " ++ wgDir)
    (by simp only [String.toList_append, writes, blank, spaced, List.append_assoc, List.cons_append,
          List.nil_append])
    (by decide) (by decide) (by decide) (by simp [plainState, plainWg]) (comment.append last)
  have run := ReadsAs.line "ExecStart".toList [':' :: exec.toList, "server".toList, "run".toList]
    ("ExecStart=:" ++ exec ++ " server run")
    (by simp only [String.toList_append, command, arguments, spaced, List.append_assoc,
          List.cons_append, List.nil_append])
    (by decide) (by decide) (by decide) (by simp [plainExec]) (middle.append write)
  have all := start.append run
  rw [← split] at all
  rw [UnitFile.read, all.text]
  rfl

/-- The service with nothing in it. -/
def emptySync : List String := syncServiceLines "" "" "" ""

theorem read_syncLines {exec deviceFile configDir wgDir : String}
    (plain : ∀ text ∈ [exec, deviceFile, configDir, wgDir], '\n' ∉ text.toList) :
    read (unlines (syncServiceLines exec deviceFile configDir wgDir)).toList =
      { commands := [command (spaced [':' :: exec.toList, "sync".toList, "--quiet".toList,
        "--config".toList,
          deviceFile.toList])]
        writable := [values (spaced [wgDir.toList])]
        binds := [UnitFile.binds (spaced [configDir.toList])]
        readOnlyBinds := [UnitFile.binds (spaced [exec.toList])]
        others := syncTemplate } := by
  have start : ReadsAs (emptySync.take 16) (syncTemplate.take 5) :=
    @readsAs_fixed [_, _, _, _, _, _, _, _, _, _, _, _, _, _, _, _] _ rfl rfl
  have middle : ReadsAs ((emptySync.drop 17).take 20) ((syncTemplate.drop 5).take 4) :=
    @readsAs_fixed [_, _, _, _, _, _, _, _, _, _, _, _, _, _, _, _, _, _, _, _] _ rfl rfl
  have comment : ReadsAs ((emptySync.drop 38).take 2) [] := @readsAs_fixed [_, _] _ rfl rfl
  have rest : ReadsAs (emptySync.drop 42) (syncTemplate.drop 9) :=
    @readsAs_fixed [_, _, _] _ rfl rfl
  have split : syncServiceLines exec deviceFile configDir wgDir =
      emptySync.take 16 ++ ("ExecStart=:" ++ exec ++ " sync --quiet --config " ++ deviceFile) ::
        ((emptySync.drop 17).take 20 ++ ("BindPaths=" ++ configDir) ::
          ((emptySync.drop 38).take 2 ++
        ("ReadWritePaths=" ++ wgDir) :: ("BindReadOnlyPaths=" ++ exec) :: emptySync.drop 42)) := rfl
  simp only [List.forall_mem_cons, List.not_mem_nil, false_implies, implies_true, and_true] at plain
  obtain ⟨plainExec, plainDevice, plainConfig, plainWg⟩ := plain
  have command : "ExecStart=:".toList = "ExecStart".toList ++ ['=', ':'] := by decide
  have arguments : " sync --quiet --config ".toList =
      ' ' ::
        ("sync".toList ++ ' ' :: ("--quiet".toList ++ ' ' :: ("--config".toList ++ [' ']))) := by
          decide
  have binds : "BindPaths=".toList = "BindPaths".toList ++ ['='] := by decide
  have writes : "ReadWritePaths=".toList = "ReadWritePaths".toList ++ ['='] := by decide
  have reaches : "BindReadOnlyPaths=".toList = "BindReadOnlyPaths".toList ++ ['='] := by decide
  have last := ReadsAs.line "BindReadOnlyPaths".toList [exec.toList] ("BindReadOnlyPaths=" ++ exec)
    (by simp only [String.toList_append, reaches, spaced, List.append_assoc, List.cons_append,
          List.nil_append])
    (by decide) (by decide) (by decide) (by simp [plainExec]) rest
  have write := ReadsAs.line "ReadWritePaths".toList [wgDir.toList] ("ReadWritePaths=" ++ wgDir)
    (by simp only [String.toList_append, writes, spaced, List.append_assoc, List.cons_append,
          List.nil_append])
    (by decide) (by decide) (by decide) (by simp [plainWg]) last
  have bound := ReadsAs.line "BindPaths".toList [configDir.toList] ("BindPaths=" ++ configDir)
    (by simp only [String.toList_append, binds, spaced, List.append_assoc, List.cons_append,
          List.nil_append])
    (by decide) (by decide) (by decide) (by simp [plainConfig]) (comment.append write)
  have run := ReadsAs.line "ExecStart".toList
    [':' :: exec.toList, "sync".toList, "--quiet".toList, "--config".toList, deviceFile.toList]
    ("ExecStart=:" ++ exec ++ " sync --quiet --config " ++ deviceFile)
    (by simp only [String.toList_append, command, arguments, spaced, List.append_assoc,
          List.cons_append, List.nil_append])
    (by decide) (by decide) (by decide) (by simp [plainExec, plainDevice]) (middle.append bound)
  have all := start.append run
  rw [← split] at all
  rw [UnitFile.read, all.text]
  rfl

theorem mem_rendered {c : Char} {cs : List Char} (h : c ∈ cs) : c ∈ rendered cs := by
  rw [rendered]
  split
  · refine List.mem_cons_of_mem _ (List.mem_append_left _ (List.mem_flatMap.mpr ⟨c, h, ?_⟩))
    rw [quoteChar]
    split
    · next slash => simp [slash]
    · split
      · next quote => simp [quote]
      · exact List.mem_singleton_self c
  · exact h

/-- A path and its text in a unit. -/
structure Shows (path : UnixPath) (shown : String) : Prop where
  filled : name path ≠ []
  line : '\n' ∉ shown.toList
  rendered : shown.toList = rendered (doubled (name path))

theorem escape_shows {path : UnixPath} {shown : String} (absolute : path.isAbsolute = true)
    (h : escape path = .ok shown) : Shows path shown := by
  obtain ⟨plain, same, bytes⟩ := escape_ok h
  refine ⟨?_, by rw [same]; exact rendered_line plain, same⟩
  intro empty
  rw [empty] at bytes
  subst bytes
  cases absolute

theorem bind_shows {path : UnixPath} {shown : String} (absolute : path.isAbsolute = true)
    (h : bind path = .ok shown) : Shows path shown ∧ ':' ∉ name path := by
  obtain ⟨rendered, colon⟩ := bind_ok h
  have shows := escape_shows absolute rendered
  refine ⟨shows, fun there => colon ?_⟩
  rw [shows.rendered]
  exact mem_rendered (mem_doubled.mpr there)

/-- A path as it stands in a unit. -/
def pathPart (path : UnixPath) : Part := wordPart (doubled (name path))

theorem Shows.part {path : UnixPath} {shown : String} (h : Shows path shown) :
    (pathPart path).shown = shown.toList ∧ (pathPart path).Sound UnitFile.rules '\'' := by
  refine ⟨h.rendered.symm, wordPart_sound ?_⟩
  intro empty
  rw [doubled, List.flatMap_eq_nil_iff] at empty
  cases cs : name path with
  | nil => exact h.filled cs
  | cons c rest =>
    have none := empty c (by rw [cs]; exact List.mem_cons_self)
    rw [double] at none
    split at none <;> cases none

theorem pathPart_kept (path : UnixPath) : (pathPart path).kept = !bare (name path) := by
  rw [pathPart, wordPart, doubled_bare]

/-- Paths and their texts, as the parts of a list. -/
theorem parts_of {named : List (UnixPath × String)} (shows : ∀ one ∈ named, Shows one.1 one.2) :
    (named.map fun one => pathPart one.1).map Part.shown = named.map (fun one => one.2.toList) ∧
      (∀ part ∈ named.map (fun one => pathPart one.1), part.Sound UnitFile.rules '\'') ∧
      (named.map fun one => pathPart one.1).map Part.meant =
        (named.map fun one => name one.1).map doubled ∧
      ((named.map fun one => pathPart one.1).all Part.kept = true ↔ ∀ one ∈ named,
        bare (name one.1) = false) := by
  refine ⟨?_, ?_, ?_, ?_⟩
  · rw [List.map_map]
    exact List.map_congr_left fun one h => (shows one h).part.1
  · intro part hpart
    obtain ⟨one, h, rfl⟩ := List.mem_map.mp hpart
    exact (shows one h).part.2
  · rw [List.map_map, List.map_map]
    rfl
  · rw [List.all_map, List.all_eq_true]
    refine forall₂_congr fun one _ => ?_
    rw [Function.comp_apply, pathPart_kept, Bool.not_eq_true']

theorem values_paths (named : List (UnixPath × String)) (filled : named ≠ [])
    (shows : ∀ one ∈ named, Shows one.1 one.2) :
    values (spaced (named.map fun one => one.2.toList)) = some (named.map fun one => name one.1) ↔
      ∀ one ∈ named, bare (name one.1) = false := by
  obtain ⟨shown, sound, meant, kept⟩ := parts_of shows
  rw [← shown, ← kept]
  exact values_iff (q := '\'') (by decide) (by decide) (by simpa using filled) sound meant

theorem binds_paths (named : List (UnixPath × String)) (filled : named ≠ [])
    (shows : ∀ one ∈ named, Shows one.1 one.2) (colons : ∀ one ∈ named, ':' ∉ name one.1) :
    UnitFile.binds (spaced (named.map fun one => one.2.toList)) =
        some ((named.map fun one => name one.1).map fun path => (path, path)) ↔
      ∀ one ∈ named, bare (name one.1) = false := by
  obtain ⟨shown, sound, meant, kept⟩ := parts_of shows
  rw [← shown, ← kept]
  refine binds_iff (q := '\'') (by decide) (by decide)
    (by simpa using filled) sound meant fun word hword => ?_
  obtain ⟨one, h, rfl⟩ := List.mem_map.mp hword
  exact colons one h

theorem command_path {exec : UnixPath} {shown : String} (shows : Shows exec shown)
    (rest : List Part) (arguments : List (List Char))
    (sound : ∀ part ∈ rest, part.Sound UnitFile.rules '\'')
    (meant : rest.map Part.meant = arguments.map doubled) :
    command (spaced ((':' :: shown.toList) :: rest.map Part.shown)) =
      some (name exec :: arguments) ↔
      bare (name exec) = false ∧ rest.all Part.kept = true := by
  have all : ∀ part ∈ colonPart (pathPart exec) :: rest, part.Sound UnitFile.rules '\'' := by
    intro part hpart
    rcases List.mem_cons.mp hpart with rfl | hpart
    · exact colonPart_sound shows.part.2
    · exact sound part hpart
  have meanings : (colonPart (pathPart exec) :: rest).map Part.meant =
      ((':' :: name exec) :: arguments).map doubled := by
    rw [List.map_cons, List.map_cons, meant]
    rfl
  have line := command_iff (q := '\'') (by decide) (by decide) (by decide)
    (List.cons_ne_nil _ rest) all meanings
  have kept : (colonPart (pathPart exec)).kept = !bare (name exec) := pathPart_kept exec
  have colon : (colonPart (pathPart exec)).shown = ':' :: shown.toList := by
    rw [colonPart, shows.part.1]
  rw [List.map_cons, colon, List.all_cons, kept, Bool.and_eq_true, Bool.not_eq_true'] at line
  exact line

/-- What the hub's unit is to say. -/
def unitReading (exec stateDir wgDir tlsCert tlsKey : UnixPath) : Reading where
  commands := [some [name exec, "server".toList, "run".toList]]
  writable := [some [name stateDir, name wgDir]]
  binds := []
  readOnlyBinds := [some ([name exec, name tlsCert, name tlsKey].map fun path => (path, path))]
  others := unitTemplate

/-- The hub's unit says what it is to say just if no path of it has a bare apostrophe. -/
theorem unit_reads {exec stateDir wgDir tlsCert tlsKey : UnixPath}
    (absolute : ∀ path ∈ [exec, stateDir, wgDir, tlsCert, tlsKey], path.isAbsolute = true)
    {text : String} (ok : unitText exec stateDir wgDir tlsCert tlsKey = .ok text) :
    read text.toList = unitReading exec stateDir wgDir tlsCert tlsKey ↔
      ∀ path ∈ [exec, stateDir, wgDir, tlsCert, tlsKey], bare (name path) = false := by
  simp only [List.forall_mem_cons, List.not_mem_nil, false_implies, implies_true,
    and_true] at absolute
  obtain ⟨absExec, absState, absWg, absCert, absKey⟩ := absolute
  simp only [unitText, Bind.bind, Except.bind] at ok
  split at ok
  · cases ok
  next e he =>
  split at ok
  · cases ok
  next s hs =>
  split at ok
  · cases ok
  next w hw =>
  split at ok
  · cases ok
  next c hc =>
  split at ok
  · cases ok
  next k hk =>
  obtain ⟨showsExec, colonExec⟩ := bind_shows absExec he
  have showsState := escape_shows absState hs
  have showsWg := escape_shows absWg hw
  obtain ⟨showsCert, colonCert⟩ := bind_shows absCert hc
  obtain ⟨showsKey, colonKey⟩ := bind_shows absKey hk
  rw [← Except.ok.inj ok]
  have plain : ∀ text ∈ [e, s, w, c, k], '\n' ∉ text.toList := by
    simp only [List.forall_mem_cons, List.not_mem_nil, false_implies, implies_true, and_true]
    exact ⟨showsExec.line, showsState.line, showsWg.line, showsCert.line, showsKey.line⟩
  have command := command_path showsExec (["server".toList, "run".toList].map fixedPart)
    ["server".toList, "run".toList] (fixedParts_sound (by decide)) (by decide)
  have writes := values_paths [(stateDir, s), (wgDir, w)] (List.cons_ne_nil _ _) (by
    simp only [List.forall_mem_cons, List.not_mem_nil, false_implies, implies_true, and_true]
    exact ⟨showsState, showsWg⟩)
  have reaches := binds_paths [(exec, e), (tlsCert, c), (tlsKey, k)] (List.cons_ne_nil _ _) (by
    simp only [List.forall_mem_cons, List.not_mem_nil, false_implies, implies_true, and_true]
    exact ⟨showsExec, showsCert, showsKey⟩) (by
    simp only [List.forall_mem_cons, List.not_mem_nil, false_implies, implies_true, and_true]
    exact ⟨colonExec, colonCert, colonKey⟩)
  have fixed : ((["server".toList, "run".toList].map fixedPart).all Part.kept) = true := rfl
  rw [fixed, and_iff_left rfl] at command
  simp only [List.forall_mem_cons, List.not_mem_nil, false_implies, implies_true, and_true]
    at writes reaches ⊢
  have same : read (unlines (unitLines e s w c k)).toList = unitReading exec stateDir
      wgDir tlsCert tlsKey ↔
      UnitFile.command (spaced [':' :: e.toList, "server".toList, "run".toList]) =
          some [name exec, "server".toList, "run".toList] ∧
        values (spaced [s.toList, w.toList]) = some [name stateDir, name wgDir] ∧
        UnitFile.binds (spaced [e.toList, c.toList, k.toList]) =
          some [(name exec, name exec), (name tlsCert, name tlsCert),
            (name tlsKey, name tlsKey)] := by
    rw [read_unitLines plain, unitReading]
    simp only [Reading.mk.injEq, List.cons.injEq, and_true, true_and, List.map_cons, List.map_nil]
  simp only [List.map_cons, List.map_nil, fixedPart] at command writes reaches same
  rw [same, command, writes, reaches]
  constructor
  · rintro ⟨hexec, ⟨hstate, hwg⟩, _, hcert, hkey⟩
    exact ⟨hexec, hstate, hwg, hcert, hkey⟩
  · rintro ⟨hexec, hstate, hwg, hcert, hkey⟩
    exact ⟨hexec, ⟨hstate, hwg⟩, hexec, hcert, hkey⟩

/-- What the service is to say. -/
def syncReading (exec deviceFile configDir wgDir : UnixPath) : Reading where
  commands :=
    [some [name exec, "sync".toList, "--quiet".toList, "--config".toList, name deviceFile]]
  writable := [some [name wgDir]]
  binds := [some ([name configDir].map fun path => (path, path))]
  readOnlyBinds := [some ([name exec].map fun path => (path, path))]
  others := syncTemplate

/-- The directory of a file is absolute as the file is. -/
theorem writableDir_absolute {file dir : UnixPath} (h : writableDir file = .ok dir) :
    file.isAbsolute = true ∧ dir.isAbsolute = true := by
  rw [writableDir] at h
  split at h
  · next absolute =>
    refine ⟨absolute, ?_⟩
    split at h
    · next other hother =>
      split at h
      · cases h
      · rw [← Except.ok.inj h]
        cases file with
        | nil => cases absolute
        | cons root body =>
          obtain ⟨rest, _, rfl⟩ := Option.map_eq_some_iff.mp hother
          exact absolute
    · cases h
  · cases h

/-- The service says what it is to say just if no path of it has a bare apostrophe. -/
theorem sync_reads {exec deviceFile wgConfig : UnixPath}
    (absolute : exec.isAbsolute = true) {text : String}
    (ok : syncServiceText exec deviceFile wgConfig = .ok text) :
    ∃ configDir wgDir, writableDir deviceFile = .ok configDir ∧ writableDir wgConfig = .ok wgDir ∧
      (read text.toList = syncReading exec deviceFile configDir wgDir ↔
        ∀ path ∈ [exec, deviceFile, configDir, wgDir], bare (name path) = false) := by
  simp only [syncServiceText, Bind.bind, Except.bind] at ok
  split at ok
  · cases ok
  next configDir hconfig =>
  split at ok
  · cases ok
  next wgDir hwg =>
  split at ok
  · cases ok
  next e he =>
  split at ok
  · cases ok
  next d hd =>
  split at ok
  · cases ok
  next c hc =>
  split at ok
  · cases ok
  next w hw =>
  obtain ⟨absDevice, absConfig⟩ := writableDir_absolute hconfig
  obtain ⟨showsExec, colonExec⟩ := bind_shows absolute he
  have showsDevice := escape_shows absDevice hd
  obtain ⟨showsConfig, colonConfig⟩ := bind_shows absConfig hc
  have showsWg := escape_shows (writableDir_absolute hwg).2 hw
  refine ⟨configDir, wgDir, hconfig, hwg, ?_⟩
  rw [← Except.ok.inj ok]
  have plain : ∀ text ∈ [e, d, c, w], '\n' ∉ text.toList := by
    simp only [List.forall_mem_cons, List.not_mem_nil, false_implies, implies_true, and_true]
    exact ⟨showsExec.line, showsDevice.line, showsConfig.line, showsWg.line⟩
  have words : ∀ part ∈ ["sync".toList, "--quiet".toList, "--config".toList].map fixedPart,
      part.Sound UnitFile.rules '\'' := fixedParts_sound (by decide)
  have plainWords :
      (["sync".toList, "--quiet".toList, "--config".toList].map fixedPart).map Part.meant =
      ["sync".toList, "--quiet".toList, "--config".toList].map doubled := by decide
  have parts : ∀ part ∈ ["sync".toList, "--quiet".toList, "--config".toList].map fixedPart ++
      [pathPart deviceFile], part.Sound UnitFile.rules '\'' := by
    intro part hpart
    rcases List.mem_append.mp hpart with hpart | hpart
    · exact words part hpart
    · rw [List.mem_singleton.mp hpart]
      exact showsDevice.part.2
  have command := command_path showsExec
    (["sync".toList, "--quiet".toList, "--config".toList].map fixedPart ++ [pathPart deviceFile])
    (["sync".toList, "--quiet".toList, "--config".toList] ++ [name deviceFile]) parts (by
      rw [List.map_append, List.map_append, plainWords]
      rfl)
  have binds := binds_paths [(configDir, c)] (List.cons_ne_nil _ _) (by simpa using showsConfig)
    (by simpa using colonConfig)
  have writes := values_paths [(wgDir, w)] (List.cons_ne_nil _ _) (by simpa using showsWg)
  have reaches := binds_paths [(exec, e)] (List.cons_ne_nil _ _) (by simpa using showsExec)
    (by simpa using colonExec)
  have kept : ((["sync".toList, "--quiet".toList, "--config".toList].map fixedPart ++
      [pathPart deviceFile]).all Part.kept) = true ↔ bare (name deviceFile) = false := by
    rw [List.all_append, List.all_cons, List.all_nil, Bool.and_true, pathPart_kept]
    simp [fixedPart]
  rw [kept] at command
  simp only [List.forall_mem_cons, List.not_mem_nil, false_implies, implies_true, and_true]
    at binds writes reaches ⊢
  have same : read (unlines (syncServiceLines e d c w)).toList =
      syncReading exec deviceFile configDir wgDir ↔
      UnitFile.command (spaced [':' :: e.toList, "sync".toList, "--quiet".toList,
        "--config".toList, d.toList]) =
          some [name exec, "sync".toList, "--quiet".toList, "--config".toList, name deviceFile] ∧
        values (spaced [w.toList]) = some [name wgDir] ∧
        UnitFile.binds (spaced [c.toList]) = some [(name configDir, name configDir)] ∧
        UnitFile.binds (spaced [e.toList]) = some [(name exec, name exec)] := by
    rw [read_syncLines plain, syncReading]
    simp only [Reading.mk.injEq, List.cons.injEq, and_true, List.map_cons, List.map_nil]
  simp only [List.map_cons, List.map_nil, List.cons_append, List.nil_append, fixedPart,
    showsDevice.part.1] at command binds writes reaches same
  rw [same, command, writes, binds, reaches]
  constructor
  · rintro ⟨⟨hexec, hdevice⟩, hwg, hconfig, _⟩
    exact ⟨hexec, hdevice, hconfig, hwg⟩
  · rintro ⟨hexec, hdevice, hconfig, hwg⟩
    exact ⟨⟨hexec, hdevice⟩, hwg, hconfig, hexec⟩

/-- A unit names just the paths it was given, except where one has a bare apostrophe. -/
theorem units_name_paths (exec stateDir wgDir tlsCert tlsKey deviceFile wgConfig : UnixPath) :
    (∀ text,
      (∀ path ∈ [exec, stateDir, wgDir, tlsCert, tlsKey], UnixPath.isAbsolute path = true) →
      unitText exec stateDir wgDir tlsCert tlsKey = .ok text →
      (read text.toList = unitReading exec stateDir wgDir tlsCert tlsKey ↔
        ∀ path ∈ [exec, stateDir, wgDir, tlsCert, tlsKey], bare (name path) = false)) ∧
    ∀ text,
      (∀ path ∈ [exec, deviceFile, wgConfig], UnixPath.isAbsolute path = true) →
      syncServiceText exec deviceFile wgConfig = .ok text →
      ∃ configDir wgDir, writableDir deviceFile = .ok configDir ∧ writableDir wgConfig = .ok wgDir ∧
        (read text.toList = syncReading exec deviceFile configDir wgDir ↔
          ∀ path ∈ [exec, deviceFile, configDir, wgDir], bare (name path) = false) :=
  ⟨fun _ absolute ok => unit_reads absolute ok,
    fun _ absolute ok => sync_reads (absolute exec List.mem_cons_self) ok⟩

theorem unitText_ok {exec stateDir wgDir tlsCert tlsKey : UnixPath} {e s w c k : String}
    (exec_ok : bind exec = .ok e) (state : escape stateDir = .ok s) (wg : escape wgDir = .ok w)
    (cert : bind tlsCert = .ok c) (key : bind tlsKey = .ok k) :
    unitText exec stateDir wgDir tlsCert tlsKey = .ok (unlines (unitLines e s w c k)) := by
  simp only [unitText, exec_ok, state, wg, cert, key, Bind.bind, Except.bind]

/-- An apostrophe in the path of the executable: systemd reads another command. -/
theorem apostrophe_not_read :
    ∃ text, unitText (asBytes "/opt/o'k/anago") (asBytes "/var/lib/o'k") (asBytes "/etc/wireguard")
        (asBytes "/etc/ssl/cert.pem") (asBytes "/etc/ssl/key.pem") = .ok text ∧
      read text.toList ≠ unitReading (asBytes "/opt/o'k/anago") (asBytes "/var/lib/o'k")
        (asBytes "/etc/wireguard")
        (asBytes "/etc/ssl/cert.pem") (asBytes "/etc/ssl/key.pem") := by
  have exec : bind (asBytes "/opt/o'k/anago") = .ok "/opt/o'k/anago" := by decide +kernel
  have state : escape (asBytes "/var/lib/o'k") = .ok "/var/lib/o'k" := by decide +kernel
  have wg : escape (asBytes "/etc/wireguard") = .ok "/etc/wireguard" := by decide +kernel
  have cert : bind (asBytes "/etc/ssl/cert.pem") = .ok "/etc/ssl/cert.pem" := by decide +kernel
  have key : bind (asBytes "/etc/ssl/key.pem") = .ok "/etc/ssl/key.pem" := by decide +kernel
  have bare : bare (name (asBytes "/opt/o'k/anago")) = true := by decide +kernel
  have ok := unitText_ok exec state wg cert key
  refine ⟨_, ok, fun reading => ?_⟩
  have absolute : ∀ path ∈ [asBytes "/opt/o'k/anago", asBytes "/var/lib/o'k",
      asBytes "/etc/wireguard", asBytes "/etc/ssl/cert.pem", asBytes "/etc/ssl/key.pem"],
      UnixPath.isAbsolute path = true := by decide +kernel
  have plain := (unit_reads absolute ok).mp reading _ List.mem_cons_self
  exact Bool.noConfusion (plain.symm.trans bare)

end Systemd
