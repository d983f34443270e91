import Anago.PlistText
import Anago.RenewalLoop
import Anago.Systemd

/-!
# The mac's property lists

The daemon that syncs and the one that is the hub. Each argument is an element of its own,
so what is escaped is only what XML itself would take for something else, and a path with a
character that XML has no way to write is refused.
-/

open StdText Utf8Text RenewalLoop
open UnixPath (name)

/-- `Duration::as_secs`. -/
def RenewalLoop.Duration.asSecs (duration : Duration) : Nat := duration / 1000000000

namespace Launchd

def label : String := "com.github.elpalaiso.anago.sync"

def domain : String := "system"

def log : String := "/var/log/anago-sync.log"

def serverLabel : String := "com.github.elpalaiso.anago"

def serverLog : String := "/var/log/anago.log"

/-- A path no property list can hold. -/
inductive Unrepresentable where
  | notText (path : UnixPath)
  | notXml (path : UnixPath)
  deriving DecidableEq, Repr

/-- Whether XML 1.0 can hold this character at all. -/
def inXml (c : Char) : Bool :=
  c == '\t' || c == '\n' || c == '\r' || (' ' ≤ c && c.toNat ≤ 0xD7FF) ||
    (0xE000 ≤ c.toNat && c.toNat ≤ 0xFFFD) || 0x10000 ≤ c.toNat

/-- How a character is written in an element. -/
def element (path : UnixPath) (c : Char) : Except Unrepresentable (List Char) :=
  if c = '&' then .ok "&amp;".toList
  else if c = '<' then .ok "&lt;".toList
  else if c = '>' then .ok "&gt;".toList
  else if c = '\t' then .ok "&#9;".toList
  else if c = '\n' then .ok "&#10;".toList
  else if c = '\r' then .ok "&#13;".toList
  else if inXml c then .ok [c]
  else .error (.notXml path)

/-- Renders a path as the body of a `<string>`. -/
def string (path : UnixPath) : Except Unrepresentable String :=
  match path.toStr with
  | none => .error (.notText path)
  | some text => (text.toList.mapM (element path)).map fun parts => String.ofList parts.flatten

/-- The period, as launchd counts it. -/
def startInterval (interval : Duration) : Nat := interval.asSecs

def prologLines : List String :=
  ["<?xml version=\"1.0\" encoding=\"UTF-8\"?>",
    "<!DOCTYPE plist PUBLIC \"-//Apple//DTD PLIST 1.0//EN\" " ++
      "\"http://www.apple.com/DTDs/PropertyList-1.0.dtd\">",
    "<plist version=\"1.0\">",
    "<dict>"]

def serverPlistLines (exec : String) : List String :=
  prologLines ++
  ["\t<key>Label</key>",
    "\t<string>" ++ serverLabel ++ "</string>",
    "\t<key>ProgramArguments</key>",
    "\t<array>",
    "\t\t<string>" ++ exec ++ "</string>",
    "\t\t<string>server</string>",
    "\t\t<string>run</string>",
    "\t</array>",
    "\t<key>RunAtLoad</key>",
    "\t<true/>",
    "\t<key>KeepAlive</key>",
    "\t<true/>",
    "\t<key>StandardOutPath</key>",
    "\t<string>" ++ serverLog ++ "</string>",
    "\t<key>StandardErrorPath</key>",
    "\t<string>" ++ serverLog ++ "</string>",
    "</dict>",
    "</plist>"]

/-- The hub daemon's property list. -/
def serverPlist (exec : UnixPath) : Except Unrepresentable String := do
  let exec ← string exec
  .ok (Systemd.unlines (serverPlistLines exec))

def syncPlistLines (exec deviceFile seconds : String) : List String :=
  prologLines ++
  ["\t<key>Label</key>",
    "\t<string>" ++ label ++ "</string>",
    "\t<key>ProgramArguments</key>",
    "\t<array>",
    "\t\t<string>" ++ exec ++ "</string>",
    "\t\t<string>sync</string>",
    "\t\t<string>--quiet</string>",
    "\t\t<string>--config</string>",
    "\t\t<string>" ++ deviceFile ++ "</string>",
    "\t</array>",
    "\t<key>StartInterval</key>",
    "\t<integer>" ++ seconds ++ "</integer>",
    "\t<key>RunAtLoad</key>",
    "\t<true/>",
    "\t<key>StandardOutPath</key>",
    "\t<string>" ++ log ++ "</string>",
    "\t<key>StandardErrorPath</key>",
    "\t<string>" ++ log ++ "</string>",
    "</dict>",
    "</plist>"]

/-- The property list of the sync. -/
def syncPlist (exec deviceFile : UnixPath) (interval : Duration) :
    Except Unrepresentable String := do
  let exec ← string exec
  let deviceFile ← string deviceFile
  let seconds := String.ofList (DecimalText.showNat (startInterval interval))
  .ok (Systemd.unlines (syncPlistLines exec deviceFile seconds))

/-- What launchd is to read from it. -/
def syncValue (exec deviceFile : List Char) (seconds : Nat) : PlistText.Value :=
  .dict [("Label".toList, .string label.toList),
    ("ProgramArguments".toList, .array [.string exec, .string "sync".toList,
      .string "--quiet".toList, .string "--config".toList, .string deviceFile]),
    ("StartInterval".toList, .integer seconds),
    ("RunAtLoad".toList, .boolean true),
    ("StandardOutPath".toList, .string log.toList),
    ("StandardErrorPath".toList, .string log.toList)]

def serverValue (exec : List Char) : PlistText.Value :=
  .dict [("Label".toList, .string serverLabel.toList),
    ("ProgramArguments".toList, .array [.string exec, .string "server".toList,
      .string "run".toList]),
    ("RunAtLoad".toList, .boolean true),
    ("KeepAlive".toList, .boolean true),
    ("StandardOutPath".toList, .string serverLog.toList),
    ("StandardErrorPath".toList, .string serverLog.toList)]

/-- A path that a property list can hold. -/
def Writable (path : UnixPath) : Prop :=
  ∃ text, path.toStr = some text ∧ text.toList.all PlistText.isChar = true

theorem element_eq (path : UnixPath) (c : Char) :
    element path c = if PlistText.isChar c then .ok (PlistText.piece c)
      else .error (.notXml path) := by
  have same : inXml c = PlistText.isChar c := by
    have space : decide (' ' ≤ c) = decide (0x20 ≤ c.toNat) := rfl
    have code : ∀ d : Char, (c == d) = (c.toNat == d.toNat) := by
      intro d
      rw [Bool.eq_iff_iff, beq_iff_eq, beq_iff_eq]
      exact ⟨congrArg Char.toNat, Char.toNat_inj.mp⟩
    rw [inXml, PlistText.isChar, space, code, code, code]
    rfl
  rw [element, PlistText.piece, same]
  by_cases amp : c = '&'
  · rw [if_pos amp, if_pos amp, amp]
    rfl
  by_cases lt : c = '<'
  · rw [if_neg amp, if_neg amp, if_pos lt, if_pos lt, lt]
    rfl
  by_cases gt : c = '>'
  · rw [if_neg amp, if_neg amp, if_neg lt, if_neg lt, if_pos gt, if_pos gt, gt]
    rfl
  by_cases tab : c = '\t'
  · subst tab
    rfl
  by_cases newline : c = '\n'
  · subst newline
    rfl
  by_cases back : c = '\r'
  · subst back
    rfl
  simp only [amp, lt, gt, tab, newline, back, if_false]

theorem mapM_element (path : UnixPath) (cs : List Char) :
    cs.mapM (element path) =
      if cs.all PlistText.isChar then .ok (cs.map PlistText.piece) else .error (.notXml path) := by
  induction cs with
  | nil => rfl
  | cons c cs ih =>
    rw [List.mapM_cons, element_eq, ih, List.all_cons, List.map_cons]
    cases PlistText.isChar c with
    | false => rfl
    | true =>
      cases cs.all PlistText.isChar with
      | false => rfl
      | true => rfl

theorem string_ok {path : UnixPath} {shown : String} (h : string path = .ok shown) :
    Writable path ∧ shown.toList = PlistText.escaped (name path) ∧
      (name path).all PlistText.isChar = true := by
  rw [string] at h
  cases htext : path.toStr with
  | none =>
    rw [htext] at h
    cases h
  | some text =>
    obtain ⟨same, _⟩ := UnixPath.utf8_name htext
    rw [htext] at h
    simp only [mapM_element] at h
    split at h
    · next chars =>
      rw [same]
      refine ⟨⟨text, htext, chars⟩, ?_, chars⟩
      rw [← Except.ok.inj h, String.toList_ofList, PlistText.escaped, List.flatMap_def]
    · cases h

theorem string_of_writable {path : UnixPath} (h : Writable path) :
    ∃ shown, string path = .ok shown := by
  obtain ⟨text, htext, chars⟩ := h
  rw [string, htext]
  simp only [mapM_element, chars, if_true]
  exact ⟨_, rfl⟩

/-- What both lists have before the command. -/
def syncStart : List Char :=
  SectionText.unlines (((syncPlistLines "" "" "").take 8).map String.toList) ++
    "\t\t<string>".toList

/-- Between the two paths. -/
def syncMiddle : List Char :=
  "</string>\n".toList ++ SectionText.unlines
    ((((syncPlistLines "" "" "").drop 9).take 3).map String.toList) ++
    "\t\t<string>".toList

def syncPeriod : List Char :=
  "</string>\n".toList ++ SectionText.unlines
    ((((syncPlistLines "" "" "").drop 13).take 2).map String.toList) ++
    "\t<integer>".toList

def syncEnd : List Char :=
  "</integer>\n".toList ++ SectionText.unlines
    (((syncPlistLines "" "" "").drop 16).map String.toList)

theorem unlines_line (line : List Char) (lines : List (List Char)) :
    SectionText.unlines (line :: lines) = line ++ '\n' :: SectionText.unlines lines := by
  rw [SectionText.unlines, List.flatMap_cons, List.append_assoc]
  rfl

/-- The fixed parts of the text, with the two paths and the period between them. -/
theorem syncLines_parts (exec deviceFile seconds : String) :
    (Systemd.unlines (syncPlistLines exec deviceFile seconds)).toList =
      syncStart ++
        (exec.toList ++
          (syncMiddle ++ (deviceFile.toList ++ (syncPeriod ++ (seconds.toList ++ syncEnd))))) := by
  have split : syncPlistLines exec deviceFile seconds =
      (syncPlistLines "" "" "").take 8 ++ ("\t\t<string>" ++ exec ++ "</string>") ::
        (((syncPlistLines "" "" "").drop 9).take 3 ++
          ("\t\t<string>" ++ deviceFile ++ "</string>") ::
        (((syncPlistLines "" "" "").drop 13).take 2 ++ ("\t<integer>" ++ seconds ++ "</integer>") ::
        (syncPlistLines "" "" "").drop 16)) := by
    delta syncPlistLines prologLines
    rfl
  have close : "</string>\n".toList = "</string>".toList ++ ['\n'] := by decide
  have close' : "</integer>\n".toList = "</integer>".toList ++ ['\n'] := by decide
  rw [Systemd.unlines, String.toList_ofList, split]
  delta syncStart syncMiddle syncPeriod syncEnd
  simp only [close, close', List.map_append, List.map_cons,
    SectionText.unlines_append, unlines_line, String.toList_append, List.append_assoc,
    List.cons_append, List.nil_append]

/-- The same parts, as a property list is written. -/
theorem syncValue_parts (e d : List Char) (n : Nat) :
    PlistText.textOf (syncValue e d n) =
      syncStart ++ (PlistText.escaped e ++ (syncMiddle ++ (PlistText.escaped d ++ (syncPeriod ++
        (DecimalText.showNat n ++ syncEnd))))) := by
  have start : syncStart = PlistText.opening ++ (('<' :: ("dict".toList ++ ['>'])) ++
      (PlistText.writeEntries 1 [("Label".toList, .string label.toList)] ++ (PlistText.indent 1 ++
        (PlistText.element "key" (PlistText.escaped "ProgramArguments".toList) ++
          (PlistText.indent 1 ++
          (('<' :: ("array".toList ++ ['>'])) ++ (PlistText.indent 2 ++
            ('<' :: ("string".toList ++ ['>']))))))))) := by decide +kernel
  have middle : syncMiddle = ("</".toList ++ ("string".toList ++ ['>'])) ++ (PlistText.writeValues 2
      [.string "sync".toList, .string "--quiet".toList, .string "--config".toList] ++
        (PlistText.indent 2 ++ ('<' :: ("string".toList ++ ['>'])))) := by decide +kernel
  have period : syncPeriod = ("</".toList ++ ("string".toList ++ ['>'])) ++
      (PlistText.indent 1 ++ (("</".toList ++ ("array".toList ++ ['>'])) ++
      (PlistText.indent 1 ++ (PlistText.element "key" (PlistText.escaped "StartInterval".toList) ++
        (PlistText.indent 1 ++ ('<' :: ("integer".toList ++ ['>']))))))) := by decide +kernel
  have last : syncEnd = ("</".toList ++ ("integer".toList ++ ['>'])) ++ (PlistText.writeEntries 1
      [("RunAtLoad".toList, .boolean true), ("StandardOutPath".toList, .string log.toList),
        ("StandardErrorPath".toList, .string log.toList)] ++
          (PlistText.indent 0 ++ (("</".toList ++ ("dict".toList ++ ['>'])) ++
          "\n</plist>\n".toList))) := by decide +kernel
  rw [start, middle, period, last]
  delta syncValue
  simp only [PlistText.textOf, PlistText.write, PlistText.writeEntries, PlistText.writeValues,
    PlistText.element, List.append_assoc, List.cons_append, List.nil_append,
    List.append_nil, Nat.reduceAdd]

def serverStart : List Char :=
  SectionText.unlines (((serverPlistLines "").take 8).map String.toList) ++ "\t\t<string>".toList

def serverEnd : List Char :=
  "</string>\n".toList ++ SectionText.unlines (((serverPlistLines "").drop 9).map String.toList)

theorem serverLines_parts (exec : String) :
    (Systemd.unlines (serverPlistLines exec)).toList =
      serverStart ++ (exec.toList ++ serverEnd) := by
  have split : serverPlistLines exec =
      (serverPlistLines "").take 8 ++ ("\t\t<string>" ++ exec ++ "</string>") ::
        (serverPlistLines "").drop 9 := by
    delta serverPlistLines prologLines
    rfl
  have close : "</string>\n".toList = "</string>".toList ++ ['\n'] := by decide
  rw [Systemd.unlines, String.toList_ofList, split]
  delta serverStart serverEnd
  simp only [close, List.map_append, List.map_cons, SectionText.unlines_append, unlines_line,
    String.toList_append, List.append_assoc, List.cons_append, List.nil_append]

theorem serverValue_parts (e : List Char) :
    PlistText.textOf (serverValue e) = serverStart ++ (PlistText.escaped e ++ serverEnd) := by
  have start : serverStart = PlistText.opening ++ (('<' :: ("dict".toList ++ ['>'])) ++
      (PlistText.writeEntries 1 [("Label".toList, .string serverLabel.toList)] ++
        (PlistText.indent 1 ++
        (PlistText.element "key" (PlistText.escaped "ProgramArguments".toList) ++
          (PlistText.indent 1 ++
          (('<' :: ("array".toList ++ ['>'])) ++ (PlistText.indent 2 ++
            ('<' :: ("string".toList ++ ['>'])))))))))
      := by decide +kernel
  have last : serverEnd = ("</".toList ++ ("string".toList ++ ['>'])) ++ (PlistText.writeValues 2
      [.string "server".toList, .string "run".toList] ++
        (PlistText.indent 1 ++ (("</".toList ++ ("array".toList ++ ['>'])) ++
        (PlistText.writeEntries 1 [("RunAtLoad".toList, .boolean true),
          ("KeepAlive".toList, .boolean true), ("StandardOutPath".toList, .string serverLog.toList),
          ("StandardErrorPath".toList, .string serverLog.toList)] ++
          (PlistText.indent 0 ++ (("</".toList ++ ("dict".toList ++ ['>'])) ++
            "\n</plist>\n".toList)))))) := by
    decide +kernel
  rw [start, last]
  delta serverValue
  simp only [PlistText.textOf, PlistText.write, PlistText.writeEntries, PlistText.writeValues,
    PlistText.element, List.append_assoc, List.cons_append, List.nil_append,
    List.append_nil, Nat.reduceAdd]

theorem syncValue_chars {e d : List Char} (n : Nat) (he : e.all PlistText.isChar = true)
    (hd : d.all PlistText.isChar = true) :
    (PlistText.chars (syncValue e d n)).all PlistText.isChar = true := by
  delta syncValue
  simp only [PlistText.chars, PlistText.charsOf, PlistText.charsOfEntries, List.all_append, he, hd]
  decide +kernel

theorem serverValue_chars {e : List Char} (he : e.all PlistText.isChar = true) :
    (PlistText.chars (serverValue e)).all PlistText.isChar = true := by
  delta serverValue
  simp only [PlistText.chars, PlistText.charsOf, PlistText.charsOfEntries, List.all_append, he]
  decide +kernel

theorem syncPlist_ok {exec deviceFile : UnixPath} {interval : Duration} {text : String}
    (h : syncPlist exec deviceFile interval = .ok text) :
    ∃ e d, string exec = .ok e ∧ string deviceFile = .ok d ∧ text = Systemd.unlines
      (syncPlistLines e d (String.ofList (DecimalText.showNat (startInterval interval)))) := by
  rw [syncPlist] at h
  cases he : string exec with
  | error _ =>
    rw [he] at h
    cases h
  | ok e =>
    cases hd : string deviceFile with
    | error _ =>
      rw [he, hd] at h
      cases h
    | ok d =>
      rw [he, hd] at h
      exact ⟨e, d, rfl, rfl, (Except.ok.inj h).symm⟩

theorem serverPlist_ok {exec : UnixPath} {text : String} (h : serverPlist exec = .ok text) :
    ∃ e, string exec = .ok e ∧ text = Systemd.unlines (serverPlistLines e) := by
  rw [serverPlist] at h
  cases he : string exec with
  | error _ =>
    rw [he] at h
    cases h
  | ok e =>
    rw [he] at h
    exact ⟨e, rfl, (Except.ok.inj h).symm⟩

/-- launchd is given just the command that was meant, and no property list is written just
where a path has no way into one. -/
theorem plists_name_paths (exec deviceFile : UnixPath) (interval : Duration) :
    ((∀ text, syncPlist exec deviceFile interval = .ok text →
        PlistText.read text.toList =
          some (syncValue (name exec) (name deviceFile) interval.asSecs) ∧
          utf8 (name exec) = exec ∧ utf8 (name deviceFile) = deviceFile) ∧
      ((∃ text, syncPlist exec deviceFile interval = .ok text) ↔
        Writable exec ∧ Writable deviceFile)) ∧
    (∀ text, serverPlist exec = .ok text →
        PlistText.read text.toList = some (serverValue (name exec)) ∧ utf8 (name exec) = exec) ∧
      ((∃ text, serverPlist exec = .ok text) ↔ Writable exec) := by
  have known : ∀ {path : UnixPath}, Writable path → utf8 (name path) = path := fun h =>
    (UnixPath.utf8_name h.choose_spec.1).2
  refine ⟨⟨fun text h => ?_, fun ⟨text, h⟩ => ?_, fun ⟨hexec, hdevice⟩ => ?_⟩, fun text h => ?_,
    fun ⟨text, h⟩ => ?_,
    fun hexec => ?_⟩
  · obtain ⟨e, d, he, hd, rfl⟩ := syncPlist_ok h
    obtain ⟨writesExec, shownExec, charsExec⟩ := string_ok he
    obtain ⟨writesDevice, shownDevice, charsDevice⟩ := string_ok hd
    refine ⟨?_, known writesExec, known writesDevice⟩
    rw [syncLines_parts, shownExec, shownDevice, String.toList_ofList, ← syncValue_parts]
    exact PlistText.read_textOf (syncValue_chars _ charsExec charsDevice)
  · obtain ⟨e, d, he, hd, _⟩ := syncPlist_ok h
    exact ⟨(string_ok he).1, (string_ok hd).1⟩
  · obtain ⟨e, he⟩ := string_of_writable hexec
    obtain ⟨d, hd⟩ := string_of_writable hdevice
    rw [syncPlist, he, hd]
    exact ⟨_, rfl⟩
  · obtain ⟨e, he, rfl⟩ := serverPlist_ok h
    obtain ⟨writes, shown, chars⟩ := string_ok he
    refine ⟨?_, known writes⟩
    rw [serverLines_parts, shown, ← serverValue_parts]
    exact PlistText.read_textOf (serverValue_chars chars)
  · obtain ⟨e, he, _⟩ := serverPlist_ok h
    exact (string_ok he).1
  · obtain ⟨e, he⟩ := string_of_writable hexec
    rw [serverPlist, he]
    exact ⟨_, rfl⟩

end Launchd
