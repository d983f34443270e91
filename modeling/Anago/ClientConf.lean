import Mathlib.Data.List.DropRight
import Anago.WgConfRead

/-!
# A device's WireGuard configuration

One renderer for the file anago writes on a device and for the profile it hands to a
phone; the two differ by their comments. The device's private key is kept in this file
only, so a later run finds it there.
-/

open StdText DecimalText SectionText

namespace StdText

/-- `str::lines`: the newline goes, with the carriage return before it. -/
def lines (text : List Char) : List (List Char) :=
  let dropReturn (line : List Char) := if line.getLast? = some '\r' then line.dropLast else line
  let parts := text.splitOn '\n'
  parts.dropLast.map dropReturn ++ (parts.getLast?.filter fun last => last ≠ []).toList

/-- `char::to_ascii_lowercase`. -/
def toAsciiLowercase (c : Char) : Char :=
  if 'A'.toNat ≤ c.toNat ∧ c.toNat ≤ 'Z'.toNat then Char.ofNat (c.toNat + 32) else c

/-- `str::eq_ignore_ascii_case`. -/
def eqIgnoreAsciiCase (cs ds : List Char) : Bool :=
  cs.map toAsciiLowercase = ds.map toAsciiLowercase

/-- Nothing before a character that is no whitespace is trimmed off the end. -/
theorem trimEnd_append {c : Char} (h : isWhitespace c = false) (before after : List Char) :
    trimEnd (before ++ c :: after) = before ++ c :: trimEnd after := by
  have split : (before ++ c :: after).reverse = after.reverse ++ c :: before.reverse := by simp
  have stop : trimStart (c :: before.reverse) = c :: before.reverse := trimStart_of_head h
  rw [trimEnd, split, trimStart, List.dropWhile_append]
  split
  · next none =>
    have gone : trimEnd after = [] := by
      rw [trimEnd, trimStart, List.isEmpty_iff.mp none, List.reverse_nil]
    rw [trimStart] at stop
    rw [stop, gone]
    simp
  · simp [trimEnd, trimStart]

/-- The two ends are trimmed in either order. -/
theorem trimStart_trimEnd (cs : List Char) : trimStart (trimEnd cs) = trimEnd (trimStart cs) := by
  cases start : trimStart cs with
  | nil =>
    have none : trimEnd cs = [] := by
      rw [trimStart, List.dropWhile_eq_nil_iff] at start
      rw [trimEnd, trimStart, List.reverse_eq_nil_iff, List.dropWhile_eq_nil_iff]
      exact fun c hc => start c (List.mem_reverse.mp hc)
    rw [none]
    rfl
  | cons c rest =>
    have first : isWhitespace c = false := head_trimStart (by rw [start, List.head?_cons])
    have blank : ∀ d ∈ cs.takeWhile isWhitespace, isWhitespace d = true := fun d hd =>
      List.mem_takeWhile_imp hd
    have split : cs = cs.takeWhile isWhitespace ++ c :: rest := by
      rw [← start, trimStart, List.takeWhile_append_dropWhile]
    rw [split, trimEnd_append first, trimStart, List.dropWhile_append_of_pos blank,
      ← List.nil_append (c :: rest), trimEnd_append first]
    exact trimStart_of_head first

theorem trim_trimEnd (cs : List Char) : trim (trimEnd cs) = trim cs := by
  have again : trimEnd (trimEnd (trimStart cs)) = trimEnd (trimStart cs) := by
    simp only [trimEnd, trimStart, List.reverse_reverse, List.dropWhile_idempotent]
  rw [trim, trim, trimStart_trimEnd, again]

end StdText

namespace WgConf

/-- Seconds between keepalives on the device side. -/
def persistentKeepaliveSecs : UInt32 := 25

/-- What a device knows about the network after `join`. -/
structure ClientProfile where
  address : Ipv4Addr
  subnet : Subnet
  privateKey : PrivateKey
  serverPublicKey : String
  /-- `host:port` the device dials. -/
  serverEndpoint : String
  deriving DecidableEq

/-- The one renderer behind both. -/
def renderClient (profile : ClientProfile) (comments : Bool) : String :=
  "[Interface]\n" ++
    (if comments then "# anago — generated file, edits are overwritten\n" else "") ++
    ("Address = " ++ profile.address.toString ++ "/" ++
      String.ofList (showNat prefixLen.toNat) ++ "\n") ++
    ("PrivateKey = " ++ profile.privateKey.text ++ "\n") ++
    "\n[Peer]\n" ++
    (if comments then "# anago server\n" else "") ++
    ("PublicKey = " ++ profile.serverPublicKey ++ "\n") ++
    ("Endpoint = " ++ profile.serverEndpoint ++ "\n") ++
    ("AllowedIPs = " ++ profile.subnet.toString ++ "\n") ++
    ("PersistentKeepalive = " ++ String.ofList (showNat persistentKeepaliveSecs.toNat) ++ "\n")

/-- The device's `anago.conf`. -/
def clientConfig (profile : ClientProfile) : SecretText := ⟨renderClient profile true⟩

/-- The same profile for the official WireGuard app. -/
def exportProfile (profile : ClientProfile) : SecretText := ⟨renderClient profile false⟩

/-- What one line has for `private_key_line`. -/
def keyOf (line : List Char) : Option String :=
  match Subnet.splitOnce '=' (trim line) with
  | none => none
  | some (name, value) =>
    if eqIgnoreAsciiCase (trim name) "privatekey".toList then some (String.ofList (trim value))
    else none

/-- Finds this device's private key in its own config. -/
def privateKeyLine (config : String) : Option String := (lines config.toList).findSome? keyOf

/-- A setting as it is written. -/
theorem render_setting {key label : String} (value : String)
    (h : label.toList = key.toList ++ [' ', '=', ' ']) :
    (label ++ value ++ "\n").toList = render [.setting key.toList value.toList] := by
  rw [String.toList_append, String.toList_append, h, render, List.map_singleton, unlines,
    List.flatMap_singleton, Line.text]
  rfl

/-- The lines of a device's config, in order. -/
def clientLines (profile : ClientProfile) (comments : Bool) : List Line :=
  let remark (text : String) : List Line := if comments then [.comment text.toList] else []
  .header "Interface".toList :: (remark " anago — generated file, edits are overwritten" ++
    .setting "Address".toList (profile.address.toString ++ "/24").toList ::
    .setting "PrivateKey".toList profile.privateKey.text.toList ::
    .blank :: .header "Peer".toList :: (remark " anago server" ++
      [.setting "PublicKey".toList profile.serverPublicKey.toList,
        .setting "Endpoint".toList profile.serverEndpoint.toList,
        .setting "AllowedIPs".toList profile.subnet.toString.toList,
        .setting "PersistentKeepalive".toList "25".toList]))

theorem render_both {text text' : String} {lines lines' : List Line}
    (h : text.toList = render lines) (h' : text'.toList = render lines') :
    (text ++ text').toList = render (lines ++ lines') := by
  rw [String.toList_append, h, h', render_append]

theorem renderClient_lines (profile : ClientProfile) (comments : Bool) :
    (renderClient profile comments).toList = render (clientLines profile comments) := by
  have header : "[Interface]\n".toList = render [.header "Interface".toList] := by decide
  have peer : "\n[Peer]\n".toList = render [.blank, .header "Peer".toList] := by decide
  have generated :
      (if comments then "# anago — generated file, edits are overwritten\n" else "").toList =
      render (if comments then [.comment " anago — generated file, edits are overwritten".toList]
        else []) := by cases comments <;> decide
  have server : (if comments then "# anago server\n" else "").toList =
      render (if comments then [.comment " anago server".toList] else []) := by
    cases comments <;> decide
  have slash : ("Address = " ++ profile.address.toString ++ "/" ++
      String.ofList (showNat prefixLen.toNat) ++ "\n").toList =
      render [.setting "Address".toList (profile.address.toString ++ "/24").toList] := by
    have tail : "/" ++ (String.ofList (showNat prefixLen.toNat) ++ "\n") = "/24" ++ "\n" := by
      decide
    rw [← render_setting (profile.address.toString ++ "/24") (rfl : "Address = ".toList = _)]
    simp only [String.append_assoc, tail]
  have secret := @render_setting "PrivateKey" "PrivateKey = " profile.privateKey.text rfl
  have key := @render_setting "PublicKey" "PublicKey = " profile.serverPublicKey rfl
  have endpoint := @render_setting "Endpoint" "Endpoint = " profile.serverEndpoint rfl
  have allowed := @render_setting "AllowedIPs" "AllowedIPs = " profile.subnet.toString rfl
  have keepalive := @render_setting "PersistentKeepalive" "PersistentKeepalive = " "25" rfl
  have seconds : String.ofList (showNat persistentKeepaliveSecs.toNat) = "25" := by decide
  have interface := render_both (render_both (render_both header generated) slash) secret
  have hub := render_both (render_both (render_both interface peer) server) key
  have all := render_both (render_both (render_both hub endpoint) allowed) keepalive
  rw [← seconds] at all
  refine all.trans (congrArg render ?_)
  simp only [List.append_assoc, List.cons_append, List.nil_append]
  rfl

/-- Lines come off the front of a text one by one. -/
theorem lines_unlines {front : List (List Char)}
    (h : ∀ line ∈ front, '\n' ∉ line ∧ line.getLast? ≠ some '\r') (rest : List Char) :
    lines (unlines front ++ rest) = front ++ lines rest := by
  have split : (unlines front ++ rest).splitOn '\n' = front ++ rest.splitOn '\n' := by
    induction front with
    | nil => rfl
    | cons line front ih =>
      have none : ∀ c ∈ line, (c == '\n') = false := by
        intro c hc
        rw [beq_eq_false_iff_ne]
        rintro rfl
        exact (h line List.mem_cons_self).1 hc
      have rest' := ih fun l hl => h l (List.mem_cons_of_mem _ hl)
      rw [List.splitOn_eq_splitOnP] at rest' ⊢
      rw [unlines, List.flatMap_cons, List.append_assoc, List.append_assoc, List.singleton_append,
        List.splitOnP_append_cons_of_forall_mem none '\n' (by decide), List.cons_append]
      exact congrArg _ rest'
  have nonempty : rest.splitOn '\n' ≠ [] := by
    rw [List.splitOn_eq_splitOnP]
    exact List.splitOnP_ne_nil _ _
  have same : front.map (fun line => if line.getLast? = some '\r' then line.dropLast else line) =
      front := by
    rw [List.map_congr_left fun line hl => if_neg (h line hl).2, List.map_id']
  simp only [lines, split, List.dropLast_append_of_ne_nil nonempty,
    List.getLast?_append_of_ne_nil _ nonempty, List.map_append, same, List.append_assoc]

/-- The first line of a text, its carriage return aside. -/
theorem lines_head (front back : List Char) : ∃ rest, lines (front ++ '\n' :: back) =
    (let line := front.takeWhile (· ≠ '\n')
      if line.getLast? = some '\r' then line.dropLast else line) :: rest := by
  obtain ⟨back', split⟩ : ∃ back', front ++ '\n' :: back =
      front.takeWhile (· ≠ '\n') ++ '\n' :: back' := by
    cases hdrop : front.dropWhile (· ≠ '\n') with
    | nil =>
      exact ⟨back, by rw [List.takeWhile_eq_self_iff.mpr (List.dropWhile_eq_nil_iff.mp hdrop)]⟩
    | cons c rest =>
      have stop := List.head?_dropWhile_not (· ≠ '\n') front
      rw [hdrop] at stop
      obtain rfl : c = '\n' := by simpa using stop
      refine ⟨rest ++ '\n' :: back, ?_⟩
      rw [← List.cons_append, ← List.append_assoc, ← hdrop, List.takeWhile_append_dropWhile]
  have none : ∀ c ∈ front.takeWhile (· ≠ '\n'), (c == '\n') = false := by
    intro c hc
    simpa using List.mem_takeWhile_imp hc
  have nonempty : back'.splitOn '\n' ≠ [] := by
    rw [List.splitOn_eq_splitOnP]
    exact List.splitOnP_ne_nil _ _
  have parts : (front ++ '\n' :: back).splitOn '\n' =
      front.takeWhile (· ≠ '\n') :: back'.splitOn '\n' := by
    rw [split, List.splitOn_eq_splitOnP,
      List.splitOnP_append_cons_of_forall_mem none '\n' (by decide)]
    rfl
  simp only [lines, parts, List.dropLast_cons_of_ne_nil nonempty, List.map_cons, List.cons_append]
  exact ⟨_, rfl⟩

theorem trim_dropReturn (line : List Char) :
    trim (if line.getLast? = some '\r' then line.dropLast else line) = trim line := by
  by_cases h : line.getLast? = some '\r'
  · have gone : trimEnd (line.dropLast ++ ['\r']) = trimEnd line.dropLast := by
      rw [trimEnd, List.reverse_append]
      rfl
    have split := List.dropLast_append_getLast? '\r' h
    rw [if_pos h, ← trim_trimEnd, ← gone, trim_trimEnd, split]
  · rw [if_neg h]

/-- What is read of a setting. -/
theorem splitOnce_setting {key : List Char} (named : key.head?.any (!isWhitespace ·) = true)
    (noequals : '=' ∉ key) (value : List Char) :
    Subnet.splitOnce '=' (trim (Line.setting key value).text) =
      some (key ++ [' '], trimEnd (' ' :: value)) := by
  have text : (Line.setting key value).text = (key ++ [' ']) ++ '=' :: ' ' :: value := by
    simp [Line.text]
  have start : trimStart (Line.setting key value).text = (Line.setting key value).text := by
    cases key with
    | nil => cases named
    | cons k key => exact trimStart_of_head (by simpa using named)
  rw [trim, start, text, trimEnd_append (by decide)]
  refine Subnet.splitOnce_append ?_
  rw [List.mem_append, List.mem_singleton]
  rintro (h | h)
  · exact noequals h
  · revert h
    decide

theorem trim_value (value : List Char) : trim (trimEnd (' ' :: value)) = trim value := by
  rw [trim_trimEnd]
  rfl

theorem keyOf_setting {key : List Char} (named : key.head?.any (!isWhitespace ·) = true)
    (noequals : '=' ∉ key) (value : List Char) :
    keyOf (Line.setting key value).text =
      if eqIgnoreAsciiCase (trim (key ++ [' '])) "privatekey".toList then
        some (String.ofList (trim value))
      else none := by
  rw [keyOf, splitOnce_setting named noequals]
  simp only [trim_value]

/-- What is found in a generated config, whatever its key. -/
theorem privateKeyLine_rendered (profile : ClientProfile) :
    privateKeyLine (clientConfig profile).expose =
      some (String.ofList (trim (profile.privateKey.text.toList.takeWhile (· ≠ '\n')))) := by
  let first : List Line := [.header "Interface".toList,
    .comment " anago — generated file, edits are overwritten".toList,
    .setting "Address".toList (profile.address.toString ++ "/24").toList]
  let secret : List Char := profile.privateKey.text.toList
  obtain ⟨rest, split⟩ : ∃ rest, clientLines profile true =
      first ++ .setting "PrivateKey".toList secret :: rest := ⟨_, rfl⟩
  have address : (profile.address.toString ++ "/24").toList =
      profile.address.display ++ "/24".toList := by
    rw [String.toList_append, Ipv4Addr.toString, String.toList_ofList]
  have whole : ∀ line ∈ first.map Line.text, '\n' ∉ line ∧ line.getLast? ≠ some '\r' := by
    simp only [first, List.map_cons, List.map_nil, List.forall_mem_cons, List.not_mem_nil,
      false_implies, implies_true, and_true]
    have proper :
        (Line.setting "Address".toList (profile.address.toString ++ "/24").toList).Proper := by
      rw [address]
      exact ⟨by decide, plain_display profile.address (by decide)⟩
    refine ⟨by decide, by decide, proper.no_newline, ?_⟩
    have last : "/24".toList.getLast? = some '4' := rfl
    rw [Line.text, address, ← List.append_assoc, List.getLast?_append, last, Option.some_or]
    decide
  have text : (clientConfig profile).expose.toList = unlines (first.map Line.text) ++
      ((Line.setting "PrivateKey".toList secret).text ++ '\n' :: render rest) := by
    rw [SecretText.expose, clientConfig, renderClient_lines, split, render_append, render]
    simp [render, unlines]
  obtain ⟨others, secretFirst⟩ :=
    lines_head (Line.setting "PrivateKey".toList secret).text (render rest)
  have key : (Line.setting "PrivateKey".toList secret).text.takeWhile (· ≠ '\n') =
      (Line.setting "PrivateKey".toList (secret.takeWhile (· ≠ '\n'))).text := by
    rw [Line.text, Line.text, List.takeWhile_append_of_pos (by simp)]
  have header : keyOf (Line.header "Interface".toList).text = none := by decide
  have comment : keyOf (Line.comment " anago — generated file, edits are overwritten".toList).text =
    none := by decide
  have named :
      keyOf (Line.setting "Address".toList (profile.address.toString ++ "/24").toList).text =
      none := by
    rw [keyOf_setting (by decide) (by decide), if_neg (by decide)]
  have found : ∀ line, keyOf (if line.getLast? = some '\r' then line.dropLast else line) =
      keyOf line := by
    intro line
    rw [keyOf, keyOf, trim_dropReturn]
  rw [privateKeyLine, text, lines_unlines whole, secretFirst]
  simp only [first, List.map_cons, List.map_nil, List.cons_append, List.nil_append,
    List.findSome?_cons, header, comment, named, found, key]
  rw [keyOf_setting (by decide) (by decide), if_pos (by decide)]

/-- The key of a generated config is found in it. -/
theorem privateKeyLine_clientConfig {profile : ClientProfile} (h : IsKey profile.privateKey.text) :
    privateKeyLine (clientConfig profile).expose = some profile.privateKey.text := by
  have whole : profile.privateKey.text.toList.takeWhile (· ≠ '\n') =
      profile.privateKey.text.toList := by
    refine List.takeWhile_eq_self_iff.mpr fun c hc => decide_eq_true ?_
    rintro rfl
    exact absurd (h.not_whitespace hc) (by decide)
  rw [privateKeyLine_rendered, whole, h.trim, String.ofList_toList]

end WgConf
