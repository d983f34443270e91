import Anago.Columns
import Anago.Commands
import Anago.Saturating

/-!
# The table of devices

`anago ls` prints its rows as a table, on the hub and on a device alike. A device may be named
in Korean, so columns are counted as a terminal counts them. Whoever reads the table by its
heading reads the rows.
-/

open StdText DecimalText Columns Proto

namespace Render

/-- How many characters of a key are shown. -/
def keyPrefixLen : Nat := 8

/-- The characters that take two columns: Hangul, Han, Kana and full-width forms. -/
def wideRanges : List (Nat × Nat) :=
  [(0x1100, 0x115F), (0x2E80, 0x303E), (0x3041, 0x33FF), (0x3400, 0x4DBF),
    (0x4E00, 0x9FFF), (0xA960, 0xA97F), (0xAC00, 0xD7A3), (0xF900, 0xFAFF), (0xFE30, 0xFE6F),
    (0xFF00, 0xFF60), (0xFFE0, 0xFFE6), (0x20000, 0x3FFFD)]

def charWidth (c : Char) : Nat :=
  if wideRanges.any fun range => range.1 ≤ c.toNat && c.toNat ≤ range.2 then 2 else 1

def displayWidth (text : List Char) : Nat := width charWidth text

def abbreviateKey (key : String) : String :=
  if key.toList.length ≤ keyPrefixLen then key
    else String.ofList (key.toList.take keyPrefixLen ++ ['…'])

/-- An age, coarsely. A clock that ran backwards shows no negative age. -/
def formatAgo (seconds : Int64) : String :=
  if seconds.toInt ≤ 9 then "just now"
  else if seconds.toInt ≤ 59 then String.ofList (showInt seconds.toInt) ++ "s ago"
  else if seconds.toInt ≤ 3599 then String.ofList (showInt (seconds.toInt / 60)) ++ "m ago"
  else if seconds.toInt ≤ 86399 then String.ofList (showInt (seconds.toInt / 3600)) ++ "h ago"
  else String.ofList (showInt (seconds.toInt / 86400)) ++ "d ago"

def formatHandshake (handshake : Ls.LastHandshake) (now : Int64) : String :=
  match handshake with
  | .unknown => "—"
  | .never => "never"
  | .at' seconds => formatAgo (Saturating.sub now seconds)

def headers : List (List Char) :=
  ["NAME".toList, "ADDRESS".toList, "PUBLIC KEY".toList, "LAST HANDSHAKE".toList]

/-- What the table shows of a row. -/
def cells (now : Int64) (row : Ls.PeerRow) : List (List Char) :=
  [row.name.toList, row.address.toString.toList, (abbreviateKey row.publicKey).toList,
    (formatHandshake row.lastHandshake now).toList]

def writeRow (widths : List Nat) (cells : List (List Char)) : List Char :=
  trimEnd (line charWidth (widths.zip cells)) ++ ['\n']

/-- The table, or a line saying that there are no devices. -/
def peerTable (rows : List Ls.PeerRow) (now : Int64) : String :=
  if rows = [] then "no devices yet — run `anago code` on the server to add one\n"
  else
    let widths := (rows.map (cells now)).foldl (widen charWidth) (headers.map displayWidth)
    String.ofList (writeRow widths headers ++ (rows.map (cells now)).flatMap (writeRow widths))

/-- Reads a table by its heading. -/
def readTable (text : String) : Option (List (List (List Char))) :=
  match text.toList.splitOn '\n' with
  | [] => none
  | heading :: lines =>
    (measure charWidth headers heading).map fun widths =>
      lines.dropLast.map (readLine charWidth widths)

/-- The units of an age, in seconds. -/
def units : List (List Char × Int) :=
  [("s ago".toList, 1), ("m ago".toList, 60), ("h ago".toList, 3600), ("d ago".toList, 86400)]

/-- The least and the first too long number of seconds that an age may stand for. -/
def readAge (text : List Char) : Option (Int × Int) :=
  match parseDigits (text.takeWhile Char.isDigit), units.lookup (text.dropWhile Char.isDigit) with
  | some n, some unit => some (n * unit, (n + 1) * unit)
  | _, _ => none

/-- What the last column tells. -/
def Heard (now : Int64) (handshake : Ls.LastHandshake) (text : List Char) : Prop :=
  match handshake with
  | .unknown => text = "—".toList
  | .never => text = "never".toList
  | .at' seconds =>
    ((Saturating.sub now seconds).toInt ≤ 9 ∧ text = "just now".toList) ∨
      ∃ least beyond, readAge text = some (least, beyond) ∧
        10 ≤ least ∧ least ≤ (Saturating.sub now seconds).toInt ∧
        (Saturating.sub now seconds).toInt < beyond

/-- What a reader learns of a row: its name, its address, the start of its key and when it was
last heard of. -/
def Shows (now : Int64) (row : Ls.PeerRow) (cells : List (List Char)) : Prop :=
  ∃ address last, cells = [row.name.toList, address,
    row.publicKey.toList.take keyPrefixLen ++ ['…'], last] ∧
    Ipv4Addr.parse (String.ofList address) = some row.address ∧ Heard now row.lastHandshake last

/-- Text that stands on one line and ends in something that can be seen. -/
def Printed (cell : List Char) : Prop :=
  (∃ text c, cell = text ++ [c] ∧ isWhitespace c = false) ∧ '\n' ∉ cell

theorem Printed.closed {cell : List Char} (printed : Printed cell) : Closed cell := by
  obtain ⟨⟨text, c, ends, seen⟩, -⟩ := printed
  refine ⟨text, c, ends, ?_⟩
  rintro rfl
  exact absurd seen (by decide)

theorem Printed.append {cell : List Char} (printed : Printed cell) {before : List Char}
    (line : '\n' ∉ before) :
    Printed (before ++ cell) := by
  obtain ⟨⟨text, c, rfl, seen⟩, clear⟩ := printed
  refine ⟨⟨before ++ text, c, (List.append_assoc _ _ _).symm, seen⟩, ?_⟩
  rw [List.mem_append]
  exact not_or.mpr ⟨line, clear⟩

theorem Printed.trimEnd {cell : List Char} (printed : Printed cell) (before : List Char) :
    StdText.trimEnd (before ++ cell) = before ++ cell := by
  obtain ⟨⟨text, c, rfl, seen⟩, -⟩ := printed
  rw [← List.append_assoc, trimEnd_append seen]
  rfl

theorem printed_of_seen {cell : List Char} (some : cell ≠ [])
    (seen : ∀ c ∈ cell, isWhitespace c = false) :
    Printed cell := by
  refine ⟨⟨cell.dropLast, cell.getLast some, (List.dropLast_append_getLast some).symm,
    seen _ (List.getLast_mem some)⟩, fun there => ?_⟩
  exact absurd (seen _ there) (by decide)

theorem printed_headers : ∀ title ∈ headers, Printed title ∧ Open title := by
  intro title there
  simp only [headers, List.mem_cons, List.not_mem_nil, or_false] at there
  rcases there with rfl | rfl | rfl | rfl
  · exact ⟨⟨⟨"NAM".toList, 'E', by decide, by decide⟩, by decide⟩, 'N',
      "AME".toList, by decide, by decide⟩
  · exact ⟨⟨⟨"ADDRES".toList, 'S', by decide, by decide⟩, by decide⟩,
      'A', "DDRESS".toList, by decide, by decide⟩
  · exact ⟨⟨⟨"PUBLIC KE".toList, 'Y', by decide, by decide⟩, by decide⟩,
      'P', "UBLIC KEY".toList, by decide, by decide⟩
  · exact ⟨⟨⟨"LAST HANDSHAK".toList, 'E', by decide, by decide⟩, by decide⟩,
      'L', "AST HANDSHAKE".toList, by decide, by decide⟩

theorem not_newline_showInt (n : Int) : '\n' ∉ showInt n := by
  cases n with
  | ofNat n => exact Ipv4Addr.not_mem_showNat n (by decide)
  | negSucc n =>
    rw [showInt, List.mem_cons]
    exact not_or.mpr ⟨by decide, Ipv4Addr.not_mem_showNat _ (by decide)⟩

/-- An age is printed in some unit. -/
theorem printed_formatAgo (seconds : Int64) : Printed (formatAgo seconds).toList := by
  have ago : ∀ (n : Int) (unit : String), Printed unit.toList →
      Printed (String.ofList (showInt n) ++ unit).toList := by
    intro n unit printed
    rw [String.toList_append, String.toList_ofList]
    exact printed.append (not_newline_showInt n)
  rw [formatAgo]
  split_ifs
  · exact ⟨⟨"just no".toList, 'w', by decide, by decide⟩, by decide⟩
  · exact ago _ _ ⟨⟨"s ag".toList, 'o', by decide, by decide⟩, by decide⟩
  · exact ago _ _ ⟨⟨"m ag".toList, 'o', by decide, by decide⟩, by decide⟩
  · exact ago _ _ ⟨⟨"h ag".toList, 'o', by decide, by decide⟩, by decide⟩
  · exact ago _ _ ⟨⟨"d ag".toList, 'o', by decide, by decide⟩, by decide⟩

theorem printed_formatHandshake (handshake : Ls.LastHandshake) (now : Int64) :
    Printed (formatHandshake handshake now).toList := by
  cases handshake with
  | unknown =>
    have printed : Printed "—".toList := ⟨⟨[], '—', by decide, by decide⟩, by decide⟩
    exact printed
  | never =>
    have printed : Printed "never".toList := ⟨⟨"neve".toList, 'r', by decide, by decide⟩, by decide⟩
    exact printed
  | at' seconds => exact printed_formatAgo _

/-- A row whose name can be seen and whose key is one. -/
structure Sound (row : Ls.PeerRow) : Prop where
  name : row.name.toList ≠ []
  seen : ∀ c ∈ row.name.toList, isWhitespace c = false
  key : IsKey row.publicKey

theorem abbreviateKey_key {key : String} (h : IsKey key) :
    (abbreviateKey key).toList = key.toList.take keyPrefixLen ++ ['…'] := by
  obtain ⟨init, text, length, -⟩ := h.shape
  have long : ¬key.toList.length ≤ keyPrefixLen := by
    rw [text, List.length_append, length]
    decide
  rw [abbreviateKey, if_neg long, String.toList_ofList]

theorem printed_cells {row : Ls.PeerRow} (sound : Sound row) (now : Int64) :
    ∀ cell ∈ cells now row, Printed cell := by
  intro cell there
  simp only [cells, List.mem_cons, List.not_mem_nil, or_false] at there
  rcases there with rfl | rfl | rfl | rfl
  · exact printed_of_seen sound.name sound.seen
  · rw [Ipv4Addr.toString, String.toList_ofList]
    refine printed_of_seen (by simp [Ipv4Addr.display]) fun c there => ?_
    rcases row.address.display_chars c there with digit | rfl
    · exact isAlphanum_not_whitespace c (by simp [Char.isAlphanum, digit])
    · decide
  · rw [abbreviateKey_key sound.key]
    refine Printed.append ⟨⟨[], '…', rfl, by decide⟩, by decide⟩ fun there => ?_
    exact absurd (sound.key.not_whitespace (List.mem_of_mem_take there)) (by decide)
  · exact printed_formatHandshake _ _

theorem readAge_shown (n : Nat) {c : Char} (word : c.isDigit = false)
    {rest : List Char} {unit : Int} (known : units.lookup (c :: rest) = some unit) :
    readAge (showNat n ++ c :: rest) = some (n * unit, (n + 1) * unit) := by
  have digits := List.all_eq_true.mp (all_isDigit_showNat n)
  have none : ¬c.isDigit = true := by simp [word]
  rw [readAge, List.takeWhile_append_of_pos digits, List.dropWhile_append_of_pos digits,
    List.takeWhile_cons_of_neg none, List.dropWhile_cons_of_neg none, List.append_nil,
    parseDigits_showNat, known]

/-- An age is read as what it was rounded from. -/
theorem formatAgo_reads (seconds : Int64) :
    (seconds.toInt ≤ 9 ∧ (formatAgo seconds).toList = "just now".toList) ∨
      ∃ least beyond, readAge (formatAgo seconds).toList = some (least, beyond) ∧
        10 ≤ least ∧ least ≤ seconds.toInt ∧ seconds.toInt < beyond := by
  by_cases soon : seconds.toInt ≤ 9
  · exact .inl ⟨soon, by rw [formatAgo, if_pos soon]⟩
  · obtain ⟨n, count⟩ := Int.eq_ofNat_of_zero_le (show 0 ≤ seconds.toInt by omega)
    have tells : ∀ (size : Nat) (unit : String) (c : Char) (rest : List Char), 0 < size →
        unit.toList = c :: rest →
        c.isDigit = false → units.lookup (c :: rest) = some (size : Int) → 10 ≤ n / size * size →
        ∃ least beyond, readAge (String.ofList (showNat (n / size)) ++ unit).toList =
          some (least, beyond) ∧
          10 ≤ least ∧ least ≤ (n : Int) ∧ (n : Int) < beyond := by
      intro size unit c rest some text word known least
      have below : n / size * size ≤ n := Nat.div_mul_le_self n size
      have above : n < (n / size + 1) * size := (Nat.div_lt_iff_lt_mul some).mp (Nat.lt_succ_self _)
      refine ⟨(n / size : Nat) * size, ((n / size : Nat) + 1) * size, ?_, by exact_mod_cast least,
        by exact_mod_cast below, by exact_mod_cast above⟩
      rw [String.toList_append, String.toList_ofList, text]
      exact readAge_shown (n / size) word known
    right
    rw [formatAgo, if_neg soon, count]
    rw [count] at soon
    split_ifs with few minutes hours
    · have units := tells 1 "s ago" 's' " ago".toList (by decide) (by decide) (by decide)
        (by decide) (by omega)
      rw [Nat.div_one] at units
      exact units
    · exact tells 60 "m ago" 'm' " ago".toList (by decide) (by decide) (by decide)
        (by decide) (by omega)
    · exact tells 3600 "h ago" 'h' " ago".toList (by decide) (by decide) (by decide)
        (by decide) (by omega)
    · exact tells 86400 "d ago" 'd' " ago".toList (by decide) (by decide) (by decide)
        (by decide) (by omega)

theorem cells_shows {row : Ls.PeerRow} (sound : Sound row) (now : Int64) :
    Shows now row (cells now row) := by
  refine ⟨row.address.toString.toList, (formatHandshake row.lastHandshake now).toList, ?_, ?_, ?_⟩
  · rw [cells, abbreviateKey_key sound.key]
  · rw [String.ofList_toList, Ipv4Addr.parse_toString]
  · cases row.lastHandshake with
    | unknown => rfl
    | never => rfl
    | at' seconds => exact formatAgo_reads _

theorem charWidth_pos (c : Char) : 0 < charWidth c := by
  rw [charWidth]
  split <;> decide

/-- A line of the table, as it is written. -/
theorem writeRow_printed {widths : List Nat} {row : List (List Char)}
    (fits : Fits charWidth widths row) (some : row ≠ []) (printed : ∀ cell ∈ row, Printed cell) :
    writeRow widths row = line charWidth (widths.zip row) ++ ['\n'] ∧
      '\n' ∉ line charWidth (widths.zip row) := by
  have last := List.getLast_mem some
  obtain ⟨before, ends⟩ := line_ends fits (List.getLast?_eq_some_getLast some)
  refine ⟨by rw [writeRow, ends, (printed _ last).trimEnd], fun there => ?_⟩
  rcases mem_line fits there with blank | ⟨cell, held, there⟩
  · exact absurd blank (by decide)
  · exact (printed cell held).2 there

/-- The table is read back. -/
theorem readTable_peerTable {rows : List Ls.PeerRow} (some : rows ≠ [])
    (sound : ∀ row ∈ rows, Sound row) (now : Int64) :
    readTable (peerTable rows now) = .some (rows.map (cells now)) := by
  have fits : Fits charWidth (headers.map displayWidth) headers := by
    rw [Fits, List.forall₂_map_left_iff]
    exact List.forall₂_same.mpr fun _ _ => Nat.le_refl _
  obtain ⟨heading, below⟩ := fits_foldl (rows.map (cells now)) (by
    intro row there
    obtain ⟨peer, -, rfl⟩ := List.mem_map.mp there
    rfl) fits
  generalize wide : (rows.map (cells now)).foldl (widen charWidth) (headers.map displayWidth) =
    widths at heading below
  have shown : ∀ row ∈ headers :: rows.map (cells now),
      Fits charWidth widths row ∧ row ≠ [] ∧ ∀ cell ∈ row, Printed cell := by
    intro row there
    rcases List.mem_cons.mp there with rfl | there
    · exact ⟨heading, by decide, fun title there => (printed_headers title there).1⟩
    · refine ⟨below row there, ?_⟩
      obtain ⟨peer, held, rfl⟩ := List.mem_map.mp there
      exact ⟨List.cons_ne_nil _ _, printed_cells (sound peer held) now⟩
  have text : (peerTable rows now).toList =
      SectionText.unlines ((headers :: rows.map (cells now)).map fun row => line charWidth
        (widths.zip row)) := by
    rw [peerTable, if_neg some]
    simp only [wide, String.toList_ofList]
    rw [← List.flatMap_cons, SectionText.unlines, List.flatMap_map]
    refine List.flatMap_congr fun row there => ?_
    obtain ⟨fits, some, printed⟩ := shown row there
    exact (writeRow_printed fits some printed).1
  have clear : ∀ text ∈ (headers :: rows.map (cells now)).map fun row =>
      line charWidth (widths.zip row), '\n' ∉ text := by
    intro text there
    obtain ⟨row, held, rfl⟩ := List.mem_map.mp there
    obtain ⟨fits, some, printed⟩ := shown row held
    exact (writeRow_printed fits some printed).2
  have measured := measure_line heading (by decide) fun title there =>
    (printed_headers title there).2
  rw [readTable, text, SectionText.splitOn_unlines clear, List.map_cons, List.cons_append]
  simp only [measured, Option.map_some, List.dropLast_concat, List.map_map]
  congr 1
  refine List.map_congr_left fun peer held => ?_
  have there : cells now peer ∈ headers :: rows.map (cells now) :=
    List.mem_cons_of_mem _ (List.mem_map_of_mem held)
  obtain ⟨fits, some, printed⟩ := shown _ there
  exact readLine_line charWidth_pos (by decide) fits some fun cell there =>
    (printed cell there).closed

example :
    peerTable [⟨"노트북", ⟨10, 100, 0, 2⟩, "AAAAAAAAAAAA", .at' 0⟩,
      ⟨"phone", ⟨10, 100, 0, 3⟩, "k", .never⟩]
    7300 =
    "NAME    ADDRESS     PUBLIC KEY  LAST HANDSHAKE\n" ++
    "노트북  10.100.0.2  AAAAAAAA…   2h ago\n" ++
    "phone   10.100.0.3  k           never\n" := by
  decide +kernel

section
variable [Unicode]

theorem sound_rowsFromState {state : ServerState}
    (keys : ∀ peer ∈ state.peers, IsKey peer.publicKey) (dump : Option (List DumpPeer)) :
    ∀ row ∈ Ls.rowsFromState state dump, Sound row := by
  intro row there
  obtain ⟨peer, held, rfl⟩ := List.mem_map.mp there
  exact ⟨peer.name.nonempty, fun c there => peer.name.not_whitespace_of_mem there, keys peer held⟩

theorem sound_rowOf {peer : PeerInfo} {row : Ls.PeerRow}
    (read : Ls.rowOf peer = .ok row) : Sound row := by
  obtain ⟨name, _, read⟩ := except_bind_eq_ok read
  obtain ⟨address, _, read⟩ := except_bind_eq_ok read
  obtain ⟨key, parsed, read⟩ := except_bind_eq_ok read
  cases read
  exact ⟨name.nonempty, fun c there => name.not_whitespace_of_mem there, peer.publicKey,
    Outcome.mapError_eq_ok parsed⟩

theorem sound_rowsFromResponse {response : PeersResponse} {rows : List Ls.PeerRow}
    (read : Ls.rowsFromResponse response = .ok rows) : ∀ row ∈ rows, Sound row := by
  rw [Ls.rowsFromResponse] at read
  generalize response.peers = peers at read
  induction peers generalizing rows with
  | nil =>
    cases read
    exact fun _ there => absurd there List.not_mem_nil
  | cons peer peers ih =>
    rw [List.mapM_cons] at read
    obtain ⟨row, first, read⟩ := except_bind_eq_ok read
    obtain ⟨others, rest, read⟩ := except_bind_eq_ok read
    cases read
    intro other there
    rcases List.mem_cons.mp there with rfl | there
    · exact sound_rowOf first
    · exact ih rest other there

theorem sound_listRemotely {send : Client.Request → Except Client.ClientError Client.Response}
    {config : DeviceConfig} {deviceFile wgConfig : String} {rows : List Ls.PeerRow}
    (listed : Ls.listRemotely send config deviceFile wgConfig = .ok rows) :
    ∀ row ∈ rows, Sound row := by
  obtain ⟨response, _, read⟩ := Outcome.bind_eq_ok listed
  exact sound_rowsFromResponse (Outcome.ofExcept_eq_ok.mp read)

/-- Where `anago ls` has its rows from. `send` is the network. -/
inductive Listed : List Ls.PeerRow → Prop where
  | onServer (state : ServerState) (dump : Option (List DumpPeer))
    (keys : ∀ peer ∈ state.peers, IsKey peer.publicKey) : Listed (Ls.rowsFromState state dump)
  | onDevice (send : Client.Request → Except Client.ClientError Client.Response)
    (config : DeviceConfig) (deviceFile wgConfig : String) (rows : List Ls.PeerRow)
    (listed : Ls.listRemotely send config deviceFile wgConfig = .ok rows) : Listed rows

/-- A reader of the table learns of every device, in the order of the rows, and a table without
devices is none. -/
theorem table_tells {rows : List Ls.PeerRow} (listed : Listed rows) (now : Int64) :
    (rows = [] → readTable (peerTable rows now) = none) ∧
      (rows ≠ [] →
        ∃ table, readTable (peerTable rows now) = some table ∧
        List.Forall₂ (Shows now) rows table) := by
  have sound : ∀ row ∈ rows, Sound row := by
    cases listed with
    | onServer state dump keys => exact sound_rowsFromState keys dump
    | onDevice send config deviceFile wgConfig rows listed => exact sound_listRemotely listed
  constructor
  · rintro rfl
    rw [peerTable, if_pos rfl]
    decide
  · intro some
    refine ⟨rows.map (cells now), readTable_peerTable some sound now, ?_⟩
    rw [List.forall₂_map_right_iff]
    exact List.forall₂_same.mpr fun row there => cells_shows (sound row there) now

end

/-- Two devices, of which `wg` has seen one. -/
def sampleTwo : @ServerState asciiTables :=
  letI := asciiTables
  let key (c : Char) := String.ofList (List.replicate 43 c ++ ['='])
  { Init.sampleHub with
    peers := [
      ⟨Commands.sampleStudio, key 'A', ⟨10, 100, 0, 2⟩, .sample '1' rfl, 7, none⟩,
      ⟨⟨"phone", rfl, by decide, rfl⟩, key 'B', ⟨10, 100, 0, 3⟩, .sample '2' rfl, 8, none⟩] }

/-- What `wg show dump` says of them. -/
def sampleDump : String :=
  let line (c : Char) (seen : String) := String.ofList (List.replicate 43 c ++ ['=']) ++
    "\t(none)\t(none)\t10.100.0.2/32\t" ++ seen ++ "\t0\t0\toff\n"
  "priv\tpub\t51820\toff\n" ++ line 'A' "40" ++ line 'B' "0"

theorem table_tells_sample :
    letI := asciiTables
    let rows := Ls.rowsFromState sampleTwo (some (parseDump sampleDump))
    ∃ table, readTable (peerTable rows 100) = some table ∧ List.Forall₂ (Shows 100) rows table ∧
      table.map (List.map String.ofList) =
        [["studio", "10.100.0.2", "AAAAAAAA…", "1m ago"],
          ["phone", "10.100.0.3", "BBBBBBBB…", "never"]] := by
  have filled : @Ls.rowsFromState asciiTables sampleTwo (some (parseDump sampleDump)) ≠ [] := by
    decide +kernel
  have shown : (readTable (peerTable (@Ls.rowsFromState asciiTables sampleTwo
      (some (parseDump sampleDump))) 100)).map (List.map (List.map String.ofList)) =
      some [["studio", "10.100.0.2", "AAAAAAAA…", "1m ago"],
        ["phone", "10.100.0.3", "BBBBBBBB…", "never"]] := by
    decide +kernel
  let := asciiTables
  have keys : ∀ peer ∈ sampleTwo.peers, IsKey peer.publicKey := by
    intro peer there
    simp only [sampleTwo, List.mem_cons, List.not_mem_nil, or_false] at there
    rcases there with rfl | rfl
    · exact ⟨String.ofList (List.replicate 43 'A' ++ ['=']), rfl⟩
    · exact ⟨String.ofList (List.replicate 43 'B' ++ ['=']), rfl⟩
  obtain ⟨table, read, shows⟩ :=
    (table_tells (.onServer sampleTwo (some (parseDump sampleDump)) keys) 100).2 filled
  rw [read] at shown
  exact ⟨table, read, shows, Option.some.inj shown⟩

end Render
