import Anago.ZoneLookup

/-!
# What a server reads of a request

Whatever goes into a request, a server that reads it by its lines and its length gets that
request and nothing else: a path part stays within its segment, a secret on its line and a
body in its bytes.
-/

open StdText Utf8Text

namespace Client

def pathJoin : String := "/api/v1/join"

def pathPeers : String := "/api/v1/peers"

def verifyPath : String := "/client/v4/user/tokens/verify"

/-- `records_path`. -/
def recordsPath (zoneId : String) : String :=
  ZoneLookup.zonesPath ++ "/" ++ encodeSegment zoneId ++ "/dns_records"

/-- `record_path`. -/
def recordPath (zoneId recordId : String) : String :=
  recordsPath zoneId ++ "/" ++ encodeSegment recordId

/-- `records_query`, a page of 100. -/
def recordsQuery (zoneId name : String) : String :=
  recordsPath zoneId ++ "?name.exact=" ++ encodeSegment name ++ "&per_page=100"

/-- What a request is made for. -/
inductive Target where
  | join
  | peers
  | peer (name : String)
  | verify
  | zones (candidate : String)
  | records (zoneId : String)
  | record (zoneId recordId : String)
  | recordsAt (zoneId name : String)
  deriving DecidableEq, Repr

def Target.path : Target → String
  | .join => pathJoin
  | .peers => pathPeers
  | .peer name => pathPeers ++ "/" ++ encodeSegment name
  | .verify => verifyPath
  | .zones candidate => ZoneLookup.zonesQuery candidate
  | .records zoneId => recordsPath zoneId
  | .record zoneId recordId => recordPath zoneId recordId
  | .recordsAt zoneId name => recordsQuery zoneId name

def authorizationHeaders : Option HeaderValue → List (String × String)
  | some value => [("Authorization", value.text)]
  | none => []

def bodyHeaders : Option Body → List (String × String)
  | some body =>
    [("Content-Type", body.contentType),
      ("Content-Length", String.ofList (DecimalText.showNat (asBytes body.content).length))]
  | none => []

/-- The headers of a request and their values. -/
def headersOf (request : Request) : List (String × String) :=
  [("Host", hostHeader request.host request.port), ("User-Agent", "anago/" ++ version),
    ("Accept", "application/json"), ("Connection", "close")] ++
  authorizationHeaders request.authorization ++ bodyHeaders request.body

/-- A character that can stand in a path. -/
def visible (c : Char) : Bool := 0x21 ≤ c.toNat && c.toNat < 0x7f

theorem mem_utf8 {b : UInt8} (low : b.toNat < 128) {cs : List Char} :
    b ∈ utf8 cs ↔ Char.ofUInt8 b ∈ cs := by
  induction cs with
  | nil => simp
  | cons c cs ih =>
    rw [utf8_cons, List.mem_append, List.mem_cons, ih]
    refine or_congr_left ?_
    by_cases ascii : c.toNat < 128
    · rw [encode_ascii ascii, List.mem_singleton]
      constructor
      · rintro rfl
        exact ofUInt8_toUInt8 ascii
      · rintro rfl
        apply UInt8.toNat_inj.mp
        rw [toUInt8_toNat ascii, ofUInt8_toNat]
    · refine iff_of_false (fun h => ?_) fun h => ?_
      · have := encode_high (Nat.le_of_not_lt ascii) h
        omega
      · rw [← h, ofUInt8_toNat] at ascii
        exact ascii low

@[simp] theorem asBytes_append (s t : String) : asBytes (s ++ t) = asBytes s ++ asBytes t := by
  rw [asBytes, String.toList_append, utf8_append]
  rfl

/-- A character that keeps within a segment: it prints and separates nothing. -/
def inSegment (c : Char) : Bool := visible c && !(['/', '?', '&', '#'].contains c)

theorem upperHex_facts {n : Nat} (h : n < 16) :
    inSegment (upperHex n) = true ∧ (upperHex n).toNat < 128 ∧
      Http.hexValue (upperHex n).toUInt8 = some (UInt8.ofNat n) := by
  have all : ∀ n < 16, inSegment (upperHex n) = true ∧ (upperHex n).toNat < 128 ∧
      Http.hexValue (upperHex n).toUInt8 = some (UInt8.ofNat n) := by decide
  exact all n h

theorem unreserved_facts {b : UInt8} (h : unreserved b = true) :
    inSegment (Char.ofUInt8 b) = true ∧ b.toNat < 128 ∧ b ≠ 37 := by
  have all : ∀ n < 256, unreserved (UInt8.ofNat n) = true →
      inSegment (Char.ofUInt8 (UInt8.ofNat n)) = true ∧ (UInt8.ofNat n).toNat < 128 ∧
      UInt8.ofNat n ≠ 37 := by
    decide +kernel
  have this := all b.toNat b.toNat_lt
  rw [UInt8.ofNat_toNat] at this
  exact this h

theorem inSegment_encodeByte (b : UInt8) : ∀ c ∈ encodeByte b, inSegment c = true := by
  have bound := b.toNat_lt
  intro c hc
  rw [encodeByte] at hc
  split at hc
  · next kept =>
    rw [List.mem_singleton.mp hc]
    exact (unreserved_facts kept).1
  · simp only [List.mem_cons, List.not_mem_nil, or_false] at hc
    rcases hc with rfl | rfl | rfl
    · decide
    · exact (upperHex_facts (by omega)).1
    · exact (upperHex_facts (by omega)).1

/-- An encoded byte is decoded to that byte. -/
theorem percentDecode_encodeByte (b : UInt8) (rest : List UInt8) :
    Http.percentDecode (utf8 (encodeByte b) ++ rest) = (Http.percentDecode rest).map (b :: ·) := by
  have bound := b.toNat_lt
  rw [encodeByte]
  split
  · next kept =>
    obtain ⟨_, low, other⟩ := unreserved_facts kept
    have byte : utf8 [Char.ofUInt8 b] = [b] := by
      rw [utf8_cons_ascii (by rwa [ofUInt8_toNat]), utf8_nil]
      congr 1
      apply UInt8.toNat_inj.mp
      rw [toUInt8_toNat (by rwa [ofUInt8_toNat]), ofUInt8_toNat]
    rw [byte, List.singleton_append, Http.percentDecode]
    · rintro _ _ _ rfl
      exact fun _ => other rfl
    · exact other
  · obtain ⟨_, highLow, high⟩ := upperHex_facts (show b.toNat / 16 < 16 by omega)
    obtain ⟨_, lowLow, low⟩ := upperHex_facts (show b.toNat % 16 < 16 by omega)
    have bytes : utf8 ['%', upperHex (b.toNat / 16), upperHex (b.toNat % 16)] =
        [37, (upperHex (b.toNat / 16)).toUInt8, (upperHex (b.toNat % 16)).toUInt8] := by
      rw [utf8_cons_ascii (by decide), utf8_cons_ascii highLow, utf8_cons_ascii lowLow, utf8_nil]
      rfl
    have whole : UInt8.ofNat (b.toNat / 16) * 16 + UInt8.ofNat (b.toNat % 16) = b := by
      apply UInt8.toNat_inj.mp
      have sixteen : (16 : UInt8).toNat = 16 := rfl
      simp only [UInt8.toNat_add, UInt8.toNat_mul, UInt8.toNat_ofNat', sixteen]
      omega
    rw [bytes]
    simp only [List.cons_append, List.nil_append, Http.percentDecode, high, low,
      Option.bind_eq_bind, Option.bind_some, whole]
    cases Http.percentDecode rest <;> rfl

theorem percentDecode_flatMap (bytes : List UInt8) :
    Http.percentDecode (utf8 (bytes.flatMap encodeByte)) = some bytes := by
  induction bytes with
  | nil => rfl
  | cons b bytes ih =>
    rw [List.flatMap_cons, utf8_append, percentDecode_encodeByte, ih]
    rfl

theorem percentDecode_encodeSegment (segment : String) :
    Http.percentDecode (asBytes (encodeSegment segment)) = some (asBytes segment) := by
  rw [encodeSegment, asBytes_ofList, percentDecode_flatMap]

theorem inSegment_encodeSegment (segment : String) :
    (encodeSegment segment).toList.all inSegment = true := by
  rw [encodeSegment, String.toList_ofList, List.all_eq_true]
  intro c hc
  obtain ⟨b, _, hc⟩ := List.mem_flatMap.mp hc
  exact inSegment_encodeByte b c hc

theorem visible_of_inSegment {c : Char} (h : inSegment c = true) : visible c = true :=
  (Bool.and_eq_true_iff.mp h).1

theorem visible_encodeSegment (segment : String) :
    (encodeSegment segment).toList.all visible = true := by
  rw [List.all_eq_true]
  exact fun c hc =>
    visible_of_inSegment (List.all_eq_true.mp (inSegment_encodeSegment segment) c hc)

/-- Every path is one visible word. -/
theorem visible_path (target : Target) :
    target.path.toList ≠ [] ∧ target.path.toList.all visible = true := by
  have zones : ZoneLookup.zonesPath.toList.all visible = true := by decide
  have records : ∀ zoneId, (recordsPath zoneId).toList.all visible = true := by
    intro zoneId
    simp only [recordsPath, String.toList_append, List.all_append, zones,
      visible_encodeSegment, Bool.true_and]
    decide
  cases target with
  | join => exact ⟨by decide, by decide⟩
  | peers => exact ⟨by decide, by decide⟩
  | verify => exact ⟨by decide, by decide⟩
  | peer name =>
    refine ⟨by simp [Target.path, pathPeers], ?_⟩
    simp only [Target.path, String.toList_append, List.all_append,
      visible_encodeSegment, Bool.and_true]
    decide
  | zones candidate =>
    refine ⟨by simp [Target.path, ZoneLookup.zonesQuery, ZoneLookup.zonesPath], ?_⟩
    simp only [Target.path, ZoneLookup.zonesQuery, String.toList_append, List.all_append,
      visible_encodeSegment, Bool.and_true]
    decide
  | records zoneId =>
    exact ⟨by simp [Target.path, recordsPath, ZoneLookup.zonesPath], records zoneId⟩
  | record zoneId recordId =>
    refine ⟨by simp [Target.path, recordPath], ?_⟩
    simp only [Target.path, recordPath, String.toList_append, List.all_append,
      visible_encodeSegment, records, Bool.and_true, Bool.true_and]
    decide
  | recordsAt zoneId name =>
    refine ⟨by simp [Target.path, recordsQuery], ?_⟩
    simp only [Target.path, recordsQuery, String.toList_append, List.all_append,
      visible_encodeSegment, records, Bool.and_true, Bool.true_and]
    decide

/-- The characters of a text that stays on its line. -/
def onLine (c : Char) : Bool := c != '\r' && c != '\n'

theorem return_not_mem {s : String} (h : s.toList.all onLine = true) :
    (13 : UInt8) ∉ asBytes s := by
  intro there
  have c := List.all_eq_true.mp h _ ((mem_utf8 (by decide)).mp there)
  revert c
  decide

theorem word_bytes {s : String} (h : s.toList.all visible = true) :
    ∀ b ∈ asBytes s, b ≠ 32 ∧ b ≠ 13 := by
  intro b hb
  constructor
  all_goals
    rintro rfl
    have c := List.all_eq_true.mp h _ ((mem_utf8 (by decide)).mp hb)
    revert c
    decide

/-- Headers as they are sent. -/
def headerBytes (headers : List (String × String)) : List (List UInt8 × List UInt8) :=
  headers.map fun header => (asBytes header.1, asBytes header.2)

theorem asBytes_line : asBytes "\r\n" = Http.crlf := by decide

theorem asBytes_authorizationLine (authorization : Option HeaderValue) :
    asBytes (authorizationLine authorization) =
      (headerBytes (authorizationHeaders authorization)).flatMap Http.headerLine := by
  have name : asBytes "Authorization: " = asBytes "Authorization" ++ [58, 32] := by decide
  cases authorization with
  | none => rfl
  | some value =>
    simp [authorizationLine, authorizationHeaders, headerBytes, Http.headerLine, asBytes_line, name]

theorem asBytes_content (kind length : String) :
    asBytes ("Content-Type: " ++ kind ++ "\r\n" ++ "Content-Length: " ++ length ++ "\r\n") =
      Http.headerLine (asBytes "Content-Type", asBytes kind) ++
        Http.headerLine (asBytes "Content-Length", asBytes length) := by
  have type : asBytes "Content-Type: " = asBytes "Content-Type" ++ [58, 32] := by decide
  have size : asBytes "Content-Length: " = asBytes "Content-Length" ++ [58, 32] := by decide
  simp [Http.headerLine, asBytes_line, type, size]

theorem asBytes_bodyLines (body : Option Body) :
    asBytes (bodyLines body) = (headerBytes (bodyHeaders body)).flatMap Http.headerLine := by
  cases body with
  | none => rfl
  | some body =>
    have lines := asBytes_content body.contentType
      (String.ofList (DecimalText.showNat (asBytes body.content).length))
    refine lines.trans ?_
    simp only [headerBytes, bodyHeaders, List.map_cons, List.map_nil, List.flatMap_cons,
      List.flatMap_nil, List.append_nil]

theorem asBytes_head (method path host : String) :
    asBytes (method ++ " " ++ path ++ " HTTP/1.1\r\n" ++ "Host: " ++ host ++ "\r\n" ++
        "User-Agent: anago/" ++ version ++ "\r\n" ++ "Accept: application/json\r\n" ++
          "Connection: close\r\n") =
      asBytes method ++ 32 :: asBytes path ++ 32 :: asBytes "HTTP/1.1" ++ Http.crlf ++
        (headerBytes [("Host", host), ("User-Agent", "anago/" ++ version),
          ("Accept", "application/json"), ("Connection", "close")]).flatMap Http.headerLine := by
  have blank : asBytes " " = [32] := by decide
  have start : asBytes " HTTP/1.1\r\n" = 32 :: asBytes "HTTP/1.1" ++ Http.crlf := by decide
  have host : asBytes "Host: " = asBytes "Host" ++ [58, 32] := by decide
  have agent : asBytes "User-Agent: anago/" = asBytes "User-Agent" ++ 58 :: 32 :: asBytes
      "anago/" := by decide
  have accept : asBytes "Accept: application/json\r\n" =
      Http.headerLine (asBytes "Accept", asBytes "application/json") := by
    decide
  have connection : asBytes "Connection: close\r\n" = Http.headerLine (asBytes "Connection",
      asBytes "close") := by
    decide
  simp [blank, start, host, agent, accept, connection, headerBytes, Http.headerLine, asBytes_line]

/-- What is sent is what is written line by line. -/
theorem requestBytes_written (request : Request) :
    requestBytes request = Http.written (asBytes request.method.asStr) (asBytes request.path)
      (asBytes "HTTP/1.1")
      (headerBytes (headersOf request)) (bodyBytes request.body) := by
  have head := asBytes_head request.method.asStr request.path (hostHeader request.host request.port)
  rw [requestBytes, asBytes_append, asBytes_append, asBytes_append, asBytes_line,
    asBytes_authorizationLine, asBytes_bodyLines, Http.written, head]
  simp only [headersOf, headerBytes, List.map_append, List.flatMap_append, List.append_assoc]

theorem utf8_digits {digits : List Char} (h : ∀ c ∈ digits, c.isDigit = true) :
    utf8 digits = digits.map Char.toUInt8 := by
  induction digits with
  | nil => rfl
  | cons c digits ih =>
    rw [utf8_cons_ascii (DecimalText.isDigit_ascii (h c List.mem_cons_self)),
      ih fun d hd => h d (List.mem_cons_of_mem _ hd), List.map_cons]

/-- A length is read back. -/
theorem decimal_showNat (n : Nat) :
    Http.decimal (Http.trimBlanks (asBytes (String.ofList (DecimalText.showNat n)))) = some n := by
  have digits : ∀ c ∈ DecimalText.showNat n, c.isDigit = true :=
    List.all_eq_true.mp (DecimalText.all_isDigit_showNat n)
  have bytes := utf8_digits digits
  have solid : ∀ b ∈ utf8 (DecimalText.showNat n), Http.isBlank b = false := by
    intro b hb
    rw [bytes] at hb
    obtain ⟨c, hc, rfl⟩ := List.mem_map.mp hb
    have bounds := DecimalText.isDigit_iff.mp (digits c hc)
    have value : c.toUInt8.toNat = c.toNat := toUInt8_toNat (by omega)
    rw [Http.isBlank, Bool.or_eq_false_iff, beq_eq_false_iff_ne, beq_eq_false_iff_ne]
    constructor
    all_goals
      intro blank
      rw [blank] at value
      have := value.symm.le
      revert bounds value
      simp
      omega
  have back : (utf8 (DecimalText.showNat n)).map Char.ofUInt8 = DecimalText.showNat n := by
    rw [bytes, List.map_map, List.map_congr_left (g := id), List.map_id]
    exact fun c hc => ofUInt8_toUInt8 (DecimalText.isDigit_ascii (digits c hc))
  rw [asBytes_ofList, Http.trimBlanks_solid solid, Http.decimal, back,
    DecimalText.parseDigits_showNat]

/-- The headers as a server gets them: every value without the blanks around it. -/
def received (headers : List (String × String)) : List (List UInt8 × List UInt8) :=
  headers.map fun header => (asBytes header.1, Http.trimBlanks (asBytes header.2))

theorem received_eq (headers : List (String × String)) :
    received headers = (headerBytes headers).map fun header =>
      (header.1, Http.trimBlanks header.2) := by
  rw [headerBytes, List.map_map]
  rfl

/-- Whether a header is the one of the length. -/
def sizes (header : List UInt8 × List UInt8) : Bool :=
  header.1.map Http.lower == Http.contentLengthName

theorem filter_fixed (host : String) :
    (received [("Host", host), ("User-Agent", "anago/" ++ version), ("Accept", "application/json"),
      ("Connection", "close")]).filter sizes = [] := by
  have host : (asBytes "Host").map Http.lower ≠ Http.contentLengthName := by decide
  have agent : (asBytes "User-Agent").map Http.lower ≠ Http.contentLengthName := by decide
  have accept : (asBytes "Accept").map Http.lower ≠ Http.contentLengthName := by decide
  have connection : (asBytes "Connection").map Http.lower ≠ Http.contentLengthName := by decide
  simp [received, sizes, host, agent, accept, connection]

theorem filter_authorization (authorization : Option HeaderValue) :
    (received (authorizationHeaders authorization)).filter sizes = [] := by
  have name : (asBytes "Authorization").map Http.lower ≠ Http.contentLengthName := by decide
  cases authorization with
  | none => rfl
  | some value => simp [received, sizes, authorizationHeaders, name]

/-- The length that is read is that of the body. -/
theorem contentLength_received (request : Request) :
    Http.contentLength (received (headersOf request)) = some (bodyBytes request.body).length := by
  have type : (asBytes "Content-Type").map Http.lower ≠ Http.contentLengthName := by decide
  have length : (asBytes "Content-Length").map Http.lower = Http.contentLengthName := by decide
  have parts : (received (headersOf request)).filter sizes =
      (received (bodyHeaders request.body)).filter sizes := by
    have append : ∀ a b, received (a ++ b) = received a ++ received b := fun a b => List.map_append
    rw [headersOf, append, append, List.filter_append, List.filter_append, filter_fixed,
      filter_authorization, List.nil_append, List.nil_append]
  have found :
      (received (headersOf request)).filter
        (fun header => header.1.map Http.lower == Http.contentLengthName) =
      (received (bodyHeaders request.body)).filter sizes := parts
  rw [Http.contentLength, found]
  cases request.body with
  | none => rfl
  | some body =>
    have one : (received (bodyHeaders (some body))).filter sizes =
        [(asBytes "Content-Length",
          Http.trimBlanks
            (asBytes (String.ofList (DecimalText.showNat (asBytes body.content).length))))] := by
      simp [received, sizes, bodyHeaders, type, length]
    rw [one]
    exact decimal_showNat _

theorem asBytes_ne_nil {s : String} (h : s.toList ≠ []) : asBytes s ≠ [] := by
  intro empty
  cases cs : s.toList with
  | nil => exact h cs
  | cons c rest =>
    rw [asBytes, cs, utf8_cons, List.append_eq_nil_iff] at empty
    exact encode_ne_nil c empty.1

/-- A text is on its line if its characters are of a kind that no line break is of. -/
theorem onLine_of {p : Char → Bool} (ret : p '\r' = false) (feed : p '\n' = false) {cs : List Char}
    (h : cs.all p = true) : cs.all onLine = true := by
  rw [List.all_eq_true] at h ⊢
  intro c hc
  have kind := h c hc
  rw [onLine, Bool.and_eq_true, bne_iff_ne, bne_iff_ne]
  constructor
  · rintro rfl
    exact Bool.noConfusion (ret.symm.trans kind)
  · rintro rfl
    exact Bool.noConfusion (feed.symm.trans kind)

theorem onLine_digits (n : Nat) : (DecimalText.showNat n).all onLine = true :=
  onLine_of (by decide) (by decide) (DecimalText.all_isDigit_showNat n)

theorem onLine_hostHeader {host : String}
    (plain : ∀ c ∈ host.toList, isControl c = false) (port : UInt16) :
    (hostHeader host port).toList.all onLine = true := by
  have name : host.toList.all onLine = true := by
    refine onLine_of (p := fun c => !isControl c) (by decide) (by decide) ?_
    rw [List.all_eq_true]
    intro c hc
    rw [plain c hc]
    rfl
  rw [hostHeader]
  split
  · exact name
  · simp only [String.toList_append, List.all_append, name, String.toList_ofList,
      onLine_digits, Bool.true_and, Bool.and_true]
    decide

/-- A name a header can have. -/
def headerName (name : String) : Bool :=
  !name.toList.isEmpty && name.toList.all fun c => visible c && c != ':'

theorem plain_header {name value : String} (named : headerName name = true)
    (line : value.toList.all onLine = true) : Http.Plain (asBytes name, asBytes value) := by
  rw [headerName, Bool.and_eq_true, Bool.not_eq_true', List.isEmpty_eq_false_iff] at named
  obtain ⟨filled, word⟩ := named
  refine ⟨asBytes_ne_nil filled, ?_, return_not_mem line⟩
  intro b hb
  constructor
  all_goals
    rintro rfl
    have c := List.all_eq_true.mp word _ ((mem_utf8 (by decide)).mp hb)
    revert c
    decide

/-- What holds of each kind of header holds of the headers of a request. -/
theorem forall_headersOf {request : Request} {P : String → String → Prop}
    (host : P "Host" (hostHeader request.host request.port))
    (agent : P "User-Agent" ("anago/" ++ version)) (accept : P "Accept" "application/json")
    (connection : P "Connection" "close")
    (authorization : ∀ value : HeaderValue, P "Authorization" value.text)
    (type : ∀ body, request.body = some body → P "Content-Type" body.contentType)
    (length : ∀ n, P "Content-Length" (String.ofList (DecimalText.showNat n))) :
    ∀ header ∈ headersOf request, P header.1 header.2 := by
  intro header there
  rw [headersOf, List.mem_append, List.mem_append] at there
  rcases there with (there | there) | there
  · simp only [List.mem_cons, List.not_mem_nil, or_false] at there
    rcases there with rfl | rfl | rfl | rfl
    · exact host
    · exact agent
    · exact accept
    · exact connection
  · cases secret : request.authorization with
    | none =>
      rw [secret] at there
      cases there
    | some value =>
      rw [secret, authorizationHeaders, List.mem_singleton] at there
      rw [there]
      exact authorization value
  · cases sent : request.body with
    | none =>
      rw [sent] at there
      cases there
    | some body =>
      rw [sent, bodyHeaders] at there
      simp only [List.mem_cons, List.not_mem_nil, or_false] at there
      rcases there with rfl | rfl
      · exact type body sent
      · exact length _

theorem plain_headers {request : Request} (plain : ∀ c ∈ request.host.toList, isControl c = false)
    (typed : ∀ body, request.body = some body → body.contentType.toList.all onLine = true) :
    ∀ header ∈ headerBytes (headersOf request), Http.Plain header := by
  intro header hheader
  obtain ⟨sent, there, rfl⟩ := List.mem_map.mp hheader
  refine forall_headersOf (P := fun name value => Http.Plain (asBytes name, asBytes value))
    ?_ ?_ ?_ ?_ ?_ ?_ ?_ sent there
  · exact plain_header (by decide) (onLine_hostHeader plain request.port)
  · exact plain_header (by decide) (by decide)
  · exact plain_header (by decide) (by decide)
  · exact plain_header (by decide) (by decide)
  · exact fun value => plain_header (by decide) (onLine_of (by decide) (by decide) value.printable)
  · exact fun body hbody => plain_header (by decide) (typed body hbody)
  · refine fun n => plain_header (by decide) ?_
    rw [String.toList_ofList]
    exact onLine_digits n

theorem names_headersOf (request : Request) :
    (headersOf request).map Prod.fst =
      ["Host", "User-Agent", "Accept", "Connection"] ++
        (if request.authorization.isSome then ["Authorization"] else []) ++
        if request.body.isSome then ["Content-Type", "Content-Length"] else [] := by
  rw [headersOf]
  cases request.authorization <;> cases request.body <;> rfl

theorem nodup_names (request : Request) : ((headersOf request).map Prod.fst).Nodup := by
  have names : ∀ secret body : Bool,
      (["Host", "User-Agent", "Accept", "Connection"] ++
        (if secret then ["Authorization"] else []) ++
        if body then ["Content-Type", "Content-Length"] else []).Nodup := by
    decide
  rw [names_headersOf]
  exact names _ _

/-- An encoded segment is of bytes that are kept and of escapes. -/
theorem toList_encodeSegment (segment : String) :
    ∃ parts : List (List Char), (encodeSegment segment).toList = parts.flatten ∧
      ∀ part ∈ parts, Escape part := by
  refine ⟨(asBytes segment).map encodeByte, ?_, ?_⟩
  · rw [encodeSegment, String.toList_ofList, List.flatMap_def]
  · intro part hpart
    obtain ⟨b, _, rfl⟩ := List.mem_map.mp hpart
    exact escape_encodeByte b

/-- A request is read back as the one request it is, and an encoded segment as its bytes. -/
theorem request_reads_back (method : Method) (host : String) (port : UInt16) (target : Target)
    (authorization : Option HeaderValue) (content : Option String)
    (plain : ∀ c ∈ host.toList, isControl c = false ∧ c ≠ ' ') :
    let request : Request := ⟨method, host, port, target.path, content.map Body.json, authorization⟩
    (Http.read (requestBytes request) =
        some (⟨asBytes method.asStr, asBytes target.path, asBytes "HTTP/1.1",
          received (headersOf request), bodyBytes request.body⟩, []) ∧
      ((headersOf request).map Prod.fst).Nodup) ∧
    ∀ segment : String,
      Http.percentDecode (asBytes (encodeSegment segment)) = some (asBytes segment) ∧
      (∃ parts : List (List Char), (encodeSegment segment).toList = parts.flatten ∧
        ∀ part ∈ parts, Escape part) ∧
      ∀ c ∈ (encodeSegment segment).toList, c ≠ '/' ∧ c ≠ '?' ∧ c ≠ '&' ∧ c ≠ '#' ∧ c ≠ ' ' := by
  intro request
  have word : ∀ m : Method, m.asStr.toList ≠ [] ∧ m.asStr.toList.all visible = true := by
    intro m
    cases m <;> decide
  have path := visible_path target
  have typed : ∀ body, request.body = some body → body.contentType.toList.all onLine = true := by
    intro body hbody
    obtain ⟨text, _, rfl⟩ := Option.map_eq_some_iff.mp hbody
    have kind : "application/json".toList.all onLine = true := by decide
    exact kind
  refine ⟨⟨?_, nodup_names request⟩, fun segment => ?_⟩
  · have headers : ∀ header ∈ headerBytes (headersOf request), Http.Plain header :=
      plain_headers (fun c hc => (plain c hc).1) typed
    have length := contentLength_received request
    have version : "HTTP/1.1".toList.all visible = true := by decide
    rw [received_eq] at length
    rw [requestBytes_written, received_eq]
    exact Http.read_written ⟨asBytes_ne_nil (word method).1, word_bytes (word method).2⟩
      ⟨asBytes_ne_nil path.1, word_bytes path.2⟩ (word_bytes version) headers length
  · refine ⟨percentDecode_encodeSegment segment, toList_encodeSegment segment, ?_⟩
    have within := List.all_eq_true.mp (inSegment_encodeSegment segment)
    intro c hc
    have apart : ['/', '?', '&', '#', ' '].all (fun d => !inSegment d) = true := by decide
    have ne : ∀ d ∈ ['/', '?', '&', '#', ' '], c ≠ d := by
      rintro d hd rfl
      have barred := List.all_eq_true.mp apart c hd
      rw [within c hc] at barred
      cases barred
    exact ⟨ne _ (by decide), ne _ (by decide), ne _ (by decide), ne _ (by decide), ne _ (by decide)⟩

theorem request_reads_back_sample :
    let request : Request := ⟨.delete, "hub.example.com", 8443, (Target.peer "맥북 1/2").path,
      (some "a\r\n\r\nb").map Body.json, none⟩
    (Http.read (requestBytes request) =
        some (⟨asBytes Method.delete.asStr, asBytes (Target.peer "맥북 1/2").path, asBytes "HTTP/1.1",
          received (headersOf request), bodyBytes request.body⟩, []) ∧
      ((headersOf request).map Prod.fst).Nodup) ∧
    ∀ segment : String,
      Http.percentDecode (asBytes (encodeSegment segment)) = some (asBytes segment) ∧
      (∃ parts : List (List Char), (encodeSegment segment).toList = parts.flatten ∧
        ∀ part ∈ parts, Escape part) ∧
      ∀ c ∈ (encodeSegment segment).toList, c ≠ '/' ∧ c ≠ '?' ∧ c ≠ '&' ∧ c ≠ '#' ∧ c ≠ ' ' := by
  have word : "hub.example.com".toList.all (fun c => !isControl c && c != ' ') = true := by decide
  refine request_reads_back .delete "hub.example.com" 8443 (.peer "맥북 1/2") none
    (some "a\r\n\r\nb") fun c hc => ?_
  have plain := List.all_eq_true.mp word c hc
  rw [Bool.and_eq_true, Bool.not_eq_true', bne_iff_ne] at plain
  exact plain

end Client
