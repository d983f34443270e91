import Anago.FirstSync
import Anago.FrontDoor

/-!
# A device's calls on the wire

The bytes a device sends are read by the hub as the call they were made for, and the bytes of
the answer by the device as what the hub decided.
-/

open StdText Utf8Text Proto

namespace Client

open Api

/-- What a device asks for: to join, for the list, or that a device is removed. -/
inductive Call [Unicode] where
  | join (request : JoinRequest)
  | peers (token : DeviceToken)
  | remove (token : DeviceToken) (name : DeviceName)

variable [Unicode]

namespace Call

def target : Call → Target
  | join _ => .join
  | peers _ => .peers
  | remove _ name => .peer name.asStr

def method : Call → Method
  | join _ => .post
  | peers _ => .get
  | remove _ _ => .delete

def content : Call → Option String
  | join request => some (Json.toString request.toJson)
  | _ => none

def authorization : Call → Option HeaderValue
  | join _ => none
  | peers token | remove token _ => some (.deviceToken token)

def request (call : Call) (host : String) (port : UInt16) : Request :=
  ⟨call.method, host, port, call.target.path, call.content.map Body.json, call.authorization⟩

/-- What it asks of the hub's handlers. -/
def asks (minted : DeviceToken) : Call → Handlers.Request
  | join request => .join request minted
  | peers token => .peers token
  | remove token name => .remove token name.asStr

end Call

omit [Unicode] in
theorem encodeSegment_ne_nil {segment : String} (h : segment.toList ≠ []) :
    asBytes (encodeSegment segment) ≠ [] := by
  intro empty
  have back := percentDecode_encodeSegment segment
  rw [empty, Http.percentDecode] at back
  exact asBytes_ne_nil h (Option.some.inj back).symm

omit [Unicode] in
/-- A segment is spelled out, and separates nothing. -/
theorem encodeSegment_spelled (segment : String) :
    (asBytes (encodeSegment segment)).all pathByte = true ∧ 47 ∉ asBytes
    (encodeSegment segment) := by
  have all : ∀ n < 256,
      (utf8 (encodeByte (UInt8.ofNat n))).all (fun b => pathByte b && b != 47) = true := by
    decide +kernel
  have each : ∀ b ∈ asBytes (encodeSegment segment), pathByte b = true ∧ b ≠ 47 := by
    rw [encodeSegment, asBytes_ofList]
    induction asBytes segment with
    | nil => exact fun b there => absurd there List.not_mem_nil
    | cons first rest ih =>
      intro b there
      rw [List.flatMap_cons, utf8_append, List.mem_append] at there
      rcases there with here | later
      · have byte := all first.toNat first.toNat_lt
        rw [UInt8.ofNat_toNat] at byte
        have kind := List.all_eq_true.mp byte b here
        rwa [Bool.and_eq_true, bne_iff_ne] at kind
      · exact ih b later
  exact ⟨List.all_eq_true.mpr fun b there => (each b there).1, fun there => (each 47 there).2 rfl⟩

omit [Unicode] in
theorem spelled_path {target : Target} (api : target = .join ∨ target = .peers ∨
    ∃ name, target = .peer name) : Spelled (asBytes target.path) := by
  have root : Spelled (asBytes (pathPeers ++ "/")) := ⟨by decide, by decide⟩
  rcases api with rfl | rfl | ⟨name, rfl⟩
  · exact ⟨by decide, by decide⟩
  · exact ⟨by decide, by decide⟩
  · rw [Target.path, asBytes_append]
    refine ⟨?_, ?_⟩
    · rw [List.head?_append, root.1]
      rfl
    · rw [List.all_append, root.2, (encodeSegment_spelled name).1]
      rfl

omit [Unicode] in
/-- The characters of a token are bytes of ASCII. -/
theorem token_ascii (token : DeviceToken) :
    ∀ c ∈ token.text.toList, c.toNat < 128 ∧ isWhitespace c = false ∧
    Http.isBlank c.toUInt8 = false ∧ 32 ≤ c.toNat ∧ c.toNat < 127 := by
  intro c hc
  have hex := token.all_isLowerHex c hc
  have all : ∀ n < 128, isLowerHex (Char.ofNat n) = true → isWhitespace (Char.ofNat n) = false ∧
      Http.isBlank (Char.ofNat n).toUInt8 = false ∧ 32 ≤ (Char.ofNat n).toNat ∧
      (Char.ofNat n).toNat < 127 := by
    decide +kernel
  have low : c.toNat < 128 := by
    rw [isLowerHex, Bool.or_eq_true, Bool.and_eq_true, Bool.and_eq_true] at hex
    simp only [decide_eq_true_eq, Char.le_def, UInt32.le_iff_toNat_le, Char.reduceVal] at hex
    rcases hex with ⟨_, high⟩ | ⟨_, high⟩
    · exact Nat.lt_of_le_of_lt high (by decide)
    · exact Nat.lt_of_le_of_lt high (by decide)
  have here := all c.toNat low
  rw [Char.ofNat_toNat] at here
  exact ⟨low, here hex⟩

omit [Unicode] in
/-- Only blanks at the ends go. -/
theorem trimBlanks_ends {bytes : List UInt8}
    (first : ∀ b, bytes.head? = some b → Http.isBlank b = false)
    (last : ∀ b, bytes.getLast? = some b → Http.isBlank b = false) :
    Http.trimBlanks bytes = bytes := by
  have start {bytes : List UInt8} (first : ∀ b, bytes.head? = some b → Http.isBlank b = false) :
      bytes.dropWhile Http.isBlank = bytes := by
    cases bytes with
    | nil => rfl
    | cons b bytes => rw [List.dropWhile_cons_of_neg (by rw [first b rfl]; decide)]
  rw [Http.trimBlanks, start first, start fun b hb => last b (by rwa [List.head?_reverse] at hb),
    List.reverse_reverse]

omit [Unicode] in
theorem token_ne_nil (token : DeviceToken) : token.text.toList ≠ [] := by
  intro empty
  have checked := token.checked
  rw [checkHex, empty] at checked
  exact absurd checked (by decide)

omit [Unicode] in
/-- The header of a token as it is sent: bytes of ASCII that print, and no blank at an end. -/
theorem deviceToken_bytes (token : DeviceToken) :
    Http.trimBlanks (asBytes (HeaderValue.deviceToken token).text) =
        "Bearer ".toList.map Char.toUInt8 ++ token.text.toList.map Char.toUInt8 ∧
      ∀ b ∈ Http.trimBlanks (asBytes (HeaderValue.deviceToken token).text), 32 ≤ b ∧ b < 127 := by
  have ascii := token_ascii token
  have utf8_map {cs : List Char} (low : ∀ c ∈ cs, c.toNat < 128) :
      utf8 cs = cs.map Char.toUInt8 := by
    induction cs with
    | nil => rfl
    | cons c cs ih =>
      rw [utf8_cons_ascii (low c List.mem_cons_self),
        ih fun d hd => low d (List.mem_cons_of_mem _ hd), List.map_cons]
  have bytes : asBytes (HeaderValue.deviceToken token).text =
      "Bearer ".toList.map Char.toUInt8 ++ token.text.toList.map Char.toUInt8 := by
    refine (asBytes_append "Bearer " token.text).trans (congrArg₂ _ (by decide) ?_)
    exact utf8_map fun c hc => (ascii c hc).1
  have kept :
      Http.trimBlanks ("Bearer ".toList.map Char.toUInt8 ++ token.text.toList.map Char.toUInt8) =
      "Bearer ".toList.map Char.toUInt8 ++ token.text.toList.map Char.toUInt8 := by
    refine trimBlanks_ends (fun b hb => ?_) fun b hb => ?_
    · cases hb
      decide
    · rw [List.getLast?_append_of_ne_nil _ (by simpa using token_ne_nil token),
        List.getLast?_map] at hb
      obtain ⟨c, hc, rfl⟩ := Option.map_eq_some_iff.mp hb
      exact (ascii c (List.mem_of_getLast? hc)).2.2.1
  rw [bytes, kept]
  refine ⟨rfl, fun b there => ?_⟩
  have word : ∀ b ∈ "Bearer ".toList.map Char.toUInt8, 32 ≤ b ∧ b < 127 := by decide +kernel
  rcases List.mem_append.mp there with there | there
  · exact word b there
  · obtain ⟨c, hc, rfl⟩ := List.mem_map.mp there
    obtain ⟨low, _, _, least, most⟩ := ascii c hc
    rw [UInt8.le_iff_toNat_le, UInt8.lt_iff_toNat_lt, toUInt8_toNat low]
    exact ⟨least, most⟩

/-- A tab, or no control character. -/
def prints (c : Char) : Bool := c == '\t' || !isControl c

omit [Unicode] in
/-- The bytes of a text without control characters. -/
theorem prints_bytes {value : String} (printed : value.toList.all prints = true) :
    ∀ b ∈ asBytes value, (32 ≤ b ∨ b = 9) ∧ b ≠ 127 := by
  intro b there
  by_cases low : b.toNat < 128
  · have all : ∀ n < 128, prints (Char.ofUInt8 (UInt8.ofNat n)) = true →
        (32 ≤ UInt8.ofNat n ∨ UInt8.ofNat n = 9) ∧ UInt8.ofNat n ≠ 127 := by
      decide +kernel
    have here := all b.toNat low
    rw [UInt8.ofNat_toNat] at here
    exact here (List.all_eq_true.mp printed _ ((mem_utf8 low).mp there))
  · have high : (127 : UInt8) < b :=
      UInt8.lt_iff_toNat_lt.mpr (Nat.lt_of_lt_of_le (by decide) (Nat.le_of_not_lt low))
    exact ⟨Or.inl (UInt8.le_of_lt (UInt8.lt_trans (by decide) high)),
      fun same => UInt8.lt_irrefl _ (same ▸ high)⟩

omit [Unicode] in
theorem field_header {name value : String} (filled : asBytes name ≠ [])
    (spelled : ∀ b ∈ asBytes name, (65 ≤ b ∧ b ≤ 90) ∨ (97 ≤ b ∧ b ≤ 122) ∨ b = 45)
    (printed : value.toList.all prints = true) : Http.Field (asBytes name, asBytes value) :=
  ⟨filled, spelled, prints_bytes printed⟩

omit [Unicode] in
/-- The headers of a request are such as every server reads. -/
theorem field_headers {request : Request} (plain : ∀ c ∈ request.host.toList, isControl c = false)
    (typed : ∀ body, request.body = some body → body.contentType = "application/json") :
    ∀ header ∈ headerBytes (headersOf request), Http.Field header := by
  have shown {c : Char} (visible : isControl c = false) : prints c = true := by
    rw [prints, visible, Bool.not_false, Bool.or_true]
  have digits (n : Nat) : (DecimalText.showNat n).all prints = true := by
    rw [List.all_eq_true]
    intro c hc
    have digit :=
      DecimalText.isDigit_iff.mp (List.all_eq_true.mp (DecimalText.all_isDigit_showNat n) c hc)
    refine shown ?_
    simp only [isControl, Bool.or_eq_false_iff, Bool.and_eq_false_iff, decide_eq_false_iff_not]
    omega
  have name : request.host.toList.all prints = true := List.all_eq_true.mpr fun c hc =>
    shown (plain c hc)
  have host : (hostHeader request.host request.port).toList.all prints = true := by
    rw [hostHeader]
    split
    · exact name
    · simp only [String.toList_append, List.all_append, name, String.toList_ofList,
        digits, Bool.true_and, Bool.and_true]
      decide
  intro header hheader
  obtain ⟨sent, there, rfl⟩ := List.mem_map.mp hheader
  refine forall_headersOf (P := fun name value => Http.Field (asBytes name, asBytes value))
    ?_ ?_ ?_ ?_ ?_ ?_ ?_ sent there
  · exact field_header (by decide) (by decide +kernel) host
  · exact field_header (by decide) (by decide +kernel) (by decide)
  · exact field_header (by decide) (by decide +kernel) (by decide)
  · exact field_header (by decide) (by decide +kernel) (by decide)
  · refine fun value => field_header (by decide) (by decide +kernel)
      (List.all_eq_true.mpr fun c hc => ?_)
    have kind := List.all_eq_true.mp value.printable c hc
    rw [headerChar, Bool.or_eq_true, Bool.not_eq_true', Bool.or_eq_false_iff] at kind
    rw [prints, Bool.or_eq_true, Bool.not_eq_true']
    exact kind.imp_right And.left
  · intro body hbody
    rw [typed body hbody]
    exact field_header (by decide) (by decide +kernel) (by decide)
  · refine fun n => field_header (by decide) (by decide +kernel) ?_
    rw [String.toList_ofList]
    exact digits n

/-- A request that the hub's library takes: its host is one word, and it is not too long. -/
structure Taken (library : Library) (request : Request) : Prop where
  host : ∀ c ∈ request.host.toList, isControl c = false ∧ c ≠ ' '
  short : (requestBytes request).length ≤ library.limit

omit [Unicode] in
theorem Taken.body {library : Library} {request : Request} (taken : Taken library request) :
    (bodyBytes request.body).length ≤ library.limit := by
  have short := taken.short
  rw [requestBytes_written, Http.written, List.length_append] at short
  omega

omit [Unicode] in
theorem headers_lowered (request : Request) :
    ((headerBytes (headersOf request)).map fun header => header.1.map Http.lower).Nodup ∧
      asBytes "transfer-encoding" ∉
        (headerBytes (headersOf request)).map fun header => header.1.map Http.lower := by
  have names : ∀ secret body : Bool,
      let names := (["Host", "User-Agent", "Accept", "Connection"] ++
        (if secret then ["Authorization"] else []) ++
        if body then ["Content-Type", "Content-Length"] else []).map fun name =>
          (asBytes name).map Http.lower
      names.Nodup ∧ asBytes "transfer-encoding" ∉ names := by
    decide
  have same : ((headerBytes (headersOf request)).map fun header => header.1.map Http.lower) =
      ((headersOf request).map Prod.fst).map fun name => (asBytes name).map Http.lower := by
    rw [headerBytes, List.map_map, List.map_map]
    rfl
  rw [same, names_headersOf]
  exact names _ _

section
variable {library : Library} (documented : Documented library)
include documented

/-- A call gets to its handler, with the name in its path. -/
theorem route_call (call : Call) :
    library.route router (asBytes call.method.asStr) (asBytes call.target.path) =
      .ok (match call with
        | .join _ => (.join, [])
        | .peers _ => (.peers, [])
        | .remove _ name => (.remove, [name.asStr])) := by
  cases call with
  | join request =>
    exact documented.exact router ⟨pathJoin, .post, .join⟩ (by decide) (by decide)
      ⟨by decide, by decide⟩
  | peers token =>
    exact documented.exact router ⟨pathPeers, .get, .peers⟩ (by decide) (by decide)
      ⟨by decide, by decide⟩
  | remove token name =>
    obtain ⟨spelled, whole⟩ := encodeSegment_spelled name.asStr
    have path : asBytes (Call.remove token name).target.path =
        asBytes (pathPeers ++ "/") ++ asBytes (encodeSegment name.asStr) := asBytes_append _ _
    rw [path]
    exact documented.segment router ⟨pathPeers ++ "/{name}", .delete, .remove⟩
      pathPeers (by decide) rfl
      ⟨by decide, by decide⟩ (by decide) _ _ (encodeSegment_ne_nil name.nonempty) spelled whole
      (percentDecode_encodeSegment name.asStr)

omit [Unicode] in
/-- The header of a token is read as the token. -/
theorem bearerToken_deviceToken (token : DeviceToken) :
    bearerToken library (some (Http.trimBlanks (asBytes (HeaderValue.deviceToken token).text))) =
      .ok token := by
  have ascii := token_ascii token
  obtain ⟨bytes, prints⟩ := deviceToken_bytes token
  have back {cs : List Char} (low : ∀ c ∈ cs, c.toNat < 128) :
      (cs.map Char.toUInt8).map Char.ofUInt8 = cs := by
    rw [List.map_map]
    exact (List.map_congr_left fun c hc => ofUInt8_toUInt8 (low c hc)).trans (List.map_id _)
  have text : library.toStr (Http.trimBlanks (asBytes (HeaderValue.deviceToken token).text)) =
      some (String.ofList ("Bearer ".toList ++ token.text.toList)) := by
    have bearer : ("Bearer ".toList.all fun c => c.toNat < 128) = true := by decide
    rw [documented.toStr _ prints, bytes, List.map_append,
      back fun c hc => of_decide_eq_true (List.all_eq_true.mp bearer c hc),
      back fun c hc => (ascii c hc).1]
  have stripped : stripPrefix "Bearer ".toList ("Bearer ".toList ++ token.text.toList) =
      some token.text.toList := by
    rw [stripPrefix, if_pos (List.isPrefixOf_iff_prefix.mpr (List.prefix_append _ _)),
      List.drop_left]
  have trimmed : trim token.text.toList = token.text.toList :=
    trim_of_ends (fun c hc => (ascii c (List.mem_of_head? hc)).2.1)
      fun c hc => (ascii c (List.mem_of_getLast? hc)).2.1
  have parsed : DeviceToken.parse token.text = .ok token := DeviceToken.parse_asStr token
  rw [bearerToken, Option.bind_some, text]
  simp only [String.toList_ofList, stripped, Option.some_or, trimmed, String.ofList_toList, parsed]

omit [Unicode] in
theorem header_received {request : Request} {token : DeviceToken}
    (h : request.authorization = some (.deviceToken token)) :
    library.header (received (headersOf request)) (asBytes "authorization") =
      some (Http.trimBlanks (asBytes (HeaderValue.deviceToken token).text)) := by
  have host : (asBytes "Host").map Http.lower ≠ (asBytes "authorization").map Http.lower := by
    decide
  have agent : (asBytes "User-Agent").map Http.lower ≠
      (asBytes "authorization").map Http.lower := by decide
  have accept : (asBytes "Accept").map Http.lower ≠ (asBytes "authorization").map Http.lower := by
    decide
  have connection : (asBytes "Connection").map Http.lower ≠
      (asBytes "authorization").map Http.lower := by decide
  have named : (asBytes "Authorization").map Http.lower =
      (asBytes "authorization").map Http.lower := by decide
  rw [documented.header]
  simp [received, headersOf, h, authorizationHeaders, host, agent, accept, connection, named]

/-- The request is read as it was written. -/
theorem read_call (call : Call) {host : String} {port : UInt16}
    (taken : Taken library (call.request host port)) :
    library.read (requestBytes (call.request host port)) =
      .ok ⟨asBytes call.method.asStr, asBytes call.target.path, asBytes "HTTP/1.1",
        received (headersOf (call.request host port)), bodyBytes (call.content.map Body.json)⟩ := by
  have target : call.target = .join ∨ call.target = .peers ∨ ∃ name, call.target = .peer name := by
    cases call with
    | join request => exact Or.inl rfl
    | peers token => exact Or.inr (Or.inl rfl)
    | remove token name => exact Or.inr (Or.inr ⟨_, rfl⟩)
  have typed : ∀ body, (call.request host port).body = some body →
      body.contentType = "application/json" := by
    intro body hbody
    obtain ⟨text, _, rfl⟩ := Option.map_eq_some_iff.mp hbody
    rfl
  have fields := field_headers (fun c hc => (taken.host c hc).1) typed
  obtain ⟨distinct, sized⟩ := headers_lowered (call.request host port)
  have length := contentLength_received (call.request host port)
  have short := taken.short
  rw [received_eq] at length
  rw [requestBytes_written] at short ⊢
  rw [received_eq]
  exact documented.read call.method _ _ _ (spelled_path target) fields distinct sized length short

/-- What a device asks for is what the hub is asked for. -/
theorem asked_call (call : Call) (minted : DeviceToken) {host : String} {port : UInt16}
    (taken : Taken library (call.request host port)) :
    asked library ⟨asBytes call.method.asStr, asBytes call.target.path, asBytes "HTTP/1.1",
        received (headersOf (call.request host port)),
        bodyBytes (call.content.map Body.json)⟩ minted =
      .ok (call.asks minted) := by
  rw [asked]
  simp only [route_call documented]
  cases call with
  | join request =>
    have body : parseBody (bodyBytes ((Call.join request).content.map Body.json)) =
        .ok request := by
      rw [Call.content, Option.map_some, bodyBytes, Body.json, parseBody]
      simp only [fromUtf8_asBytes, request.parse_json, request.fromJson_toJson]
    have given := documented.bytes _ taken.body
    simp only [Call.request] at given
    simp only [given, body]
    rfl
  | peers token =>
    have authorized : ((Call.peers token).request host port).authorization =
        some (.deviceToken token) := rfl
    have found := header_received documented authorized
    simp only [found, bearerToken_deviceToken documented]
    rfl
  | remove token name =>
    have authorized : ((Call.remove token name).request host port).authorization =
        some (.deviceToken token) := rfl
    have found := header_received documented authorized
    simp only [found, bearerToken_deviceToken documented, documented.path]
    rfl

end

/-- Everything a handler answers can be read again. -/
theorem parse_answered {hashToken : DeviceToken → TokenHash}
    {state after : ServerState} {now : Int64} {request : Handlers.Request} {value : Json.Value}
    (h : Handlers.answer hashToken state now request = (.ok value, after)) :
    Json.parse (Json.toString value) = .ok value := by
  cases request with
  | join request token =>
    rw [Handlers.answer] at h
    split at h
    · cases h
      exact (JoinResponse.read_written _).1
    · cases h
  | peers token =>
    rw [Handlers.answer, Handlers.withCaller] at h
    split at h
    · cases h
    · cases h
      exact (PeersResponse.read_written _).1
  | remove token name =>
    rw [Handlers.answer, Handlers.withCaller] at h
    split at h
    · cases h
    · split at h
      · cases h
      · split at h
        · cases h
          exact PeerInfo.parse_json _
        · cases h
          exact PeerInfo.parse_json _

omit [Unicode] in
theorem statusFor_failing (code : ErrorCode) :
    ¬(200 ≤ (statusFor code).toNat ∧ (statusFor code).toNat < 300) := by
  cases code <;> decide

omit [Unicode] in
theorem errorResponse_eq (e : ApiError) :
    (errorResponse e).status = statusFor e.code ∧
    (errorResponse e).body = Json.toString e.toJson := by
  rw [errorResponse]
  split
  · exact ⟨rfl, rfl⟩
  · exact ⟨rfl, rfl⟩

section
variable {library : Library} (hashToken : DeviceToken → TokenHash)
  (state : ServerState) (now : Int64)
  (minted : DeviceToken) (call : Call)

/-- The hub decides what the device asked for. -/
theorem serve_call (documented : Documented library) {host : String} {port : UInt16}
    (taken : Taken library (call.request host port)) :
    serve library hashToken state now minted (requestBytes (call.request host port)) =
      (.ok (respond (Handlers.answer hashToken state now (call.asks minted)).1),
        (Handlers.answer hashToken state now (call.asks minted)).2) := by
  rw [serve, read_call documented call taken]
  simp only [asked_call documented call minted taken]

/-- The answer came back, on lines as a server writes it. -/
def Came (answer : Answer) (reply : Except ClientError Response) : Prop :=
  ∃ bytes headers, Sent bytes answer.status headers answer.body ∧ reply = parseBounded bytes

/-- What was decided, in the device's hands. -/
def Reads (decision : Except ApiError Json.Value) (response : Response) : Prop :=
  match decision with
  | .ok value => response.isSuccess = true ∧ Json.parse response.body = .ok value
  | .error e =>
    response.isSuccess = false ∧ describe response.status response.body = ⟨some e.code, e.message⟩

/-- The device reads what the hub decided. -/
theorem read_answer {reply : Except ClientError Response}
    (came : Came (respond (Handlers.answer hashToken state now (call.asks minted)).1) reply) :
    ∃ response, reply = .ok response ∧
      Reads (Handlers.answer hashToken state now (call.asks minted)).1 response := by
  obtain ⟨bytes, headers, sent, rfl⟩ := came
  refine ⟨_, parseBounded_sent sent, ?_⟩
  cases h : Handlers.answer hashToken state now (call.asks minted) with
  | mk decision after =>
    cases decision with
    | ok value => exact ⟨rfl, parse_answered h⟩
    | error e =>
      obtain ⟨status, body⟩ := errorResponse_eq e
      have failing := statusFor_failing e.code
      simp only [Reads, respond, status, body]
      refine ⟨?_, ?_⟩
      · rw [Response.isSuccess, Bool.and_eq_false_iff, decide_eq_false_iff_not,
          decide_eq_false_iff_not]
        exact Decidable.not_and_iff_or_not.mp failing
      · rw [describe, e.parse_json]
        simp only [e.fromJson_toJson, Except.toOption]

/-- A device's call is decided by the hub as what the device asked for, whatever name, token
or host is in it, and the device reads the decision: the value that was answered, or the
error and its message. -/
theorem call_decided (documented : Documented library) (host : String) (port : UInt16)
    (taken : Taken library (call.request host port)) :
    ∃ decision after, Handlers.answer hashToken state now (call.asks minted) = (decision, after) ∧
      serve library hashToken state now minted (requestBytes (call.request host port)) =
        (.ok (respond decision), after) ∧
      ∀ reply, Came (respond decision) reply →
        ∃ response, reply = .ok response ∧ Reads decision response :=
  ⟨_, _, rfl, serve_call hashToken state now minted call documented taken,
    fun _ came => read_answer hashToken state now minted call came⟩

end

/-- The plainest way to send an answer. -/
def plainly (answer : Answer) : List UInt8 :=
  responseBytes
    (statusLine "HTTP/1.1" answer.status "OK" :: answer.headers.map headerLine) answer.body

omit [Unicode] in
theorem length_plainly (answer : Answer) :
    (plainly answer).length =
      (utf8 (headText (statusLine "HTTP/1.1" answer.status "OK" ::
        answer.headers.map headerLine))).length + 4 + answer.body.utf8ByteSize := by
  rw [plainly, responseBytes, List.length_append, List.length_append, length_asBytes]
  rfl

omit [Unicode] in
theorem came_plainly {decision : Except ApiError Json.Value}
    (small : (plainly (respond decision)).length ≤ maxResponse) :
    Came (respond decision) (parseBounded (plainly (respond decision))) := by
  have digits (n : Nat) {c : Char} (odd : c.isDigit = false) : c ∉ DecimalText.showNat n := by
    intro there
    have digit := List.all_eq_true.mp (DecimalText.all_isDigit_showNat n) c there
    rw [odd] at digit
    cases digit
  have start (status : UInt16) : HeadLine (statusLine "HTTP/1.1" status "OK") := by
    refine ⟨by simp [statusLine], ?_, ?_⟩
    · simp [statusLine, digits status.toNat (c := '\r') (by decide)]
    · simp [statusLine, digits status.toNat (c := '\n') (by decide)]
  have headers : ∀ header ∈ (respond decision).headers, header = contentType ∨
      header = ("www-authenticate", "Bearer") := by
    cases decision with
    | ok value => exact fun header there => Or.inl (List.mem_singleton.mp there)
    | error e =>
      intro header there
      rw [respond, errorResponse] at there
      split at there
      · rcases List.mem_cons.mp there with h | h
        · exact Or.inl h
        · exact Or.inr (List.mem_singleton.mp h)
      · exact Or.inl (List.mem_singleton.mp there)
  refine ⟨_, _, ⟨⟨"HTTP/1.1", "OK", by decide, by decide, start _, rfl⟩, fun header there => ?_,
    fun header there => ?_, small⟩, rfl⟩
  · rcases headers header there with rfl | rfl
    · exact ⟨⟨by decide, by decide, by decide⟩, by decide⟩
    · exact ⟨⟨by decide, by decide, by decide⟩, by decide⟩
  · rcases headers header there with rfl | rfl
    · decide
    · decide

/-- A router: the paths without names first, then those that end with one. -/
def sampleRoute (routes : List Route) (method target : List UInt8) :
    Except Answer (Handler × List String) :=
  let path := target.takeWhile (· ≠ 63)
  let takes (route : Route) := method = asBytes route.method.asStr ∨
    (route.method = .get ∧ method = asBytes "HEAD")
  match routes.find? fun route => asBytes route.path = path with
  | some route => if takes route then .ok (route.handler, []) else .error ⟨405, [], ""⟩
  | none =>
    let segment := (path.reverse.takeWhile (· ≠ 47)).reverse
    let root := path.take (path.length - segment.length)
    match routes.find? fun route => asBytes route.path = root ++ asBytes "{name}" with
    | none => .error ⟨404, [], ""⟩
    | some route =>
      if segment = [] then .error ⟨404, [], ""⟩
      else if ¬takes route then .error ⟨405, [], ""⟩
      else
        match (Http.percentDecode segment).bind fromUtf8 with
        | none => .error ⟨400, [], ""⟩
        | some name => .ok (route.handler, [name])

def sampleLibrary : Library where
  limit := 65536
  read bytes := okOr ((Http.read bytes).map Prod.fst) ⟨400, [], ""⟩
  route := sampleRoute
  path segments := okOr segments.head? ⟨500, [], ""⟩
  bytes body := .ok body
  header headers name :=
    (headers.find? fun header => header.1.map Http.lower = name.map Http.lower).map Prod.snd
  toStr value :=
    if value.all fun b => b == 9 || (32 ≤ b && b < 127) then some
      (String.ofList (value.map Char.ofUInt8))
    else none

omit [Unicode] in
theorem asBytes_inj {s t : String} (same : asBytes s = asBytes t) : s = t := by
  have back := fromUtf8_asBytes t
  rw [← same, fromUtf8_asBytes] at back
  exact Option.some.inj back

omit [Unicode] in
/-- A path has no query. -/
theorem takeWhile_spelled {path : List UInt8} (spelled : path.all pathByte = true) :
    path.takeWhile (· ≠ 63) = path := by
  rw [List.takeWhile_eq_self_iff]
  intro b there
  rw [decide_eq_true_eq]
  rintro rfl
  exact absurd (List.all_eq_true.mp spelled 63 there) (by decide)

omit [Unicode] in
/-- The route that a search must find. -/
theorem find_route {routes : List Route} {route : Route} {bytes : List UInt8}
    (there : route ∈ routes) (here : asBytes route.path = bytes)
    (only : ∀ other ∈ routes, asBytes other.path = bytes → other = route) :
    (routes.find? fun route => asBytes route.path = bytes) = some route := by
  cases found : routes.find? fun route => asBytes route.path = bytes with
  | none => exact absurd (decide_eq_true here) (List.find?_eq_none.mp found route there)
  | some other =>
    have same : asBytes other.path = bytes := by simpa using List.find?_some found
    rw [only other (List.mem_of_find?_eq_some found) same]

omit [Unicode] in
theorem sampleLibrary_documented : Documented sampleLibrary where
  read := by
    intro method target headers body spelled fields _ _ length _
    have word : method.asStr.toList ≠ [] ∧ method.asStr.toList.all visible = true := by
      cases method <;> decide
    have version : "HTTP/1.1".toList.all visible = true := by decide
    have path : target ≠ [] ∧ ∀ b ∈ target, b ≠ 32 ∧ b ≠ 13 := by
      refine ⟨fun empty => ?_, fun b there => ?_⟩
      · have first := spelled.1
        rw [empty] at first
        cases first
      · have kind := List.all_eq_true.mp spelled.2 b there
        constructor
        all_goals
          rintro rfl
          exact absurd kind (by decide)
    have read := Http.read_written ⟨asBytes_ne_nil word.1, word_bytes word.2⟩ path
      (word_bytes version)
      (fun header there => (fields header there).plain) length
    simp only [sampleLibrary, read]
    rfl
  exact := by
    intro routes route there only spelled
    have found := find_route there rfl fun other among same => only other among (asBytes_inj same)
    simp only [sampleLibrary, sampleRoute, takeWhile_spelled spelled.2, found, true_or, if_true]
  segment := by
    intro routes route root there ends spelled only segment text filled kinds whole decoded
    have path : (asBytes (root ++ "/") ++ segment).all pathByte = true := by
      rw [List.all_append, asBytes_append, List.all_append, spelled.2, kinds]
      rfl
    have named : asBytes route.path = asBytes (root ++ "/") ++ asBytes "{name}" := by
      rw [ends, ← asBytes_append, String.append_assoc]
      rfl
    have unnamed :
        (routes.find? fun route => asBytes route.path =
          asBytes (root ++ "/") ++ segment) = none := by
      rw [List.find?_eq_none]
      intro other among same
      have same := of_decide_eq_true same
      cases only other among (same ▸ List.prefix_append _ _)
      rw [named] at same
      rw [← List.append_cancel_left same] at kinds
      exact absurd kinds (by decide)
    have found := find_route there named fun other among same =>
      only other among (same ▸ List.prefix_append _ _)
    have last :
        ((asBytes (root ++ "/") ++ segment).reverse.takeWhile (· ≠ 47)).reverse = segment := by
      have solid : ∀ b ∈ segment.reverse, decide (b ≠ 47) = true := by
        intro b there
        rw [decide_eq_true_eq]
        rintro rfl
        exact whole (List.mem_reverse.mp there)
      have slash : (asBytes "/").reverse ++ (asBytes root).reverse =
          47 :: (asBytes root).reverse := by
        rw [show asBytes "/" = [47] by decide]
        rfl
      rw [asBytes_append, List.reverse_append, List.reverse_append, slash,
        List.takeWhile_append_of_pos solid, List.takeWhile_cons_of_neg (by decide), List.append_nil,
        List.reverse_reverse]
    have front : (asBytes (root ++ "/") ++ segment).take
        ((asBytes (root ++ "/") ++ segment).length - segment.length) = asBytes (root ++ "/") := by
      rw [List.length_append, Nat.add_sub_cancel, List.take_left]
    simp only [sampleLibrary, sampleRoute, takeWhile_spelled path, unnamed, last,
      front, found, decoded, Option.bind_some, fromUtf8_asBytes, if_neg filled, true_or,
      not_true, if_false]
  path := fun _ => rfl
  bytes := fun _ _ => rfl
  header := fun _ _ => rfl
  toStr := by
    intro value prints
    have all : value.all (fun b => b == 9 || (32 ≤ b && b < 127)) = true := by
      rw [List.all_eq_true]
      intro b there
      obtain ⟨least, most⟩ := prints b there
      rw [Bool.or_eq_true, Bool.and_eq_true, decide_eq_true_eq, decide_eq_true_eq]
      exact Or.inr ⟨least, most⟩
    simp only [sampleLibrary, all, if_true]

omit [Unicode] in
/-- A stranger's call, and what the stranger reads. -/
theorem call_decided_sample :
    letI := asciiTables
    let call : Call := .peers (.sample 'a' rfl)
    let refused := errorResponse unauthorized
    serve sampleLibrary (fun _ => .sample 'c' rfl) Init.sampleHub 7 (.sample 'b' rfl)
        (requestBytes (call.request "hub.example.com" 8443)) = (.ok refused, Init.sampleHub) ∧
      ∃ response, parseBounded (plainly refused) = .ok response ∧
        describe response.status response.body = ⟨some .unauthorized,
          "a valid device token is required"⟩ := by
  let := asciiTables
  intro call refused
  have word : "hub.example.com".toList.all (fun c => !isControl c && c != ' ') = true := by decide
  have short : (requestBytes (call.request "hub.example.com" 8443)).length ≤
      sampleLibrary.limit := by
    rw [requestBytes, List.length_append, length_asBytes]
    decide +kernel
  have taken : Taken sampleLibrary (call.request "hub.example.com" 8443) := by
    refine ⟨fun c hc => ?_, short⟩
    have ok := List.all_eq_true.mp word c hc
    rwa [Bool.and_eq_true, Bool.not_eq_true', bne_iff_ne] at ok
  obtain ⟨decision, after, decided, served, reads⟩ :=
    call_decided (fun _ => .sample 'c' rfl) Init.sampleHub 7 (.sample 'b' rfl) call
      sampleLibrary_documented "hub.example.com" 8443 taken
  cases decided
  have small : (plainly (respond (.error unauthorized))).length ≤ maxResponse := by
    rw [length_plainly]
    decide +kernel
  obtain ⟨response, read, _, said⟩ := reads _ (came_plainly small)
  exact ⟨served, response, read, said⟩

end Client
