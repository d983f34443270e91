import Anago.ClientResponse
import Anago.Handlers
import Anago.RequestReads

/-!
# The hub's front door

Which handler a request goes to, what is read of its headers and its body, and what an answer
looks like. Everything that is wrong with a credential gets one answer.
-/

open StdText Utf8Text Proto

namespace Api

structure Answer where
  status : UInt16
  headers : List (String × String)
  body : String
  deriving DecidableEq, Repr

/-- The handlers. -/
inductive Handler where
  | join
  | peers
  | remove
  deriving DecidableEq, Repr

/-- Where a handler is. A name in braces stands for a segment of the path. -/
structure Route where
  path : String
  method : Client.Method
  handler : Handler
  deriving DecidableEq, Repr

/-- The M0 routes. -/
def router : List Route :=
  [⟨Client.pathJoin, .post, .join⟩, ⟨Client.pathPeers, .get, .peers⟩,
    ⟨Client.pathPeers ++ "/{name}", .delete, .remove⟩]

/-- What hyper, axum and http do for the hub. An answer in it is one of their own. -/
structure Library where
  /-- The longest request that is taken. -/
  limit : Nat
  /-- The request in the bytes of a connection. -/
  read : List UInt8 → Except Answer Http.Request
  /-- The handler for a method and a target, with the segments that stand for names. -/
  route : List Route → List UInt8 → List UInt8 → Except Answer (Handler × List String)
  /-- `Path<String>`. -/
  path : List String → Except Answer String
  /-- `Bytes`. -/
  bytes : List UInt8 → Except Answer (List UInt8)
  /-- `HeaderMap::get`. -/
  header : List (List UInt8 × List UInt8) → List UInt8 → Option (List UInt8)
  /-- `HeaderValue::to_str`. -/
  toStr : List UInt8 → Option String

/-- A byte that stands in a path for itself, or for a part of an escape. -/
def pathByte (b : UInt8) : Bool := Client.unreserved b || b == 37 || b == 47

/-- A path of such bytes. -/
def Spelled (path : List UInt8) : Prop := path.head? = some 47 ∧ path.all pathByte = true

/-- What the documentation of the library promises of requests like those of a device. -/
structure Documented (library : Library) : Prop where
  /-- A request that is written line by line is read as its parts, and its headers without the
  blanks around their values. -/
  read : ∀ (method : Client.Method) (target : List UInt8) (headers : List (List UInt8 × List UInt8))
    (body : List UInt8), Spelled target → (∀ header ∈ headers, Http.Field header) →
    (headers.map fun header => header.1.map Http.lower).Nodup →
    asBytes "transfer-encoding" ∉ headers.map (fun header => header.1.map Http.lower) →
    Http.contentLength (headers.map Http.trimmed) = some body.length →
    (Http.written (asBytes method.asStr) target (asBytes "HTTP/1.1") headers body).length ≤
      library.limit →
    library.read (Http.written (asBytes method.asStr) target (asBytes "HTTP/1.1") headers body) =
      .ok ⟨asBytes method.asStr, target, asBytes "HTTP/1.1", headers.map Http.trimmed, body⟩
  /-- A path without names is matched by itself. -/
  exact : ∀ routes route, route ∈ routes →
    (∀ other ∈ routes, other.path = route.path → other = route) → Spelled (asBytes route.path) →
    library.route routes (asBytes route.method.asStr) (asBytes route.path) = .ok (route.handler, [])
  /-- A name at the end of a path is matched by one segment that is not empty, and is given
  decoded. -/
  segment : ∀ routes route root, route ∈ routes → route.path = root ++ "/{name}" →
    Spelled (asBytes root) →
    (∀ other ∈ routes, asBytes (root ++ "/") <+: asBytes other.path → other = route) →
    ∀ segment text, segment ≠ [] → segment.all pathByte = true → 47 ∉ segment →
    Http.percentDecode segment = some (asBytes text) →
    library.route routes (asBytes route.method.asStr) (asBytes (root ++ "/") ++ segment) =
      .ok (route.handler, [text])
  path : ∀ name, library.path [name] = .ok name
  bytes : ∀ body, body.length ≤ library.limit → library.bytes body = .ok body
  /-- The first header of the name, however it is spelled. -/
  header : ∀ headers name, library.header headers name =
    (headers.find? fun header => header.1.map Http.lower = name.map Http.lower).map Prod.snd
  /-- A value that prints is a text. -/
  toStr : ∀ value, (∀ b ∈ value, 32 ≤ b ∧ b < 127) →
    library.toStr value = some (String.ofList (value.map Char.ofUInt8))

/-- `str::strip_prefix`. -/
def stripPrefix (pre cs : List Char) : Option (List Char) :=
  if pre.isPrefixOf cs then some (cs.drop pre.length) else none

/-- Reads a bearer token out of an `Authorization` header. -/
def bearerToken (library : Library) (header : Option (List UInt8)) : Except ApiError DeviceToken :=
  match header.bind library.toStr with
  | none => .error unauthorized
  | some value =>
    match (stripPrefix "Bearer ".toList value.toList).or
        (stripPrefix "bearer ".toList value.toList) with
    | none => .error unauthorized
    | some token =>
      match DeviceToken.parse (String.ofList (trim token)) with
      | .error _ => .error unauthorized
      | .ok token => .ok token

variable [Unicode]

def parseBody (body : List UInt8) : Outcome ApiError JoinRequest :=
  match fromUtf8 body with
  | none => .err ⟨.badRequest, "the request body is not UTF-8"⟩
  | some text =>
    match Json.parse text with
    | .ok value =>
      match JoinRequest.fromJson value with
      | .ok request => .ok request
      | .error e => .err ⟨.badRequest, e.display⟩
    | .err e => .err ⟨.badRequest, "invalid JSON: " ++ e.display⟩
    | .panic => .panic
    | .spin => .spin

/-- The HTTP status for each failure. -/
def statusFor : ErrorCode → UInt16
  | .badRequest | .invalidName | .invalidPublicKey => 400
  | .unauthorized => 401
  | .invalidCode => 403
  | .notFound => 404
  | .nameTaken => 409
  | .subnetFull => 507
  | .internal => 500

def contentType : String × String := ("content-type", "application/json")

/-- A 401 names the scheme to authenticate with. -/
def errorResponse (error : ApiError) : Answer :=
  let status := statusFor error.code
  let body := Json.toString error.toJson
  if status = 401 then ⟨status, [contentType, ("www-authenticate", "Bearer")], body⟩
  else ⟨status, [contentType], body⟩

def jsonResponse (status : UInt16) (body : String) : Answer := ⟨status, [contentType], body⟩

/-- What a handler decided, as it is sent. -/
def respond : Except ApiError Json.Value → Answer
  | .ok value => jsonResponse 200 (Json.toString value)
  | .error e => errorResponse e

/-- What a request asks of its handler, with the token minted for it, or the answer it gets
before the state is looked at. -/
def asked (library : Library) (request : Http.Request) (minted : DeviceToken) :
    Outcome Answer Handlers.Request :=
  let authorization := library.header request.headers (asBytes "authorization")
  match library.route router request.method request.target with
  | .error refused => .err refused
  | .ok (.join, _) =>
    match library.bytes request.body with
    | .error refused => .err refused
    | .ok body =>
      ((parseBody body).mapErr errorResponse).bind fun request => .ok (.join request minted)
  | .ok (.peers, _) =>
    .ofExcept
      ((bearerToken library authorization).map Handlers.Request.peers |>.mapError errorResponse)
  | .ok (.remove, segments) =>
    match library.path segments with
    | .error refused => .err refused
    | .ok name =>
      .ofExcept ((bearerToken library authorization).map (Handlers.Request.remove · name)
        |>.mapError errorResponse)

/-- What is answered to the bytes of a request, and the state it would leave. -/
def serve (library : Library) (hashToken : DeviceToken → TokenHash) (state : ServerState)
    (now : Int64) (minted : DeviceToken) (bytes : List UInt8) :
    Outcome Answer Answer × ServerState :=
  match library.read bytes with
  | .error refused => (.err refused, state)
  | .ok request =>
    match asked library request minted with
    | .ok request =>
      let (decision, after) := Handlers.answer hashToken state now request
      (.ok (respond decision), after)
    | .err refused => (.err refused, state)
    | .panic => (.panic, state)
    | .spin => (.spin, state)

end Api
