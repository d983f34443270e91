import Anago.Device
import Anago.Init

/-!
# The command line

Flags are declared, not guessed. Of `server init` this is the part that settles how the hub
is reached; what the other flags say of the certificate is `tls` and `cloudflare` of
`build_state`.
-/

open StdText DecimalText

namespace Args

/-- Whether a flag carries a value. -/
inductive FlagKind where
  | boolean
  | value
  deriving DecidableEq

/-- One flag a command accepts. -/
structure Flag where
  name : String
  kind : FlagKind

/-- Positionals in order, flags by name. -/
structure ParsedArgs where
  positionals : List String
  flags : List (String × Option String)

/-- Why the command line could not be read. -/
inductive ArgError where
  | unknown (token : String)
  | missingValue (name : String)
  | emptyValue (name : String)
  | unexpectedValue (name : String)
  | duplicate (name : String)
  | required (name : String)
  deriving DecidableEq, Repr

/-- A flag-shaped token; a bare `-` is not one. -/
def isFlagLike (arg : String) : Bool := arg.toList.head? = some '-' && arg ≠ "-"

def findFlag (spec : List Flag) (token : List Char) : Option Flag :=
  match token with
  | '-' :: '-' :: name => spec.find? fun flag => flag.name = String.ofList name
  | _ => none

namespace ParsedArgs

/-- Repeats are an error, not last-wins. -/
def push (parsed : ParsedArgs) (flag : Flag) (value : Option String) : Except ArgError ParsedArgs :=
  if parsed.flags.any fun given => given.1 = flag.name then .error (.duplicate flag.name)
  else .ok { parsed with flags := parsed.flags ++ [(flag.name, value)] }

def pushValue (parsed : ParsedArgs) (flag : Flag) (value : String) : Except ArgError ParsedArgs :=
  if value = "" then .error (.emptyValue flag.name) else parsed.push flag (some value)

/-- The loop of `parse`. -/
def parseFrom (spec : List Flag) : List String → ParsedArgs → Except ArgError ParsedArgs
  | [], parsed => .ok parsed
  | arg :: rest, parsed =>
    if arg = "--" then .ok { parsed with positionals := parsed.positionals ++ rest }
    else if ¬isFlagLike arg then
      parseFrom spec rest { parsed with positionals := parsed.positionals ++ [arg] }
    else
      let (token, inline) :=
        match Subnet.splitOnce '=' arg.toList with
        | some (token, value) => (token, some (String.ofList value))
        | none => (arg.toList, none)
      match findFlag spec token with
      | none => .error (.unknown (String.ofList token))
      | some flag =>
        match flag.kind, inline with
        | .boolean, some _ => .error (.unexpectedValue flag.name)
        | .boolean, none => (parsed.push flag none).bind (parseFrom spec rest)
        | .value, some value => (parsed.pushValue flag value).bind (parseFrom spec rest)
        | .value, none =>
          -- the next token is the value, unless it is another flag
          match rest with
          | [] => .error (.missingValue flag.name)
          | next :: rest =>
            if isFlagLike next then .error (.missingValue flag.name)
            else (parsed.pushValue flag next).bind (parseFrom spec rest)

def parse (argv : List String) (spec : List Flag) : Except ArgError ParsedArgs :=
  parseFrom spec argv ⟨[], []⟩

def value (parsed : ParsedArgs) (name : String) : Option String :=
  (parsed.flags.find? fun flag => flag.1 = name).bind Prod.snd

def require (parsed : ParsedArgs) (name : String) : Except ArgError String :=
  okOr (parsed.value name) (.required name)

end ParsedArgs

end Args

namespace Cli

open Args

inductive CliError where
  | arg (e : ArgError)
  | tooManyArguments (command : String)
  | badValue (flag message : String)
  | badArgument (what message : String)
  deriving DecidableEq, Repr

def defaultSubnet : String := "10.100.0.0/24"

def defaultListenPort : UInt16 := 51820

def defaultApiPort : UInt16 := 443

section
variable [Unicode]

def port (parsed : ParsedArgs) (flag : String) (default : UInt16) : Except CliError UInt16 :=
  match parsed.value flag with
  | none => .ok default
  | some text =>
    match parseU16 text.toList with
    | some port =>
      if port = 0 then .error (.badValue flag (debugStr text ++ " is not a port number (1-65535)"))
      else .ok port
    | none => .error (.badValue flag (debugStr text ++ " is not a port number (1-65535)"))

omit [Unicode] in
/-- `str::contains`. -/
def contains (pattern text : List Char) : Bool := text.tails.any fun rest => pattern.isPrefixOf rest

omit [Unicode] in
/-- A bare hostname; a pasted URL is the likely mistake. -/
def domain (text : String) : Except CliError String :=
  let bad (message : String) : Except CliError String := .error (.badArgument "domain" message)
  if contains "://".toList text.toList then bad "give the hostname only, without https://"
  else if contains ['/'] text.toList then bad "give the hostname only, without a path"
  else if contains [':'] text.toList then bad "give the hostname only, without a port"
  else if text.toList.any isWhitespace then bad "a domain cannot contain spaces"
  else if !contains ['.'] text.toList then bad "expected a full domain, e.g. net.example.com"
  else .ok text

omit [Unicode] in
def rejectExtraPositionals (parsed : ParsedArgs) (command : String) : Except CliError Unit :=
  if parsed.positionals = [] then .ok () else .error (.tooManyArguments command)

omit [Unicode] in
/-- The flags of `server init`. -/
def serverInitSpec : List Flag :=
  [⟨"domain", .value⟩, ⟨"tls-cert", .value⟩, ⟨"tls-key", .value⟩, ⟨"subnet", .value⟩,
    ⟨"port", .value⟩, ⟨"api-port", .value⟩, ⟨"no-systemd", .boolean⟩, ⟨"acme-email", .value⟩,
    ⟨"acme-staging", .boolean⟩, ⟨"acme-challenge", .value⟩, ⟨"cf-token", .value⟩,
    ⟨"cf-token-file", .value⟩]

/-- The network that a command line asks for. -/
def serverInit (argv : List String) : Except CliError ServerInit := do
  let parsed ← (ParsedArgs.parse argv serverInitSpec).mapError .arg
  rejectExtraPositionals parsed "server init"
  let subnet ← (Subnet.parse ((parsed.value "subnet").getD defaultSubnet)).mapError fun e =>
    .badValue "subnet" e.display
  let host ← (parsed.require "domain").mapError .arg
  let domain ← domain host
  let listenPort ← port parsed "port" defaultListenPort
  let apiPort ← port parsed "api-port" defaultApiPort
  .ok ⟨domain, subnet, listenPort, apiPort⟩

end

end Cli
