import Anago.JsonRoundTrip
import Anago.TlsSchedule

/-!
# The account at the CA, and one renewal

A renewal signs in with the account on disk or registers one, orders, and only then
writes: the account file, the certificate pair. What the CA and the disk answer is an
input, so every point of failure is part of the model. How account credentials are
written as JSON is the client library's; `Format` holds what is documented of it.
-/

open StdText

namespace AcmeClient

/-- `LetsEncrypt::Production.url()` and `LetsEncrypt::Staging.url()`. -/
def production : String := "https://acme-v02.api.letsencrypt.org/directory"

def staging : String := "https://acme-staging-v02.api.letsencrypt.org/directory"

/-- The CA a run orders from. -/
def directory (staging : Bool) : String := if staging then AcmeClient.staging else production

/-- Account credentials: the account's URL at the CA, its key and the CA's directory. -/
structure Credentials where
  id : String
  key : String
  directory : Option String
  deriving DecidableEq, Repr

/-- The library's JSON of credentials. -/
class Format where
  write : Credentials → String
  read : String → Except String Credentials
  /-- The text as JSON: its `directory` and its `id`, where they are strings. -/
  fields : String → Except String (Option String × Option String)
  read_write : ∀ c, read (write c) = .ok c
  fields_of_read : ∀ text c, read text = .ok c → fields text = .ok (c.directory, some c.id)

/-- Credentials as the library writes them. -/
def Credentials.toValue (credentials : Credentials) : Json.Value :=
  .obj ([("id", .str credentials.id), ("key_pkcs8", .str credentials.key)] ++
    match credentials.directory with
    | some directory => [("directory", .str directory)]
    | none => [])

/-- A text field of a JSON object. -/
def textField (value : Json.Value) (key : String) : Option String :=
  value.asObject.bind fun object => (Json.Object.get object key).bind Json.Value.asStr

/-- What is read back of credentials. -/
def Credentials.ofValue (value : Json.Value) : Except String Credentials :=
  match textField value "id", textField value "key_pkcs8" with
  | some id, some key => .ok ⟨id, key, textField value "directory"⟩
  | _, _ => .error "missing field"

/-- Reads a text as JSON. -/
def jsonText [Unicode] {α : Type} (text : String) (read : Json.Value → Except String α) :
    Except String α :=
  match Json.parse text with
  | .ok value => read value
  | _ => .error "not JSON"

theorem Credentials.parse_toValue [Unicode] (credentials : Credentials) :
    Json.parse (Json.toString credentials.toValue) = .ok credentials.toValue := by
  obtain ⟨id, key, directory⟩ := credentials
  have built : (Credentials.toValue ⟨id, key, directory⟩).Built := by
    cases directory <;> simp [toValue, Json.Value.Built, Json.Value.BuiltFields]
  have shallow : (Credentials.toValue ⟨id, key, directory⟩).depth ≤ Json.maxDepth := by
    cases directory <;>
      simp [toValue, Json.Value.depth, Json.Value.depthFields, Json.maxDepth]
  exact (Json.parse_document (Json.isDocument_written none built)).1 shallow

theorem Credentials.ofValue_toValue (credentials : Credentials) :
    ofValue credentials.toValue = .ok credentials := by
  obtain ⟨id, key, directory⟩ := credentials
  cases directory <;> rfl

/-- A format to run things on. -/
@[reducible] def jsonFormat [Unicode] : Format where
  write credentials := Json.toString credentials.toValue
  read text := jsonText text Credentials.ofValue
  fields text := jsonText text fun value => .ok (textField value "directory", textField value "id")
  read_write credentials := by
    rw [jsonText, credentials.parse_toValue]
    exact credentials.ofValue_toValue
  fields_of_read text credentials h := by
    rw [jsonText] at h ⊢
    split at h
    · next value hparse =>
      rw [Credentials.ofValue] at h
      split at h
      · next id key hid _ =>
        cases h
        rw [hid]
      · cases h
    · cases h

/-- A contact as ACME spells it. -/
def contactUri (email : String) : String := "mailto:" ++ String.ofList (trim email.toList)

/-- Why anago registers rather than signs in. -/
inductive Fresh where
  | firstTime
  | differentCa (was : String)
  | keyGone (path : String)
  deriving DecidableEq, Repr

inductive Registration where
  | reuse (credentials accountUrl : String) (updateContact : Bool)
  | register (credentials : String) (why : Fresh)
  deriving DecidableEq, Repr

/-- Decides whether the hub already has an account it can use. -/
def registration (existing : Option Acme) (directory contact defaultPath : String)
    (keyExists : Bool) : Registration :=
  match existing with
  | none => .register defaultPath .firstTime
  | some acme =>
    if acme.directory ≠ directory then
      .register acme.accountKeyPath (.differentCa acme.directory)
    else if !keyExists then .register acme.accountKeyPath (.keyGone acme.accountKeyPath)
    else .reuse acme.accountKeyPath acme.accountUrl (decide (acme.contact ≠ some contact))

/-- How a credentials file fails to be the one the state records. -/
inductive Wrong where
  | unreadable (detail : String)
  | ca (found : Option String)
  | account (found : Option String) (expected : String)
  deriving DecidableEq, Repr

inductive AcmeError where
  | client (detail : String)
  | register (directory detail : String)
  | signIn (directory detail : String)
  | contact (contact detail : String)
  | read (path detail : String)
  | write (path detail : String)
  | unreadable (path detail : String)
  | wrongAccount (path : String) (wrong : Wrong) (directory : String)
  | notOurs (path : String)
  /-- Any of the ways the order or its challenge fails. -/
  | order (detail : String)
  deriving DecidableEq, Repr

variable [Format]

/-- Checks a credentials file against the account the state records. -/
def belongsTo (text directory accountUrl : String) : Except Wrong Unit :=
  match Format.fields text with
  | .error detail => .error (.unreadable detail)
  | .ok (ca, id) =>
    if ca ≠ some directory then .error (.ca ca)
    else if !accountUrl.isEmpty && id ≠ some accountUrl then .error (.account id accountUrl)
    else .ok ()

/-- Reads the credentials back, after checking they are the ones the state means. -/
def load (path directory accountUrl : String) (file : Option String) :
    Except AcmeError Credentials :=
  match file with
  | none => .error (.read path "No such file or directory")
  | some text =>
    match belongsTo text directory accountUrl with
    | .error (.unreadable detail) => .error (.unreadable path detail)
    | .error wrong => .error (.wrongAccount path wrong directory)
    | .ok () =>
      match Format.read text with
      | .error detail => .error (.unreadable path detail)
      | .ok credentials => .ok credentials

/-- What the CA is told. -/
inductive Call where
  | registered (directory url contact : String)
  | contactUpdated (directory url contact : String)
  deriving DecidableEq, Repr

/-- A certificate that came back, with its expiry where that could be read. -/
structure Issued where
  certificate : String
  privateKey : String
  notAfter : Option Int64
  warnings : List String
  deriving DecidableEq, Repr

/-- What the world answers one renewal: the CA at each step, the zone of a DNS-01
challenge, and the disk at each write. -/
structure Answers where
  client : Except String Unit
  signedIn : Except String Unit
  contactUpdated : Except String Unit
  /-- The URL and the key of a new account. -/
  registered : Except String (String × String)
  issued : Except String Issued
  zoneId : String
  accountWritten : Except String Unit
  pairWritten : Except String Unit

/-- An account to order with: its URL, and the credentials still to be written. -/
structure SignedIn where
  url : String
  fresh : Option String
  deriving DecidableEq, Repr

/-- Signs in, or registers. -/
def signIn (plan : Registration) (directory contact : String) (file : Option String)
    (answers : Answers) : Except AcmeError SignedIn × List Call :=
  match plan with
  | .reuse credentials accountUrl updateContact =>
    match load credentials directory accountUrl file with
    | .error e => (.error e, [])
    | .ok stored =>
      match answers.client with
      | .error detail => (.error (.client detail), [])
      | .ok () =>
        match answers.signedIn with
        | .error detail => (.error (.signIn directory detail), [])
        | .ok () =>
          if updateContact then
            match answers.contactUpdated with
            | .error detail => (.error (.contact contact detail), [])
            | .ok () =>
              (.ok ⟨stored.id, none⟩, [.contactUpdated directory stored.id (contactUri contact)])
          else (.ok ⟨stored.id, none⟩, [])
  | .register _ _ =>
    match answers.client with
    | .error detail => (.error (.client detail), [])
    | .ok () =>
      match answers.registered with
      | .error detail => (.error (.register directory detail), [])
      | .ok (url, key) =>
        (.ok ⟨url, some (Format.write ⟨url, key, some directory⟩)⟩,
          [.registered directory url (contactUri contact)])

/-- The files a renewal writes. -/
structure Disk where
  account : Option String
  certificate : Option String
  key : Option String
  deriving DecidableEq, Repr

/-- Where anago's own files go. -/
structure ServerPaths where
  certificate : String
  privateKey : String
  accountKey : String
  deriving DecidableEq, Repr

/-- A certificate a run obtained, and where it went. -/
structure Renewed where
  certificatePath : String
  keyPath : String
  zoneId : Option String
  accountUrl : String
  notAfter : Option Int64
  warnings : List String
  deriving DecidableEq, Repr

/-- What one renewal comes to: its result, the files it leaves, what the CA was told. -/
structure Attempt where
  result : Except AcmeError Renewed
  disk : Disk
  calls : List Call

/-- `Pending::commit`: new credentials are written, others are there already. -/
def commit (path : String) (fresh : Option String) (written : Except String Unit) (disk : Disk) :
    Except AcmeError Disk :=
  match fresh with
  | none => .ok disk
  | some text =>
    match written with
    | .error detail => .error (.write path detail)
    | .ok () => .ok { disk with account := some text }

variable [Unicode]

/-- The account step of a renewal: with the account file, or a new account. -/
def account (acme : Acme) (paths : ServerPaths) (file : Option String) (answers : Answers) :
    Except AcmeError SignedIn × List Call :=
  let contact := acme.contact.getD ""
  let plan := registration (some acme) acme.directory contact paths.accountKey file.isSome
  signIn plan acme.directory contact file answers

/-- One renewal, from the state to files on disk. -/
def renew (state : ServerState) (paths : ServerPaths) (disk : Disk) (answers : Answers) : Attempt :=
  match state.tls.renewable with
  | none => ⟨.error (.notOurs state.tls.certPath), disk, []⟩
  | some acme =>
    match account acme paths disk.account answers with
    | (.error e, calls) => ⟨.error e, disk, calls⟩
    | (.ok signed, calls) =>
      match answers.issued with
      | .error detail => ⟨.error (.order detail), disk, calls⟩
      | .ok issued =>
        match commit acme.accountKeyPath signed.fresh answers.accountWritten disk with
        | .error e => ⟨.error e, disk, calls⟩
        | .ok disk =>
          match answers.pairWritten with
          | .error detail =>
            ⟨.error (.write (paths.privateKey ++ " and " ++ paths.certificate) detail), disk, calls⟩
          | .ok () =>
            ⟨.ok {
              certificatePath := paths.certificate
              keyPath := paths.privateKey
              zoneId := match acme.challenge with
                | .http01 => none
                | .dns01 => some answers.zoneId
              accountUrl := signed.url
              notAfter := issued.notAfter
              warnings := issued.warnings },
              { disk with certificate := some issued.certificate, key := some issued.privateKey },
              calls⟩

/-- Writes what a renewal changed into the state. -/
def record (state : ServerState) (renewed : Renewed) (now : Int64) : ServerState :=
  let tls := { state.tls with
    notAfter := renewed.notAfter
    certPath := renewed.certificatePath
    keyPath := renewed.keyPath }
  { state with
    tls := tls.modifyAcme fun acme =>
      { acme with accountUrl := renewed.accountUrl }.issued now renewed.notAfter
    cloudflare := match renewed.zoneId, state.cloudflare with
      | some zoneId, some cloudflare =>
        if cloudflare.zoneId ≠ zoneId then
          some { cloudflare with zoneId := zoneId, recordId := none }
        else some cloudflare
      | _, cloudflare => cloudflare }

end AcmeClient
