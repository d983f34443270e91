import Anago.FilePairs
import Anago.InitRun
import Anago.WgConf

/-!
# The files a failed `server init` leaves

Two rollbacks take back what a run wrote: one what was not there before the certificate was
ordered, one what the last step created. Between them every file of a run that failed is
gone again, and none that was there before.
-/

open StdText Program Fsutil
open AcmeClient hiding Disk

namespace InitFiles

/-- `Path::join` with a bare name. -/
def join (dir name : String) : String :=
  if dir.isEmpty || dir.toList.getLast? == some '/' then dir ++ name else dir ++ "/" ++ name

/-- The directory a file is in. -/
def parent (path : String) : String :=
  String.ofList ((path.toList.reverse.dropWhile (· != '/')).drop 1).reverse

/-- The files a run may write. -/
inductive Place where
  | accountKey
  | certificate
  | privateKey
  | wgConfig
  | cfToken
  | stateFile
  deriving DecidableEq, Repr

def Place.path (root wgDir : String) : Place → String
  | .accountKey => join (join root "tls") "account.key"
  | .certificate => join (join root "tls") "fullchain.pem"
  | .privateKey => join (join root "tls") "privkey.pem"
  | .wgConfig => join wgDir "anago.conf"
  | .cfToken => join root "cf-token"
  | .stateFile => join root "state.json"

/-- What the last letter of a path tells apart from the six: files beside another, and locks. -/
def aside (path : String) : Prop :=
  path.toList.getLast? = some 'p' ∨ path.toList.getLast? = some 'k'

theorem last_append (front : String) {back : String} {c : Char}
    (h : back.toList.getLast? = some c) :
    (front ++ back).toList.getLast? = some c := by
  rw [String.toList_append, List.getLast?_append, h]
  rfl

theorem last_join (dir : String) {name : String} {c : Char} (h : name.toList.getLast? = some c) :
    (join dir name).toList.getLast? = some c := by
  rw [join]
  split
  · exact last_append dir h
  · exact last_append (dir ++ "/") h

theorem join_inj {dir first second : String} (h : join dir first = join dir second) :
    first = second := by
  have cancel : ∀ front : String, front ++ first = front ++ second → first = second := by
    intro front h
    have lists := congrArg String.toList h
    rw [String.toList_append, String.toList_append] at lists
    exact String.toList_inj.mp (List.append_cancel_left lists)
  rw [join, join] at h
  split at h
  · exact cancel _ h
  · exact cancel _ h

def Place.last : Place → Char
  | .accountKey => 'y'
  | .certificate => 'm'
  | .privateKey => 'm'
  | .wgConfig => 'f'
  | .cfToken => 'n'
  | .stateFile => 'n'

theorem Place.last_path (root wgDir : String) (place : Place) :
    (place.path root wgDir).toList.getLast? = some place.last := by
  cases place <;> exact last_join _ rfl

theorem Place.inside (root wgDir : String) (place : Place) : ¬aside (place.path root wgDir) := by
  rw [aside, Place.last_path]
  cases place <;> decide

/-- The six are six, wherever the two directories are. -/
theorem Place.path_inj {root wgDir : String} {place other : Place}
    (h : place.path root wgDir = other.path root wgDir) : place = other := by
  have last : place.last = other.last := by
    have lasts := congrArg (fun path : String => path.toList.getLast?) h
    simp only [Place.last_path] at lasts
    exact Option.some.inj lasts
  cases place <;> cases other <;> first
    | rfl
    | exact absurd last (by decide)
    | exact absurd (join_inj h) (by decide)

def serverPaths (root : String) : ServerPaths where
  certificate := Place.path root "" .certificate
  privateKey := Place.path root "" .privateKey
  accountKey := Place.path root "" .accountKey

/-- Why `server init` could not finish. -/
inductive InitError where
  | alreadyInitialized (path : String)
  | configExists (path : String)
  | tls (detail : String)
  | plan (error : Init.PlanError)
  | cloudflare (detail : String)
  | wg (detail : String)
  | acme (error : AcmeError)
  | io (what : String) (kind : Kind) (source : String)
  | afterIssuance (source : InitError)
  deriving DecidableEq, Repr

/-- How a run turns out where it is not up to it, the disk apart. -/
structure Luck where
  tools : Except String Unit
  token : Except String String
  zone : Except String String
  /-- The A record that was written, where this machine's address is known. -/
  record : Except String (Option String)
  keys : Except String (PrivateKey × String)
  code : Except String JoinCode
  answers : Answers
  /-- Whether the pair can be served, and its expiry. -/
  loaded : Except String (Option Int64)

/-- What `point_dns` came back with. -/
structure Pointed where
  zoneId : Option String
  recordId : Option String
  token : Option String
  deriving DecidableEq, Repr

def pointDns (found : Bool) (luck : Luck) : Except InitError Pointed :=
  if found then do
    let token ← luck.token.mapError .cloudflare
    let zone ← luck.zone.mapError .cloudflare
    let record ← luck.record.mapError .cloudflare
    return ⟨some zone, record, some token⟩
  else return ⟨none, none, none⟩

/-- A certificate that was given is on disk now; another is not there yet. -/
def loadGiven (plan : Init.Plan) (luck : Luck) : Except InitError Unit :=
  match plan with
  | .manual _ _ => (luck.loaded.map fun _ => ()).mapError .tls
  | .acme _ _ _ _ => .ok ()

/-- A token is needed again where a renewal answers over DNS. -/
def needsToken : Init.Plan → Bool
  | .acme _ .dns01 _ _ => true
  | _ => false

/-- Whether the token is one of the files that are published. -/
def keepsToken (plan : Init.Plan) (pointed : Pointed) : Bool :=
  needsToken plan && pointed.zoneId.isSome

/-- What the state records of Cloudflare. -/
def recorded (plan : Init.Plan) (pointed : Pointed) (tokenPath : String) : Option Cloudflare :=
  pointed.zoneId.map fun zoneId =>
    ⟨zoneId, pointed.recordId, if keepsToken plan pointed then some tokenPath else none⟩

abbrev Run (ε α : Type) := Program Disk ε α

/-- An input or output error, under what was being done. -/
def doing {α : Type} (what : String) (p : Io α) : Run InitError α :=
  p.mapErr fun e => .io what e.kind e.text

/-- `?` on what is settled apart from the disk. -/
def settled {ε α : Type} (x : Except ε α) : Run ε α := ret (Outcome.ofExcept x)

section
variable [Faults]

/-- Refuses when either output is already there. -/
def checkNotInitialized (root wgDir : String) : Run InitError Unit :=
  look fun disk =>
    if (disk.files (Place.path root wgDir .stateFile)).isSome then
      .err (.alreadyInitialized (Place.path root wgDir .stateFile))
    else if (disk.files (Place.path root wgDir .wgConfig)).isSome then
      .err (.configExists (Place.path root wgDir .wgConfig))
    else .ok ()

def lock (root : String) : Run InitError Unit := do
  doing "create the state directory" ensurePrivateDir
  doing "take the initialization lock" (acquire (join root "state.lock"))

def storeText (path text : String) : Run AcmeError Unit := do
  ensurePrivateDir.mapErr fun e => .write (parent path) e.text
  (writePrivate path text).mapErr fun e => .write path e.text

/-- `Pending::commit`. -/
def commit (path : String) (fresh : Option String) : Run AcmeError Unit :=
  match fresh with
  | some text => storeText path text
  | none => ret (.ok ())

def save (paths : ServerPaths) (issued : Issued) : Run AcmeError Unit := do
  ensurePrivateDir.mapErr fun e => .write (parent paths.privateKey) e.text
  (writePrivatePair (paths.privateKey, issued.privateKey) (paths.certificate,
    issued.certificate)).mapErr
    fun e => .write (paths.privateKey ++ " and " ++ paths.certificate) e.text

/-- One write of those that make this machine a hub. -/
inductive Write where
  | dir (what : String)
  /-- A new file, and what is said when something is there already. -/
  | file (what path text : String) (taken : Option InitError)

def Write.created : Write → List String
  | .dir _ => []
  | .file _ path _ _ => [path]

/-- The writes in their order, each recorded as it lands, the newest first. -/
def writeAll (pid : String) (created : List String) :
    List Write → Run (InitError × List String) Unit
  | [] => ret (.ok ())
  | .dir what :: rest => do
    ensurePrivateDir.mapErr fun e => (.io what e.kind e.text, created)
    writeAll pid created rest
  | .file what path text taken :: rest => do
    (createNewPrivate pid path text).mapErr fun e =>
      ((taken.filter fun _ => e.kind = .alreadyExists).getD (.io what e.kind e.text), created)
    writeAll pid (path :: created) rest

def removeAll : List String → Run InitError Unit
  | [] => ret (.ok ())
  | path :: rest => do
    (removeFile path).discard
    removeAll rest

/-- The writes, or what they created is removed again. -/
def landing (pid : String) (writes : List Write) : Run InitError Unit :=
  (writeAll pid [] writes).settle (fun _ => ret (.ok ())) fun (e, created) => do
    removeAll created
    ret (.err e)

end

/-- The files of an issuance. -/
def ordered (paths : ServerPaths) : List String :=
  [paths.accountKey, paths.certificate, paths.privateKey]

/-- Those that are not there yet. -/
def watching (paths : ServerPaths) (files : Files) : List String :=
  (ordered paths).filter fun path => (files path).isNone

section Parts
variable {ε α : Type} {pre : Files → Prop} {files : Files}

theorem settled_leaves (x : Except ε α) :
    Leaves pre (settled x) (fun a files' => x = .ok a ∧ pre files') fun _ => pre := by
  cases x with
  | error e => exact Meets.error fun _ h => h
  | ok a => exact Meets.value fun _ h => ⟨rfl, h⟩

theorem seen_leaves (f : Files → α) :
    Leaves pre (look fun disk => .ok (f disk.files) : Run ε α)
      (fun a files' => a = f files' ∧ pre files') fun _ => pre :=
  Meets.look fun _ h => .ok ⟨rfl, h⟩

theorem checkNotInitialized_leaves (root wgDir : String) :
    Leaves pre (checkNotInitialized root wgDir)
      (fun _ files' => pre files' ∧ files' (Place.path root wgDir .stateFile) = none)
        fun _ => pre := by
  refine Meets.look fun disk h => ?_
  split
  · exact .err h
  · next state =>
    split
    · exact .err h
    · exact .ok ⟨h, by simpa using state⟩

variable [Faults]

theorem lock_leaves (root : String) :
    Leaves (Only aside files) (lock root) (fun _ => Only aside files) fun _ => Only aside files :=
  (Meets.mapErr (ensurePrivateDir_leaves (Only aside files))).bind fun _ =>
    Meets.mapErr (acquire_leaves (Or.inr (last_join root rfl)))

end Parts

/-- What an issuance may have done: written the watched files, which were not all there. -/
structure Within (watched : List String) (files files' : Files) : Prop where
  others : ∀ path, ¬aside path → path ∉ watched → files' path = files path
  kept : ∀ path ∈ watched, files path ≠ none → files' path ≠ none

section Within
variable {watched : List String} {files files' files'' : Files}

theorem Within.only (h : Within watched files files') (only : Only aside files' files'')
    (inside : ∀ path ∈ watched, ¬aside path) : Within watched files files'' := by
  refine ⟨fun path hpath other => (only path hpath).trans (h.others path hpath other),
    fun path hpath there => ?_⟩
  rw [only path (inside path hpath)]
  exact h.kept path hpath there

theorem Within.put (h : Within watched files files') {path : String}
    (hpath : path ∈ watched) (text : String) :
    Within watched files (Fsutil.put path (some text) files') := by
  refine ⟨fun other hother apart => ?_, fun other hother there => ?_⟩
  · rw [put_other (by rintro rfl; exact apart hpath)]
    exact h.others other hother apart
  · by_cases same : other = path
    · rw [same, put_self]
      rintro ⟨⟩
    · rw [put_other same]
      exact h.kept other hother there

variable [Faults] (inside : ∀ path ∈ watched, ¬aside path)
include inside

theorem storeText_leaves {path : String} (hpath : path ∈ watched) (text : String) :
    Leaves (Within watched files) (storeText path text) (fun _ => Within watched files)
      fun _ => Within watched files := by
  refine (Meets.mapErr (ensurePrivateDir_leaves (Within watched files))).bind fun _ =>
    Meets.mapErr ?_
  refine Meets.each fun disk h => ?_
  have tmp : aside (path ++ ".tmp") := Or.inl (last_append path rfl)
  refine (writePrivate_leaves disk.files text tmp).mono ?_ (fun _ _ only => ?_) fun _ _ only => ?_
  · rintro _ rfl
    exact fun _ _ => rfl
  · exact (h.put hpath text).only only inside
  · exact h.only only inside

theorem commit_leaves {path : String} (hpath : path ∈ watched) (fresh : Option String) :
    Leaves (Within watched files) (commit path fresh) (fun _ => Within watched files)
      fun _ => Within watched files := by
  cases fresh with
  | none => exact Meets.value fun _ h => h
  | some text => exact storeText_leaves inside hpath text

theorem save_leaves {paths : ServerPaths} (hkey : paths.privateKey ∈ watched)
    (hcertificate : paths.certificate ∈ watched) (apart : paths.privateKey ≠ paths.certificate)
    (issued : Issued) :
    Leaves (Within watched files) (save paths issued) (fun _ => Within watched files)
      fun _ => Within watched files := by
  refine (Meets.mapErr (ensurePrivateDir_leaves (Within watched files))).bind fun _ =>
    Meets.mapErr ?_
  refine Meets.each fun disk h => ?_
  have pair : Pair aside paths.privateKey paths.certificate :=
    ⟨Or.inl (last_append _ rfl), Or.inl (last_append _ rfl),
      Or.inr (last_append _ rfl), inside _ hkey, inside _ hcertificate, apart⟩
  refine Meets.mono (writePrivatePair_leaves disk.files (paths.privateKey, issued.privateKey)
    (paths.certificate, issued.certificate) pair) ?_ (fun _ _ only => ?_) fun _ _ torn => ?_
  · rintro _ rfl
    exact fun _ _ => rfl
  · exact ((h.put hkey _).put hcertificate _).only only inside
  · rcases torn with only | ⟨_, only⟩
    · exact h.only only inside
    · exact (h.put hkey _).only only inside

end Within

/-- The files of a run that have landed, and all others as they were. -/
structure Landed (before : Files) (created : List String) (files : Files) : Prop where
  inside : ∀ path ∈ created, ¬aside path
  absent : ∀ path ∈ created, before path = none
  there : ∀ path ∈ created, files path ≠ none
  same : ∀ path, ¬aside path → path ∉ created → files path = before path

/-- Without these. -/
def cleared (paths : List String) (files : Files) : Files :=
  fun path => if path ∈ paths then none else files path

theorem removeAll_clears [Faults] (removes : Removes) (paths : List String) (files : Files) :
    Leaves (Only aside files) (removeAll paths) (fun _ => Only aside (cleared paths files))
      fun _ _ => False := by
  induction paths generalizing files with
  | nil => exact Meets.value fun _ h => h
  | cons first rest ih =>
    refine (Meets.discard (removeFile_clears removes first)).bind fun _ =>
      (ih _).mono (fun _ h => h)
        (fun _ _ only => only.less (fun _ h => h) fun path _ => ?_) fun _ _ h => h
    rw [cleared, cleared]
    by_cases later : path ∈ rest
    · rw [if_pos later, if_pos (List.mem_cons_of_mem _ later)]
    · rw [if_neg later]
      by_cases same : path = first
      · rw [same, put_self, if_pos List.mem_cons_self]
      · rw [put_other same, if_neg fun h => (List.mem_cons.mp h).elim same later]

section Landing
variable {before : Files} {pid : String} [Faults]

omit [Faults] in
/-- One more has landed. -/
theorem Landed.cons {created : List String} {files files' : Files} (h : Landed before created files)
    {path text : String} (absent : files path = none) (inside : ¬aside path)
    (only : Only aside (put path (some text) files) files') :
    Landed before (path :: created) files' := by
  have new : path ∉ created := fun old => h.there path old absent
  have shown : ∀ other, ¬aside other → other ≠ path → files' other = files other :=
    fun other hother apart => (only other hother).trans (put_other apart ..)
  have older : ∀ {other}, other ∈ path :: created → other ≠ path → other ∈ created :=
    fun hother same => (List.mem_cons.mp hother).resolve_left same
  refine ⟨fun other hother => ?_, fun other hother => ?_, fun other hother => ?_,
    fun other hother apart => ?_⟩
  · by_cases same : other = path
    · exact same ▸ inside
    · exact h.inside other (older hother same)
  · by_cases same : other = path
    · rw [same, ← h.same path inside new, absent]
    · exact h.absent other (older hother same)
  · by_cases same : other = path
    · rw [same, only path inside, put_self]
      rintro ⟨⟩
    · rw [shown other (h.inside other (older hother same)) same]
      exact h.there other (older hother same)
  · rw [shown other hother (by rintro rfl; exact apart List.mem_cons_self)]
    exact h.same other hother fun old => apart (List.mem_cons_of_mem _ old)

theorem writeAll_leaves {writes : List Write}
    (inside : ∀ path ∈ writes.flatMap Write.created, ¬aside path) (created : List String) :
    Leaves (Landed before created) (writeAll pid created writes)
      (fun _ => Landed before ((writes.flatMap Write.created).reverse ++ created))
      fun failed => Landed before failed.2 := by
  induction writes generalizing created with
  | nil => exact Meets.value fun _ h => h
  | cons write rest ih =>
    cases write with
    | dir what =>
      exact (Meets.mapErr (ensurePrivateDir_leaves (Landed before created))).bind fun _ =>
        ih inside created
    | file what path text taken =>
      have here : ¬aside path := inside path (List.mem_cons_self ..)
      have later :=
        ih (fun path hpath => inside path (List.mem_cons_of_mem _ hpath)) (path :: created)
      refine Meets.bind (M := fun _ disk => Landed before (path :: created) disk.files)
        (Meets.mapErr (Meets.each fun disk h => ?_)) fun _ =>
          later.mono (fun _ h => h) (fun _ _ h => ?_)
        fun _ _ h => h
      · refine (createNewPrivate_leaves disk.files text (Or.inl (last_append _ rfl)) here).mono ?_
          (fun _ _ made => h.cons made.1 here made.2) fun _ _ only => ?_
        · rintro _ rfl
          exact fun _ _ => rfl
        · exact ⟨h.inside, h.absent,
            fun path hpath => by rw [only path (h.inside path hpath)]; exact h.there path hpath,
            fun path hpath new => (only path hpath).trans (h.same path hpath new)⟩
      · simpa [Write.created] using h

/-- All of the writes land, or none is left. -/
theorem landing_leaves (removes : Removes) {writes : List Write}
    (inside : ∀ path ∈ writes.flatMap Write.created, ¬aside path) :
    Leaves (Only aside before) (landing pid writes)
      (fun _ => Landed before (writes.flatMap Write.created).reverse) fun _ =>
        Only aside before := by
  refine Meets.settle (P := fun disk => Only aside before disk.files)
    (Q := fun _ disk => Landed before ((writes.flatMap Write.created).reverse ++ []) disk.files)
    (E := fun failed disk => Landed before failed.2 disk.files)
    ((writeAll_leaves inside []).mono (fun _ only => ?_) (fun _ _ h => h) fun _ _ h => h)
    (fun _ => Meets.value fun _ h => ?_) ?_
  · exact ⟨by rintro _ ⟨⟩, by rintro _ ⟨⟩, by rintro _ ⟨⟩, fun path hpath _ => only path hpath⟩
  · simpa using h
  · rintro ⟨e, created⟩
    refine Meets.each fun disk h => ?_
    refine Meets.bind ((removeAll_clears removes created disk.files).mono ?_ (fun _ _ h => h)
      fun _ _ h => h.elim) fun _ => Meets.error fun _ only => ?_
    · rintro _ rfl
      exact fun _ _ => rfl
    · refine only.less (fun _ h => h) fun path hpath => ?_
      rw [cleared]
      by_cases new : path ∈ created
      · rw [if_pos new, h.absent path new]
      · rw [if_neg new]
        exact h.same path hpath new

end Landing

variable [Unicode]

/-- What is published, the state last. -/
def writes (state : ServerState) (root wgDir : String) (token : Option String) : List Write :=
  let config := Place.path root wgDir .wgConfig
  let stateFile := Place.path root wgDir .stateFile
  [.dir "create the WireGuard directory",
    .file "write the WireGuard config" config (WgConf.serverConfig state).expose
      (some (.configExists config)),
    .dir "create the state directory"] ++
  (match token with
    | some token => [.file "write the Cloudflare token" (Place.path root wgDir .cfToken) token none]
    | none => []) ++
  [.file "write the state file" stateFile state.toJsonString (some (.alreadyInitialized stateFile))]

section
variable [Faults]

def publish (pid : String) (state : ServerState) (root wgDir : String) (token : Option String) :
    Run InitError Unit :=
  landing pid (writes state root wgDir token)

/-- A failure after the certificate is in hand. -/
def finishedButUnpublished (state : ServerState) (error : InitError) : InitError :=
  if state.tls.renewable.isNone then error else .afterIssuance error

end

variable [Format] [Faults]

/-- One renewal, whose writes go through the disk. -/
def renew (state : ServerState) (paths : ServerPaths) (answers : Answers) : Run AcmeError Renewed :=
  match state.tls.renewable with
  | none => ret (.err (.notOurs state.tls.certPath))
  | some acme => do
    let text ← look fun disk => .ok (disk.files acme.accountKeyPath)
    let signed ← settled (account acme paths text answers).1
    let issued ← settled (answers.issued.mapError .order)
    commit acme.accountKeyPath signed.fresh
    save paths issued
    ret (.ok {
      certificatePath := paths.certificate
      keyPath := paths.privateKey
      zoneId := match acme.challenge with
        | .http01 => none
        | .dns01 => some answers.zoneId
      accountUrl := signed.url
      notAfter := issued.notAfter
      warnings := issued.warnings })

/-- The end of a run: the pair has to be one that can be served, and then all is published. -/
def finish (pid : String) (state : ServerState) (root wgDir : String)
    (token : Option String) (luck : Luck) :
    Run InitError ServerState := do
  let notAfter ← settled
    (luck.loaded.mapError fun detail => finishedButUnpublished state (.tls detail))
  let state := { state with tls := { state.tls with notAfter := notAfter } }
  (publish pid state root wgDir token).mapErr (finishedButUnpublished state)
  ret (.ok state)

/-- The same after a certificate is ordered, under the guard that removes what this run wrote. -/
def issueAndFinish (pid : String) (state : ServerState) (root wgDir : String)
    (token : Option String) (now : Int64) (luck : Luck) : Run InitError ServerState := do
  let candidates ← look fun disk => .ok (watching (serverPaths root) disk.files)
  (do
    let issued ← (renew state (serverPaths root) luck.answers).mapErr .acme
    finish pid (record state issued now) root wgDir token luck : Run InitError ServerState).onErr
      (removeAll candidates)

/-- `server init`, to the state of the new hub. -/
def run (args : ServerInit) (request : Init.Request) (root wgDir pid : String)
    (now : Int64) (luck : Luck) :
    Run InitError ServerState := do
  let paths := serverPaths root
  checkNotInitialized root wgDir
  let plan ← settled ((Init.plan request).mapError .plan)
  settled (luck.tools.mapError .wg)
  settled (loadGiven plan luck)
  lock root
  checkNotInitialized root wgDir
  let pointed ← settled (pointDns request.token luck)
  let keys ← settled (luck.keys.mapError .wg)
  let code ← settled (luck.code.mapError fun e => .io "read /dev/urandom" .other e)
  let cloudflare := recorded plan pointed (Place.path root wgDir .cfToken)
  let state := Init.buildState args (plan.tls paths) cloudflare keys code now
  let token := if keepsToken plan pointed then pointed.token else none
  if state.tls.renewable.isNone then finish pid state root wgDir token luck
  else issueAndFinish pid state root wgDir token now luck

omit [Unicode] [Format] [Faults] in
theorem serverPaths_inside (root : String) :
    ∀ path ∈ ordered (serverPaths root), ¬aside path := by
  intro path hpath
  simp only [ordered, List.mem_cons, List.not_mem_nil, or_false] at hpath
  rcases hpath with rfl | rfl | rfl <;> exact Place.inside root "" _

omit [Unicode] [Format] [Faults] in
theorem stateFile_not_ordered (root wgDir : String) :
    Place.path root wgDir .stateFile ∉ ordered (serverPaths root) := by
  intro h
  simp only [ordered, List.mem_cons, List.not_mem_nil, or_false] at h
  rcases h with same | same | same
  · cases @Place.path_inj root wgDir .stateFile .accountKey same
  · cases @Place.path_inj root wgDir .stateFile .certificate same
  · cases @Place.path_inj root wgDir .stateFile .privateKey same

theorem renew_leaves {state : ServerState} {root : String} {files : Files}
    (hstate : ∀ acme, state.tls.renewable = some acme →
      acme.accountKeyPath = (serverPaths root).accountKey)
    (answers : Answers) :
    Leaves (Within (ordered (serverPaths root)) files) (renew state (serverPaths root) answers)
      (fun _ => Within (ordered (serverPaths root)) files) fun _ =>
        Within (ordered (serverPaths root)) files := by
  have inside := serverPaths_inside root
  rw [renew]
  cases hacme : state.tls.renewable with
  | none => exact Meets.error fun _ h => h
  | some acme =>
    have account : acme.accountKeyPath ∈ ordered (serverPaths root) := by
      simp [ordered, hstate acme hacme]
    refine (seen_leaves fun files => files acme.accountKeyPath).bind fun text => ?_
    refine Meets.mono (P := fun disk => Within _ files disk.files) ?_ (fun _ h => h.2)
      (fun _ _ h => h) fun _ _ h => h
    refine (settled_leaves _).bind fun signed => Meets.given fun _ => ?_
    refine (settled_leaves _).bind fun issued => Meets.given fun _ => ?_
    refine (commit_leaves inside account _).bind fun _ => ?_
    refine (save_leaves inside (by simp [ordered]) (by simp [ordered]) (fun same => ?_) issued).bind
      fun _ => Meets.value fun _ h => h
    cases @Place.path_inj root "" .privateKey .certificate same

/-- A hub: its state file and what goes with it. -/
structure Hub (root wgDir : String) (token : Option String) (files : Files) : Prop where
  stateFile : files (Place.path root wgDir .stateFile) ≠ none
  wgConfig : files (Place.path root wgDir .wgConfig) ≠ none
  cfToken : token.isSome = true → files (Place.path root wgDir .cfToken) ≠ none

omit [Format] in
theorem publish_leaves (removes : Removes) (pid : String) (state : ServerState)
    (root wgDir : String) (token : Option String) {before : Files} :
    Leaves (Only aside before) (publish pid state root wgDir token) (fun _ => Hub root wgDir token)
      fun _ => Only aside before := by
  have inside : ∀ path ∈ (writes state root wgDir token).flatMap Write.created, ¬aside path := by
    intro path hpath
    cases token <;> simp [writes, Write.created] at hpath
    · rcases hpath with rfl | rfl <;> exact Place.inside root wgDir _
    · rcases hpath with rfl | rfl | rfl <;> exact Place.inside root wgDir _
  refine (landing_leaves removes inside).mono (fun _ h => h) (fun _ _ h => ?_) fun _ _ h => h
  refine ⟨h.there _ ?_, h.there _ ?_, fun some => h.there _ ?_⟩
  · cases token <;> simp [writes, Write.created]
  · cases token <;> simp [writes, Write.created]
  · cases token with
    | none => cases some
    | some token => simp [writes, Write.created]

omit [Format] in
theorem finish_leaves (removes : Removes) (pid : String) (state : ServerState) (root wgDir : String)
    (token : Option String) (luck : Luck) {before : Files} :
    Leaves (Only aside before) (finish pid state root wgDir token luck)
      (fun _ => Hub root wgDir token)
      fun _ => Only aside before :=
  (settled_leaves _).bind fun _ => Meets.given fun _ =>
    (Meets.mapErr (publish_leaves removes pid _ root wgDir token)).bind fun _ =>
      Meets.value fun _ h => h

/-- Every file is there that was there before, and no other; the state file is as it was. -/
def Restored (root wgDir : String) (before files : Files) : Prop :=
  (∀ place : Place, files (place.path root wgDir) = none ↔ before (place.path root wgDir) = none) ∧
    files (Place.path root wgDir .stateFile) = before (Place.path root wgDir .stateFile)

omit [Unicode] [Format] [Faults] in
theorem restored_of_only {root wgDir : String} {before files : Files}
    (h : Only aside before files) :
    Restored root wgDir before files :=
  ⟨fun place => by rw [h _ (Place.inside root wgDir place)], h _ (Place.inside root wgDir _)⟩

omit [Unicode] [Format] [Faults] in
/-- What the guard removes is what was not there before. -/
theorem Within.restored {root wgDir : String} {before found files : Files}
    (seen : Only aside before found) (h : Within (ordered (serverPaths root)) before files) :
    Restored root wgDir before (cleared (watching (serverPaths root) found) files) := by
  have watched : ∀ path, path ∈ watching (serverPaths root) found ↔
      path ∈ ordered (serverPaths root) ∧ before path = none := by
    intro path
    rw [watching, List.mem_filter]
    refine and_congr_right fun hpath => ?_
    rw [Option.isNone_iff_eq_none, seen path (serverPaths_inside root path hpath)]
  have other : ∀ path, ¬aside path → path ∉ ordered (serverPaths root) →
      cleared (watching (serverPaths root) found) files path = before path := by
    intro path hpath apart
    rw [cleared, if_neg fun h => apart ((watched path).mp h).1]
    exact h.others path hpath apart
  refine ⟨fun place => ?_, other _ (Place.inside root wgDir _) (stateFile_not_ordered root wgDir)⟩
  by_cases hpath : place.path root wgDir ∈ ordered (serverPaths root)
  · rw [cleared]
    by_cases absent : before (place.path root wgDir) = none
    · rw [if_pos ((watched _).mpr ⟨hpath, absent⟩), absent]
    · rw [if_neg fun h => absent ((watched _).mp h).2]
      exact iff_of_false (h.kept _ hpath absent) absent
  · rw [other _ (Place.inside root wgDir place) hpath]

omit [Unicode] [Format] [Faults] in
theorem Restored.only {root wgDir : String} {before files files' : Files}
    (h : Restored root wgDir before files) (only : Only aside files files') :
    Restored root wgDir before files' :=
  ⟨fun place => by rw [only _ (Place.inside root wgDir place)]; exact h.1 place,
    (only _ (Place.inside root wgDir _)).trans h.2⟩

theorem issueAndFinish_leaves (removes : Removes) (pid : String) {state : ServerState}
    {root : String} (wgDir : String) (token : Option String) (now : Int64)
    (luck : Luck) {before : Files}
    (hstate : ∀ acme, state.tls.renewable = some acme →
      acme.accountKeyPath = (serverPaths root).accountKey) :
    Leaves (Only aside before) (issueAndFinish pid state root wgDir token now luck)
      (fun _ => Hub root wgDir token) fun _ => Restored root wgDir before := by
  refine ((seen_leaves (watching (serverPaths root))).mono (fun _ h => h) (fun _ _ h => h)
    fun _ _ only => restored_of_only only).bind fun candidates => ?_
  refine Meets.each fun disk h => ?_
  obtain ⟨rfl, seen⟩ := h
  have inside := serverPaths_inside root
  have body : Leaves (Within (ordered (serverPaths root)) before)
      (do
        let issued ← (renew state (serverPaths root) luck.answers).mapErr .acme
        finish pid (record state issued now) root wgDir token luck : Run InitError ServerState)
      (fun _ => Hub root wgDir token) fun _ => Within (ordered (serverPaths root)) before := by
    refine (Meets.mapErr (renew_leaves hstate luck.answers)).bind fun issued => ?_
    refine Meets.each fun disk h => (finish_leaves removes pid _ root wgDir token luck).mono ?_
      (fun _ _ hub => hub) fun _ _ only => h.only only inside
    rintro _ rfl
    exact fun _ _ => rfl
  have swept : Leaves (Within (ordered (serverPaths root)) before)
      (removeAll (watching (serverPaths root) disk.files)) (fun _ => Restored root wgDir before)
      fun _ => Restored root wgDir before := by
    refine Meets.each fun later h => (removeAll_clears removes _ later.files).mono ?_
      (fun _ _ only => (h.restored seen).only only) fun _ _ h => h.elim
    rintro _ rfl
    exact fun _ _ => rfl
  refine Meets.onErr (body.mono ?_ (fun _ _ hub => hub) fun _ _ h => h) fun _ => swept
  rintro _ rfl
  exact ⟨fun path hpath _ => seen path hpath,
    fun path hpath there => seen path (inside path hpath) ▸ there⟩

omit [Format] [Faults] in
theorem buildState_account {root : String} {plan : Init.Plan} {args : ServerInit}
    {cloudflare : Option Cloudflare} {keys : PrivateKey × String} {code : JoinCode}
    {now : Int64} {acme : Acme}
    (h : (Init.buildState args (plan.tls (serverPaths root)) cloudflare keys code
      now).tls.renewable = some acme) :
    acme.accountKeyPath = (serverPaths root).accountKey := by
  cases plan with
  | manual cert key => cases h
  | acme directory challenge contact staging =>
    cases h
    rfl

/-- What is known of a run that came to a hub. -/
structure Made (root wgDir : String) (request : Init.Request) (luck : Luck)
    (before files : Files) : Prop where
  stateFile : files (Place.path root wgDir .stateFile) ≠ none
  wgConfig : files (Place.path root wgDir .wgConfig) ≠ none
  cfToken : ∀ plan pointed, Init.plan request = .ok plan →
    pointDns request.token luck = .ok pointed →
    keepsToken plan pointed = true → files (Place.path root wgDir .cfToken) ≠ none
  new : before (Place.path root wgDir .stateFile) = none

omit [Unicode] [Format] [Faults] in
/-- A zone is looked up with a token, which is at hand wherever there is one. -/
theorem pointDns_token {found : Bool} {luck : Luck} {pointed : Pointed}
    (h : pointDns found luck = .ok pointed) (zone : pointed.zoneId.isSome = true) :
    pointed.token.isSome = true := by
  rw [pointDns] at h
  split at h
  · cases htoken : luck.token with
    | error e => rw [htoken] at h; cases h
    | ok token =>
      cases hzone : luck.zone with
      | error e => rw [htoken, hzone] at h; cases h
      | ok zoneId =>
        cases hrecord : luck.record with
        | error e => rw [htoken, hzone, hrecord] at h; cases h
        | ok record =>
          rw [htoken, hzone, hrecord] at h
          cases h
          rfl
  · cases h
    cases zone

theorem run_leaves (removes : Removes) (args : ServerInit) (request : Init.Request)
    (root wgDir pid : String) (now : Int64) (luck : Luck) (before : Files) :
    Leaves (Only aside before) (run args request root wgDir pid now luck)
      (fun _ => Made root wgDir request luck before) fun _ => Restored root wgDir before := by
  have early : ∀ {α : Type} {p : Run InitError α} {good : α → Disk → Prop},
      Meets (fun disk => Only aside before disk.files) p
        good (fun _ disk => Only aside before disk.files) →
        Meets (fun disk => Only aside before disk.files) p good
          fun _ disk => Restored root wgDir before disk.files :=
    fun h => h.mono (fun _ h => h) (fun _ _ h => h) fun _ _ only => restored_of_only only
  refine (early ((checkNotInitialized_leaves root wgDir).mono (fun _ h => h) (fun _ _ h => h.1)
    fun _ _ h => h)).bind fun _ => ?_
  refine (early (settled_leaves _)).bind fun plan => Meets.given fun hplan => ?_
  refine (early (settled_leaves _)).bind fun _ => Meets.given fun _ => ?_
  refine (early (settled_leaves _)).bind fun _ => Meets.given fun _ => ?_
  refine (early (lock_leaves root)).bind fun _ => ?_
  refine (early (checkNotInitialized_leaves root wgDir)).bind fun _ => ?_
  refine Meets.mono (P := fun disk => before (Place.path root wgDir .stateFile) = none ∧
    Only aside before disk.files) (Meets.given fun new => ?_)
    (fun _ h => ⟨(h.1 _ (Place.inside root wgDir _)).symm.trans h.2, h.1⟩)
      (fun _ _ h => h) fun _ _ h => h
  refine (early (settled_leaves _)).bind fun pointed => Meets.given fun hpointed => ?_
  refine (early (settled_leaves _)).bind fun keys => Meets.given fun _ => ?_
  refine (early (settled_leaves _)).bind fun code => Meets.given fun _ => ?_
  generalize htoken : (if keepsToken plan pointed then pointed.token else none) = token
  have hub : ∀ {files : Files}, Hub root wgDir token files →
      Made root wgDir request luck before files := by
    intro files hub
    refine ⟨hub.stateFile, hub.wgConfig,
      fun plan' pointed' hplan' hpointed' keeps => hub.cfToken ?_, new⟩
    cases hplan'.symm.trans (Outcome.mapError_eq_ok hplan)
    cases hpointed'.symm.trans hpointed
    rw [← htoken, if_pos keeps]
    refine pointDns_token hpointed ?_
    rw [keepsToken, Bool.and_eq_true] at keeps
    exact keeps.2
  simp only
  split
  · exact early ((finish_leaves removes pid _ root wgDir token luck).mono (fun _ h => h)
      (fun _ _ h => hub h)
      fun _ _ h => h)
  · exact (issueAndFinish_leaves removes pid wgDir token now luck fun acme hacme =>
      buildState_account hacme).mono
      (fun _ h => h) (fun _ _ h => hub h) fun _ _ h => h

/-- `server init` makes a hub, or leaves none of the files it wrote and takes none away,
whatever was there before and whichever call fails. -/
theorem run_hub_or_nothing (args : ServerInit) (request : Init.Request)
    (root wgDir pid : String) (now : Int64) (luck : Luck) (disk : Disk) (removes : Removes) :
    let place := Place.path root wgDir
    let ended := (run args request root wgDir pid now luck).exec disk
    (∀ e, ended.1 = .err e → ∀ file, ended.2.files (place file) = none ↔
      disk.files (place file) = none) ∧
    (disk.files (place .stateFile) = none ∧ ended.2.files (place .stateFile) ≠ none ↔
      ∃ state, ended.1 = .ok state) ∧
    (disk.files (place .stateFile) ≠ none → ended.2.files (place .stateFile) =
      disk.files (place .stateFile)) ∧
    ∀ state, ended.1 = .ok state → ended.2.files (place .wgConfig) ≠ none ∧
      ∀ plan pointed, Init.plan request = .ok plan → pointDns request.token luck = .ok pointed →
        keepsToken plan pointed = true → ended.2.files (place .cfToken) ≠ none := by
  have ends := run_leaves removes args request root wgDir pid now luck disk.files
    disk fun _ _ => rfl
  revert ends
  generalize (run args request root wgDir pid now luck).exec disk = ended
  rintro (made | restored)
  · refine ⟨?_, ?_, fun there => absurd made.new there, ?_⟩
    · rintro _ ⟨⟩
    · exact ⟨fun _ => ⟨_, rfl⟩, fun _ => ⟨made.new, made.stateFile⟩⟩
    · exact fun _ _ => ⟨made.wgConfig, made.cfToken⟩
  · refine ⟨fun _ _ => restored.1, ⟨fun h => absurd ?_ h.2, ?_⟩, fun _ => restored.2, ?_⟩
    · exact restored.2.trans h.1
    · rintro ⟨_, ⟨⟩⟩
    · rintro _ ⟨⟩

/-- A hub that is given its certificate. -/
def sampleRequest : Init.Request := ⟨some "/c.pem", some "/k.pem", none, false, none, false⟩

def sampleLuck : Luck where
  tools := .ok ()
  token := .error ""
  zone := .error ""
  record := .error ""
  keys := .ok (⟨"a="⟩, "b=")
  code := .ok Init.sampleCode
  answers := ⟨.ok (), .error "", .error "", .error "", .error "", "", .ok (), .ok ()⟩
  loaded := .ok none

def sampleArgs : ServerInit := ⟨"net.example.com", ⟨⟨10, 77, 0, 0⟩, rfl⟩, 51820, 443⟩

@[reducible] def noRoom : Faults :=
  ⟨fun _ op => if op = .write "/r/state.json.7.tmp" then some ⟨"no space", 0⟩ else none⟩

omit [Unicode] [Format] [Faults] in
/-- There is no room for the state file: the config that was written before it is gone. -/
theorem run_hub_or_nothing_sample :
    letI := asciiTables
    letI := jsonFormat
    letI := noRoom
    let ended := (run sampleArgs sampleRequest "/r" "/w" "7" 0 sampleLuck).exec
      (Disk.holding fun _ => none)
    ended.2.files (Place.path "/r" "/w" .wgConfig) = none := by
  have failed :
      letI := asciiTables
      letI := jsonFormat
      letI := noRoom
      ((run sampleArgs sampleRequest "/r" "/w" "7" 0 sampleLuck).exec
        (Disk.holding fun _ => none)).1 =
        .err (.io "write the state file" .other "no space") := by decide +kernel
  have removes : @Removes noRoom := fun _ _ => rfl
  have kept :=
    (@run_hub_or_nothing asciiTables (@jsonFormat asciiTables) noRoom sampleArgs sampleRequest
    "/r" "/w" "7" 0 sampleLuck (Disk.holding fun _ => none) removes).1
  exact (kept _ failed .wgConfig).mpr rfl

end InitFiles
