import Anago.AccountOnDisk
import Anago.PathText
import Anago.RenewSettings

/-!
# The files a failed `server renew` puts back

Two guards hold what was there before: one the bytes of the files an issuance replaces, one
the text of a kept token. Each file is told by the components of its path, and a run is
followed to its end through every point where it can fail.
-/

open StdText AcmeClient Handlers Utf8Text Renew PathText

/-- Paths under the server's state directory. -/
def AcmeClient.ServerPaths.under (root : String) : ServerPaths where
  certificate := join (join root "tls") "fullchain.pem"
  privateKey := join (join root "tls") "privkey.pem"
  accountKey := join (join root "tls") "account.key"

/-- `ServerPaths::cf_token`. -/
def cfTokenUnder (root : String) : String := join root "cf-token"

namespace RenewFiles

abbrev Bytes := List UInt8

/-- The files, and those a run wrote to or removed. -/
structure Files where
  content : Spot → Option Bytes
  touched : List Spot

/-- Writes a file, or removes it. -/
def Files.put (files : Files) (path : String) (content : Option Bytes) : Files :=
  ⟨Function.update files.content (components path) content, files.touched ++ [components path]⟩

/-- Where an issuance under these settings keeps its account. -/
def accountPath (tls : Tls) (paths : ServerPaths) : String :=
  match tls.renewable with
  | some acme => acme.accountKeyPath
  | none => paths.accountKey

/-- The files an issuance replaces, as they were before it ran. -/
structure Artifacts where
  before : List (String × Option Bytes)
  keep : Bool

namespace Artifacts

/-- The paths that are watched, each once. -/
def watched (tls : Tls) (paths : ServerPaths) : List String :=
  [paths.certificate, paths.privateKey, accountPath tls paths].foldl
    (fun watched path => if watched.any (samePath path) then watched else watched ++ [path]) []

/-- A file that cannot be read stops the run before the CA is asked. -/
def watching (tls : Tls) (paths : ServerPaths) (files : Files)
    (unreadable : String → Option String) :
    Except RenewError Artifacts :=
  match (watched tls paths).find? fun path => (unreadable path).isSome with
  | some path => .error (.unreadable path ((unreadable path).getD ""))
  | none => .ok ⟨(watched tls paths).map fun path => (path, files.content (components path)), false⟩

def putBack (files : Files) (file : String × Option Bytes) : Files :=
  if files.content (components file.1) = file.2 then files else files.put file.1 file.2

def drop (artifacts : Artifacts) (files : Files) : Files :=
  if artifacts.keep then files else artifacts.before.foldl putBack files

end Artifacts

/-- A token file this run put in place, or the operator's own, which is never undone. -/
structure Kept where
  path : String
  undo : Option (Option String)
  keep : Bool

namespace Kept

def theirs (path : String) : Kept := ⟨path, none, false⟩

def written (path : String) (previous : Option String) : Kept := ⟨path, some previous, false⟩

def drop (kept : Kept) (files : Files) : Files :=
  if kept.keep then files
  else
    match kept.undo with
    | none => files
    | some (some previous) => files.put kept.path (some (asBytes previous))
    | some none => files.put kept.path none

end Kept

/-- How a run turns out where it is not up to it. -/
structure Luck where
  readable : Bool
  issuing : Except String Bool
  pushed : Except RenewError Pushed
  /-- The text of the token, where its source can be read. -/
  token : Except RenewError String
  zone : Except RenewError String
  /-- Whether the token file that is there can be read at all. -/
  tokenReadable : Bool
  tokenWritten : Except String Unit
  /-- The files that are there and cannot be read. -/
  unreadable : String → Option String
  answers : Answers
  /-- What is left of the key when the pair could not be written, nor all of it be undone. -/
  torn : Option Bytes
  /-- What others put into the state file before it is read again. -/
  meanwhile : Option String
  locked : Bool
  loaded : Except String (Option Int64)
  written : Bool
  staleRemoved : Bool

/-- `read_to_string(..).ok()`. -/
def readToString (readable : Bool) (content : Option Bytes) : Option String :=
  if readable then content.bind fromUtf8 else none

/-- Puts a token given on the command line where a renewal will find it. -/
def storeToken (cfToken : String) (source : Cfapi.Source) (text : String)
    (files : Files) (luck : Luck) :
    Except RenewError (Kept × Files) :=
  match source with
  | .file path => .ok (.theirs path, files)
  | _ =>
    let previous := readToString luck.tokenReadable (files.content (components cfToken))
    match luck.tokenWritten with
    | .error detail => .error (.state detail)
    | .ok () => .ok (.written cfToken previous, files.put cfToken (some (asBytes text)))

/-- What was decided about the token. -/
structure Settled where
  keeping : Keeping
  kept : Option Kept
  stale : Option String

section
variable [Unicode]

/-- `settle`, with the token it was given. -/
def settle (state : ServerState) (cfToken : String) (token : Option (Cfapi.Source × String))
    (disposition : Disposition) (files : Files) (luck : Luck) :
    Except RenewError (Settled × Files) :=
  match disposition with
  | .unchanged => .ok (⟨.unchanged, none, none⟩, files)
  | .forget =>
    -- only a file at anago's own place
    .ok (⟨.forget, none, (state.cloudflare.bind Cloudflare.tokenPath).filter
      (samePath · cfToken)⟩, files)
  | .keep =>
    match token with
    | none => .error .noTokenForDns01
    | some (source, text) =>
      match luck.zone with
      | .error e => .error e
      | .ok zoneId =>
        (storeToken cfToken source text files luck).map fun (kept, files) =>
          (⟨.token zoneId kept.path, some kept, none⟩, files)

/-- The token a run can use, where it has a use for one. -/
def readToken (state : ServerState) (asked : ServerRenew) (env : Option String)
    (disposition : Disposition) (luck : Luck) : Except RenewError
    (Option (Cfapi.Source × String)) :=
  match disposition with
  | .keep =>
    match tokenSource state asked env with
    | .error e => .error (.cloudflare e.display)
    | .ok none => .ok none
    | .ok (some source) => luck.token.map fun text => some (source, text)
  | _ => .ok none

variable [Format]

/-- One issuance: what it comes to, and the files it leaves. -/
def issue (wanted : ServerState) (paths : ServerPaths) (files : Files) (luck : Luck) :
    Except AcmeError Renewed × Files :=
  let path := accountPath wanted.tls paths
  match (files.content (components path)).map fromUtf8 with
  | some none => (.error (.read path "stream did not contain valid UTF-8"), files)
  | text =>
    let attempt := AcmeClient.renew wanted paths ⟨text.join, none, none⟩ luck.answers
    let files :=
      if attempt.disk.account = text.join then files
      else files.put path (attempt.disk.account.map asBytes)
    match attempt.result with
    | .ok issued =>
      let files := files.put paths.privateKey (attempt.disk.key.map asBytes)
      (.ok issued, files.put paths.certificate (attempt.disk.certificate.map asBytes))
    | .error (.write written detail) =>
      -- the half of the pair that was published first
      let files :=
        if written = paths.privateKey ++ " and " ++ paths.certificate then
          luck.torn.elim files fun torn => files.put paths.privateKey (some torn)
        else files
      (.error (.write written detail), files)
    | .error e => (.error e, files)

/-- The middle of a run. On failure what the issuance replaced is put back. -/
def order (state : ServerState) (plan : Plan) (asked : ServerRenew)
    (paths : ServerPaths) (now : Int64) (keeping : Keeping) (files : Files) (luck : Luck) :
    Except RenewError (Option (Artifacts × Renewed)) × Files :=
  match plan with
  | .reissue _ =>
    let wanted := apply state asked paths keeping
    match Artifacts.watching wanted.tls paths files luck.unreadable with
    | .error e => (.error e, files)
    | .ok artifacts =>
      match issue wanted paths files luck with
      | (.error e, files) => (.error (.acme e state.tls.notAfter now), artifacts.drop files)
      | (.ok issued, files) => (.ok (some (artifacts, issued)), files)
  | _ => (.ok none, files)

/-- What a run comes to, the state file and the others. -/
structure Outcome where
  result : Except RenewError Plan
  file : String
  files : Files

/-- The guards as they are dropped, the later first. -/
def dropGuards (artifacts : Option Artifacts) (kept : Option Kept) (files : Files) : Files :=
  let files := artifacts.elim files (·.drop files)
  kept.elim files (·.drop files)

/-- The last thing is to remove a token that the state has stopped naming. -/
def sweep (stale : Option String) (luck : Luck) (files : Files) : Files :=
  match stale with
  | none => files
  | some path => if luck.staleRemoved then files.put path none else files

/-- The end of a run: lock, compare, edit, commit, and then keep what was written. -/
def finish (file : String) (witness : Tls) (plan : Plan) (asked : ServerRenew) (paths : ServerPaths)
    (now : Int64) (settled : Settled) (ordered : Option (Artifacts × Renewed)) (files : Files)
    (luck : Luck) : Outcome :=
  let artifacts := ordered.map Prod.fst
  let undone := dropGuards artifacts settled.kept files
  match lock luck.locked file with
  | none => ⟨.error (.state "state"), file, undone⟩
  | some found =>
    match conclude found witness asked paths now
      ⟨settled.keeping, ordered.map Prod.snd⟩ luck.loaded with
    | .error e => ⟨.error e, file, undone⟩
    | .ok state =>
      if luck.written then
        let artifacts := artifacts.map fun artifacts => { artifacts with keep := true }
        let kept := settled.kept.map fun kept => { kept with keep := true }
        ⟨.ok plan, state.toJsonString, sweep settled.stale luck (dropGuards artifacts kept files)⟩
      else ⟨.error (.state "state"), file, undone⟩

/-- A run from where the token is settled. -/
def carryOut (file : String) (state : ServerState) (plan : Plan) (asked : ServerRenew)
    (paths : ServerPaths) (now : Int64) (settled : Settled) (files : Files)
    (luck : Luck) : Outcome :=
  match order state plan asked paths now settled.keeping files luck with
  | (.error e, files) => ⟨.error e, file, dropGuards none settled.kept files⟩
  | (.ok ordered, files) => finish file state.tls plan asked paths now settled ordered files luck

/-- `server renew`, with the files told apart by their paths. -/
def run (file : String) (files : Files) (asked : ServerRenew) (env : Option String)
    (paths : ServerPaths) (cfToken : String) (now : Int64) (luck : Luck) : Outcome :=
  match lock luck.readable file with
  | none => ⟨.error (.state "state"), file, files⟩
  | some state =>
    match Renew.plan state asked now with
    | .error e => ⟨.error e, file, files⟩
    | .ok (.notDue dueAt) => ⟨.ok (.notDue dueAt), file, files⟩
    | .ok plan =>
      match luck.issuing with
      | .error detail => ⟨.error (.state detail), file, files⟩
      | .ok false => ⟨.error .busy, file, files⟩
      | .ok true =>
        let later := luck.meanwhile.getD file
        if plan = .pushRecord then
          match luck.pushed with
          | .error e => ⟨.error e, later, files⟩
          | .ok pushed =>
            match lock luck.locked later with
            | none => ⟨.error (.state "state"), later, files⟩
            | some found =>
              if luck.written then ⟨.ok plan, (remember found pushed).toJsonString, files⟩
              else ⟨.error (.state "state"), later, files⟩
        else
          let disposition := disposition state.tls asked
          match readToken state asked env disposition luck with
          | .error e => ⟨.error e, later, files⟩
          | .ok token =>
            match settle state cfToken token disposition files luck with
            | .error e => ⟨.error e, later, files⟩
            | .ok (settled, files) => carryOut later state plan asked paths now settled files luck

end

/-- Nothing but `spots` is different, or was touched. -/
structure Within (spots : List Spot) (files files' : Files) : Prop where
  content : ∀ spot ∉ spots, files'.content spot = files.content spot
  touched : ∀ spot ∈ files'.touched, spot ∈ files.touched ∨ spot ∈ spots
  still : ∀ spot ∈ files.touched, spot ∈ files'.touched

namespace Within

variable {spots : List Spot} {files files' files'' : Files}

theorem refl (spots : List Spot) (files : Files) : Within spots files files :=
  ⟨fun _ _ => rfl, fun _ mem => Or.inl mem, fun _ mem => mem⟩

theorem trans (h : Within spots files files') (h' : Within spots files' files'') :
    Within spots files files'' where
  content := fun spot other => (h'.content spot other).trans (h.content spot other)
  touched := by
    intro spot mem
    rcases h'.touched spot mem with mem | mem
    · exact h.touched spot mem
    · exact Or.inr mem
  still := fun spot mem => h'.still spot (h.still spot mem)

theorem put {path : String} (mem : components path ∈ spots) (files : Files)
    (content : Option Bytes) :
    Within spots files (files.put path content) where
  content := by
    intro other different
    have ne : other ≠ components path := by
      rintro rfl
      exact different mem
    exact Function.update_of_ne ne content files.content
  touched := by
    intro other touched
    rcases List.mem_append.mp touched with touched | touched
    · exact Or.inl touched
    · cases List.mem_singleton.mp touched
      exact Or.inr mem
  still := fun _ mem => List.mem_append_left _ mem

/-- Elsewhere nothing more is touched. -/
theorem apart (h : Within spots files files') {spot : Spot} (other : spot ∉ spots) :
    spot ∈ files'.touched ↔ spot ∈ files.touched :=
  ⟨fun mem => (h.touched spot mem).resolve_right other, h.still spot⟩

end Within

namespace Artifacts

theorem putBack_within {spots : List Spot} (files : Files) {file : String × Option Bytes}
    (mem : components file.1 ∈ spots) : Within spots files (putBack files file) := by
  rw [putBack]
  split
  · exact .refl spots files
  · exact .put mem files file.2

theorem putBack_content (files : Files) (file : String × Option Bytes) :
    (putBack files file).content = Function.update files.content (components file.1) file.2 := by
  rw [putBack]
  split
  · next same => rw [← same, Function.update_eq_self]
  · rfl

/-- What is put back, path by path. -/
theorem foldl_putBack {before : Spot → Option Bytes} {known : List Spot} :
    ∀ (paths : List String) (files : Files), (∀ path ∈ paths, components path ∈ known) →
      let after := (paths.map fun path => (path, before (components path))).foldl putBack files
      Within known files after ∧ ∀ spot, after.content spot =
        if spot ∈ paths.map components then before spot else files.content spot := by
  intro paths
  induction paths with
  | nil => exact fun files _ => ⟨.refl known files, fun spot => rfl⟩
  | cons head paths ih =>
    intro files mem
    let first := putBack files (head, before (components head))
    obtain ⟨within, content⟩ := ih first fun path other =>
      mem path (List.mem_cons_of_mem head other)
    have here : Within known files first := putBack_within files (mem head List.mem_cons_self)
    refine ⟨here.trans within, fun spot => ?_⟩
    rw [List.map_cons, List.foldl_cons, content spot, putBack_content, List.map_cons]
    by_cases later : spot ∈ paths.map components
    · rw [if_pos later, if_pos (List.mem_cons_of_mem _ later)]
    · rw [if_neg later]
      by_cases same : spot = components head
      · subst same
        rw [if_pos List.mem_cons_self]
        exact Function.update_self _ _ files.content
      · rw [if_neg (by rw [List.mem_cons]; exact not_or.mpr ⟨same, later⟩)]
        exact Function.update_of_ne same _ _

/-- The files of an issuance. -/
def spots (tls : Tls) (paths : ServerPaths) : List Spot :=
  [components paths.certificate, components paths.privateKey, components (accountPath tls paths)]

/-- Every file is watched, by one of the paths to it. -/
theorem mem_watched (tls : Tls) (paths : ServerPaths) (spot : Spot) :
    spot ∈ (watched tls paths).map components ↔ spot ∈ spots tls paths := by
  have loop : ∀ paths known : List String,
      spot ∈ (paths.foldl (fun watched path => if watched.any (samePath path) then watched
        else watched ++ [path])
        known).map components ↔ spot ∈ known.map components ∨ spot ∈ paths.map components := by
    intro paths
    induction paths with
    | nil => exact fun known => (or_iff_left List.not_mem_nil).symm
    | cons path paths ih =>
      intro known
      rw [List.foldl_cons, ih, List.map_cons, List.mem_cons]
      split
      · next again =>
        obtain ⟨other, mem, same⟩ := List.any_eq_true.mp again
        have there : components path ∈ known.map components := by
          rw [samePath_iff.mp same]
          exact List.mem_map_of_mem mem
        constructor
        · exact fun h => h.imp id Or.inr
        · rintro (mem | rfl | mem)
          · exact Or.inl mem
          · exact Or.inl there
          · exact Or.inr mem
      · rw [List.map_append, List.mem_append, List.map_singleton, List.mem_singleton, or_assoc]
  exact (loop _ []).trans (or_iff_right List.not_mem_nil)

/-- What an issuance did to its files is undone. -/
theorem drop_restores {tls : Tls} {serverPaths : ServerPaths} {files files' : Files}
    {unreadable : String → Option String} {artifacts : Artifacts}
    (h : watching tls serverPaths files unreadable = .ok artifacts)
    (within : Within (spots tls serverPaths) files files') :
    (artifacts.drop files').content = files.content ∧
      Within (spots tls serverPaths) files (artifacts.drop files') := by
  rw [watching] at h
  split at h
  · cases h
  cases h
  obtain ⟨undone, content⟩ := @foldl_putBack files.content (spots tls serverPaths)
    (watched tls serverPaths) files' fun path mem =>
      (mem_watched tls serverPaths (components path)).mp (List.mem_map_of_mem mem)
  simp only [drop, Bool.false_eq_true, if_false]
  refine ⟨funext fun spot => ?_, within.trans undone⟩
  rw [content spot]
  split
  · rfl
  · next other =>
    exact within.content spot fun known => other ((mem_watched tls serverPaths spot).mpr known)

end Artifacts

section
variable [Unicode] [Format]

theorem issue_within (wanted : ServerState) (serverPaths : ServerPaths)
    (files : Files) (luck : Luck) :
    Within (Artifacts.spots wanted.tls serverPaths) files
      (issue wanted serverPaths files luck).2 := by
  have certificate : components serverPaths.certificate ∈
      Artifacts.spots wanted.tls serverPaths := by
    simp [Artifacts.spots]
  have key : components serverPaths.privateKey ∈ Artifacts.spots wanted.tls serverPaths := by
    simp [Artifacts.spots]
  have account : components (accountPath wanted.tls serverPaths) ∈
      Artifacts.spots wanted.tls serverPaths := by
    simp [Artifacts.spots]
  rw [issue]
  simp only
  split
  · exact .refl _ files
  have first : ∀ text written : Option String, Within (Artifacts.spots wanted.tls serverPaths) files
      (if written = text then files
        else files.put (accountPath wanted.tls serverPaths) (written.map asBytes)) := by
    intro text written
    split
    · exact .refl _ files
    · exact .put account files _
  split
  · exact ((first _ _).trans (.put key _ _)).trans (.put certificate _ _)
  · split
    · cases luck.torn with
      | none => exact first _ _
      | some torn => exact (first _ _).trans (.put key _ _)
    · exact first _ _
  · exact first _ _

end

theorem dropGuards_kept (artifacts : Option Artifacts) (kept : Option Kept) (files : Files) :
    dropGuards (artifacts.map fun artifacts => { artifacts with keep := true })
      (kept.map fun kept => { kept with keep := true }) files = files := by
  cases artifacts <;> cases kept <;> rfl

theorem Kept.drop_congr (kept : Kept) {files files' : Files} (h : files'.content = files.content) :
    (kept.drop files').content = (kept.drop files).content := by
  rw [Kept.drop.eq_def, Kept.drop.eq_def kept files]
  split
  · exact h
  split
  · exact h
  · simp only [Files.put, h]
  · simp only [Files.put, h]

theorem dropGuards_congr (kept : Option Kept) {files files' : Files}
    (h : files'.content = files.content) :
    (dropGuards none kept files').content = (dropGuards none kept files).content := by
  cases kept with
  | none => exact h
  | some kept => exact kept.drop_congr h

section
variable [Unicode] [Format]

/-- The run stores a token of this text, so it was given one and has a use for it. -/
def Stores (file : String) (asked : ServerRenew) (env : Option String) (now : Int64) (luck : Luck)
    (text : String) : Prop :=
  ∃ state plan source, lock luck.readable file = some state ∧
    Renew.plan state asked now = .ok plan ∧
    (plan ≠ .pushRecord ∧ ∀ dueAt, plan ≠ .notDue dueAt) ∧ luck.issuing = .ok true ∧
      readToken state asked env (disposition state.tls asked) luck = .ok (some (source, text)) ∧
        (∀ path, source ≠ .file path) ∧ (∃ zoneId, luck.zone = .ok zoneId) ∧
        luck.tokenWritten = .ok ()

/-- Where the state says the token is kept. -/
abbrev tokenAt (state : ServerState) : Option String := state.cloudflare.bind Cloudflare.tokenPath

/-- The run stops a renewal over DNS-01 whose token is recorded at anago's own place, and could
remove what is there. -/
def Discards (file : String) (asked : ServerRenew) (cfToken : String) (now : Int64)
    (luck : Luck) : Prop :=
  ∃ state plan path, lock luck.readable file = some state ∧ Renew.plan state asked now = .ok plan ∧
    (plan ≠ .pushRecord ∧ ∀ dueAt, plan ≠ .notDue dueAt) ∧ disposition state.tls asked = .forget ∧
      tokenAt state = some path ∧ components path = components cfToken ∧ luck.staleRemoved = true

/-- What settling the token comes to. -/
inductive Placed (stores : String → Prop) (discards : Prop) (files : Files) (cfToken : String)
    (luck : Luck) : Settled → Files → Prop
  | unkept {keeping : Keeping} {stale : Option String} : (∀ text, ¬stores text) →
    (∀ path, stale = some path → components path = components cfToken ∧ keeping = .forget) →
    (discards ↔ stale.isSome = true ∧ luck.staleRemoved = true) →
    Placed stores discards files cfToken luck ⟨keeping, none, stale⟩ files
  | theirs {zoneId path : String} : (∀ text, ¬stores text) → ¬discards →
    Placed stores discards files cfToken luck ⟨.token zoneId path, some (.theirs path), none⟩ files
  | written {zoneId text : String} : stores text → ¬discards →
    Placed stores discards files cfToken luck
      ⟨.token zoneId cfToken,
        some
          (.written cfToken (readToString luck.tokenReadable (files.content (components cfToken)))),
          none⟩
      (files.put cfToken (some (asBytes text)))

/-- All a run can come to. -/
inductive Ran (file : String) (files : Files) (asked : ServerRenew) (env : Option String)
    (paths : ServerPaths) (cfToken : String) (now : Int64) (luck : Luck) : Outcome → Prop
  | idle {result : Except RenewError Plan} {file' : String} :
    (∀ text, ¬Stores file asked env now luck text) →
    (∀ e, result = .error e → file' = file ∨ file' = luck.meanwhile.getD file) →
    (∀ plan, result = .ok plan → (∀ why, plan ≠ .reissue why) ∧
      ¬Discards file asked cfToken now luck ∧
      ∃ next, ServerState.parse file' = .ok next) →
    Ran file files asked env paths cfToken now luck ⟨result, file', files⟩
  | begun {state : ServerState} {plan : Plan} {settled : Settled} {files' : Files} :
    lock luck.readable file = some state → Renew.plan state asked now = .ok plan →
    plan ≠ .pushRecord ∧ (∀ dueAt, plan ≠ .notDue dueAt) →
    Placed (Stores file asked env now luck) (Discards file asked cfToken now luck)
      files cfToken luck
      settled files' →
    Ran file files asked env paths cfToken now luck
      (carryOut (luck.meanwhile.getD file) state plan asked paths now settled files' luck)

omit [Unicode] [Format] in
theorem storeToken_eq_ok {cfToken text : String} {source : Cfapi.Source}
    {files files' : Files} {luck : Luck} {kept : Kept}
    (h : storeToken cfToken source text files luck = .ok (kept, files')) :
    (∃ path, source = .file path ∧ kept = .theirs path ∧ files' = files) ∨
      ((∀ path, source ≠ .file path) ∧ luck.tokenWritten = .ok () ∧
        kept = .written cfToken (readToString luck.tokenReadable
          (files.content (components cfToken))) ∧
          files' = files.put cfToken (some (asBytes text))) := by
  rw [storeToken.eq_def] at h
  split at h
  · next path =>
    cases h
    exact Or.inl ⟨path, rfl, rfl, rfl⟩
  · next other =>
    simp only at h
    split at h
    · cases h
    · next written =>
      cases h
      exact Or.inr ⟨other, written, rfl, rfl⟩

omit [Format] in
theorem settle_placed {file : String} {files files' : Files} {asked : ServerRenew}
    {env : Option String} {cfToken : String} {now : Int64} {luck : Luck} {state : ServerState}
    {plan : Plan} {settled : Settled} {token : Option (Cfapi.Source × String)}
    (read : lock luck.readable file = some state) (planned : Renew.plan state asked now = .ok plan)
    (due : plan ≠ .pushRecord ∧ ∀ dueAt, plan ≠ .notDue dueAt) (issuing : luck.issuing = .ok true)
    (htoken : readToken state asked env (disposition state.tls asked) luck = .ok token)
    (h : settle state cfToken token (disposition state.tls asked) files luck =
      .ok (settled, files')) :
    Placed (Stores file asked env now luck) (Discards file asked cfToken now luck)
      files cfToken luck
      settled files' := by
  have unstored : (∀ source text, token = some (source, text) → ∃ path, source = .file path) →
      ∀ text, ¬Stores file asked env now luck text := by
    rintro theirs text ⟨state', _, source, read', _, _, _, token', other, _⟩
    cases read.symm.trans read'
    cases htoken.symm.trans token'
    obtain ⟨path, rfl⟩ := theirs source text rfl
    exact other path rfl
  have undiscarded : disposition state.tls asked ≠ .forget →
      ¬Discards file asked cfToken now luck := by
    rintro other ⟨state', _, _, read', _, _, forget, _⟩
    cases read.symm.trans read'
    exact other forget
  cases hdisposition : disposition state.tls asked with
  | unchanged =>
    have kept := undiscarded (by simp [hdisposition])
    rw [hdisposition] at h htoken
    cases htoken
    cases h
    exact .unkept (unstored (by rintro _ _ ⟨⟩)) (by rintro _ ⟨⟩) (iff_of_false kept (by simp))
  | forget =>
    rw [hdisposition] at h htoken
    cases htoken
    cases h
    refine .unkept (unstored (by rintro _ _ ⟨⟩)) (fun path stale => ?_) ?_
    · rw [Option.filter_eq_some_iff] at stale
      exact ⟨samePath_iff.mp stale.2, rfl⟩
    · constructor
      · rintro ⟨state', _, path, read', _, _, _, named, same, removed⟩
        cases read.symm.trans read'
        have there : state.cloudflare.bind Cloudflare.tokenPath = some path := named
        exact ⟨by simp [there, same], removed⟩
      · rintro ⟨stale, removed⟩
        obtain ⟨path, stale⟩ := Option.isSome_iff_exists.mp stale
        rw [Option.filter_eq_some_iff] at stale
        exact ⟨state, plan, path, read, planned, due, hdisposition, stale.1,
          samePath_iff.mp stale.2, removed⟩
  | keep =>
    have kept := undiscarded (by simp [hdisposition])
    rw [hdisposition] at h htoken
    cases token with
    | none => cases h
    | some given =>
      obtain ⟨source, text⟩ := given
      simp only [settle] at h
      cases zone : luck.zone with
      | error e =>
        rw [zone] at h
        cases h
      | ok zoneId =>
        rw [zone] at h
        cases stored : storeToken cfToken source text files luck with
        | error e =>
          rw [stored] at h
          cases h
        | ok placed =>
          obtain ⟨guard, after⟩ := placed
          rw [stored] at h
          cases h
          rcases storeToken_eq_ok stored with ⟨path, rfl, rfl, rfl⟩ | ⟨other, written, rfl, rfl⟩
          · refine .theirs (unstored ?_) kept
            rintro _ _ ⟨⟩
            exact ⟨path, rfl⟩
          · rw [← hdisposition] at htoken
            exact .written ⟨state, plan, source, read, planned, due, issuing, htoken,
              other, ⟨zoneId, zone⟩, written⟩ kept

theorem run_ran (file : String) (files : Files) (asked : ServerRenew) (env : Option String)
    (paths : ServerPaths) (cfToken : String) (now : Int64) (luck : Luck) :
    Ran file files asked env paths cfToken now luck
      (run file files asked env paths cfToken now luck) := by
  rw [run]
  split
  · next unread =>
    refine .idle ?_ (fun _ _ => Or.inl rfl) nofun
    rintro text ⟨state, _, _, read, _⟩
    cases unread.symm.trans read
  next state read =>
  split
  · next refused =>
    refine .idle ?_ (fun _ _ => Or.inl rfl) nofun
    rintro text ⟨state', plan, _, read', planned, _⟩
    cases read.symm.trans read'
    cases refused.symm.trans planned
  · next dueAt early =>
    refine .idle ?_ nofun ?_
    · rintro text ⟨state', plan, _, read', planned, ⟨_, due⟩, _⟩
      cases read.symm.trans read'
      cases early.symm.trans planned
      exact due dueAt rfl
    · rintro plan ⟨⟩
      refine ⟨nofun, ?_, state, lock_eq_some read⟩
      rintro ⟨state', _, _, read', planned, ⟨_, due⟩, _⟩
      cases read.symm.trans read'
      cases early.symm.trans planned
      exact due dueAt rfl
  next plan due planned =>
  have busy : luck.issuing ≠ .ok true → ∀ text, ¬Stores file asked env now luck text := by
    rintro other text ⟨_, _, _, _, _, _, issuing, _⟩
    exact other issuing
  split
  · next failed => exact .idle (busy (by simp [failed])) (fun _ _ => Or.inl rfl) nofun
  · next held => exact .idle (busy (by simp [held])) (fun _ _ => Or.inl rfl) nofun
  next issuing =>
  simp only
  split
  · next push =>
    subst push
    have unstored : ∀ text, ¬Stores file asked env now luck text := by
      rintro text ⟨state', plan, _, read', planned', ⟨push, _⟩, _⟩
      cases read.symm.trans read'
      cases planned.symm.trans planned'
      exact push rfl
    split
    · exact .idle unstored (fun _ _ => Or.inr rfl) nofun
    split
    · exact .idle unstored (fun _ _ => Or.inr rfl) nofun
    next found hfound =>
    split
    · next pushed _ _ _ =>
      refine .idle unstored nofun ?_
      rintro plan ⟨⟩
      refine ⟨nofun, ?_, _, (remember_untouched found pushed).parse_back (lock_eq_some hfound)⟩
      rintro ⟨state', _, _, read', planned', ⟨push, _⟩, _⟩
      cases read.symm.trans read'
      cases planned.symm.trans planned'
      exact push rfl
    · exact .idle unstored (fun _ _ => Or.inr rfl) nofun
  next noPush =>
  split
  · next unreadable =>
    refine .idle ?_ (fun _ _ => Or.inr rfl) nofun
    rintro text ⟨state', _, _, read', _, _, _, token, _⟩
    cases read.symm.trans read'
    cases unreadable.symm.trans token
  next token htoken =>
  split
  · next unsettled =>
    refine .idle ?_ (fun _ _ => Or.inr rfl) nofun
    rintro text ⟨state', _, source, read', _, _, _, token', other, ⟨zoneId, zone⟩, written⟩
    cases read.symm.trans read'
    cases htoken.symm.trans token'
    have keep : disposition state.tls asked = .keep := by
      cases hd : disposition state.tls asked with
      | keep => rfl
      | unchanged =>
        rw [hd] at htoken
        cases htoken
      | forget =>
        rw [hd] at htoken
        cases htoken
    rw [keep] at unsettled
    cases source with
    | file path => exact other path rfl
    | flag => simp [settle, zone, storeToken, written, Except.map] at unsettled
    | env => simp [settle, zone, storeToken, written, Except.map] at unsettled
  · next settled files' hsettled =>
    exact .begun read planned ⟨noPush, due⟩
      (settle_placed read planned ⟨noPush, due⟩ issuing htoken hsettled)

/-- The settings the CA is asked under. -/
abbrev wanted (state : ServerState) (asked : ServerRenew) (paths : ServerPaths)
    (settled : Settled) :
    ServerState := apply state asked paths settled.keeping

/-- The middle of a run: it fails with everything put back, has nothing to order, or brings back
a certificate and the guard over what it replaced. -/
inductive Ordered (state : ServerState) (plan : Plan) (asked : ServerRenew) (paths : ServerPaths)
    (settled : Settled) (files : Files) (luck : Luck) :
    Except RenewError (Option (Artifacts × Renewed)) × Files → Prop
  | failed {e : RenewError} {files' : Files} : files'.content = files.content →
    Within (Artifacts.spots (wanted state asked paths settled).tls paths) files files' →
    Ordered state plan asked paths settled files luck (.error e, files')
  | unneeded : (∀ why, plan ≠ .reissue why) →
    Ordered state plan asked paths settled files luck (.ok none, files)
  | issued {why : Why} {artifacts : Artifacts} {issued : Renewed} {files' : Files} :
    plan = .reissue why →
    Artifacts.watching (wanted state asked paths settled).tls paths files
      luck.unreadable = .ok artifacts →
    issue (wanted state asked paths settled) paths files luck = (.ok issued, files') →
    Ordered state plan asked paths settled files luck (.ok (some (artifacts, issued)), files')

theorem order_ordered (state : ServerState) (plan : Plan) (asked : ServerRenew)
    (paths : ServerPaths) (now : Int64) (settled : Settled) (files : Files) (luck : Luck) :
    Ordered state plan asked paths settled files luck
      (order state plan asked paths now settled.keeping files luck) := by
  rw [order.eq_def]
  split
  · next why =>
    simp only
    split
    · exact .failed rfl (.refl _ files)
    next artifacts watching =>
    have within := issue_within (wanted state asked paths settled) paths files luck
    split
    · next e files' failed =>
      rw [failed] at within
      obtain ⟨content, within⟩ := Artifacts.drop_restores watching within
      exact .failed content within
    · next issued files' done => exact .issued rfl watching done
  · next other => exact .unneeded other

/-- The end of a run: everything is undone, or the state file is written and the files stay. -/
inductive Finished (file : String) (witness : Tls) (plan : Plan) (asked : ServerRenew)
    (paths : ServerPaths) (now : Int64) (settled : Settled)
    (ordered : Option (Artifacts × Renewed)) (files : Files) (luck : Luck) : Outcome → Prop
  | failed {e : RenewError} : Finished file witness plan asked paths now settled ordered files luck
    ⟨.error e, file, dropGuards (ordered.map Prod.fst) settled.kept files⟩
  | committed {found state : ServerState} : ServerState.parse file = .ok found →
    conclude found witness asked paths now ⟨settled.keeping, ordered.map Prod.snd⟩
      luck.loaded = .ok state →
    Finished file witness plan asked paths now settled ordered files luck
      ⟨.ok plan, state.toJsonString, sweep settled.stale luck files⟩

omit [Format] in
theorem finish_finished (file : String) (witness : Tls) (plan : Plan) (asked : ServerRenew)
    (paths : ServerPaths) (now : Int64) (settled : Settled) (ordered : Option (Artifacts × Renewed))
    (files : Files) (luck : Luck) :
    Finished file witness plan asked paths now settled ordered files luck
      (finish file witness plan asked paths now settled ordered files luck) := by
  rw [finish]
  simp only
  split
  · exact .failed
  next found hfound =>
  split
  · exact .failed
  next state hstate =>
  split
  · rw [dropGuards_kept]
    exact .committed (lock_eq_some hfound) hstate
  · exact .failed

/-- A run that fails leaves what the guard over the token leaves. -/
theorem carryOut_error {file : String} {state : ServerState} {plan : Plan} {asked : ServerRenew}
    {paths : ServerPaths} {now : Int64} {settled : Settled} {files : Files}
    {luck : Luck} {e : RenewError}
    (h : (carryOut file state plan asked paths now settled files luck).result = .error e) :
    (carryOut file state plan asked paths now settled files luck).file = file ∧
      (carryOut file state plan asked paths now settled files luck).files.content =
        (dropGuards none settled.kept files).content := by
  rw [carryOut] at h ⊢
  have ordered := order_ordered state plan asked paths now settled files luck
  generalize order state plan asked paths now settled.keeping files luck = middle at *
  cases ordered with
  | failed content within => exact ⟨rfl, dropGuards_congr settled.kept content⟩
  | unneeded =>
    simp only at h ⊢
    have finished := finish_finished file state.tls plan asked paths now settled none files luck
    generalize finish file state.tls plan asked paths now settled none files luck = out at *
    cases finished with
    | failed => exact ⟨rfl, rfl⟩
    | committed => cases h
  | @issued why artifacts issued files' _ watching done =>
    simp only at h ⊢
    have finished := finish_finished file state.tls plan asked paths now settled
      (some (artifacts, issued))
      files' luck
    generalize finish file state.tls plan asked paths now settled
      (some (artifacts, issued)) files' luck =
      out at *
    cases finished with
    | failed =>
      have within := issue_within (wanted state asked paths settled) paths files luck
      rw [done] at within
      exact ⟨rfl, dropGuards_congr settled.kept (Artifacts.drop_restores watching within).1⟩
    | committed => cases h

/-- The token file, if there is one, can be read as text. -/
def Recoverable (luck : Luck) (content : Option Bytes) : Prop :=
  ∀ bytes, content = some bytes → luck.tokenReadable = true ∧ (fromUtf8 bytes).isSome = true

omit [Unicode] [Format] in
theorem recoverable_iff (luck : Luck) (content : Option Bytes) :
    Recoverable luck content ↔ (readToString luck.tokenReadable content).map asBytes = content := by
  cases content with
  | none => simp [Recoverable, readToString]
  | some bytes =>
    cases readable : luck.tokenReadable with
    | false => simp [Recoverable, readToString, readable]
    | true =>
      cases text : fromUtf8 bytes with
      | none => simp [Recoverable, readToString, text]
      | some text' => simp [Recoverable, readToString, readable, text, asBytes_of_fromUtf8 text]

omit [Unicode] [Format] in
/-- What the guard over a stored token leaves. -/
theorem drop_written (cfToken : String) (previous : Option String) (files : Files)
    (content : Option Bytes) :
    (dropGuards none (some (.written cfToken previous)) (files.put cfToken content)).content =
      Function.update files.content (components cfToken) (previous.map asBytes) := by
  cases previous <;> simp [dropGuards, Kept.written, Kept.drop, Files.put]

/-- A run that fails puts every file back, but for a stored token over one that is no text. -/
theorem failed_restores {file : String} {files : Files} {asked : ServerRenew} {env : Option String}
    {paths : ServerPaths} {cfToken : String} {now : Int64} {luck : Luck} {e : RenewError}
    (h : (run file files asked env paths cfToken now luck).result = .error e) :
    let out := run file files asked env paths cfToken now luck
    (out.file = file ∨ out.file = luck.meanwhile.getD file) ∧
      (∀ spot ≠ components cfToken, out.files.content spot = files.content spot) ∧
      (out.files.content (components cfToken) = files.content (components cfToken) ↔
        ((∃ text, Stores file asked env now luck text) →
          Recoverable luck (files.content (components cfToken)))) := by
  intro out
  have ran := run_ran file files asked env paths cfToken now luck
  change out.result = .error e at h
  change Ran file files asked env paths cfToken now luck out at ran
  clear_value out
  cases ran with
  | idle unstored unchanged _ =>
    refine ⟨unchanged e h, fun _ _ => rfl, fun _ => ?_, fun _ => rfl⟩
    exact fun ⟨text, stores⟩ => absurd stores (unstored text)
  | begun read planned due placed =>
    obtain ⟨same, content⟩ := carryOut_error h
    refine ⟨Or.inr same, ?_⟩
    rw [content]
    cases placed with
    | unkept unstored =>
      exact ⟨fun _ _ => rfl, fun _ ⟨text, stores⟩ => absurd stores (unstored text), fun _ => rfl⟩
    | theirs unstored =>
      exact ⟨fun _ _ => rfl, fun _ ⟨text, stores⟩ => absurd stores (unstored text), fun _ => rfl⟩
    | written stores _ =>
      rw [drop_written, recoverable_iff, Function.update_self]
      refine ⟨fun spot other => Function.update_of_ne other _ _, fun back _ => back, fun back => ?_⟩
      exact back ⟨_, stores⟩

omit [Unicode] [Format] in
/-- A pair that was saved is the pair the CA issued, and its paths are anago's own. -/
theorem save_pair {acme : Acme} {paths : ServerPaths} {disk : Disk} {answers : Answers}
    {signed : SignedIn} {calls : List Call} {renewed : Renewed}
    (h : (save acme paths disk answers signed calls).result = .ok renewed) :
    let after := (save acme paths disk answers signed calls).disk
    renewed.certificatePath = paths.certificate ∧ renewed.keyPath = paths.privateKey ∧
      ∃ issued, answers.issued = .ok issued ∧ after.certificate = some issued.certificate ∧
        after.key = some issued.privateKey := by
  rw [save] at h ⊢
  cases hissued : answers.issued with
  | error detail => simp [hissued] at h
  | ok issued =>
    simp only [hissued] at h ⊢
    cases written : commit acme.accountKeyPath signed.fresh answers.accountWritten disk with
    | error e => simp [written] at h
    | ok disk' =>
      simp only [written] at h ⊢
      cases pair : answers.pairWritten with
      | error detail => simp [pair] at h
      | ok =>
        simp only [pair] at h ⊢
        cases h
        exact ⟨rfl, rfl, issued, rfl, rfl, rfl⟩

theorem renew_pair {wanted : ServerState} {acme : Acme} (ours : wanted.tls.renewable = some acme)
    {paths : ServerPaths} {disk : Disk} {answers : Answers} {renewed : Renewed}
    (h : (AcmeClient.renew wanted paths disk answers).result = .ok renewed) :
    let after := (AcmeClient.renew wanted paths disk answers).disk
    renewed.certificatePath = paths.certificate ∧ renewed.keyPath = paths.privateKey ∧
      ∃ issued, answers.issued = .ok issued ∧ after.certificate = some issued.certificate ∧
        after.key = some issued.privateKey := by
  rw [renew_eq ours] at h ⊢
  split at h
  · cases h
  · next signed calls _ => exact save_pair h

/-- The account file a renewal leaves is that of the account it reports. -/
theorem renew_account {wanted : ServerState} {acme : Acme} (ours : wanted.tls.renewable = some acme)
    {paths : ServerPaths} {disk : Disk} {answers : Answers} {renewed : Renewed}
    (h : (AcmeClient.renew wanted paths disk answers).result = .ok renewed) :
    ∃ text credentials, (AcmeClient.renew wanted paths disk answers).disk.account = some text ∧
      Format.read text = .ok credentials ∧ renewed.accountUrl = credentials.id := by
  have leaves := renew_leaves ours paths disk answers
  generalize AcmeClient.renew wanted paths disk answers = attempt at *
  cases leaves with
  | failed _ _ => cases h
  | reused file belongs read url after _ _ =>
    cases h
    exact ⟨_, _, after, read, url⟩
  | stopped _ _ _ => cases h
  | fresh _ _ url after =>
    cases h
    exact ⟨_, _, after, Format.read_write _, url⟩

/-- What the three files of an issuance hold once it went through. -/
structure Holds (account : String) (paths : ServerPaths) (answers : Answers) (accountUrl : String)
    (content : Spot → Option Bytes) : Prop where
  pair : ∃ issued, answers.issued = .ok issued ∧
    content (components paths.certificate) = some (asBytes issued.certificate) ∧
      content (components paths.privateKey) = some (asBytes issued.privateKey)
  account : ∃ text credentials, content (components account) = some (asBytes text) ∧
    Format.read text = .ok credentials ∧ accountUrl = credentials.id

omit [Unicode] in
theorem Holds.congr {account accountUrl : String} {paths : ServerPaths} {answers : Answers}
    {content content' : Spot → Option Bytes} (h : Holds account paths answers accountUrl content)
    (same : ∀ path ∈ [paths.certificate, paths.privateKey, account],
      content' (components path) = content (components path)) :
    Holds account paths answers accountUrl content' := by
  obtain ⟨⟨issued, answered, certificate, key⟩, text, credentials, written, read, url⟩ := h
  refine ⟨⟨issued, answered, ?_, ?_⟩, text, credentials, ?_, read, url⟩
  · exact (same _ (by simp)).trans certificate
  · exact (same _ (by simp)).trans key
  · exact (same _ (by simp)).trans written

theorem issue_holds {wanted : ServerState} {acme : Acme} (ours : wanted.tls.renewable = some acme)
    {paths : ServerPaths} {files files' : Files} {luck : Luck} {renewed : Renewed}
    (three : (Artifacts.spots wanted.tls paths).Nodup)
    (h : issue wanted paths files luck = (.ok renewed, files')) :
    renewed.certificatePath = paths.certificate ∧ renewed.keyPath = paths.privateKey ∧
      Holds (accountPath wanted.tls paths) paths luck.answers renewed.accountUrl
        files'.content := by
  obtain ⟨⟨apart, beside⟩, differ⟩ : (components paths.certificate ≠ components paths.privateKey ∧
      components paths.certificate ≠ components (accountPath wanted.tls paths)) ∧
        components paths.privateKey ≠ components (accountPath wanted.tls paths) := by
    simpa [Artifacts.spots] using three
  rw [issue] at h
  simp only at h
  split at h
  · cases h
  next text readable =>
  split at h
  · next issued result =>
    cases h
    obtain ⟨hcertificate, hkey, pair⟩ := renew_pair ours result
    obtain ⟨text', credentials, account, read, url⟩ := renew_account ours result
    refine ⟨hcertificate, hkey, ?_, ?_⟩
    · obtain ⟨issued, answered, certificate, key⟩ := pair
      refine ⟨issued, answered, ?_, ?_⟩
      · simp [Files.put, certificate]
      · simp [Files.put, apart.symm, key]
    · refine ⟨text', credentials, ?_, read, url⟩
      simp only [Files.put, Function.update_of_ne beside.symm, Function.update_of_ne differ.symm]
      split
      · next same =>
        -- the file is the one that was signed in with
        rw [account, eq_comm, Option.join_eq_some_iff, Option.map_eq_some_iff] at same
        obtain ⟨bytes, there, same⟩ := same
        rw [there, asBytes_of_fromUtf8 same]
      · simp [account]
  · cases h
  · cases h

omit [Unicode] [Format] in
/-- What the guard over the token still touches as it is dropped. -/
theorem dropGuards_touched (kept : Option Kept) (files : Files) (spot : Spot) :
    spot ∈ (dropGuards none kept files).touched ↔ spot ∈ files.touched ∨
      ∃ guard undo, kept = some guard ∧ guard.keep = false ∧ guard.undo = some undo ∧
        spot = components guard.path := by
  cases kept with
  | none => exact ⟨Or.inl, fun h => h.resolve_right nofun⟩
  | some guard =>
    obtain ⟨path, undo, keep⟩ := guard
    cases keep with
    | true => simp [dropGuards, Kept.drop]
    | false =>
      cases undo with
      | none => simp [dropGuards, Kept.drop]
      | some previous => cases previous <;> simp [dropGuards, Kept.drop, Files.put]

omit [Unicode] [Format] in
/-- And a removed token at the end. -/
theorem sweep_touched (stale : Option String) (luck : Luck) (files : Files) (spot : Spot) :
    spot ∈ (sweep stale luck files).touched ↔ spot ∈ files.touched ∨
      ∃ path, stale = some path ∧ luck.staleRemoved = true ∧ spot = components path := by
  cases stale with
  | none => exact ⟨Or.inl, fun h => h.resolve_right nofun⟩
  | some path =>
    rw [sweep]
    cases luck.staleRemoved <;> simp [Files.put]

/-- Apart from the files of an issuance, a run touches what its ending touches. -/
theorem carryOut_touched {file : String} {state : ServerState} {plan : Plan} {asked : ServerRenew}
    {paths : ServerPaths} {now : Int64} {settled : Settled} {files : Files}
    {luck : Luck} {spot : Spot}
    (apart : spot ∉ Artifacts.spots (applyTls state.tls asked paths) paths) :
    let out := carryOut file state plan asked paths now settled files luck
    (∀ e, out.result = .error e →
      (spot ∈ out.files.touched ↔ spot ∈ (dropGuards none settled.kept files).touched)) ∧
    ∀ plan', out.result = .ok plan' →
      (spot ∈ out.files.touched ↔ spot ∈ (sweep settled.stale luck files).touched) := by
  have other : spot ∉ Artifacts.spots (wanted state asked paths settled).tls paths := apart
  have dropped : ∀ {files' : Files}, (spot ∈ files'.touched ↔ spot ∈ files.touched) →
      (spot ∈ (dropGuards none settled.kept files').touched ↔
        spot ∈ (dropGuards none settled.kept files).touched) := by
    intro files' same
    rw [dropGuards_touched, dropGuards_touched, same]
  intro out
  have done : out = carryOut file state plan asked paths now settled files luck := rfl
  rw [carryOut] at done
  have ordered := order_ordered state plan asked paths now settled files luck
  generalize order state plan asked paths now settled.keeping files luck = middle at *
  clear_value out
  subst done
  cases ordered with
  | failed content within => exact ⟨fun _ _ => dropped (within.apart other), nofun⟩
  | unneeded =>
    simp only
    have finished := finish_finished file state.tls plan asked paths now settled none files luck
    generalize finish file state.tls plan asked paths now settled none files luck = out at *
    cases finished with
    | failed => exact ⟨fun _ _ => Iff.rfl, nofun⟩
    | committed => exact ⟨nofun, fun _ _ => Iff.rfl⟩
  | @issued why artifacts' issued files' _ watching done =>
    simp only
    have finished := finish_finished file state.tls plan asked paths now settled
      (some (artifacts', issued))
      files' luck
    generalize finish file state.tls plan asked paths now settled
      (some (artifacts', issued)) files' luck =
      out at *
    have within := issue_within (wanted state asked paths settled) paths files luck
    rw [done] at within
    cases finished with
    | failed =>
      exact ⟨fun _ _ => dropped ((Artifacts.drop_restores watching within).2.apart other), nofun⟩
    | committed =>
      refine ⟨nofun, fun _ _ => ?_⟩
      rw [sweep_touched, sweep_touched, within.apart other]

/-- The state says that there is a file of the hub's there. -/
def Names (state : ServerState) (spot : Spot) : Prop :=
  spot = components state.tls.certPath ∨ spot = components state.tls.keyPath ∨
    (∃ acme, state.tls.renewable = some acme ∧ spot = components acme.accountKeyPath) ∨
      ∃ path, tokenAt state = some path ∧ spot = components path

/-- What a run wrote is there, and the state it committed says where. -/
structure Keeps (paths : ServerPaths) (cfToken : String) (answers : Answers) (plan : Plan)
    (stores : String → Prop) (state : ServerState) (files : Files) : Prop where
  /-- Of all that was touched, only a token that is of no use any more is not named. -/
  touched : ∀ spot ∈ files.touched, Names state spot ∨ spot = components cfToken ∧
    tokenAt state = none
  token : ∀ text, stores text → tokenAt state = some cfToken ∧
    files.content (components cfToken) = some (asBytes text)
  issued : ∀ why, plan = .reissue why → ∃ acme, state.tls.renewable = some acme ∧
    state.tls.certPath = paths.certificate ∧ state.tls.keyPath = paths.privateKey ∧
      Holds acme.accountKeyPath paths answers acme.accountUrl files.content

omit [Format] in
theorem tokenAt_apply (state : ServerState) (asked : ServerRenew) (paths : ServerPaths)
    (zoneId path : String) :
    tokenAt (apply state asked paths (.token zoneId path)) = some path := by
  simp only [tokenAt, apply, applyKeeping]
  cases state.cloudflare <;> rfl

omit [Format] in
theorem tokenAt_forget (state : ServerState) (asked : ServerRenew) (paths : ServerPaths) :
    tokenAt (apply state asked paths .forget) = none := by
  simp only [tokenAt, apply, applyKeeping]
  cases state.cloudflare <;> rfl

omit [Format] in
theorem tokenAt_reissued (found : ServerState) (asked : ServerRenew) (paths : ServerPaths)
    (keeping : Keeping) (issued : Renewed) (now : Int64) (notAfter : Option Int64) :
    tokenAt (reissued found asked paths keeping issued now notAfter) =
      tokenAt (apply found asked paths keeping) := by
  simp only [tokenAt, reissued, record]
  split
  · next zoneId cloudflare _ hcloudflare =>
    rw [hcloudflare]
    split <;> rfl
  · rfl

omit [Format] in
/-- After a reissue the state names the three files of the issuance. -/
theorem reissued_names {found : ServerState} {asked : ServerRenew} {paths : ServerPaths}
    {keeping : Keeping} {issued : Renewed} {acme : Acme}
    (ours : (apply found asked paths keeping).tls.renewable = some acme)
    (certificate : issued.certificatePath = paths.certificate)
    (key : issued.keyPath = paths.privateKey) (now : Int64) (notAfter : Option Int64) :
    let state := reissued found asked paths keeping issued now notAfter
    state.tls.certPath = paths.certificate ∧ state.tls.keyPath = paths.privateKey ∧
      ∃ acme', state.tls.renewable = some acme' ∧ acme'.accountKeyPath = acme.accountKeyPath ∧
        acme'.accountUrl = issued.accountUrl := by
  have renewable := reissued_renewable found asked paths keeping issued now notAfter ours
  rw [Tls.renewable_eq_some] at ours
  refine ⟨?_, ?_, _, renewable, rfl, rfl⟩
  · rw [reissued, record, Tls.modifyAcme, ours]
    exact certificate
  · rw [reissued, record, Tls.modifyAcme, ours]
    exact key

omit [Format] in
/-- What becomes of the token's file, whatever was written beside it. -/
theorem Placed.swept {stores : String → Prop} {discards : Prop} {before : Spot → Option Bytes}
    {asked : ServerRenew} {cfToken : String} {luck : Luck} {settled : Settled}
    {files files' : Files} {known : List Spot} {found next : ServerState} {paths : ServerPaths}
    (placed : Placed stores discards ⟨before, []⟩ cfToken luck settled files)
    (unique : ∀ text text', stores text → stores text' → text = text')
    (within : Within known files files') (apart : components cfToken ∉ known)
    (named : ∀ spot ∈ known, Names next spot)
    (token : tokenAt next = tokenAt (apply found asked paths settled.keeping)) :
    let files := sweep settled.stale luck files'
    (∀ spot ∈ files.touched, Names next spot ∨ spot = components cfToken ∧ tokenAt next = none) ∧
      (∀ text, stores text → tokenAt next = some cfToken ∧
        files.content (components cfToken) = some (asBytes text)) ∧
        ∀ spot ∈ known, files.content spot = files'.content spot := by
  cases placed with
  | @unkept keeping stale unstored nameless _ =>
    refine ⟨?_, fun text stored => absurd stored (unstored text), ?_⟩
    · intro spot touched
      rcases (sweep_touched stale luck files' spot).mp touched with wrote | ⟨path, rfl, _, rfl⟩
      · exact Or.inl (named spot ((within.touched spot wrote).resolve_left List.not_mem_nil))
      · obtain ⟨same, rfl⟩ := nameless path rfl
        exact Or.inr ⟨same, token.trans (tokenAt_forget found asked paths)⟩
    · intro spot mem
      cases stale with
      | none => rfl
      | some gone =>
        rw [sweep]
        split
        · have other : spot ≠ components gone := by
            rintro rfl
            exact apart ((nameless gone rfl).1 ▸ mem)
          exact Function.update_of_ne other none files'.content
        · rfl
  | theirs unstored _ =>
    refine ⟨fun spot touched => ?_, fun text stored => absurd stored (unstored text),
      fun _ _ => rfl⟩
    exact Or.inl (named spot ((within.touched spot touched).resolve_left List.not_mem_nil))
  | @written zoneId text stored _ =>
    have kept : tokenAt next = some cfToken :=
      token.trans (tokenAt_apply found asked paths zoneId cfToken)
    refine ⟨fun spot touched => ?_, fun text' stored' => ⟨kept, ?_⟩, fun _ _ => rfl⟩
    · rcases within.touched spot touched with placed | mem
      · cases List.mem_singleton.mp placed
        exact Or.inl (Or.inr (Or.inr (Or.inr ⟨cfToken, kept, rfl⟩)))
      · exact Or.inl (named spot mem)
    · cases unique text text' stored stored'
      refine (within.content _ apart).trans ?_
      exact Function.update_self (components cfToken) _ before

/-- What a run that went through wrote is kept and named. -/
theorem carryOut_keeps {stores : String → Prop} {discards : Prop}
    {before : Spot → Option Bytes} {file : String} {state : ServerState} {plan plan' : Plan}
    {asked : ServerRenew} {paths : ServerPaths} {cfToken : String} {now : Int64} {settled : Settled}
    {files : Files} {luck : Luck}
    (placed : Placed stores discards ⟨before, []⟩ cfToken luck settled files)
    (unique : ∀ text text', stores text → stores text' → text = text')
    (four : (Artifacts.spots (applyTls state.tls asked paths) paths ++ [components cfToken]).Nodup)
    (h : (carryOut file state plan asked paths now settled files luck).result = .ok plan') :
    let out := carryOut file state plan asked paths now settled files luck
    plan' = plan ∧ ∃ next, ServerState.parse out.file = .ok next ∧
      Keeps paths cfToken luck.answers plan stores next out.files := by
  rw [carryOut] at h ⊢
  have ordered := order_ordered state plan asked paths now settled files luck
  generalize order state plan asked paths now settled.keeping files luck = middle at *
  cases ordered with
  | failed => cases h
  | unneeded other =>
    simp only at h ⊢
    have finished := finish_finished file state.tls plan asked paths now settled none files luck
    generalize finish file state.tls plan asked paths now settled none files luck = out at *
    cases finished with
    | failed => cases h
    | @committed found next hfound hnext =>
      cases h
      obtain ⟨_, ⟨_, rfl⟩ | ⟨issued, _, some, _⟩⟩ := conclude_cases hnext
      · refine ⟨rfl, _, (apply_untouched found asked paths settled.keeping).parse_back hfound, ?_⟩
        obtain ⟨touched, token, _⟩ :=
          placed.swept unique (.refl [] files) List.not_mem_nil nofun rfl
        exact ⟨touched, token, fun why reissue => absurd reissue (other why)⟩
      · cases some
  | @issued why artifacts issued files' reissue watching done =>
    simp only at h ⊢
    have finished := finish_finished file state.tls plan asked paths now settled
      (some (artifacts, issued))
      files' luck
    generalize finish file state.tls plan asked paths now settled
      (some (artifacts, issued)) files' luck =
      out at *
    cases finished with
    | failed => cases h
    | @committed found next hfound hnext =>
      cases h
      obtain ⟨same, ⟨none, _⟩ | ⟨issued', notAfter, some, _, rfl⟩⟩ := conclude_cases hnext
      · cases none
      cases some
      obtain ⟨three, apart⟩ : (Artifacts.spots (applyTls state.tls asked paths) paths).Nodup ∧
          components cfToken ∉ Artifacts.spots (applyTls state.tls asked paths) paths := by
        rw [List.nodup_append] at four
        exact ⟨four.1, fun mem => four.2.2 _ mem _ List.mem_cons_self rfl⟩
      have wantedTls : (wanted state asked paths settled).tls =
          applyTls state.tls asked paths := rfl
      have within := issue_within (wanted state asked paths settled) paths files luck
      obtain ⟨acme, ours⟩ := apply_renewable state asked paths settled.keeping
      have account : accountPath (wanted state asked paths settled).tls paths =
          acme.accountKeyPath := by
        rw [accountPath, ours]
      obtain ⟨hcertificate, hkey, holds⟩ := issue_holds ours three done
      rw [done, wantedTls] at within
      have ours' : (apply found asked paths settled.keeping).tls.renewable = some acme := by
        rw [← ours, apply, apply, same]
      obtain ⟨certificate, key, acme', renewable, path, url⟩ :=
        reissued_names ours' hcertificate hkey now notAfter
      have named : ∀ spot ∈ Artifacts.spots (applyTls state.tls asked paths) paths,
          Names (reissued found asked paths settled.keeping issued now notAfter) spot := by
        intro spot mem
        simp only [Artifacts.spots, List.mem_cons, List.not_mem_nil, or_false] at mem
        rcases mem with rfl | rfl | rfl
        · exact Or.inl (congrArg components certificate.symm)
        · exact Or.inr (Or.inl (congrArg components key.symm))
        · exact Or.inr (Or.inr (Or.inl ⟨acme', renewable, by rw [← wantedTls, account, path]⟩))
      obtain ⟨touched, token, kept⟩ := placed.swept unique within apart named
        (tokenAt_reissued found asked paths settled.keeping issued now notAfter)
      have untouched :
          Untouched found (reissued found asked paths settled.keeping issued now notAfter) :=
        ⟨rfl, rfl, rfl, rfl, rfl, rfl, rfl⟩
      refine ⟨rfl, _, untouched.parse_back hfound, touched, token,
        fun _ _ => ⟨acme', renewable, certificate, key, ?_⟩⟩
      rw [path, url, ← account]
      refine holds.congr fun path' mem => kept _ ?_
      simp only [List.mem_cons, List.not_mem_nil, or_false] at mem
      rw [Artifacts.spots, ← wantedTls]
      rcases mem with rfl | rfl | rfl <;> simp

omit [Format] in
theorem Stores.unique {file : String} {asked : ServerRenew} {env : Option String}
    {now : Int64} {luck : Luck} {text text' : String} (h : Stores file asked env now luck text)
    (h' : Stores file asked env now luck text') :
    text = text' := by
  obtain ⟨state, _, _, read, _, _, _, token, _⟩ := h
  obtain ⟨state', _, _, read', _, _, _, token', _⟩ := h'
  cases read.symm.trans read'
  cases token.symm.trans token'
  rfl

omit [Format] in
/-- A token file that is named is the source of the token. -/
theorem tokenSource_file {state : ServerState} {asked : ServerRenew}
    {env : Option String} {path : String} {source : Cfapi.Source}
    (named : asked.cfTokenFile = some path) (h : tokenSource state asked env = .ok (some source)) :
    source = .file path := by
  rw [tokenSource, named] at h
  simp only at h
  cases hflag : asked.cfToken with
  | none =>
    rw [hflag] at h
    cases h
    rfl
  | some flag =>
    rw [hflag] at h
    cases h

omit [Format] in
theorem readToken_source {state : ServerState} {asked : ServerRenew}
    {env : Option String} {luck : Luck} {source : Cfapi.Source} {text : String}
    (h : readToken state asked env .keep luck = .ok (some (source, text))) :
    tokenSource state asked env = .ok (some source) := by
  rw [readToken] at h
  split at h
  · cases h
  · cases h
  next source' hsource =>
  cases token : luck.token with
  | error e =>
    rw [token] at h
    cases h
  | ok text' =>
    rw [token] at h
    cases h
    exact hsource

omit [Unicode] [Format] in
/-- A token file is refused to a hub that will not renew over DNS-01. -/
theorem forget_without_file {tls : Tls} {asked : ServerRenew} (h : disposition tls asked = .forget)
    (job : checkTokenHasAJob tls asked = .ok ()) : asked.cfTokenFile = none := by
  have leaves : resultingChallenge tls asked ≠ .dns01 := by
    intro dns01
    rw [disposition, dns01] at h
    cases h
  cases named : asked.cfTokenFile with
  | none => rfl
  | some path =>
    rw [checkTokenHasAJob, named] at job
    simp only [if_neg leaves] at job
    cases flag : asked.cfToken <;> rw [flag] at job <;> cases job

omit [Format] in
/-- A run that is told of a token file neither stores a token nor discards one. -/
theorem named_file {file : String} {asked : ServerRenew} {env : Option String}
    {cfToken path : String} {now : Int64} {luck : Luck} (named : asked.cfTokenFile = some path) :
    (∀ text, ¬Stores file asked env now luck text) ∧ ¬Discards file asked cfToken now luck := by
  constructor
  · rintro text ⟨state, _, source, _, _, _, _, token, other, _⟩
    have keep : disposition state.tls asked = .keep := by
      cases hd : disposition state.tls asked with
      | keep => rfl
      | unchanged =>
        rw [hd] at token
        cases token
      | forget =>
        rw [hd] at token
        cases token
    rw [keep] at token
    exact other path (tokenSource_file named (readToken_source token))
  · rintro ⟨state, plan, _, _, planned, due, forget, _⟩
    have plain : asked.dnsOnly = false := by
      by_contra only
      rw [Renew.plan, if_pos (by simpa using only)] at planned
      cases planned
      exact due.1 rfl
    have none := forget_without_file forget (plan_eq_ok plain planned).1
    cases named.symm.trans none

/-- What a run touches beside the files of an issuance: the token it stored, and at its end the
one that it discards. -/
theorem run_touched {file : String} {before : Spot → Option Bytes} {asked : ServerRenew}
    {env : Option String} {paths : ServerPaths} {cfToken : String} {now : Int64}
    {luck : Luck} {spot : Spot} (apart : ∀ state, lock luck.readable file = some state →
      spot ∉ Artifacts.spots (applyTls state.tls asked paths) paths) :
    let out := run file ⟨before, []⟩ asked env paths cfToken now luck
    let stores := ∃ text, Stores file asked env now luck text
    (∀ e, out.result = .error e → (spot ∈ out.files.touched ↔ spot = components cfToken ∧ stores)) ∧
      ∀ plan, out.result = .ok plan → (spot ∈ out.files.touched ↔
        spot = components cfToken ∧ (stores ∨ Discards file asked cfToken now luck)) := by
  intro out stores
  have ran := run_ran file ⟨before, []⟩ asked env paths cfToken now luck
  change Ran file ⟨before, []⟩ asked env paths cfToken now luck out at ran
  clear_value out
  have nothing : (∀ text, ¬Stores file asked env now luck text) → ¬stores :=
    fun none ⟨text, h⟩ => none text h
  cases ran with
  | idle unstored _ done =>
    refine ⟨fun _ _ => iff_of_false List.not_mem_nil fun h => nothing unstored h.2,
      fun plan ok => ?_⟩
    obtain ⟨_, kept, _⟩ := done plan ok
    exact iff_of_false List.not_mem_nil fun h => h.2.elim (nothing unstored) kept
  | @begun state plan settled files' read _ _ placed =>
    obtain ⟨failed, done⟩ :=
      @carryOut_touched _ _ (luck.meanwhile.getD file) state plan asked paths now settled
      files' luck spot (apart state read)
    refine ⟨fun e error => (failed e error).trans ?_, fun plan ok => (done plan ok).trans ?_⟩
    · rw [dropGuards_touched]
      cases placed with
      | unkept unstored _ _ =>
        exact iff_of_false (fun h => h.elim List.not_mem_nil nofun) fun h => nothing unstored h.2
      | theirs unstored _ =>
        refine iff_of_false (fun h => h.elim List.not_mem_nil ?_) fun h => nothing unstored h.2
        rintro ⟨_, _, ⟨⟩, _, ⟨⟩, _⟩
      | @written _ text stored _ =>
        constructor
        · rintro (mem | ⟨_, _, ⟨⟩, _, _, same⟩)
          · exact ⟨List.mem_singleton.mp mem, text, stored⟩
          · exact ⟨same, text, stored⟩
        · rintro ⟨rfl, _⟩
          exact Or.inl (List.mem_singleton.mpr rfl)
    · rw [sweep_touched]
      cases placed with
      | @unkept keeping stale unstored nameless discards =>
        constructor
        · rintro (mem | ⟨path, rfl, removed, rfl⟩)
          · exact absurd mem List.not_mem_nil
          · exact ⟨(nameless path rfl).1, Or.inr (discards.mpr ⟨rfl, removed⟩)⟩
        · rintro ⟨rfl, h⟩
          obtain ⟨gone, removed⟩ := discards.mp (h.resolve_left (nothing unstored))
          obtain ⟨path, rfl⟩ := Option.isSome_iff_exists.mp gone
          exact Or.inr ⟨path, rfl, removed, (nameless path rfl).1.symm⟩
      | theirs unstored kept =>
        exact iff_of_false (fun h => h.elim List.not_mem_nil nofun) fun h =>
          h.2.elim (nothing unstored) kept
      | @written _ text stored _ =>
        constructor
        · rintro (mem | ⟨_, ⟨⟩, _⟩)
          exact ⟨List.mem_singleton.mp mem, Or.inl ⟨text, stored⟩⟩
        · rintro ⟨rfl, _⟩
          exact Or.inl (List.mem_singleton.mpr rfl)

omit [Unicode] [Format] in
/-- The hub's own files are different ones. -/
theorem components_under (root : String) :
    components (ServerPaths.under root).certificate = components root ++ ["tls".toList,
      "fullchain.pem".toList] ∧
      components (ServerPaths.under root).privateKey = components root ++ ["tls".toList,
        "privkey.pem".toList] ∧
      components (ServerPaths.under root).accountKey = components root ++ ["tls".toList,
        "account.key".toList] ∧
      components (cfTokenUnder root) = components root ++ ["cf-token".toList] := by
  have tls := components_join root (by decide : '/' ∉ "tls".toList) (by decide)
  have inside : ∀ {name : String}, '/' ∉ name.toList → counts name.toList = true →
      components (join (join root "tls") name) = components root ++ ["tls".toList,
        name.toList] := by
    intro name plain there
    rw [components_join _ plain there, tls, List.append_assoc]
    rfl
  exact ⟨inside (by decide) (by decide), inside (by decide) (by decide),
    inside (by decide) (by decide), components_join root (by decide) (by decide)⟩

/-- The account is not kept in another file of the hub's. -/
def AccountApart (root : String) (state : ServerState) : Prop :=
  ∀ acme, state.tls.renewable = some acme →
    components acme.accountKeyPath ∉ [components (ServerPaths.under root).certificate,
      components (ServerPaths.under root).privateKey, components (cfTokenUnder root)]

omit [Format] in
theorem AccountApart.four {root : String} {state : ServerState} (apart : AccountApart root state)
    (asked : ServerRenew) :
    (Artifacts.spots (applyTls state.tls asked (.under root)) (.under root) ++
      [components (cfTokenUnder root)]).Nodup := by
  obtain ⟨certificate, key, account, token⟩ := components_under root
  have own : components (ServerPaths.under root).accountKey ∉
      [components (ServerPaths.under root).certificate,
        components (ServerPaths.under root).privateKey, components (cfTokenUnder root)] := by
    rw [certificate, key, account, token]
    simp
  have other : components (accountPath (applyTls state.tls asked (.under root)) (.under root)) ∉
      [components (ServerPaths.under root).certificate,
        components (ServerPaths.under root).privateKey, components (cfTokenUnder root)] := by
    cases source : state.tls.source with
    | manual =>
      rw [accountPath, applyTls, source]
      exact own
    | acme acme =>
      have renews : state.tls.renewable = some acme := Tls.renewable_eq_some.mpr source
      rw [accountPath, renewable_applyTls renews]
      exact apart acme renews
  have three : components (ServerPaths.under root).certificate ≠
      components (ServerPaths.under root).privateKey ∧
      components (ServerPaths.under root).certificate ≠ components (cfTokenUnder root) ∧
        components (ServerPaths.under root).privateKey ≠ components (cfTokenUnder root) := by
    rw [certificate, key, token]
    simp
  simp only [List.mem_cons, List.not_mem_nil, or_false, not_or] at other
  obtain ⟨one, two, last⟩ := other
  simp only [Artifacts.spots, List.cons_append, List.nil_append, List.nodup_cons,
    List.mem_cons, List.not_mem_nil, or_false, not_or, not_false_eq_true, List.nodup_nil, and_true]
  exact ⟨⟨three.1, Ne.symm one, three.2.1⟩, ⟨Ne.symm two, three.2.2⟩, last⟩

/-- A run that fails puts every file back, unless it stored a token over one that is not text. One
that succeeds keeps what it wrote under the names the state has for it, where the account is not
kept in another file of the hub's. A token file of the operator's is touched just when it is at
anago's own place and was named before: a run that fails touches it where it stores a token, one
that succeeds also where it stops renewing over DNS-01. -/
theorem put_back_or_kept (file : String) (before : Spot → Option Bytes) (asked : ServerRenew)
    (env : Option String) (root : String) (now : Int64) (luck : Luck) :
    let cfToken := cfTokenUnder root
    let out := run file ⟨before, []⟩ asked env (.under root) cfToken now luck
    let stores := Stores file asked env now luck
    let apart := fun theirs : String => ∀ state, lock luck.readable file = some state →
      components theirs ∉ Artifacts.spots (applyTls state.tls asked (.under root)) (.under root)
    (∀ e, out.result = .error e → (out.file = file ∨ out.file = luck.meanwhile.getD file) ∧
      ((∀ spot, out.files.content spot = before spot) ↔
        ((∃ text, stores text) → Recoverable luck (before (components cfToken)))) ∧
      ∀ theirs, apart theirs → (components theirs ∉ out.files.touched ↔
        (components theirs = components cfToken → ¬∃ text, stores text))) ∧
    (∀ plan, out.result = .ok plan →
      ((∀ state, lock luck.readable file = some state → AccountApart root state) →
        ∃ next, ServerState.parse out.file = .ok next ∧
          Keeps (.under root) cfToken luck.answers plan stores next out.files) ∧
      ∀ theirs, apart theirs → (components theirs ∉ out.files.touched ↔
        (components theirs = components cfToken →
          ¬((∃ text, stores text) ∨ Discards file asked cfToken now luck)))) ∧
    ∀ theirs, asked.cfTokenFile = some theirs → apart theirs →
    components theirs ∉ out.files.touched := by
  intro cfToken out stores apart
  have touched := fun theirs (h : apart theirs) => @run_touched _ _ file before asked env
    (.under root) cfToken now
    luck (components theirs) h
  refine ⟨fun e failed => ?_, fun plan done => ⟨fun four => ?_, fun theirs h => ?_⟩,
    fun theirs named h => ?_⟩
  · obtain ⟨same, others, token⟩ := failed_restores failed
    refine ⟨same, ⟨fun restored => token.mp (restored _), fun recoverable spot => ?_⟩,
      fun theirs h => ?_⟩
    · by_cases here : spot = components cfToken
      · rw [here]
        exact token.mpr recoverable
      · exact others spot here
    · rw [(touched theirs h).1 e failed, not_and]
  · have ran := run_ran file ⟨before, []⟩ asked env (.under root) cfToken now luck
    change Ran file ⟨before, []⟩ asked env (.under root) cfToken now luck out at ran
    clear_value out
    cases ran with
    | idle unstored _ parsed =>
      obtain ⟨other, _, next, hnext⟩ := parsed plan done
      refine ⟨next, hnext, nofun, fun text stored => absurd stored (unstored text), ?_⟩
      exact fun why reissue => absurd reissue (other why)
    | @begun state plan' settled files' read _ _ placed =>
      obtain ⟨rfl, kept⟩ :=
        carryOut_keeps placed (fun text text' => Stores.unique) ((four state read).four asked) done
      exact kept
  · rw [(touched theirs h).2 plan done, not_and]
  · obtain ⟨unstored, kept⟩ := @named_file _ file asked env cfToken theirs now luck named
    have nothing : ¬∃ text, stores text := fun ⟨text, stored⟩ => unstored text stored
    cases result : out.result with
    | error e =>
      rw [(touched theirs h).1 e result]
      exact fun there => nothing there.2
    | ok plan =>
      rw [(touched theirs h).2 plan result]
      exact fun there => there.2.elim nothing kept

/-- A hub that is asked to renew over DNS-01 from now on, with a token on the command line. -/
def sampleAsked : ServerRenew :=
  { ServerRenew.plain with acmeChallenge := some .dns01, cfToken := some "new" }

def sampleWaiting : @ServerState asciiTables :=
  letI := asciiTables
  { sampleState "" with
    tls := ⟨"/acme/c.pem", "/acme/k.pem", none, .acme { sampleAcme "" with renewAfter := 1000 }⟩ }

def sampleFilesLuck (locked : Bool) : Luck where
  readable := true
  issuing := .ok true
  pushed := .error .noToken
  token := .ok "new"
  zone := .ok "z"
  tokenReadable := true
  tokenWritten := .ok ()
  unreadable := fun _ => none
  answers := sampleAnswers
  torn := none
  meanwhile := none
  locked := locked
  loaded := .ok none
  written := true
  staleRemoved := true

omit [Unicode] [Format] in
theorem sample_read : letI := asciiTables
    lock true sampleWaiting.toJsonString = some sampleWaiting := by
  let := asciiTables
  have parsed : ServerState.parse sampleWaiting.toJsonString = .ok sampleWaiting :=
    ServerState.parse_toJsonString rfl
  rw [lock, parsed]
  rfl

omit [Unicode] [Format] in
theorem sample_planned : letI := asciiTables
    Renew.plan sampleWaiting sampleAsked 0 = .ok .settings := by
  decide +kernel

omit [Unicode] [Format] in
theorem sample_stores {file : String}
    (read : letI := asciiTables; lock true file = some sampleWaiting) (locked : Bool) :
    letI := asciiTables
    Stores file sampleAsked none 0 (sampleFilesLuck locked) "new" := by
  let := asciiTables
  exact ⟨sampleWaiting, .settings, .flag, read, sample_planned, ⟨nofun, nofun⟩, rfl, rfl,
    nofun, ⟨"z", rfl⟩, rfl⟩

/-- Where the sample hub keeps a token of its own. -/
abbrev sampleToken : String := cfTokenUnder "/acme"

omit [Unicode] [Format] in
theorem sample_run {file : String} (read : letI := asciiTables; lock true file = some sampleWaiting)
    (before : Spot → Option Bytes) : letI := asciiTables
    letI := jsonFormat
    let run := fun locked =>
      run file ⟨before, []⟩ sampleAsked none (.under "/acme") sampleToken 0 (sampleFilesLuck locked)
    (run false).result = .error (.state "state") ∧ (run true).result = .ok .settings := by
  let := asciiTables
  let := jsonFormat
  have keeps : disposition sampleWaiting.tls sampleAsked = .keep := rfl
  have sourced : tokenSource sampleWaiting sampleAsked none = .ok (some .flag) := rfl
  have started : ∀ locked, run file ⟨before, []⟩ sampleAsked none (.under "/acme") sampleToken 0
      (sampleFilesLuck locked) =
        carryOut file sampleWaiting .settings sampleAsked (.under "/acme") 0
          ⟨.token "z" sampleToken, some (.written sampleToken
            (readToString true (before (components sampleToken)))), none⟩
          (Files.put ⟨before, []⟩ sampleToken (some (asBytes "new"))) (sampleFilesLuck locked) := by
    intro locked
    rw [run]
    simp only [sampleFilesLuck, read, sample_planned, keeps, readToken, sourced, settle, storeToken,
      Except.map, Option.getD_none, reduceCtorEq, if_false]
    rfl
  simp only [started]
  constructor
  · simp only [carryOut, order, finish, sampleFilesLuck, lock, Bool.false_eq_true, if_false]
  · simp only [carryOut, order, finish, sampleFilesLuck, read, conclude, ne_eq, not_true_eq_false,
      if_false, Option.map_none, if_true]

omit [Unicode] [Format] in
theorem sample_apart {file : String}
    (read : letI := asciiTables; lock true file = some sampleWaiting) :
    letI := asciiTables
    ∀ state, lock true file = some state → AccountApart "/acme" state ∧
      components "/etc/token" ∉
        Artifacts.spots (applyTls state.tls sampleAsked (.under "/acme")) (.under "/acme") := by
  let := asciiTables
  intro state found
  cases read.symm.trans found
  refine ⟨?_, by decide⟩
  rintro _ ⟨⟩
  decide

omit [Unicode] [Format] in
/-- A rotated token: put back by a run that fails, kept by one that does not, and another's file
touched by neither. -/
theorem put_back_or_kept_sample :
    letI := asciiTables
    letI := jsonFormat
    let before := Function.update (fun _ => none) (components sampleToken) (some (asBytes "old"))
    let run := fun locked => run sampleWaiting.toJsonString ⟨before, []⟩ sampleAsked none
      (.under "/acme") sampleToken 0 (sampleFilesLuck locked)
    (∀ spot, (run false).files.content spot = before spot) ∧
      components "/etc/token" ∉ (run false).files.touched ∧
      (∃ next, ServerState.parse (run true).file = .ok next ∧ tokenAt next = some sampleToken ∧
        (run true).files.content (components sampleToken) = some (asBytes "new")) ∧
      components "/etc/token" ∉ (run true).files.touched := by
  let := asciiTables
  let := jsonFormat
  intro before
  have elsewhere : components "/etc/token" ≠ components sampleToken := by decide
  -- stated for any text of the state file, so that nothing evaluates this one
  have sampled : ∀ file, lock true file = some sampleWaiting →
      let run := fun locked => RenewFiles.run file ⟨before, []⟩ sampleAsked none (.under "/acme")
        sampleToken 0 (sampleFilesLuck locked)
      (∀ spot, (run false).files.content spot = before spot) ∧
        components "/etc/token" ∉ (run false).files.touched ∧
        (∃ next, ServerState.parse (run true).file = .ok next ∧ tokenAt next = some sampleToken ∧
          (run true).files.content (components sampleToken) = some (asBytes "new")) ∧
        components "/etc/token" ∉ (run true).files.touched := by
    intro file read
    obtain ⟨failed, done⟩ := sample_run read before
    have apart := fun state found => (sample_apart read state found).1
    have theirs := fun state found => (sample_apart read state found).2
    obtain ⟨restores, _, _⟩ := put_back_or_kept file before sampleAsked none "/acme" 0
      (sampleFilesLuck false)
    obtain ⟨_, keeps, _⟩ := put_back_or_kept file before sampleAsked none "/acme" 0
      (sampleFilesLuck true)
    obtain ⟨_, restored, spared⟩ := restores _ failed
    obtain ⟨kept, spares⟩ := keeps _ done
    refine ⟨restored.mpr ?_, (spared _ theirs).mpr fun same => absurd same elsewhere, ?_,
      (spares _ theirs).mpr fun same => absurd same elsewhere⟩
    · rintro _ bytes there
      rw [← Option.some.inj (there : some (asBytes "old") = some bytes), fromUtf8_asBytes]
      exact ⟨rfl, rfl⟩
    · obtain ⟨next, parsed, kept⟩ := kept apart
      exact ⟨next, parsed, kept.token "new" (sample_stores read true)⟩
  exact sampled _ sample_read

omit [Unicode] [Format] in
/-- A token over no text at all: the run fails at its last step, and the file is gone. -/
theorem put_back_unless_stored_over_bytes :
    letI := asciiTables
    letI := jsonFormat
    ¬∀ (file : String) (before : Spot → Option Bytes) (asked : ServerRenew) (env : Option String)
      (root : String) (now : Int64) (luck : Luck) (e : RenewError),
      (∀ state, lock luck.readable file = some state → AccountApart root state) →
      let out := run file ⟨before, []⟩ asked env (.under root) (cfTokenUnder root) now luck
      out.result = .error e → out.files.content (components (cfTokenUnder root)) =
        before (components (cfTokenUnder root)) := by
  let := asciiTables
  let := jsonFormat
  intro claim
  let before := Function.update (fun _ => none) (components sampleToken) (some [(0xff : UInt8)])
  -- stated for any text of the state file, so that nothing evaluates this one
  have contradiction : ∀ file, lock true file = some sampleWaiting → False := by
    intro file read
    have failed := (sample_run read before).1
    have apart := fun state found => (sample_apart read state found).1
    have restored := claim file before sampleAsked none "/acme" 0
      (sampleFilesLuck false) _ apart failed
    obtain ⟨_, _, token⟩ := failed_restores failed
    have recoverable := token.mp restored ⟨"new", sample_stores read false⟩
    have there : before (components sampleToken) = some [0xff] := Function.update_self _ _ _
    exact absurd (recoverable [0xff] there).2 (by decide)
  exact contradiction _ sample_read

end

end RenewFiles
