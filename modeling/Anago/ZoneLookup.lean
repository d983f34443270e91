import Anago.Client
import Anago.DnsLabels
import Anago.JsonRoundTrip
import Mathlib.Data.List.Perm.Subperm

/-!
# The zone a name is in

The zone is looked for at the name itself and then at each name above it. The first name
the account has a zone for decides, also where that zone cannot be used: a record in a zone
above it would be one nobody is asked for.
-/

open StdText

namespace ZoneLookup

structure Zone where
  id : String
  name : String
  status : String
  nameServers : List String
  deriving DecidableEq, Repr

inductive CfError where
  | rejected (message : String)
  | forbidden (message : String)
  | apiFailure (status : UInt16) (message : String)
  | notADomain (name : String)
  | notAscii (name : String)
  | zoneNotFound (domain : String) (tried : List String)
  | zoneAmbiguous (name : String) (count : Nat)
  | zoneNotActive (name status : String)
  | undecodable (detail : String)
  | client (detail : String)
  deriving DecidableEq, Repr

/-- `trim_end_matches('.')`. -/
def trimDots (cs : List Char) : List Char := (cs.reverse.dropWhile (· == '.')).reverse

/-- A name without the blanks around it and the dots at its end. -/
def bare (name : String) : List Char := trimDots (trim name.toList)

/-- `dns_name`. -/
def dnsName (name : String) : Except CfError String :=
  if (bare name).isEmpty then .error (.notADomain (String.ofList (bare name)))
  else if (bare name).any fun c => 128 ≤ c.toNat then .error (.notAscii (String.ofList (bare name)))
  else .ok (String.ofList ((bare name).map toAsciiLowercase))

/-- `labels.join(".")`. -/
def joined (labels : List (List Char)) : List Char := ['.'].intercalate labels

/-- Every suffix of the name of two labels or more, the longest first. -/
def zoneCandidates (domain : String) : Except CfError (List String) := do
  let domain ← dnsName domain
  let labels := domain.toList.splitOn '.'
  if labels.length < 2 || labels.any List.isEmpty then .error (.notADomain domain)
  else .ok ((List.range (labels.length - 1)).map fun start => String.ofList
    (joined (labels.drop start)))

def zonesPath : String := "/client/v4/zones"

/-- The query for the zones of exactly this name. -/
def zonesQuery (candidate : String) : String :=
  zonesPath ++ "?name=" ++ Client.encodeSegment candidate

/-- Texts as a JSON library reads them. -/
class Serde where
  fromStr : String → Except String Json.Value

def field (value : Json.Value) (key : String) : Option Json.Value :=
  value.asObject.bind fun object => Json.Object.get object key

section
variable [Serde]

/-- `errors[0].message`, with its code where there is one. -/
def firstApiMessage (body : String) : String :=
  let found : Option String := do
    let value ← (Serde.fromStr body).toOption
    let errors ← (← field value "errors").asArray
    let error ← errors.head?
    let message ← (← field error "message").asStr
    match (field error "code").bind Json.Value.asI64 with
    | some code =>
      some (message ++ " (code " ++ String.ofList (DecimalText.showInt code.toInt) ++ ")")
    | none => some message
  found.getD "Cloudflare gave no reason"

/-- Whether the answer says that it worked. -/
def succeeded (value : Json.Value) : Bool :=
  match field value "success" with
  | some (.bool b) => b
  | _ => false

def parseResult (status : UInt16) (body : String) : Except CfError Json.Value :=
  if status = 401 then .error (.rejected (firstApiMessage body))
  else if status = 403 then .error (.forbidden (firstApiMessage body))
  else do
    let value ← (Serde.fromStr body).mapError .undecodable
    if !succeeded value then .error (.apiFailure status (firstApiMessage body))
    else
      match field value "result" with
      | some result => .ok result
      | none => .error (.apiFailure status "the response has no result")

end

/-- A field that is read is not made up. -/
def stringAt (value : Json.Value) (key what : String) (status : UInt16) : Except CfError String :=
  match (field value key).bind Json.Value.asStr with
  | some text =>
    if text.isEmpty then .error
      (.apiFailure status ("a " ++ what ++ " in the answer has an empty " ++ key))
    else .ok text
  | none => .error (.apiFailure status ("a " ++ what ++ " in the answer has no usable " ++ key))

def nameServersAt (zone : Json.Value) : List String :=
  (((field zone "name_servers").bind Json.Value.asArray).map fun servers =>
    servers.filterMap Json.Value.asStr).getD []

def parseZone (status : UInt16) (zone : Json.Value) : Except CfError Zone := do
  let id ← stringAt zone "id" "zone" status
  let name ← stringAt zone "name" "zone" status
  let state ← stringAt zone "status" "zone" status
  return ⟨id, name, state, nameServersAt zone⟩

def parseZones [Serde] (status : UInt16) (body : String) : Except CfError (List Zone) := do
  let result ← parseResult status body
  match result.asArray with
  | some items => items.mapM (parseZone status)
  | none => .error (.apiFailure status "the zone list is not a list")

/-- Whether a zone has this name, case aside. -/
def named (candidate : String) (zone : Zone) : Bool :=
  eqIgnoreAsciiCase zone.name.toList candidate.toList

/-- What one answer decides; nothing means that the walk goes on. -/
def pick (zones : List Zone) (candidate : String) : Except CfError (Option Zone) :=
  let found := zones.filter (named candidate)
  if 1 < found.length then .error (.zoneAmbiguous candidate found.length)
  else
    match found.getLast? with
    | none => .ok none
    | some zone =>
      if zone.status ≠ "active" then .error (.zoneNotActive zone.name zone.status)
        else .ok (some zone)

/-- One request, as far as its answer. -/
abbrev Send := String → Except String (UInt16 × String)

def ask [Serde] (send : Send) (candidate : String) : Except CfError (List Zone) := do
  let response ← (send (zonesQuery candidate)).mapError .client
  parseZones response.1 response.2

/-- The candidates one after another. -/
def walk (ask : String → Except CfError (List Zone)) (notFound : CfError) :
    List String → Except CfError Zone
  | [] => .error notFound
  | candidate :: rest => do
    let zones ← ask candidate
    match ← pick zones candidate with
    | some zone => .ok zone
    | none => walk ask notFound rest

def findZone [Serde] (send : Send) (token domain : String) : Except CfError Zone := do
  let candidates ← zoneCandidates domain
  let _ ← (Client.HeaderValue.bearer token).mapError fun e => .client e.reason
  walk (ask send) (.zoneNotFound domain candidates) candidates

section
variable {cs s : List Char}

/-- A suffix that starts where a label does. -/
def AtLabel (cs s : List Char) : Prop :=
  ∃ front, cs = front ++ s ∧ (front = [] ∨ front.getLast? = some '.')

theorem joined_splitOn (cs : List Char) : joined (cs.splitOn '.') = cs :=
  List.intercalate_splitOn '.'

theorem joined_cons (label next : List Char) (rest : List (List Char)) :
    joined (label :: next :: rest) = label ++ '.' :: joined (next :: rest) := by
  simp [joined, List.intercalate]

/-- The labels of a suffix are the last of the labels. -/
theorem splitOn_of_atLabel (h : AtLabel cs s) : s.splitOn '.' <:+ cs.splitOn '.' := by
  obtain ⟨front, rfl, rfl | last⟩ := h
  · exact List.suffix_refl _
  · obtain ⟨before, rfl⟩ : ∃ before, front = before ++ ['.'] := List.getLast?_eq_some_iff.mp last
    rw [List.append_assoc, List.singleton_append, List.splitOn_append_cons_self]
    exact List.suffix_append ..

theorem atLabel_drop (labels : List (List Char)) {k : Nat} (h : k < labels.length) :
    AtLabel (joined labels) (joined (labels.drop k)) := by
  induction k generalizing labels with
  | zero => exact ⟨[], rfl, Or.inl rfl⟩
  | succ k ih =>
    match labels, h with
    | label :: next :: rest, h =>
      obtain ⟨front, same, ends⟩ := ih (next :: rest) (Nat.lt_of_succ_lt_succ h)
      refine ⟨label ++ '.' :: front, ?_, Or.inr ?_⟩
      · rw [joined_cons, same, List.drop_succ_cons]
        simp
      · rcases ends with rfl | last
        · simp
        · rw [List.getLast?_append, List.getLast?_cons, last]
          simp

theorem AtLabel.length_le (h : AtLabel cs s) : s.length ≤ cs.length := by
  obtain ⟨front, rfl, _⟩ := h
  simp

theorem length_drop_lt (labels : List (List Char)) {k j : Nat} (later : k < j)
    (bound : j < labels.length) :
    (joined (labels.drop j)).length < (joined (labels.drop k)).length := by
  induction k generalizing labels j with
  | zero =>
    match labels, j, later, bound with
    | [label], j + 1, _, bound => exact absurd bound (by simp)
    | label :: next :: rest, j + 1, _, bound =>
      have inside := (atLabel_drop (next :: rest) (Nat.lt_of_succ_lt_succ bound)).length_le
      rw [List.drop_succ_cons, List.drop_zero, joined_cons, List.length_append, List.length_cons]
      omega
  | succ k ih =>
    match labels, j, later, bound with
    | label :: rest, j + 1, later, bound =>
      exact ih rest (Nat.lt_of_succ_lt_succ later) (Nat.lt_of_succ_lt_succ bound)

end

/-- The name as it is asked for. -/
def folded (domain : String) : List Char := (bare domain).map toAsciiLowercase

/-- Two labels or more, none of them empty, in ASCII. -/
structure IsDomain (name : List Char) : Prop where
  ascii : ∀ c ∈ name, c.toNat < 128
  labels : 2 ≤ (name.splitOn '.').length
  filled : [] ∉ name.splitOn '.'

/-- A suffix of the name, of whole labels and of at least two of them. -/
def IsCandidate (name : List Char) (candidate : String) : Prop :=
  AtLabel name candidate.toList ∧ 2 ≤ (candidate.toList.splitOn '.').length

/-- The suffixes of a name, from the longest. -/
def suffixes (name : List Char) : List String :=
  let labels := name.splitOn '.'
  (List.range (labels.length - 1)).map fun start => String.ofList (joined (labels.drop start))

theorem mem_suffixes {name : List Char} {candidate : String} :
    candidate ∈ suffixes name ↔ IsCandidate name candidate := by
  have noDot : ∀ label ∈ name.splitOn '.', '.' ∉ label := DnsWire.not_mem_splitOn
  simp only [suffixes, List.mem_map, List.mem_range]
  constructor
  · rintro ⟨start, bound, rfl⟩
    rw [IsCandidate, String.toList_ofList]
    refine ⟨?_, ?_⟩
    · have there := atLabel_drop (name.splitOn '.')
        (show start < (name.splitOn '.').length by omega)
      rwa [joined_splitOn] at there
    · have labels : (joined ((name.splitOn '.').drop start)).splitOn '.' =
          (name.splitOn '.').drop start := by
        refine List.splitOn_intercalate '.'
          (fun label h => noDot label (List.mem_of_mem_drop h)) fun none => ?_
        rw [List.drop_eq_nil_iff] at none
        omega
      rw [labels, List.length_drop]
      omega
  · rintro ⟨there, two⟩
    obtain ⟨front, same⟩ := splitOn_of_atLabel there
    refine ⟨front.length, ?_, ?_⟩
    · rw [← same, List.length_append]
      omega
    · rw [← same, List.drop_left, joined_splitOn, String.ofList_toList]

theorem suffixes_longest_first (name : List Char) :
    (suffixes name).Pairwise fun longer shorter =>
      shorter.toList.length < longer.toList.length := by
  rw [suffixes, List.pairwise_map]
  refine List.Pairwise.imp_of_mem (fun {k j} _ hj later => ?_) List.pairwise_lt_range
  rw [String.toList_ofList, String.toList_ofList]
  rw [List.mem_range] at hj
  exact length_drop_lt _ later (by omega)

theorem zoneCandidates_cases (domain : String) :
    (IsDomain (folded domain) ∧ zoneCandidates domain = .ok (suffixes (folded domain))) ∨
      (¬IsDomain (folded domain) ∧ ∃ e, zoneCandidates domain = .error e ∧
        ∀ name tried, e ≠ .zoneNotFound name tried) := by
  by_cases empty : (bare domain).isEmpty
  · refine Or.inr ⟨fun h => ?_,
      _, by rw [zoneCandidates, dnsName, if_pos empty]; rfl, by rintro _ _ ⟨⟩⟩
    have labels := h.labels
    rw [folded, List.isEmpty_iff.mp empty] at labels
    simp at labels
  · by_cases wide : (bare domain).any fun c => 128 ≤ c.toNat
    · refine Or.inr ⟨fun h => ?_,
        _, by rw [zoneCandidates, dnsName, if_neg empty, if_pos wide]; rfl,
        by rintro _ _ ⟨⟩⟩
      obtain ⟨c, hc, high⟩ := List.any_eq_true.mp wide
      have low := h.ascii _ (List.mem_map_of_mem hc)
      rw [DnsWire.toAsciiLowercase_lt] at low
      simp at high
      omega
    · have name : dnsName domain = .ok (String.ofList (folded domain)) := by
        rw [dnsName, if_neg empty, if_neg wide, folded]
      have ascii : ∀ c ∈ folded domain, c.toNat < 128 := by
        intro c hc
        obtain ⟨d, hd, rfl⟩ := List.mem_map.mp hc
        rw [DnsWire.toAsciiLowercase_lt]
        by_contra high
        exact wide (List.any_eq_true.mpr ⟨d, hd, by simpa using high⟩)
      have labels : (String.ofList (folded domain)).toList.splitOn '.' =
          (folded domain).splitOn '.' := by
        rw [String.toList_ofList]
      by_cases short : (((folded domain).splitOn '.').length < 2 ||
          ((folded domain).splitOn '.').any List.isEmpty) = true
      · refine Or.inr ⟨fun h => ?_, .notADomain (String.ofList (folded domain)),
          ?_, by rintro _ _ ⟨⟩⟩
        · rw [Bool.or_eq_true, decide_eq_true_eq, List.any_eq_true] at short
          rcases short with few | ⟨label, there, empty⟩
          · exact absurd h.labels (by omega)
          · exact h.filled (List.isEmpty_iff.mp empty ▸ there)
        · rw [zoneCandidates, name]
          simp only [bind, Except.bind, labels, if_pos short]
      · refine Or.inl ⟨⟨ascii, ?_, fun there => ?_⟩, ?_⟩
        · rw [Bool.or_eq_true, not_or, decide_eq_true_eq] at short
          omega
        · rw [Bool.or_eq_true, not_or, List.any_eq_true] at short
          exact short.2 ⟨[], there, rfl⟩
        · rw [zoneCandidates, name]
          simp only [bind, Except.bind, labels, if_neg short, suffixes]

/-- The zones an account has of one name. -/
def zonesOf (account : List Zone) (candidate : String) : List Zone :=
  account.filter (named candidate)

/-- Every query for a name is answered with zones of the account, those of that name among them. -/
def Answered [Serde] (account : List Zone) (send : Send) : Prop :=
  ∀ candidate, ∃ status body zones, send (zonesQuery candidate) = .ok (status, body) ∧
    parseZones status body = .ok zones ∧ (zonesOf account candidate).Subperm zones ∧
    zones.Subperm account

/-- What the zones of a name decide, where there is one. -/
inductive Settled (account : List Zone) (candidate : String) : Except CfError Zone → Prop
  | found {zone : Zone} : zonesOf account candidate = [zone] → zone.status = "active" →
    Settled account candidate (.ok zone)
  | inactive {zone : Zone} : zonesOf account candidate = [zone] → zone.status ≠ "active" →
    Settled account candidate (.error (.zoneNotActive zone.name zone.status))
  | ambiguous : 1 < (zonesOf account candidate).length →
    Settled account candidate (.error (.zoneAmbiguous candidate (zonesOf account candidate).length))

section
variable [Serde] {account : List Zone} {send : Send}

/-- Whatever else an answer holds, it is the zones of the name that decide. -/
theorem pick_answered (answered : Answered account send) (candidate : String) :
    ∃ zones, ask send candidate = .ok zones ∧
      ((zonesOf account candidate = [] ∧ pick zones candidate = .ok none) ∨
        ∃ result, Settled account candidate result ∧ pick zones candidate = result.map some) := by
  obtain ⟨status, body, zones, sent, parsed, among, known⟩ := answered candidate
  have same : (zones.filter (named candidate)).Perm (zonesOf account candidate) := by
    refine List.Subperm.antisymm (known.filter _) ?_
    have inside := among.filter (named candidate)
    simpa [zonesOf, List.filter_filter] using inside
  refine ⟨zones, ?_, ?_⟩
  · rw [ask, sent]
    exact parsed
  rw [pick]
  by_cases several : 1 < (zonesOf account candidate).length
  · rw [if_pos (by rwa [same.length_eq]), same.length_eq]
    exact Or.inr ⟨_, .ambiguous several, rfl⟩
  · rw [if_neg (by rwa [same.length_eq])]
    cases there : zonesOf account candidate with
    | nil =>
      rw [there, List.perm_nil] at same
      exact Or.inl ⟨rfl, by rw [same]; rfl⟩
    | cons zone others =>
      cases others with
      | cons other rest => exact absurd (by simp [there]) several
      | nil =>
        rw [there, List.perm_singleton] at same
        rw [same, List.getLast?_singleton]
        by_cases active : zone.status = "active"
        · exact Or.inr ⟨_, .found there active, by simp [active, Except.map]⟩
        · exact Or.inr ⟨_, .inactive there active, by simp [active, Except.map]⟩

/-- A name without zones is passed by. -/
theorem walk_pass (answered : Answered account send) {candidate : String}
    (none : zonesOf account candidate = []) (notFound : CfError) (rest : List String) :
    walk (ask send) notFound (candidate :: rest) = walk (ask send) notFound rest := by
  obtain ⟨zones, asked, ⟨_, picked⟩ | ⟨result, settled, _⟩⟩ := pick_answered answered candidate
  · simp only [walk, asked, picked, bind, Except.bind]
  · cases settled with
    | found one _ => rw [none] at one; cases one
    | inactive one _ => rw [none] at one; cases one
    | ambiguous several => rw [none] at several; exact absurd several (by simp)

/-- A name with a zone ends the walk. -/
theorem walk_settle (answered : Answered account send) {candidate : String}
    (some : zonesOf account candidate ≠ []) (notFound : CfError) (rest : List String) :
    Settled account candidate (walk (ask send) notFound (candidate :: rest)) := by
  obtain ⟨zones, asked, ⟨none, _⟩ | ⟨result, settled, picked⟩⟩ := pick_answered answered candidate
  · exact absurd none some
  · cases result with
    | error e =>
      simp only [walk, asked, picked, bind, Except.bind]
      exact settled
    | ok zone =>
      simp only [walk, asked, picked, bind, Except.bind]
      exact settled

/-- A walk passes the names without zones and ends with the first that has one. -/
theorem walk_cases (answered : Answered account send) (notFound : CfError)
    (candidates : List String) :
    ((∀ c ∈ candidates, zonesOf account c = []) ∧ walk (ask send) notFound candidates =
      .error notFound) ∨
      ∃ before candidate after, candidates = before ++ candidate :: after ∧
        (∀ c ∈ before, zonesOf account c = []) ∧ zonesOf account candidate ≠ [] ∧
        Settled account candidate (walk (ask send) notFound candidates) := by
  induction candidates with
  | nil => exact Or.inl ⟨by simp, rfl⟩
  | cons first rest ih =>
    by_cases none : zonesOf account first = []
    · rw [walk_pass answered none]
      rcases ih with ⟨unmatched, ended⟩ | ⟨before, candidate, after, rfl, unmatched, found, settled⟩
      · exact Or.inl ⟨List.forall_mem_cons.mpr ⟨none, unmatched⟩, ended⟩
      · exact Or.inr ⟨first :: before, candidate, after, rfl,
          List.forall_mem_cons.mpr ⟨none, unmatched⟩, found, settled⟩
    · exact Or.inr ⟨[], first, rest, rfl, by simp, none, walk_settle answered none notFound rest⟩

end

/-- The first of the candidates that the account has zones for. -/
def FirstMatch (account : List Zone) (domain candidate : String) : Prop :=
  ∃ before after, suffixes (folded domain) = before ++ candidate :: after ∧
    (∀ c ∈ before, zonesOf account c = []) ∧ zonesOf account candidate ≠ []

theorem FirstMatch.unique {account : List Zone} {domain c c' : String}
    (h : FirstMatch account domain c) (h' : FirstMatch account domain c') : c = c' := by
  have found : ∀ {candidate : String}, FirstMatch account domain candidate →
      (suffixes (folded domain)).find? (fun c => decide (zonesOf account c ≠ [])) =
        some candidate := by
    rintro candidate ⟨before, after, split, unmatched, there⟩
    refine List.find?_eq_some_iff_append.mpr ⟨by simpa using there, before, after,
      split, fun c hc => ?_⟩
    simpa using unmatched c hc
  exact Option.some.inj ((found h).symm.trans (found h'))

/-- `find_zone` goes by the most specific name that the account has a zone for, and by no
other; the names it tries are the suffixes of the domain. -/
theorem findZone_most_specific [Serde] {account : List Zone} {send : Send}
    (answered : Answered account send) {token : String} {value : Client.HeaderValue}
    (authorized : Client.HeaderValue.bearer token = .ok value) (domain : String) :
    ((∃ e, zoneCandidates domain = .error e) ↔ ¬IsDomain (folded domain)) ∧
    (∀ candidates, zoneCandidates domain = .ok candidates →
      (∀ c, c ∈ candidates ↔ IsCandidate (folded domain) c) ∧
      candidates.Pairwise fun longer shorter => shorter.toList.length < longer.toList.length) ∧
    (∀ zone, findZone send token domain = .ok zone ↔ IsDomain (folded domain) ∧
      ∃ candidate, FirstMatch account domain candidate ∧ zonesOf account candidate = [zone] ∧
        zone.status = "active") ∧
    (∀ candidate, IsDomain (folded domain) → FirstMatch account domain candidate →
      Settled account candidate (findZone send token domain)) ∧
    (∀ name tried, findZone send token domain = .error (.zoneNotFound name tried) ↔
      name = domain ∧ zoneCandidates domain = .ok tried ∧ ∀ c ∈ tried, zonesOf account c = []) := by
  have apart : ∀ {α : Type} {a : α} {e : CfError}, (Except.ok a : Except CfError α) ≠ .error e := by
    rintro _ _ _ ⟨⟩
  rcases zoneCandidates_cases domain with ⟨good, listed⟩ | ⟨bad, e, refused, other⟩
  · have found : findZone send token domain =
        walk (ask send) (.zoneNotFound domain (suffixes (folded domain)))
          (suffixes (folded domain)) := by
      simp only [findZone, listed, authorized, Except.mapError, bind, Except.bind]
    refine ⟨iff_of_false ?_ (not_not.mpr good), ?_, ?_⟩
    · rintro ⟨e, refused⟩
      exact apart (listed.symm.trans refused)
    · intro candidates h
      obtain rfl := Except.ok.inj (listed.symm.trans h)
      exact ⟨fun c => mem_suffixes, suffixes_longest_first _⟩
    rw [found]
    rcases walk_cases answered (.zoneNotFound domain (suffixes (folded domain)))
      (suffixes (folded domain)) with
      ⟨unmatched, ended⟩ | ⟨before, candidate, after, split, unmatched, some, settled⟩
    · have no_match : ∀ {candidate : String}, ¬FirstMatch account domain candidate := by
        rintro candidate ⟨before, after, split, _, there⟩
        exact there (unmatched candidate (by simp [split]))
      rw [ended]
      refine ⟨fun zone => iff_of_false apart.symm ?_,
        fun candidate _ first => absurd first no_match,
        fun name tried => ⟨?_, ?_⟩⟩
      · rintro ⟨_, candidate, first, _⟩
        exact no_match first
      · intro missing
        obtain ⟨rfl, rfl⟩ := CfError.zoneNotFound.inj (Except.error.inj missing)
        exact ⟨rfl, listed, unmatched⟩
      · rintro ⟨rfl, h, _⟩
        rw [Except.ok.inj (listed.symm.trans h)]
    · have first : FirstMatch account domain candidate := ⟨before, after, split, unmatched, some⟩
      refine ⟨fun zone => ⟨fun ok => ?_, ?_⟩, fun other _ h => h.unique first ▸ settled,
        fun name tried => ?_⟩
      · rw [ok] at settled
        cases settled with
        | found one active => exact ⟨good, candidate, first, one, active⟩
      · rintro ⟨_, other, h, one, active⟩
        cases h.unique first
        revert settled
        generalize walk _ _ _ = result
        rintro (⟨one', _⟩ | ⟨one', inactive⟩ | several)
        · rw [one] at one'
          cases one'
          rfl
        · rw [one] at one'
          cases one'
          exact absurd active inactive
        · rw [one] at several
          exact absurd several (by simp)
      · refine iff_of_false (fun missing => ?_) ?_
        · rw [missing] at settled
          cases settled
        · rintro ⟨_, h, none⟩
          obtain rfl := Except.ok.inj (listed.symm.trans h)
          exact some (none candidate (by simp [split]))
  · have failed : findZone send token domain = .error e := by
      simp only [findZone, refused, bind, Except.bind]
    refine ⟨iff_of_true ⟨e, refused⟩ bad,
      fun candidates h => absurd (h.symm.trans refused) apart, ?_,
      fun _ good => absurd good bad, fun name tried => iff_of_false ?_ ?_⟩
    · rw [failed]
      exact fun zone => iff_of_false apart.symm fun h => bad h.1
    · rw [failed]
      exact fun h => other name tried (Except.error.inj h)
    · exact fun h => absurd (h.2.1.symm.trans refused) apart

/-- An account whose zone above a delegated one is the only one to be active. -/
def sampleAccount : List Zone :=
  [⟨"1", "example.com", "active", ["a.ns"]⟩, ⟨"2", "Net.example.com", "pending", ["a.ns", "b.ns"]⟩]

/-- What Cloudflare lists of an account. -/
def listed (account : List Zone) : Json.Value :=
  .obj
    [("result", .arr (account.map fun zone => .obj [("id", .str zone.id), ("name", .str zone.name),
    ("status", .str zone.status), ("name_servers", .arr (zone.nameServers.map .str))])),
    ("success", .bool true), ("errors", .arr [])]

/-- The hub's own parser reads what Cloudflare answers here. -/
@[reducible] def parsing : Serde where
  fromStr text :=
    letI := asciiTables
    match Json.parse text with
    | .ok value => .ok value
    | .err e => .error e.display
    | _ => .error "no JSON"

theorem parsing_ok {text : String} {value : Json.Value}
    (h : letI := asciiTables; Json.parse text = .ok value) : parsing.fromStr text = .ok value := by
  show (match @Json.parse asciiTables text with
    | .ok value => Except.ok value
    | .err e => .error e.display
    | _ => .error "no JSON") = .ok value
  rw [h]

/-- A small account is listed whole, whatever name is asked for. -/
def listing (query : String) : Except String (UInt16 × String) :=
  if zonesPath.toList <+: query.toList then .ok (200, Json.toString (listed sampleAccount))
  else .ok (404, Json.toString (.obj [("success", .bool false)]))

theorem listing_answered : @Answered parsing sampleAccount listing := by
  let := asciiTables
  let := parsing
  intro candidate
  have path : zonesPath.toList <+: (zonesQuery candidate).toList := by
    rw [zonesQuery, String.append_assoc, String.toList_append]
    exact List.prefix_append _ _
  have read : Json.parse (Json.toString (listed sampleAccount)) = .ok (listed sampleAccount) := by
    have built : (listed sampleAccount).Built := by
      simp [listed, sampleAccount, Json.Value.Built, Json.Value.BuiltItems, Json.Value.BuiltFields]
    exact ((Json.parse_written (listed sampleAccount) built).1 (by decide)).1
  refine ⟨200, _, sampleAccount, if_pos path, ?_, List.filter_sublist.subperm, List.Subperm.refl _⟩
  have understood : Serde.fromStr (Json.toString (listed sampleAccount)) =
      .ok (listed sampleAccount) := parsing_ok read
  have result : parseResult 200 (Json.toString (listed sampleAccount)) =
      .ok ((field (listed sampleAccount) "result").getD .null) := by
    rw [parseResult, if_neg (by decide), if_neg (by decide), understood]
    rfl
  simp only [parseZones, result]
  decide +kernel

/-- Every query is answered with all there is; the zone that is not active decides. -/
theorem findZone_most_specific_sample :
    letI := parsing
    Settled sampleAccount "net.example.com"
      (findZone listing "token" " hub.NET.example.com. ") := by
  have authorized : Client.HeaderValue.bearer "token" =
      .ok ⟨"Bearer token", by decide +kernel⟩ := by
    decide +kernel
  have name : folded " hub.NET.example.com. " = "hub.net.example.com".toList := by decide +kernel
  have good : IsDomain (folded " hub.NET.example.com. ") := by
    have ascii : ("hub.net.example.com".toList.all fun c => c.toNat < 128) = true := by
      decide +kernel
    rw [name]
    exact ⟨fun c hc => of_decide_eq_true (List.all_eq_true.mp ascii c hc), by decide +kernel,
      by decide +kernel⟩
  have first : FirstMatch sampleAccount " hub.NET.example.com. " "net.example.com" := by
    rw [FirstMatch, name]
    refine ⟨["hub.net.example.com"], ["example.com"], by decide +kernel, fun c hc => ?_,
      by decide +kernel⟩
    rw [List.mem_singleton.mp hc]
    decide +kernel
  exact (@findZone_most_specific parsing _ _ listing_answered _ _ authorized _).2.2.2.1 _ good first

end ZoneLookup
