import Anago.ClientConf
import Anago.Ipv4Addr
import Anago.Renew

/-!
# The hub's A record

Given every record at the name, the address it is to have and the record id that was cached,
the judgement is to create, to edit, to leave alone or to refuse. Carrying it out and judging
again finds nothing left to do.
-/

open StdText

namespace Dns

/-- A record as Cloudflare lists it, reduced to the fields the judgement uses. -/
structure Record where
  id : String
  kind : String
  content : String
  proxied : Bool
  comment : Option String
  deriving DecidableEq, Repr

namespace Record

/-- An unproxied A record. -/
def a (id content : String) : Record := ⟨id, "A", content, false, none⟩

def isA (record : Record) : Bool := eqIgnoreAsciiCase record.kind.toList "A".toList

def isCname (record : Record) : Bool := eqIgnoreAsciiCase record.kind.toList "CNAME".toList

def pointsAt (record : Record) (ip : Ipv4Addr) : Bool :=
  Ipv4Addr.parse (String.ofList (trim record.content.toList)) == some ip

end Record

/-- Why anago will not touch this name. -/
inductive Refusal where
  | proxied (recordId : String)
  | cname (recordId : String)
  | ambiguous (count : Nat) (ours : Option String)
  | cachedNotAnARecord (recordId kind : String)
  deriving DecidableEq, Repr

/-- What to do with the hub's A record. -/
inductive Upsert where
  | create
  | update (recordId : String) (adopted : Bool)
  | unchanged (recordId : String)
  | refuse (refusal : Refusal)
  deriving DecidableEq, Repr

/-- Decides what the A record needs. A cached id that is absent is dropped. -/
def decide (records : List Record) (desired : Ipv4Addr) (cachedId : Option String) : Upsert :=
  let cached := cachedId.bind fun id => records.find? (·.id == id)
  match cached.filter (!·.isA) with
  | some cached => .refuse (.cachedNotAnARecord cached.id cached.kind)
  | none =>
    match records.find? Record.isCname with
    | some cname => .refuse (.cname cname.id)
    | none =>
      match records.filter Record.isA with
      | [] => .create
      | [ours] =>
        if ours.proxied then .refuse (.proxied ours.id)
        else if ours.pointsAt desired then .unchanged ours.id
        else .update ours.id (cachedId != some ours.id)
      | aRecords =>
        .refuse (.ambiguous aRecords.length (cachedId.filter fun id => aRecords.any (·.id == id)))

/-- `apply_record` once the name is listed, where the API does as asked: what was applied, and
the records at the name afterwards. A new record gets the id `newId`. -/
def applyRecord (records : List Record) (desired : Ipv4Addr) (cachedId : Option String)
    (newId : String) :
    Except Refusal Renew.Applied × List Record :=
  match decide records desired cachedId with
  | .refuse refusal => (.error refusal, records)
  | .unchanged recordId => (.ok (.unchanged recordId), records)
  | .create => (.ok (.created newId), records ++ [.a newId desired.toString])
  | .update recordId adopted =>
    (.ok (.updated recordId adopted), records.map fun record =>
      if record.id = recordId then { record with content := desired.toString } else record)

/-- The cached id is that of a record here which is no A record. -/
def Retyped (records : List Record) (cachedId : Option String) : Prop :=
  ∃ record ∈ records, cachedId = some record.id ∧ record.isA = false

def HasCname (records : List Record) : Prop := ∃ record ∈ records, record.isCname = true

section
variable {records records' : List Record} {desired : Ipv4Addr} {cachedId : Option String}

theorem eq_of_id (distinct : (records.map Record.id).Nodup) {r r' : Record} (mem : r ∈ records)
    (mem' : r' ∈ records) (same : r.id = r'.id) : r = r' :=
  List.inj_on_of_nodup_map distinct mem mem' same

/-- The first thing that is looked at. -/
theorem retyped_iff (distinct : (records.map Record.id).Nodup) (cachedId : Option String) :
    ((cachedId.bind fun id => records.find? (·.id == id)).filter (!·.isA)).isSome = true ↔
      Retyped records cachedId := by
  rw [Option.isSome_iff_exists]
  constructor
  · rintro ⟨cached, h⟩
    obtain ⟨h, other⟩ := Option.filter_eq_some_iff.mp h
    obtain ⟨id, rfl, found⟩ := Option.bind_eq_some_iff.mp h
    refine ⟨cached, List.mem_of_find?_eq_some found, ?_, by simpa using other⟩
    have same := List.find?_some found
    rw [beq_iff_eq] at same
    rw [same]
  · rintro ⟨record, mem, rfl, other⟩
    refine ⟨record, ?_⟩
    rw [Option.filter_eq_some_iff, Option.bind_some]
    refine ⟨?_, by simpa using other⟩
    cases found : records.find? (·.id == record.id) with
    | none => simpa using List.find?_eq_none.mp found record mem
    | some first =>
      have same := List.find?_some found
      rw [beq_iff_eq] at same
      rw [eq_of_id distinct (List.mem_of_find?_eq_some found) mem same]

/-- What is decided, and for what reason. -/
inductive Decided (records : List Record) (desired : Ipv4Addr)
    (cachedId : Option String) : Upsert → Prop
  | retyped {refusal : Refusal} : Retyped records cachedId →
    Decided records desired cachedId (.refuse refusal)
  | cname {refusal : Refusal} : HasCname records →
    Decided records desired cachedId (.refuse refusal)
  | create : ¬Retyped records cachedId → ¬HasCname records → records.filter Record.isA = [] →
    Decided records desired cachedId .create
  | several {refusal : Refusal} : (∀ ours, records.filter Record.isA ≠ [ours]) →
    records.filter Record.isA ≠ [] → Decided records desired cachedId (.refuse refusal)
  | proxied {ours : Record} {refusal : Refusal} : records.filter Record.isA = [ours] →
    ours.proxied = true →
    Decided records desired cachedId (.refuse refusal)
  | unchanged {ours : Record} : ¬Retyped records cachedId → ¬HasCname records →
    records.filter Record.isA = [ours] → ours.proxied = false → ours.pointsAt desired = true →
    Decided records desired cachedId (.unchanged ours.id)
  | update {ours : Record} : ¬Retyped records cachedId → ¬HasCname records →
    records.filter Record.isA = [ours] → ours.proxied = false → ours.pointsAt desired = false →
    Decided records desired cachedId (.update ours.id (cachedId != some ours.id))

theorem decide_decided (distinct : (records.map Record.id).Nodup) (desired : Ipv4Addr)
    (cachedId : Option String) : Decided records desired cachedId
    (decide records desired cachedId) := by
  have retyped := retyped_iff distinct cachedId
  rw [decide]
  split
  · next cached found => exact .retyped (retyped.mp (by rw [found]; rfl))
  next unfound =>
  have typed : ¬Retyped records cachedId := fun h => by
    have some := retyped.mpr h
    rw [unfound] at some
    cases some
  split
  · next cname found => exact .cname ⟨cname, List.mem_of_find?_eq_some found, List.find?_some found⟩
  next unnamed =>
  have alone : ¬HasCname records := by
    rintro ⟨record, mem, isCname⟩
    exact List.find?_eq_none.mp unnamed record mem isCname
  split
  · next empty => exact .create typed alone empty
  · next ours sole =>
    split
    · next proxied => exact .proxied sole proxied
    next direct =>
    split
    · next points => exact .unchanged typed alone sole (by simpa using direct) points
    · next elsewhere =>
        exact .update typed alone sole (by simpa using direct) (by simpa using elsewhere)
  · next empty several => exact .several several empty

theorem decide_eq_create (distinct : (records.map Record.id).Nodup) :
    decide records desired cachedId = .create ↔
      ¬Retyped records cachedId ∧ ¬HasCname records ∧ records.filter Record.isA = [] := by
  have decided := decide_decided distinct desired cachedId
  generalize decide records desired cachedId = outcome at *
  cases decided with
  | retyped retyped => simp [retyped]
  | cname named => simp [named]
  | create typed alone empty => simp [typed, alone, empty]
  | several _ filled => simp [filled]
  | proxied sole _ => simp [sole]
  | unchanged _ _ sole _ _ => simp [sole]
  | update _ _ sole _ _ => simp [sole]

theorem decide_eq_unchanged (distinct : (records.map Record.id).Nodup) {id : String} :
    decide records desired cachedId = .unchanged id ↔
      ¬Retyped records cachedId ∧ ¬HasCname records ∧ ∃ ours, records.filter Record.isA = [ours] ∧
        ours.proxied = false ∧ ours.pointsAt desired = true ∧ ours.id = id := by
  have decided := decide_decided distinct desired cachedId
  generalize decide records desired cachedId = outcome at *
  cases decided with
  | retyped retyped => simp [retyped]
  | cname named => simp [named]
  | create _ _ empty => simp [empty]
  | several several _ => simp [several]
  | proxied sole proxied => simp [sole, proxied]
  | unchanged typed alone sole direct points => simp [typed, alone, sole, direct, points]
  | update _ _ sole _ elsewhere => simp [sole, elsewhere]

theorem decide_eq_update (distinct : (records.map Record.id).Nodup) {id : String} {adopted : Bool} :
    decide records desired cachedId = .update id adopted ↔
      ¬Retyped records cachedId ∧ ¬HasCname records ∧ ∃ ours, records.filter Record.isA = [ours] ∧
        ours.proxied = false ∧ ours.pointsAt desired = false ∧ ours.id = id ∧
          adopted = (cachedId != some id) := by
  have decided := decide_decided distinct desired cachedId
  generalize decide records desired cachedId = outcome at *
  cases decided with
  | retyped retyped => simp [retyped]
  | cname named => simp [named]
  | create _ _ empty => simp [empty]
  | several several _ => simp [several]
  | proxied sole proxied => simp [sole, proxied]
  | unchanged _ _ sole _ points => simp [sole, points]
  | @update ours typed alone sole direct elsewhere =>
    constructor
    · intro same
      obtain ⟨rfl, rfl⟩ := Upsert.update.inj same
      exact ⟨typed, alone, ours, sole, direct, elsewhere, rfl, rfl⟩
    · rintro ⟨_, _, ours', sole', _, _, rfl, rfl⟩
      obtain ⟨rfl, _⟩ := List.cons.inj (sole.symm.trans sole')
      rfl

/-- Two decisions are the same, but for what a refusal tells. -/
def SameDecision (decision decision' : Upsert) : Prop :=
  decision = decision' ∨ ∃ refusal refusal', decision = .refuse refusal ∧
    decision' = .refuse refusal'

/-- Two listings do not differ in anything that the judgement goes by. -/
structure Alike (records records' : List Record) (cachedId : Option String) : Prop where
  aRecords : (records.filter Record.isA).Perm (records'.filter Record.isA)
  cname : HasCname records ↔ HasCname records'
  retyped : Retyped records cachedId ↔ Retyped records' cachedId

theorem Alike.sole (alike : Alike records records' cachedId) {ours : Record} :
    records'.filter Record.isA = [ours] ↔ records.filter Record.isA = [ours] := by
  constructor
  · intro sole
    have perm := alike.aRecords
    rw [sole] at perm
    exact List.perm_singleton.mp perm
  · intro sole
    have perm := alike.aRecords.symm
    rw [sole] at perm
    exact List.perm_singleton.mp perm

theorem Alike.of_perm (perm : records.Perm records') (cachedId : Option String) :
    Alike records records' cachedId := by
  refine ⟨perm.filter _, ?_, ?_⟩
  · simp only [HasCname, perm.mem_iff]
  · simp only [Retyped, perm.mem_iff]

/-- Records that are neither A nor CNAME count only for a cached id that is theirs. -/
theorem Alike.of_relevant (perm : (records.filter fun record => record.isA || record.isCname).Perm
      (records'.filter fun record => record.isA || record.isCname))
    (named : ∀ record ∈ records ++ records', cachedId = some record.id →
      (record.isA || record.isCname) = true) : Alike records records' cachedId := by
  have mem : ∀ record : Record, (record.isA || record.isCname) = true →
      (record ∈ records ↔ record ∈ records') := by
    intro record relevant
    have both := perm.mem_iff (a := record)
    simp only [List.mem_filter, relevant, and_true] at both
    exact both
  refine ⟨?_, ?_, ?_⟩
  · have inner : ∀ list : List Record,
        (list.filter fun record => record.isA || record.isCname).filter Record.isA =
          list.filter Record.isA := by
      intro list
      rw [List.filter_filter]
      refine List.filter_congr fun record _ => ?_
      cases record.isA <;> rfl
    rw [← inner records, ← inner records']
    exact perm.filter _
  · constructor
    · rintro ⟨record, there, isCname⟩
      exact ⟨record, (mem record (by simp [isCname])).mp there, isCname⟩
    · rintro ⟨record, there, isCname⟩
      exact ⟨record, (mem record (by simp [isCname])).mpr there, isCname⟩
  · constructor
    · rintro ⟨record, there, cached, other⟩
      have relevant := named record (List.mem_append_left _ there) cached
      exact ⟨record, (mem record relevant).mp there, cached, other⟩
    · rintro ⟨record, there, cached, other⟩
      have relevant := named record (List.mem_append_right _ there) cached
      exact ⟨record, (mem record relevant).mpr there, cached, other⟩

theorem Alike.decide (alike : Alike records records' cachedId)
    (distinct : (records.map Record.id).Nodup) (distinct' : (records'.map Record.id).Nodup)
    (desired : Ipv4Addr) :
    SameDecision (Dns.decide records' desired cachedId) (Dns.decide records desired cachedId) := by
  have empty : records'.filter Record.isA = [] ↔ records.filter Record.isA = [] := by
    rw [← List.length_eq_zero_iff, ← List.length_eq_zero_iff, alike.aRecords.length_eq]
  cases h : Dns.decide records' desired cachedId with
  | create =>
    rw [decide_eq_create distinct', ← alike.retyped, ← alike.cname, empty,
      ← decide_eq_create distinct] at h
    exact Or.inl h.symm
  | update id adopted =>
    simp only [decide_eq_update distinct', ← alike.retyped, ← alike.cname, alike.sole] at h
    exact Or.inl ((decide_eq_update distinct).mpr h).symm
  | unchanged id =>
    simp only [decide_eq_unchanged distinct', ← alike.retyped, ← alike.cname, alike.sole] at h
    exact Or.inl ((decide_eq_unchanged distinct).mpr h).symm
  | refuse refusal =>
    refine Or.inr ?_
    cases h' : Dns.decide records desired cachedId with
    | create =>
      rw [decide_eq_create distinct, alike.retyped, alike.cname, ← empty,
        ← decide_eq_create distinct', h] at h'
      cases h'
    | update id adopted =>
      simp only [decide_eq_update distinct, alike.retyped, alike.cname, ← alike.sole] at h'
      cases h.symm.trans ((decide_eq_update distinct').mpr h')
    | unchanged id =>
      simp only [decide_eq_unchanged distinct, alike.retyped, alike.cname, ← alike.sole] at h'
      cases h.symm.trans ((decide_eq_unchanged distinct').mpr h')
    | refuse refusal' => exact ⟨refusal, refusal', rfl, rfl⟩

/-- With distinct ids, one A record in the list is one that every A record equals. -/
theorem sole_iff (distinct : (records.map Record.id).Nodup) {ours : Record} :
    records.filter Record.isA = [ours] ↔
      ours ∈ records ∧ ours.isA = true ∧ ∀ other ∈ records, other.isA = true → other = ours := by
  constructor
  · intro sole
    have mem : ours ∈ records.filter Record.isA := by rw [sole]; exact List.mem_singleton_self ours
    refine ⟨(List.mem_filter.mp mem).1, (List.mem_filter.mp mem).2, fun other mem' isA => ?_⟩
    have mem' := List.mem_filter.mpr ⟨mem', isA⟩
    rw [sole] at mem'
    exact List.mem_singleton.mp mem'
  · rintro ⟨mem, isA, only⟩
    have all : ∀ other ∈ records.filter Record.isA, other = ours := fun other mem' =>
      only other (List.mem_filter.mp mem').1 (List.mem_filter.mp mem').2
    have nodup : (records.filter Record.isA).Nodup := (List.Nodup.of_map _ distinct).filter _
    have same := List.eq_replicate_of_mem all
    rw [same, List.nodup_replicate] at nodup
    have filled : 0 < (records.filter Record.isA).length :=
      List.length_pos_of_mem (List.mem_filter.mpr ⟨mem, isA⟩)
    rw [same, show (records.filter Record.isA).length = 1 by omega]
    rfl

/-- An address that was written is read as that address. -/
theorem pointsAt_written {record : Record} {ip : Ipv4Addr}
    (written : record.content = ip.toString) :
    record.pointsAt ip = true := by
  have plain : ∀ c ∈ ip.display, isWhitespace c = false := by
    intro c mem
    rcases Ipv4Addr.display_chars ip c mem with digit | rfl
    · exact isAlphanum_not_whitespace c (by simp [Char.isAlphanum, digit])
    · rfl
  have trimmed : trim ip.display = ip.display :=
    trim_of_ends (fun c first => plain c (List.mem_of_head? first))
      fun c last => plain c (List.mem_of_getLast? last)
  rw [Record.pointsAt, written, Ipv4Addr.toString, String.toList_ofList, trimmed, beq_iff_eq]
  exact Ipv4Addr.parse_toString ip

/-- A sole A record with the right address is left alone by whoever has its id. -/
theorem decide_settled (distinct : (records.map Record.id).Nodup) {ours : Record}
    (sole : records.filter Record.isA = [ours]) (alone : ¬HasCname records)
    (direct : ours.proxied = false) (points : ours.pointsAt desired = true) :
    decide records desired (some ours.id) = .unchanged ours.id := by
  refine (decide_eq_unchanged distinct).mpr ⟨?_, alone, ours, sole, direct, points, rfl⟩
  rintro ⟨record, mem, same, other⟩
  obtain ⟨mem', isA, _⟩ := (sole_iff distinct).mp sole
  rw [eq_of_id distinct mem mem' (Option.some.inj same).symm, isA] at other
  cases other

theorem isA_a (id content : String) : (Record.a id content).isA = true := by
  have same : eqIgnoreAsciiCase "A".toList "A".toList = true := by decide
  exact same

theorem isCname_a (id content : String) : (Record.a id content).isCname = false := by
  have other : eqIgnoreAsciiCase "A".toList "CNAME".toList = false := by decide
  exact other

/-- The record with a new address. -/
def Record.moved (record : Record) (id : String) (desired : Ipv4Addr) : Record :=
  if record.id = id then { record with content := desired.toString } else record

theorem Record.moved_keeps (record : Record) (id : String) (desired : Ipv4Addr) :
    (record.moved id desired).id = record.id ∧ (record.moved id desired).kind = record.kind ∧
      (record.moved id desired).proxied = record.proxied := by
  rw [Record.moved]
  split <;> exact ⟨rfl, rfl, rfl⟩

/-- What was carried out leaves one A record, and nothing to do. -/
theorem applyRecord_settles {newId : String} {applied : Renew.Applied} {after : List Record}
    (distinct : (records.map Record.id).Nodup) (fresh : newId ∉ records.map Record.id)
    (h : applyRecord records desired cachedId newId = (.ok applied, after)) :
    (after.map Record.id).Nodup ∧
      (∃ ours, after.filter Record.isA = [ours] ∧ ours.id = applied.recordId) ∧
        decide after desired (some applied.recordId) = .unchanged applied.recordId := by
  rw [applyRecord.eq_def] at h
  split at h
  · cases h
  · next recordId unchanged =>
    cases h
    obtain ⟨_, alone, ours, sole, direct, points, rfl⟩ :=
      (decide_eq_unchanged distinct).mp unchanged
    exact ⟨distinct, ⟨ours, sole, rfl⟩, decide_settled distinct sole alone direct points⟩
  · next create =>
    cases h
    obtain ⟨_, alone, empty⟩ := (decide_eq_create distinct).mp create
    let new := Record.a newId desired.toString
    have distinct' : ((records ++ [new]).map Record.id).Nodup := by
      rw [List.map_append, List.nodup_append]
      refine ⟨distinct, List.nodup_singleton _, ?_⟩
      rintro id mem _ new rfl
      cases List.mem_singleton.mp new
      exact fresh mem
    have sole : (records ++ [new]).filter Record.isA = [new] := by
      rw [List.filter_append, empty, List.nil_append, List.filter_singleton, isA_a]
      rfl
    have alone' : ¬HasCname (records ++ [new]) := by
      rintro ⟨record, mem, named⟩
      rcases List.mem_append.mp mem with mem | mem
      · exact alone ⟨record, mem, named⟩
      · cases List.mem_singleton.mp mem
        rw [isCname_a] at named
        cases named
    exact ⟨distinct', ⟨new, sole, rfl⟩,
      decide_settled distinct' sole alone' rfl (pointsAt_written rfl)⟩
  · next recordId adopted update =>
    cases h
    obtain ⟨_, alone, ours, sole, direct, _, rfl, _⟩ := (decide_eq_update distinct).mp update
    let moved := fun record : Record => record.moved ours.id desired
    have keeps := fun record : Record => record.moved_keeps ours.id desired
    have ids : (records.map moved).map Record.id = records.map Record.id := by
      rw [List.map_map]
      exact List.map_congr_left fun record _ => (keeps record).1
    have kinds : Record.isA ∘ moved = Record.isA := funext fun record => by
      simp only [Function.comp, Record.isA, moved, (keeps record).2.1]
    have distinct' : ((records.map moved).map Record.id).Nodup := by rw [ids]; exact distinct
    have sole' : (records.map moved).filter Record.isA = [moved ours] := by
      rw [List.filter_map, kinds, sole, List.map_singleton]
    have alone' : ¬HasCname (records.map moved) := by
      rintro ⟨_, there, named⟩
      obtain ⟨record, mem, rfl⟩ := List.mem_map.mp there
      rw [Record.isCname, (keeps record).2.1] at named
      exact alone ⟨record, mem, named⟩
    have points : (moved ours).pointsAt desired = true :=
      pointsAt_written (by simp only [moved, Record.moved, if_true])
    have settled := decide_settled distinct' sole' alone' ((keeps ours).2.2.trans direct) points
    rw [(keeps ours).1] at settled
    exact ⟨distinct', ⟨moved ours, sole', (keeps ours).1⟩, settled⟩

/-- The judgement is exact, does not depend on the order of the records or on records of other
types, and once it is carried out there is one A record and nothing left to do. -/
theorem upsert_settles (distinct : (records.map Record.id).Nodup) (desired : Ipv4Addr)
    (cachedId : Option String) :
    let typed := ∀ record ∈ records, cachedId = some record.id → record.isA = true
    let alone := ∀ record ∈ records, record.isCname = false
    (decide records desired cachedId = .create ↔
      (∀ record ∈ records, record.isA = false) ∧ alone ∧ typed) ∧
    (∀ id, (∃ adopted, decide records desired cachedId = .update id adopted) ∨
        decide records desired cachedId = .unchanged id ↔
      ∃ ours ∈ records, ours.isA = true ∧ (∀ other ∈ records, other.isA = true → other = ours) ∧
        ours.id = id ∧ ours.proxied = false ∧ alone ∧ typed) ∧
    (∀ ours ∈ records, (decide records desired cachedId = .unchanged ours.id →
      ours.pointsAt desired = true) ∧
      ∀ adopted, decide records desired cachedId = .update ours.id adopted →
        ours.pointsAt desired = false ∧ adopted = (cachedId != some ours.id)) ∧
    (∀ records', records.Perm records' →
      SameDecision (decide records' desired cachedId) (decide records desired cachedId)) ∧
    (∀ records', (records'.map Record.id).Nodup →
      (records.filter fun record => record.isA || record.isCname).Perm
        (records'.filter fun record => record.isA || record.isCname) →
      (∀ record ∈ records ++ records', cachedId = some record.id →
        (record.isA || record.isCname) = true) →
        SameDecision (decide records' desired cachedId) (decide records desired cachedId)) ∧
    ∀ newId, newId ∉ records.map Record.id → ∀ result after,
      applyRecord records desired cachedId newId = (result, after) →
        (∀ refusal, result = .error refusal → after = records) ∧
        ∀ applied, result = .ok applied →
          (∃ ours, after.filter Record.isA = [ours] ∧ ours.id = applied.recordId) ∧
          ∀ relisted, after.Perm relisted →
            decide relisted desired (some applied.recordId) = .unchanged applied.recordId := by
  intro typed alone
  have isTyped : ¬Retyped records cachedId ↔ typed := by
    simp only [Retyped, typed, not_exists, not_and, Bool.not_eq_false]
  have isAlone : ¬HasCname records ↔ alone := by
    simp only [HasCname, alone, not_exists, not_and, Bool.not_eq_true]
  refine ⟨?_, ?_, ?_, ?_, ?_, ?_⟩
  · rw [decide_eq_create distinct, isTyped, isAlone, List.filter_eq_nil_iff]
    simp only [Bool.not_eq_true]
    constructor
    · rintro ⟨typed, alone, none⟩
      exact ⟨none, alone, typed⟩
    · rintro ⟨none, alone, typed⟩
      exact ⟨typed, alone, none⟩
  · intro id
    simp only [decide_eq_update distinct, decide_eq_unchanged distinct, isTyped, isAlone,
      sole_iff distinct]
    constructor
    · rintro (⟨_, typed, alone, ours, ⟨mem, isA, only⟩, direct, _, same, _⟩ |
        ⟨typed, alone, ours, ⟨mem, isA, only⟩, direct, _, same⟩)
      · exact ⟨ours, mem, isA, only, same, direct, alone, typed⟩
      · exact ⟨ours, mem, isA, only, same, direct, alone, typed⟩
    · rintro ⟨ours, mem, isA, only, same, direct, alone, typed⟩
      by_cases points : ours.pointsAt desired = true
      · exact Or.inr ⟨typed, alone, ours, ⟨mem, isA, only⟩, direct, points, same⟩
      · exact Or.inl ⟨_, typed, alone, ours, ⟨mem, isA, only⟩,
          direct, by simpa using points, same, rfl⟩
  · intro ours mem
    constructor
    · intro unchanged
      obtain ⟨_, _, ours', sole, _, points, same⟩ := (decide_eq_unchanged distinct).mp unchanged
      rw [eq_of_id distinct mem ((sole_iff distinct).mp sole).1 same.symm]
      exact points
    · intro adopted update
      obtain ⟨_, _, ours', sole, _, elsewhere, same, hadopted⟩ :=
        (decide_eq_update distinct).mp update
      rw [eq_of_id distinct mem ((sole_iff distinct).mp sole).1 same.symm] at *
      exact ⟨elsewhere, hadopted⟩
  · intro records' perm
    have distinct' := (perm.map Record.id).nodup_iff.mp distinct
    exact (Alike.of_perm perm cachedId).decide distinct distinct' desired
  · intro records' distinct' perm named
    exact (Alike.of_relevant perm named).decide distinct distinct' desired
  · intro newId fresh result after h
    constructor
    · rintro refusal rfl
      rw [applyRecord] at h
      split at h <;> cases h
      rfl
    · rintro applied rfl
      obtain ⟨distinct', sole, settled⟩ := applyRecord_settles distinct fresh h
      refine ⟨sole, fun relisted perm => ?_⟩
      have alike := Alike.of_perm perm (some applied.recordId)
      rcases alike.decide distinct' ((perm.map Record.id).nodup_iff.mp distinct') desired
        with same | refused
      · exact same.trans settled
      · obtain ⟨_, _, _, refused⟩ := refused
        cases settled.symm.trans refused

omit records records' desired cachedId in
/-- A record made by hand, beside a text: it is taken over, and then left alone. -/
theorem upsert_settles_sample :
    let records := [⟨"t", "TXT", "v", false, none⟩, Record.a "r" "198.51.100.7"]
    let after := [⟨"t", "TXT", "v", false, none⟩, Record.a "r" "203.0.113.10"]
    applyRecord records ⟨203, 0, 113, 10⟩ none "n" = (.ok (.updated "r" true), after) ∧
      decide after ⟨203, 0, 113, 10⟩ (some "r") = .unchanged "r" := by
  intro records after
  have applied : applyRecord records ⟨203, 0, 113, 10⟩ none "n" =
      (.ok (.updated "r" true), after) := by
    decide +kernel
  have distinct : (records.map Record.id).Nodup := by decide
  obtain ⟨_, _, _, _, _, settles⟩ := upsert_settles distinct ⟨203, 0, 113, 10⟩ none
  obtain ⟨_, settled⟩ := settles "n" (by decide) _ _ applied
  exact ⟨applied, (settled (.updated "r" true) rfl).2 after (List.Perm.refl after)⟩

end

end Dns
