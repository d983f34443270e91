import Anago.Base64
import Anago.Outcome
import Anago.Registry
import Anago.WgConfRead

/-!
# Keys and their base64

What `parseKey` lets through is 43 characters of base64 and an `=`. That is a key of 32 bytes
if the last two bits are zero, which `wg` insists on and `parseKey` does not ask.
-/

open StdText Utf8Text SectionText WgConf Proto

namespace KeyText

/-- `&text[..n]`, which panics inside a character and past the end. -/
def sliceTo (text : List Char) (n : Nat) : Outcome WgError (List Char) :=
  if n = 0 then .ok []
  else
    match text with
    | [] => .panic
    | c :: rest =>
      if n < c.utf8Size then .panic
      else do
        let front ← sliceTo rest (n - c.utf8Size)
        .ok (c :: front)

/-- `parse_key`, with its slice. -/
def parseKeySliced (output : String) : Outcome WgError String :=
  let key := trim output.toList
  if (utf8 key).length = 44 ∧ key.getLast? = some '=' then do
    let front ← sliceTo key 43
    if front.all isBase64 then .ok (String.ofList key) else .err (.badKey key.length)
  else .err (.badKey key.length)

/-- The base64 of 32 bytes. -/
def Canonical (text : List Char) : Prop := ∃ bytes, bytes.length = 32 ∧ Base64.encode bytes = text

/-- If the input has the shape of a key, the last two bits of its 43rd character are zero. -/
def Unused (output : String) : Prop :=
  let key := trim output.toList
  (utf8 key).length = 44 → key.getLast? = some '=' → key.dropLast.all isBase64 = true →
    ∀ c, key.dropLast.getLast? = some c → c ∈ "AEIMQUYcgkosw048".toList

/-- The keys of a section. -/
def keysOf (part : Section) : List (List Char) :=
  (part.settings.filter fun s => s.1 = "PublicKey".toList || s.1 = "PrivateKey".toList).map Prod.snd

/-- `wg syncconf` has no key to refuse in a config. -/
def Pushable (config : SecretText) : Prop :=
  ∃ sections, read config.expose.toList = some sections ∧ ∀ part ∈ sections,
    ∀ key ∈ keysOf part, Canonical key

theorem sliceTo_utf8 (front back : List Char) :
    sliceTo (front ++ back) (utf8 front).length = .ok front := by
  induction front with
  | nil =>
    rw [sliceTo.eq_def]
    exact if_pos rfl
  | cons c front ih =>
    have size := Char.utf8Size_pos c
    have length : (utf8 (c :: front)).length = c.utf8Size + (utf8 front).length := by
      rw [utf8_cons, List.length_append, String.length_utf8EncodeChar]
    rw [length, List.cons_append, sliceTo, if_neg (by omega), if_neg (by omega),
      show c.utf8Size + (utf8 front).length - c.utf8Size = (utf8 front).length by omega, ih]
    rfl

/-- The slice never panics. -/
theorem parseKeySliced_eq (output : String) :
    parseKeySliced output = .ofExcept (parseKey output) := by
  rw [parseKeySliced, parseKey]
  by_cases shape : (utf8 (trim output.toList)).length = 44 ∧
    (trim output.toList).getLast? = some '='
  · obtain ⟨length, last⟩ := shape
    have split := List.dropLast_append_getLast? '=' last
    have front : (utf8 (trim output.toList).dropLast).length = 43 := by
      rw [← split, utf8_append, List.length_append] at length
      have one : (utf8 ['=']).length = 1 := rfl
      omega
    have sliced := sliceTo_utf8 (trim output.toList).dropLast ['=']
    rw [split, front] at sliced
    rw [if_pos ⟨length, last⟩, sliced, Outcome.ok_bind]
    by_cases base : (trim output.toList).dropLast.all isBase64 = true
    · rw [if_pos base, if_pos ⟨length, last, base⟩]
      rfl
    · rw [if_neg base, if_neg fun all => base all.2.2]
      rfl
  · rw [if_neg shape, if_neg fun all => shape ⟨all.1, all.2.1⟩]
    rfl

/-- The characters of a key are those that stand for six bits. -/
theorem isBase64_iff (c : Char) : isBase64 c = true ↔ ∃ n < 64, Base64.digit n = c := by
  constructor
  · intro base
    have all : ∀ n < 128, isBase64 (Char.ofNat n) = true → ∃ m < 64,
        Base64.digit m = Char.ofNat n := by
      decide +kernel
    have there := all c.toNat (isBase64_ascii base)
    rw [Char.ofNat_toNat] at there
    exact there base
  · rintro ⟨n, small, rfl⟩
    have all : ∀ n < 64, isBase64 (Base64.digit n) = true := by decide
    exact all n small

theorem spare_iff {n : Nat} (h : n < 64) :
    Base64.digit n ∈ "AEIMQUYcgkosw048".toList ↔ n % 4 = 0 := by
  have all : ∀ n < 64, Base64.digit n ∈ "AEIMQUYcgkosw048".toList ↔ n % 4 = 0 := by decide
  exact all n h

/-- Characters of base64 are the digits of some groups of six bits. -/
theorem groups_of_base64 {text : List Char} (h : ∀ c ∈ text, isBase64 c = true) :
    ∃ groups : List Nat, (∀ n ∈ groups, n < 64) ∧ groups.map Base64.digit = text := by
  induction text with
  | nil => exact ⟨[], by simp, rfl⟩
  | cons c text ih =>
    obtain ⟨n, small, rfl⟩ := (isBase64_iff c).mp (h c List.mem_cons_self)
    obtain ⟨groups, small', rfl⟩ := ih fun c mem => h c (List.mem_cons_of_mem _ mem)
    exact ⟨n :: groups, List.forall_mem_cons.mpr ⟨small, small'⟩, rfl⟩

theorem encode_key {bytes : List UInt8} (count : bytes.length = 32) :
    Base64.encode bytes = (Base64.sextets bytes).map Base64.digit ++ ['='] := by
  rw [Base64.encode, count]
  rfl

/-- 43 characters and an `=` are the base64 of 32 bytes if the last of them has no bits over. -/
theorem canonical_iff {groups : List Nat} (small : ∀ n ∈ groups, n < 64)
    (length : groups.length = 43) :
    Canonical (groups.map Base64.digit ++ ['=']) ↔ ∀ n, groups.getLast? = some n → n % 4 = 0 := by
  have three : groups.length % 4 = 3 := by omega
  rw [← Base64.sextets_octets small three]
  constructor
  · rintro ⟨bytes, count, same⟩
    rw [encode_key count] at same
    have digits := congrArg (List.mapM Base64.value) (List.append_cancel_right same)
    rw [Base64.mapM_value_digit (Base64.sextets_lt bytes), Base64.mapM_value_digit small] at digits
    rw [← Option.some.inj digits, Base64.octets_sextets]
  · intro same
    have count : (Base64.octets groups).length = 32 := by rw [Base64.length_octets three, length]
    exact ⟨Base64.octets groups, count, by rw [encode_key count, same]⟩

/-- Of the texts that have the shape of a key those are keys whose 43rd character has no bits
over. -/
theorem canonical_of_shape {text : List Char} (length : (utf8 text).length = 44)
    (last : text.getLast? = some '=') (base : text.dropLast.all isBase64 = true) :
    Canonical text ↔ ∀ c, text.dropLast.getLast? = some c → c ∈ "AEIMQUYcgkosw048".toList := by
  have split := List.dropLast_append_getLast? '=' last
  have base := List.all_eq_true.mp base
  obtain ⟨groups, small, digits⟩ := groups_of_base64 base
  have count : groups.length = 43 := by
    rw [← split, utf8_append, List.length_append,
      length_utf8_of_ascii fun c mem => isBase64_ascii (base c mem), List.length_map, ← digits,
      List.length_map] at length
    have one : (utf8 ['=']).length = 1 := rfl
    omega
  rw [← digits] at split ⊢
  rw [← split, canonical_iff small count]
  constructor
  · intro spare c there
    rw [List.getLast?_map] at there
    obtain ⟨n, last, rfl⟩ := Option.map_eq_some_iff.mp there
    exact (spare_iff (small n (List.mem_of_getLast? last))).mpr (spare n last)
  · intro spare n last
    exact (spare_iff (small n (List.mem_of_getLast? last))).mp
      (spare _ (by rw [List.getLast?_map, last]; rfl))

/-- The base64 of 32 bytes has the shape of a key, and nothing to be trimmed. -/
theorem Canonical.shape {text : List Char} (h : Canonical text) :
    (utf8 text).length = 44 ∧ text.getLast? = some '=' ∧ text.dropLast.all isBase64 = true ∧
    trim text = text := by
  obtain ⟨bytes, count, rfl⟩ := h
  have digits : ∀ c ∈ (Base64.sextets bytes).map Base64.digit, isBase64 c = true := by
    intro c mem
    obtain ⟨n, there, rfl⟩ := List.mem_map.mp mem
    exact (isBase64_iff _).mpr ⟨n, Base64.sextets_lt bytes n there, rfl⟩
  have length : (Base64.sextets bytes).length = 43 := by rw [Base64.length_sextets, count]
  rw [encode_key count]
  refine ⟨?_, by simp, ?_, ?_⟩
  · have one : (utf8 ['=']).length = 1 := rfl
    rw [utf8_append, List.length_append,
      length_utf8_of_ascii fun c mem => isBase64_ascii (digits c mem),
      List.length_map, List.length_map, length, one]
  · rw [List.dropLast_concat]
    exact List.all_eq_true.mpr digits
  · have plain : ∀ c ∈ (Base64.sextets bytes).map Base64.digit ++ ['='],
        isWhitespace c = false := by
      intro c mem
      rcases List.mem_append.mp mem with mem | mem
      · exact isBase64_not_whitespace (digits c mem)
      · rw [List.mem_singleton.mp mem]
        decide
    exact trim_of_ends (fun c there => plain c (List.mem_of_head? there)) fun c there =>
      plain c (List.mem_of_getLast? there)

theorem Canonical.parse {key : String} (h : Canonical key.toList) : parseKey key = .ok key := by
  obtain ⟨length, last, base, trimmed⟩ := h.shape
  rw [parseKey, trimmed, if_pos ⟨length, last, base⟩, String.ofList_toList]

theorem Canonical.isKey {key : String} (h : Canonical key.toList) : IsKey key := ⟨key, h.parse⟩

section
variable [Unicode]

/-- The keys of a state are the base64 of 32 bytes. -/
structure Sound (state : ServerState) : Prop where
  server : Canonical state.server.privateKey.text.toList
  peers : ∀ peer ∈ state.peers, Canonical peer.publicKey.toList

/-- If all keys have the shape of one, the config is refused for one that is none. -/
theorem pushable_iff {state : ServerState} (secret : IsKey state.server.privateKey.text)
    (keys : ∀ peer ∈ state.peers, IsKey peer.publicKey) :
    Pushable (serverConfig state) ↔ Sound state := by
  have own : keysOf (interfaceSection state) = [state.server.privateKey.text.toList] := rfl
  have theirs : ∀ peer : Peer, keysOf (tunnel peer) = [peer.publicKey.toList] := fun _ => rfl
  constructor
  · rintro ⟨sections, readable, fine⟩
    rw [read_serverConfig secret keys] at readable
    cases readable
    refine ⟨fine _ List.mem_cons_self _ (by rw [own]; exact List.mem_cons_self), fun peer mem => ?_⟩
    exact fine (tunnel peer) (List.mem_cons_of_mem _ (List.mem_map_of_mem mem)) _
      (by rw [theirs]; exact List.mem_cons_self)
  · intro sound
    refine ⟨_, read_serverConfig secret keys, ?_⟩
    intro part mem key there
    rcases List.mem_cons.mp mem with rfl | mem
    · rw [own, List.mem_singleton] at there
      exact there ▸ sound.server
    · obtain ⟨peer, listed, rfl⟩ := List.mem_map.mp mem
      rw [theirs, List.mem_singleton] at there
      exact there ▸ sound.peers peer listed

omit [Unicode] in
/-- What is accepted is a key exactly if it has no bits over. -/
theorem canonical_of_parse {output key : String} (accepted : parseKey output = .ok key) :
    key.toList = trim output.toList ∧ (Canonical key.toList ↔ Unused output) := by
  rw [parseKey] at accepted
  split at accepted
  · next shape =>
    cases accepted
    obtain ⟨length, last, base⟩ := shape
    rw [String.toList_ofList, canonical_of_shape length last base]
    exact ⟨rfl, fun spare _ _ _ => spare, fun unused => unused length last base⟩
  · cases accepted

/-- After a join the config can be pushed exactly if the device's key has no bits over. -/
theorem join_pushable_iff {state state' : ServerState} {request : JoinRequest} {token : DeviceToken}
    {tokenHash : TokenHash} {now : Int64} {response : JoinResponse} (sound : Sound state)
    (joined : Api.decideJoin state request token tokenHash now = (.ok response, state')) :
    Pushable (serverConfig state') ↔ Unused request.publicKey := by
  rcases Registry.decideJoin_cases state request token tokenHash now with
    ⟨e, refused⟩ | ⟨code, name, publicKey, peer, after, _, _, _, _, _, _, parsed,
      registered, applied, _⟩
  · rw [refused] at joined
    cases joined
  rw [applied] at joined
  cases joined
  have added : peer.publicKey = publicKey := registered.peer_publicKey
  have server : state'.server = state.server := by rw [registered.result]
  have peers : state'.peers = state.peers ++ [peer] := by rw [registered.result]
  have keys : ∀ p ∈ state'.peers, IsKey p.publicKey := by
    intro p mem
    rw [peers] at mem
    rcases List.mem_append.mp mem with mem | mem
    · exact (sound.peers p mem).isKey
    · rw [List.mem_singleton.mp mem, added]
      exact ⟨_, parsed⟩
  rw [pushable_iff (server ▸ sound.server.isKey) keys, ← (canonical_of_parse parsed).2, ← added]
  constructor
  · intro sound'
    exact sound'.peers peer (peers ▸ List.mem_append_right _ (List.mem_singleton.mpr rfl))
  · intro canonical
    refine ⟨server ▸ sound.server, fun p mem => ?_⟩
    rw [peers] at mem
    rcases List.mem_append.mp mem with mem | mem
    · exact sound.peers p mem
    · exact List.mem_singleton.mp mem ▸ canonical

/-- What is to be of an input of `parseKey`: it is accepted exactly if it is a key, which is
decoded and like no other, and the hub whose device registers with it can push its config. -/
structure Right (output : String) : Prop where
  accepts : ∀ key, parseKey output = .ok key ↔ key.toList = trim output.toList ∧
    Canonical key.toList
  decodes : ∀ key, parseKey output = .ok key → ∃ bytes,
    Base64.decode key.toList = some bytes ∧ bytes.length = 32
  same : ∀ key key', parseKey output = .ok key → Canonical key'.toList →
    (Base64.decode key.toList = Base64.decode key'.toList ↔ key = key')
  pushes : ∀ (state : ServerState) (request : JoinRequest) (token : DeviceToken)
    (tokenHash : TokenHash) (now : Int64) (response : JoinResponse) (state' : ServerState),
      Sound state → request.publicKey = output →
    Api.decideJoin state request token tokenHash now = (.ok response, state') →
    Pushable (serverConfig state')

/-- An input is dealt with as it should be exactly if it has no bits over. -/
theorem parseKey_right_iff (output : String) :
    parseKeySliced output = .ofExcept (parseKey output) ∧ (Right output ↔ Unused output) := by
  refine ⟨parseKeySliced_eq output, ?_⟩
  constructor
  · intro right length last base
    have accepted : parseKey output = .ok (String.ofList (trim output.toList)) := by
      rw [parseKey]
      exact if_pos ⟨length, last, base⟩
    have canonical := ((right.accepts _).mp accepted).2
    exact (canonical_of_parse accepted).2.mp canonical length last base
  · intro unused
    have accepts : ∀ key, parseKey output = .ok key ↔
        key.toList = trim output.toList ∧ Canonical key.toList := by
      intro key
      constructor
      · intro accepted
        obtain ⟨text, canonical⟩ := canonical_of_parse accepted
        exact ⟨text, canonical.mpr unused⟩
      · rintro ⟨text, canonical⟩
        obtain ⟨length, last, base, _⟩ := canonical.shape
        rw [text] at length last base
        rw [parseKey, if_pos ⟨length, last, base⟩, ← text, String.ofList_toList]
    refine ⟨accepts, ?_, ?_, ?_⟩
    · intro key accepted
      obtain ⟨_, bytes, count, same⟩ := (accepts key).mp accepted
      exact ⟨bytes, Base64.decode_eq_some.mpr same, count⟩
    · intro key key' accepted canonical
      obtain ⟨_, bytes, _, same⟩ := (accepts key).mp accepted
      obtain ⟨bytes', _, same'⟩ := canonical
      rw [Base64.decode_eq_some.mpr same, Base64.decode_eq_some.mpr same',
        ← String.toList_inj, ← same, ← same']
      constructor
      · rintro ⟨⟩
        rfl
      · intro texts
        rw [Base64.encode_inj texts]
    · rintro state request token tokenHash now response state' sound rfl joined
      exact (join_pushable_iff sound joined).mpr unused

end

/-- 32 zero bytes, but for a bit that is not used. -/
def oddKey : String := String.ofList (List.replicate 42 'A' ++ ['B', '='])

/-- It is accepted. -/
theorem parseKey_accepts_odd :
    ¬∀ key, parseKey oddKey = .ok key ↔ key.toList = trim oddKey.toList ∧ Canonical key.toList := by
  intro all
  have accepted : parseKey oddKey = .ok oddKey := by decide +kernel
  have unused := (canonical_of_parse accepted).2.mp ((all oddKey).mp accepted).2
  have spare := unused (by decide +kernel) (by decide +kernel) (by decide +kernel) 'B'
    (by decide +kernel)
  exact absurd spare (by decide)

end KeyText
