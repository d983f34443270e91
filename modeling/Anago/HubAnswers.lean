import Anago.DeviceRoundTrip
import Anago.Sync
import Anago.WireRoundTrip

/-!
# No answer of a hub adds a line

`join` and `sync` read the same values with code of their own. Either way the config that
is rendered from them has the renderer's lines and no others, because each value is of a
shape without line breaks.
-/

open StdText DecimalText Json Proto SectionText

namespace WgConf

/-- `host:port`, the host over letters, digits, `-` and `.`, the port not 0. -/
def IsEndpoint (text : String) : Prop :=
  ∃ (host : List Char) (port : UInt16), text.toList = host ++ ':' :: showNat port.toNat ∧
    host ≠ [] ∧ (∀ c ∈ host, isHostChar c = true) ∧ port ≠ 0

/-- 44 characters of padded base64. -/
def KeyText (key : String) : Prop :=
  key.toList.length = 44 ∧ ∀ c ∈ key.toList, isBase64 c = true ∨ c = '='

/-- The settings of a device's config. -/
def clientKeys : List String :=
  ["Address", "PrivateKey", "PublicKey", "Endpoint", "AllowedIPs", "PersistentKeepalive"]

/-- The text has the fixed lines, once each and in order, with values of their shapes. No
line sets anything else. -/
structure ClientFile (text : String) (comments : Bool) : Prop where
  lines : ∃ profile : ClientProfile, KeyText profile.privateKey.text ∧
    KeyText profile.serverPublicKey ∧ IsEndpoint profile.serverEndpoint ∧
      text.toList.splitOn '\n' = (clientLines profile comments).map Line.text ++ [[]]
  keys : ∀ line ∈ text.toList.splitOn '\n', line = [] ∨ line.head? = some '#' ∨
    line = "[Interface]".toList ∨ line = "[Peer]".toList ∨
      ∃ key ∈ clientKeys, key.toList ++ " = ".toList <+: line

theorem keyText_of_isKey {key : String} (h : IsKey key) : KeyText key := by
  refine ⟨?_, h.chars⟩
  obtain ⟨init, hkey, hlen, _⟩ := h.shape
  rw [hkey, List.length_append, hlen]
  rfl

theorem isHostChar_plain {c : Char} (h : isHostChar c = true) : c ≠ '#' ∧ isSpace c = false := by
  rw [isHostChar, Bool.or_eq_true, Bool.or_eq_true] at h
  rcases h with (h | h) | h
  · refine ⟨?_, isSpace_of_not_whitespace (isAlphanum_not_whitespace c h)⟩
    rintro rfl
    revert h
    decide
  · rw [of_decide_eq_true h]
    decide
  · rw [of_decide_eq_true h]
    decide

theorem IsEndpoint.plain {text : String} (h : IsEndpoint text) : Plain text.toList := by
  obtain ⟨host, port, htext, _, hhost, _⟩ := h
  rw [htext]
  refine Plain.append (fun c hc => isHostChar_plain (hhost c hc)) ?_
  exact Plain.append (by decide : Plain [':']) (plain_showNat port.toNat)

/-- Every line of the config is told apart when its text is read. -/
theorem clientLines_proper {profile : ClientProfile} (secret : IsKey profile.privateKey.text)
    (key : IsKey profile.serverPublicKey) (endpoint : IsEndpoint profile.serverEndpoint)
    (comments : Bool) : ∀ line ∈ clientLines profile comments, line.Proper := by
  have address : Plain (profile.address.toString ++ "/24").toList := by
    rw [String.toList_append, Ipv4Addr.toString, String.toList_ofList]
    exact plain_display profile.address (by decide)
  have subnet : Plain profile.subnet.toString.toList := by
    rw [Subnet.toString, String.toList_ofList, Subnet.display]
    exact plain_display profile.subnet.network (by decide)
  have secret := plain_of_isKey secret
  have key := plain_of_isKey key
  have endpoint := endpoint.plain
  have written : ∀ line ∈ (if comments then
      [Line.comment " anago — generated file, edits are overwritten".toList]
        else []), line.Proper := by
    cases comments <;> decide
  have server : ∀ line ∈ (if comments then [Line.comment " anago server".toList] else []),
      line.Proper := by
    cases comments <;> decide
  simp only [clientLines, List.forall_mem_cons, List.forall_mem_append, List.not_mem_nil,
    false_implies, implies_true, and_true]
  exact ⟨by decide, written, ⟨by decide, address⟩, ⟨by decide, secret⟩, trivial, by decide, server,
    ⟨by decide, key⟩, ⟨by decide, endpoint⟩, ⟨by decide, subnet⟩, by decide⟩

theorem clientLines_keys (profile : ClientProfile) (comments : Bool) :
    ∀ line ∈ (clientLines profile comments).map Line.text, line = [] ∨ line.head? = some '#' ∨
      line = "[Interface]".toList ∨ line = "[Peer]".toList ∨
        ∃ key ∈ clientKeys, key.toList ++ " = ".toList <+: line := by
  have setting : ∀ key ∈ clientKeys, ∀ value, key.toList ++ " = ".toList <+:
      (Line.setting key.toList value).text := fun key _ value => List.prefix_append _ value
  have remark : ∀ text, ∀ line ∈ (if comments then [Line.comment text] else []),
      line.text.head? = some '#' := by
    intro text line hline
    cases comments with
    | false => cases hline
    | true =>
      rw [List.mem_singleton.mp hline]
      rfl
  rw [List.forall_mem_map]
  simp only [clientLines, List.forall_mem_cons, List.forall_mem_append, List.not_mem_nil,
    false_implies, implies_true, and_true]
  refine ⟨Or.inr (Or.inr (Or.inl rfl)), fun line hline => Or.inr (Or.inl (remark _ line hline)),
    ?_, ?_, Or.inl rfl, Or.inr (Or.inr (Or.inr (Or.inl rfl))),
    fun line hline => Or.inr (Or.inl (remark _ line hline)), ?_, ?_, ?_, ?_⟩ <;>
      exact Or.inr (Or.inr (Or.inr (Or.inr ⟨_, by decide, setting _ (by decide) _⟩)))

/-- Both renderings of a profile whose parts were parsed. -/
theorem clientFile_renderClient {profile : ClientProfile} (secret : IsKey profile.privateKey.text)
    (key : IsKey profile.serverPublicKey) (endpoint : IsEndpoint profile.serverEndpoint)
    (comments : Bool) : ClientFile (renderClient profile comments) comments := by
  have whole : ∀ line ∈ (clientLines profile comments).map Line.text, '\n' ∉ line :=
    List.forall_mem_map.mpr fun line hline =>
      (clientLines_proper secret key endpoint comments line hline).no_newline
  have split : (renderClient profile comments).toList.splitOn '\n' =
      (clientLines profile comments).map Line.text ++ [[]] := by
    rw [renderClient_lines, render, splitOn_unlines whole]
  refine ⟨⟨profile, keyText_of_isKey secret, keyText_of_isKey key, endpoint, split⟩,
    fun line hline => ?_⟩
  rw [split, List.mem_append, List.mem_singleton] at hline
  rcases hline with hline | rfl
  · exact clientLines_keys profile comments line hline
  · exact Or.inl rfl

section
variable [Unicode]

theorem isEndpoint_of_checked {text endpoint : String} (h : checkedEndpoint text = .ok endpoint) :
    IsEndpoint endpoint := by
  rw [checkedEndpoint] at h
  split at h
  · cases h
  next host port _ =>
    split at h
    · cases h
    next named =>
      split at h
      · cases h
      next chars =>
        split at h
        · cases h
        next number _ =>
          split at h
          · cases h
          next real =>
            cases h
            rw [Bool.not_eq_true, Bool.not_eq_false, List.all_eq_true] at chars
            exact ⟨host, number, String.toList_ofList, named, chars, real⟩

/-- An endpoint is read as itself. -/
theorem IsEndpoint.checked {endpoint : String} (h : IsEndpoint endpoint) :
    checkedEndpoint endpoint = .ok endpoint := by
  obtain ⟨host, port, htext, named, chars, real⟩ := h
  have digits : ':' ∉ showNat port.toNat := by
    intro hmem
    have digit := List.all_eq_true.mp (all_isDigit_showNat port.toNat) _ hmem
    revert digit
    decide
  rw [checkedEndpoint, htext, rsplitOnce_append digits]
  simp only [named, if_false, List.all_eq_true.mpr chars, not_true_eq_false, parseU16_showNat, real]
  rw [← htext, String.ofList_toList]

/-- What a join puts into the profile has been parsed. -/
theorem parsed_of_profile {config : DeviceConfig} {privateKey : PrivateKey}
    {profile : ClientProfile} (h : config.profile privateKey = .ok profile) :
    profile.privateKey = privateKey ∧ IsKey profile.serverPublicKey ∧
      IsEndpoint profile.serverEndpoint := by
  rw [DeviceConfig.profile] at h
  obtain ⟨_, _, h⟩ := except_bind_eq_ok h
  obtain ⟨_, _, h⟩ := except_bind_eq_ok h
  obtain ⟨key, hkey, h⟩ := except_bind_eq_ok h
  obtain ⟨endpoint, hendpoint, h⟩ := except_bind_eq_ok h
  cases h
  exact ⟨rfl, ⟨_, Outcome.mapError_eq_ok hkey⟩, isEndpoint_of_checked hendpoint⟩

/-- What a sync believes of the hub has been parsed. -/
theorem parsed_of_reported {response : PeersResponse} {reported : Sync.Reported}
    (h : Sync.reportedOf response = .ok (some reported)) :
    IsKey reported.serverPublicKey ∧ IsEndpoint reported.serverEndpoint := by
  rw [Sync.reportedOf] at h
  split at h
  · cases h
  next hub _ =>
    obtain ⟨_, _, h⟩ := except_bind_eq_ok h
    obtain ⟨key, hkey, h⟩ := except_bind_eq_ok h
    obtain ⟨endpoint, hendpoint, h⟩ := except_bind_eq_ok h
    obtain ⟨_, _, h⟩ := except_bind_eq_ok h
    cases h
    exact ⟨⟨_, Outcome.mapError_eq_ok hkey⟩,
      isEndpoint_of_checked (Outcome.mapError_eq_ok hendpoint)⟩

theorem profile_of_accepted {body domain : String} {apiPort : UInt16} {privateKey : PrivateKey}
    {config : DeviceConfig} {profile : ClientProfile}
    (h : Join.accepted body domain apiPort privateKey = .ok (config, profile)) :
    config.profile privateKey = .ok profile := by
  rw [Join.accepted] at h
  obtain ⟨_, _, h⟩ := Outcome.bind_eq_ok h
  obtain ⟨_, _, h⟩ := Outcome.bind_eq_ok h
  obtain ⟨_, _, h⟩ := Outcome.bind_eq_ok h
  obtain ⟨_, hprofile, h⟩ := Outcome.bind_eq_ok h
  cases h
  exact Outcome.ofExcept_eq_ok.mp hprofile

/-- Whatever a hub answers, the config a device renders from it has the renderer's own lines
and no others: from the answer to a join, and from the values a sync rewrites the file with. -/
theorem hub_adds_no_line {privateKey : PrivateKey} (secret : IsKey privateKey.text) :
    (∀ body domain apiPort config profile,
      Join.accepted body domain apiPort privateKey = .ok (config, profile) →
        ClientFile (clientConfig profile).expose true ∧
          ClientFile (exportProfile profile).expose false) ∧
    ∀ body response reported, Sync.heard body = .ok response →
      Sync.reportedOf response = .ok reported →
        ∀ config own roster changes profile, Sync.localOf config = .ok own →
          Sync.decide own reported roster = .rewrite changes →
            Sync.profileOf (Sync.updated config reported) privateKey = .ok profile →
              ClientFile (clientConfig profile).expose true := by
  constructor
  · intro body domain apiPort config profile haccepted
    obtain ⟨rfl, key, endpoint⟩ := parsed_of_profile (profile_of_accepted haccepted)
    exact ⟨clientFile_renderClient secret key endpoint true,
      clientFile_renderClient secret key endpoint false⟩
  · intro body response reported _ hreported config own roster changes profile _ hdecide hprofile
    obtain ⟨known, rfl, _, _⟩ := Sync.known_of_rewrite hdecide
    obtain ⟨key, endpoint⟩ := parsed_of_reported hreported
    rw [Sync.profileOf] at hprofile
    obtain ⟨_, _, hprofile⟩ := except_bind_eq_ok hprofile
    cases hprofile
    exact clientFile_renderClient secret key endpoint true

end

def sampleKey : String := String.ofList (List.replicate 43 'K' ++ ['='])

/-- What a hub answers to a join. -/
def sampleAnswer : JoinResponse where
  name := "macbook"
  address := "10.44.0.2"
  subnet := "10.44.0.0/24"
  token := String.ofList (List.replicate hexLen 'a')
  serverPublicKey := sampleKey
  serverEndpoint := "hub.example:51820"
  serverAddress := "10.44.0.1"

theorem accepted_answer [Unicode] {answer : JoinResponse} {domain : String} {apiPort : UInt16}
    {privateKey : PrivateKey} {profile : ClientProfile}
    (validate : (DeviceConfig.fromResponse domain apiPort answer).validate = .ok ())
    (hprofile : (DeviceConfig.fromResponse domain apiPort answer).profile
      privateKey = .ok profile) :
    Join.accepted (Json.toString answer.toJson) domain apiPort privateKey =
      .ok (DeviceConfig.fromResponse domain apiPort answer, profile) := by
  rw [Join.accepted, answer.read_written.1]
  simp only [Outcome.mapErr, Outcome.ok_bind, answer.read_written.2, Except.mapError,
    Outcome.ofExcept, validate, hprofile]

theorem hub_adds_no_line_sample :
    letI := asciiTables
    ∃ config profile, Join.accepted (Json.toString sampleAnswer.toJson)
      "hub.example" 443 ⟨sampleKey⟩ =
      .ok (config, profile) ∧ ClientFile (clientConfig profile).expose true := by
  let := asciiTables
  have secret : IsKey sampleKey := ⟨sampleKey, by decide +kernel⟩
  let config := DeviceConfig.fromResponse "hub.example" 443 sampleAnswer
  have validate : config.validate = .ok () := by decide +kernel
  have hprofile : config.profile ⟨sampleKey⟩ = .ok ⟨⟨10, 44, 0, 2⟩,
      ⟨⟨10, 44, 0, 0⟩, rfl⟩, ⟨sampleKey⟩,
    sampleKey, "hub.example:51820"⟩ := by decide +kernel
  have joined := accepted_answer validate hprofile
  exact ⟨config, _, joined, ((hub_adds_no_line secret).1 _ _ _ _ _ joined).1⟩

end WgConf
