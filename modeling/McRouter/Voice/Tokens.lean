import McRouter.Voice.Lease
import McRouter.Config.Validate
import McRouter.Proxy.Routing

/-!
# Backend tokens

`validateVoiceChat` reads a backend's token from the environment, refuses it
if there is nothing in it but white space, and keeps it as it was read;
`startVoiceChat` hands it to the runtime; `authenticate` trims what follows
`Bearer ` and compares the rest with it. A backend whose own token comes
through in a header is known by it exactly if trimming leaves the token as
it is (`tokens_authenticate_iff`): one that starts with a space is accepted
by validation and then locked out. No header is ever taken for a token it
does not carry.
-/

namespace McRouter

open Strings Unicode

/-- `VoiceBackend.Token`, as a validation that finds no error leaves it. -/
def Config.VoiceBackend.token (env : Env) (backend : Config.VoiceBackend) : GoString :=
  env.getenv backend.tokenEnv

namespace Voice

/-! ## `startVoiceChat` -/

/-- The backends that `startVoiceChat` collects. -/
def voiceBackends (env : Env) (voice : Config.VoiceChat) : GoMap GoString BackendConfig where
  entries := voice.backends.entries.map fun e => ⟨e.1, ⟨e.2.udp, e.2.token env⟩⟩
  nodupKeys := by
    have hkeys := voice.backends.nodupKeys
    rw [List.NodupKeys, List.keys] at hkeys ⊢
    rwa [List.map_map]

/-- The configuration that `startVoiceChat` hands to `NewRuntime`. -/
def voiceConfig (voice : Config.VoiceChat) (backends : GoMap GoString BackendConfig) : Config where
  listen := voice.listen
  registrationListen := voice.registration.listen
  registrationTTL := voice.registration.registrationTTL
  requestTimeout := voice.registration.requestTimeout
  maxRegistrations := voice.registration.maxRegistrations
  idleTimeout := voice.session.idleTimeout
  backendDialTimeout := voice.session.backendDialTimeout
  maxSessions := voice.session.maxSessions
  maxPacketSize := voice.session.maxPacketSize
  backends

/-- `startVoiceChat`; `backends` are the ones it collects, in the order in
which `NewRuntime` comes to visit them. -/
def startVoiceChat (net : NetEnv) (voice : Config.VoiceChat)
    (backends : GoMap GoString BackendConfig) : Except Err (Option Runtime) :=
  if !voice.enabled then .ok none
  else (newRuntime net (voiceConfig voice backends)).map some

theorem lookup_voiceBackends {env : Env} {voice : Config.VoiceChat} {id : GoString}
    {backend : BackendConfig} : (voiceBackends env voice).lookup id = some backend ↔
      ∃ b, voice.backends.lookup id = some b ∧ backend = ⟨b.udp, b.token env⟩ := by
  rw [← GoMap.mem_entries]
  constructor
  · intro h
    obtain ⟨⟨id', b⟩, hmem, heq⟩ := List.mem_map.mp h
    cases heq
    exact ⟨b, GoMap.mem_entries.mp hmem, rfl⟩
  · rintro ⟨b, hb, rfl⟩
    exact List.mem_map.mpr ⟨⟨id, b⟩, GoMap.mem_entries.mpr hb, rfl⟩

/-! ## What validation leaves -/

/-- A backend loop without errors has seen no token twice. -/
theorem tokens_of_validate {env : Env} : ∀ {entries : List (Σ _ : GoString, Config.VoiceBackend)}
    {seenTokens : List (GoString × GoString)},
    Config.validateVoiceBackends env seenTokens entries = [] →
    (∀ e ∈ entries, seenTokens.lookup (e.2.token env) = none) ∧
      entries.Pairwise fun e e' => e.2.token env ≠ e'.2.token env := by
  intro entries
  induction entries with
  | nil =>
    intro seenTokens _
    exact ⟨nofun, List.Pairwise.nil⟩
  | cons e entries ih =>
    intro seenTokens h
    simp only [Config.validateVoiceBackends] at h
    split_ifs at h
    · simp at h
    · simp at h
    split at h
    · simp at h
    rename_i hnew
    obtain ⟨hseen, hpairs⟩ := ih (List.append_eq_nil_iff.mp h).2
    -- the token of `e` is among those seen when the rest is visited
    have hrest : ∀ e' ∈ entries, e.2.token env ≠ e'.2.token env ∧
        seenTokens.lookup (e'.2.token env) = none := by
      intro e' he'
      have := hseen e' he'
      rw [List.lookup_cons] at this
      split at this
      · cases this
      · rename_i hne
        exact ⟨fun heq => ne_of_beq_false hne heq.symm, this⟩
    exact ⟨List.forall_mem_cons.mpr ⟨hnew, fun e' he' => (hrest e' he').2⟩,
      List.pairwise_cons.mpr ⟨fun e' he' => (hrest e' he').1, hpairs⟩⟩

/-- **Accepted tokens tell the backends apart.** -/
theorem token_injective {env : Env} {voice : Config.VoiceChat} (hen : voice.enabled = true)
    (hvalid : Config.validateVoiceChat env voice = none) {id id' : GoString}
    {b b' : Config.VoiceBackend} (hb : voice.backends.lookup id = some b)
    (hb' : voice.backends.lookup id' = some b') (htoken : b.token env = b'.token env) :
    id = id' := by
  rw [Config.validateVoiceChat, if_neg (by simp [hen]), errorsJoin_eq_none,
    List.flatten_eq_nil_iff] at hvalid
  have hloop : Config.validateVoiceBackends env [] voice.backends.entries = [] :=
    hvalid _ (by simp)
  have hpairs := (tokens_of_validate hloop).2
  by_contra hne
  have hsymm : Std.Symm fun e e' : Σ _ : GoString, Config.VoiceBackend =>
      e.2.token env ≠ e'.2.token env := ⟨fun _ _ h => h.symm⟩
  refine hpairs.forall (GoMap.mem_entries.mpr hb) (GoMap.mem_entries.mpr hb') ?_ htoken
  intro heq
  exact hne (congrArg Sigma.fst heq)

/-! ## What a header carries -/

/-- `isLWS` of `net/http`. -/
def isLWS (b : UInt8) : Bool := b = 32 || b = 9

/-- `ValidHeaderFieldValue`, without which a request is refused before its
handler: no control character but the tab. -/
def validFieldValue (value : GoString) : Bool := value.all fun b => !(b < 32 || b = 127) || isLWS b

/-- A header value that a handler may come to see: a valid one, without the
blanks at its ends that are cut off where the header is read. -/
def received (value : GoString) : Bool :=
  validFieldValue value && value.head?.all (!isLWS ·) && value.getLast?.all (!isLWS ·)

/-- After `Bearer ` comes the token, with nothing but white space around it. -/
def Carries (authorization token : GoString) : Prop :=
  ∃ rest front core back, authorization = go "Bearer " ++ rest ∧
    runes rest = front ++ core ++ back ∧ (∀ r ∈ front ++ back, isSpace r.code = true) ∧
    core.flatMap Rune.bytes = token

theorem bearerToken_bearer (token : GoString) :
    bearerToken (go "Bearer " ++ token) = some (trimSpace token) := by
  have hprefix : hasPrefix (go "Bearer " ++ token) (go "Bearer ") = true :=
    List.isPrefixOf_iff_prefix.mpr (List.prefix_append _ _)
  simp [bearerToken, trimPrefix, hprefix]

theorem carries_of_bearerToken {authorization token : GoString}
    (h : bearerToken authorization = some token) : Carries authorization token := by
  have hprefix : hasPrefix authorization (go "Bearer ") = true := by
    by_contra hprefix
    rw [bearerToken, if_neg hprefix] at h
    cases h
  obtain ⟨rest, rfl⟩ := List.isPrefixOf_iff_prefix.mp hprefix
  rw [bearerToken_bearer] at h
  have htrim : trimSpace rest = token := Option.some.inj h
  obtain ⟨front, core, back, hrunes, hspace, hcore⟩ := runes_trimSpace rest
  exact ⟨rest, front, core, back, rfl, hrunes, hspace, hcore.trans htrim⟩

/-! ## Authentication -/

/-- A token that only one backend has authenticates as that backend,
wherever it stands in the list. -/
theorem authenticate_of_token {r : Runtime} {authorization token id : GoString}
    (hbearer : bearerToken authorization = some token) (hmem : ⟨id, token⟩ ∈ r.tokens)
    (honly : ∀ candidate ∈ r.tokens, candidate.token = token → candidate.backendID = id) :
    r.authenticate authorization = some id := by
  have hsome : (r.tokens.find? fun candidate => token = candidate.token).isSome :=
    List.find?_isSome.mpr ⟨_, hmem, by simp⟩
  obtain ⟨candidate, hfind⟩ := Option.isSome_iff_exists.mp hsome
  have htoken : token = candidate.token := by simpa using List.find?_some hfind
  have hid := honly candidate (List.mem_of_find?_eq_some hfind) htoken.symm
  simp only [Runtime.authenticate, hbearer, hfind, Option.map_some, hid]

/-- The backends that a runtime was started with. -/
theorem newRuntime_of_start {net : NetEnv} {voice : Config.VoiceChat}
    {backends : GoMap GoString BackendConfig} {r : Runtime}
    (h : startVoiceChat net voice backends = .ok (some r)) :
    voice.enabled = true ∧ newRuntime net (voiceConfig voice backends) = .ok r := by
  unfold startVoiceChat at h
  split_ifs at h with hen
  · cases h
  refine ⟨by simpa using hen, ?_⟩
  cases hnew : newRuntime net (voiceConfig voice backends) with
  | error err =>
    rw [hnew] at h
    cases h
  | ok r' =>
    rw [hnew] at h
    cases h
    rfl

/-- **Authentication agrees with validation exactly if no token that comes
through in a header has white space at its ends.** Every such token then
authenticates as its own backend, in whatever order the tokens come to
stand. That a header is never taken for a token it does not carry holds in
any case. -/
theorem tokens_authenticate_iff (env : Env) (voice : Config.VoiceChat)
    (hvalid : Config.validateVoiceChat env voice = none) {backends : GoMap GoString BackendConfig}
    (horder : backends.entries.Perm (voiceBackends env voice).entries) {net : NetEnv} {r : Runtime}
    (hstart : startVoiceChat net voice backends = .ok (some r)) :
    ((∀ id b, voice.backends.lookup id = some b → received (go "Bearer " ++ b.token env) = true →
        r.authenticate (go "Bearer " ++ b.token env) = some id) ∧
      ∀ authorization id, r.authenticate authorization = some id →
        ∃ b, voice.backends.lookup id = some b ∧ Carries authorization (b.token env)) ↔
    ∀ id b, voice.backends.lookup id = some b → received (go "Bearer " ++ b.token env) = true →
      trimSpace (b.token env) = b.token env := by
  obtain ⟨hen, hnew⟩ := newRuntime_of_start hstart
  have hlookup : ∀ {id backend}, backends.lookup id = some backend ↔
      ∃ b, voice.backends.lookup id = some b ∧ backend = ⟨b.udp, b.token env⟩ := by
    intro id backend
    rw [← lookup_voiceBackends, ← GoMap.mem_entries, ← GoMap.mem_entries, horder.mem_iff]
  -- what a header authenticates as has the token of the header
  have hsound : ∀ {authorization id}, r.authenticate authorization = some id →
      ∃ b, voice.backends.lookup id = some b ∧
        bearerToken authorization = some (b.token env) := by
    intro authorization id hauth
    obtain ⟨backend, hbackend, hbearer⟩ := (newRuntime_ok hnew).2 authorization id hauth
    obtain ⟨b, hb, rfl⟩ := hlookup.mp hbackend
    exact ⟨b, hb, hbearer⟩
  constructor
  · rintro ⟨hown, -⟩ id b hb hreceived
    obtain ⟨b', hb', hbearer⟩ := hsound (hown id b hb hreceived)
    obtain rfl : b = b' := Option.some.inj (hb.symm.trans hb')
    rw [bearerToken_bearer] at hbearer
    exact Option.some.inj hbearer
  · intro htrim
    constructor
    · intro id b hb hreceived
      have hbearer := bearerToken_bearer (b.token env)
      rw [htrim id b hb hreceived] at hbearer
      refine authenticate_of_token hbearer ?_ ?_
      · rw [newRuntime_tokens hnew]
        exact List.mem_map.mpr ⟨⟨id, ⟨b.udp, b.token env⟩⟩,
          GoMap.mem_entries.mpr (hlookup.mpr ⟨b, hb, rfl⟩), rfl⟩
      · intro candidate hcandidate htoken
        rw [newRuntime_tokens hnew] at hcandidate
        obtain ⟨⟨id', backend⟩, hmem, rfl⟩ := List.mem_map.mp hcandidate
        obtain ⟨b', hb', rfl⟩ := hlookup.mp (GoMap.mem_entries.mp hmem)
        exact token_injective hen hvalid hb' hb htoken
    · intro authorization id hauth
      obtain ⟨b, hb, hbearer⟩ := hsound hauth
      exact ⟨b, hb, carries_of_bearerToken hbearer⟩

/-- One backend, whose token is in `LOBBY_TOKEN`. -/
def lobbyVoice : Config.VoiceChat :=
  { enabled := true,
    backends := List.toAList [⟨go "lobby", ⟨go "10.0.0.2:24454", go "LOBBY_TOKEN"⟩⟩] }

/-- Every variable of the environment has this value. -/
def tokenEnv (value : GoString) : Env := { Proxy.emptyEnv with getenv := fun _ => value }

/-- A token that starts with a space passes validation, and the backend that
presents it is refused. -/
theorem blank_token_refused :
    ({ Proxy.playConfig with voiceChat := lobbyVoice }).validate (tokenEnv (go " secret")) = none ∧
    ∃ r, startVoiceChat demoNet lobbyVoice (voiceBackends (tokenEnv (go " secret")) lobbyVoice) =
        .ok (some r) ∧
      ∃ b, lobbyVoice.backends.lookup (go "lobby") = some b ∧
        received (go "Bearer " ++ b.token (tokenEnv (go " secret"))) = true ∧
        r.authenticate (go "Bearer " ++ b.token (tokenEnv (go " secret"))) = none :=
  ⟨by decide +kernel, _, rfl, _, rfl, by decide +kernel, by decide +kernel⟩

theorem tokens_authenticate_lobby :
    ∃ r, startVoiceChat demoNet lobbyVoice (voiceBackends (tokenEnv (go "secret")) lobbyVoice) =
        .ok (some r) ∧
      ∀ id b, lobbyVoice.backends.lookup id = some b →
        r.authenticate (go "Bearer " ++ b.token (tokenEnv (go "secret"))) = some id := by
  obtain ⟨r, hstart⟩ : ∃ r, startVoiceChat demoNet lobbyVoice
      (voiceBackends (tokenEnv (go "secret")) lobbyVoice) = .ok (some r) := ⟨_, rfl⟩
  have hiff := tokens_authenticate_iff (tokenEnv (go "secret")) lobbyVoice (by decide +kernel)
    (List.Perm.refl _) hstart
  refine ⟨r, hstart, fun id b hb => (hiff.mpr ?_).1 id b hb ?_⟩
  · intro id b _ _
    show trimSpace (go "secret") = go "secret"
    decide +kernel
  · show received (go "Bearer " ++ go "secret") = true
    decide +kernel

end Voice

end McRouter
