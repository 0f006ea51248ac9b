import McRouter.Voice.Effect

/-!
# The companion's registration client

`RegistrationHttpClient.java` of the companion plugin, and what becomes of
its requests in the gateway's registration API (`voicechat/runtime.go`).
The client writes the path and the header that `handleRegistration` reads:
with a token the gateway knows and an owner that is not blank, a request
reaches the handler it is meant for (`handle_known`). What the answers say
and do is in `answer_register`, `answer_refresh` and `answer_unregister`.
-/

namespace McRouter

namespace Companion

open Strings Unicode Net Voice

/-- `CompanionConfig`, as far as it is read here. -/
structure CompanionConfig where
  token : GoString
  instanceId : GoString
  maxTrackedPlayers : ℕ

/-- `Lease`. Two leases are equal if they are the same object; `object` is
the number of the request whose answer the lease was read from. -/
structure Lease where
  object : ℕ
  playerUuid : UUID
  leaseId : GoString
  expiresAt : ℤ
deriving DecidableEq

/-- What the client is asked to do. -/
inductive Ask where
  | register (playerUuid : UUID)
  | refresh (playerUuid : UUID) (lease : Lease)
  | unregister (playerUuid : UUID) (lease : Lease)
deriving DecidableEq

namespace CompanionConfig

variable (config : CompanionConfig)

/-- The `Authorization` header. -/
def authorization : GoString := go "Bearer " ++ config.token

/-- `request` with a method and a body. -/
def request (method : Method) (playerUuid : UUID) (suffix : GoString) (body : LeaseRequest) :
    HTTPRequest where
  method := method
  authorization := config.authorization
  path := go "/v1/voicechat/registrations/" ++ (playerUuid.string ++ suffix)
  body := some body

/-- `leaseBody`. -/
def leaseBody (lease : Lease) : LeaseRequest where
  ownerID := config.instanceId
  leaseID := lease.leaseId

/-- The request that `register`, `refresh` or `unregister` sends. -/
def requestFor : Ask → HTTPRequest
  | .register playerUuid => config.request .put playerUuid [] { ownerID := config.instanceId }
  | .refresh playerUuid lease =>
    config.request .post playerUuid (go "/refresh") (config.leaseBody lease)
  | .unregister playerUuid lease => config.request .delete playerUuid [] (config.leaseBody lease)

end CompanionConfig

/-! ## The gateway -/

/-- An answer of the registration API: a registration, or a status without
one. -/
inductive Response where
  | registration (leaseID : GoString) (expiresAt : ℤ)
  | status (code : ℕ)
deriving DecidableEq

/-- `writeRegistrationResponse`. -/
def writeRegistrationResponse (reg : Registration) : Response :=
  .registration reg.leaseID reg.expiresAt

/-- `handleRegistration` with its handlers, for request number `n`. -/
def answer (r : Runtime) (ids : LeaseIDs) (now : ℤ) (n : ℕ) (req : HTTPRequest) (s : Shared) :
    Response × Shared :=
  match r.handleRegistration req with
  | .error code => (.status code, s)
  | .ok (backendID, .put uuid ownerID) =>
    match ids.newLeaseID n with
    | none => (.status 500, s)
    | some leaseID =>
      match s.putRegistration r
          ⟨uuid, backendID, ownerID, leaseID, 0, now + r.cfg.registrationTTL⟩ with
      | (.closed, _) => (.status 503, s)
      | (.limit, _) => (.status 429, s)
      | (.stored reg _, s) => (writeRegistrationResponse reg, s)
  | .ok (backendID, .refresh uuid ownerID leaseID) =>
    match s.refreshRegistration r now uuid backendID ownerID leaseID with
    | (none, _) => (.status 409, s)
    | (some reg, s) => (writeRegistrationResponse reg, s)
  | .ok (backendID, .delete uuid ownerID leaseID) =>
    (.status 204, (s.deleteRegistration uuid backendID ownerID leaseID).2)

/-- The random bytes of `newLeaseID`, sixteen for each request unless they
cannot be read; they are assumed never to come twice. -/
structure LeaseBytes where
  random : ℕ → Option { bytes : List UInt8 // bytes.length = 16 }
  fresh : ∀ i j bytes, random i = some bytes → random j = some bytes → i = j

/-- `newLeaseID`. -/
def LeaseBytes.ids (bytes : LeaseBytes) : LeaseIDs where
  newLeaseID i := (bytes.random i).map fun b => hexEncode b.1
  fresh i j id hi hj := by
    obtain ⟨b, hb, rfl⟩ := Option.map_eq_some_iff.mp hi
    obtain ⟨b', hb', heq⟩ := Option.map_eq_some_iff.mp hj
    have hsame : b' = b := Subtype.ext (hexEncode_injective heq)
    exact bytes.fresh i j b hb (hsame ▸ hb')

/-- A lease is not blank. -/
theorem LeaseBytes.not_blank {bytes : LeaseBytes} {n : ℕ} {leaseID : GoString}
    (h : bytes.ids.newLeaseID n = some leaseID) : trimSpace leaseID ≠ [] := by
  obtain ⟨⟨b, hlength⟩, -, rfl⟩ := Option.map_eq_some_iff.mp h
  have hgroup : ∀ c ∈ hexEncode b, isGroupByte c = true := by
    intro c hc
    by_contra hno
    exact notMem_hexEncode (Bool.eq_false_iff.mpr hno) hc
  have hplain : ∀ c : UInt8, isGroupByte c = true → c < 0x80 ∧ isSpace c.toNat = false :=
    forall_byte (by decide +kernel)
  have htrim : trimSpace (hexEncode b) = hexEncode b :=
    trimSpace_eq_self (fun c hc => (hplain c (hgroup c hc)).1) fun c hc =>
      (hplain c (hgroup c hc)).2
  intro hnil
  have hlen := congrArg List.length (htrim.symm.trans hnil)
  rw [length_hexEncode, hlength] at hlen
  cases hlen

/-! ## What the gateway makes of a request -/

/-- The path of a player. -/
theorem parseRegistrationPath_player (u : UUID) :
    parseRegistrationPath (go "/v1/voicechat/registrations/" ++ u.string) = some (u, []) ∧
      parseRegistrationPath (go "/v1/voicechat/registrations/" ++ (u.string ++ go "/refresh")) =
        some (u, go "refresh") := by
  have hslash : go "/refresh" = 47 :: go "refresh" := by decide
  refine ⟨parseRegistrationPath_eq_some.mpr (Or.inl ⟨rfl, rfl⟩),
    parseRegistrationPath_eq_some.mpr (Or.inr ⟨?_, by decide⟩)⟩
  rw [hslash]

/-- The command that the gateway is meant to read off a request. -/
def Ask.command (config : CompanionConfig) : Ask → Command
  | .register playerUuid => .put playerUuid config.instanceId
  | .refresh playerUuid lease => .refresh playerUuid config.instanceId lease.leaseId
  | .unregister playerUuid lease => .delete playerUuid config.instanceId lease.leaseId

/-- The request is for a lease without a name. -/
def Ask.Blank : Ask → Prop
  | .register _ => False
  | .refresh _ lease => trimSpace lease.leaseId = []
  | .unregister _ lease => trimSpace lease.leaseId = []

/-- The gateway knows the companion as this backend. -/
def Known (r : Runtime) (config : CompanionConfig) (backendID : GoString) : Prop :=
  r.authenticate config.authorization = some backendID ∧ trimSpace config.instanceId ≠ []

section Answers

variable {r : Runtime} {config : CompanionConfig} {backendID : GoString} {p : UUID} {lease : Lease}

/-- **A request reaches its handler** if the gateway knows the companion. -/
theorem handle_known (h : Known r config backendID) (ask : Ask) (hask : ¬ ask.Blank) :
    r.handleRegistration (config.requestFor ask) = .ok (backendID, ask.command config) := by
  obtain ⟨hauth, howner⟩ := h
  cases ask with
  | register p =>
    simp [Runtime.handleRegistration, CompanionConfig.requestFor, CompanionConfig.request, hauth,
      (parseRegistrationPath_player p).1, putBody, howner, Ask.command]
  | refresh p lease =>
    have hlease : trimSpace lease.leaseId ≠ [] := hask
    simp [Runtime.handleRegistration, CompanionConfig.requestFor, CompanionConfig.request, hauth,
      (parseRegistrationPath_player p).2, leaseBody, CompanionConfig.leaseBody, howner, hlease,
      Ask.command]
  | unregister p lease =>
    have hlease : trimSpace lease.leaseId ≠ [] := hask
    simp [Runtime.handleRegistration, CompanionConfig.requestFor, CompanionConfig.request, hauth,
      (parseRegistrationPath_player p).1, leaseBody, CompanionConfig.leaseBody, howner, hlease,
      Ask.command]

/-- A request is refused, or reaches its handler. -/
theorem handle_cases (r : Runtime) (config : CompanionConfig) (ask : Ask) :
    (∃ code, r.handleRegistration (config.requestFor ask) = .error code) ∨
      ∃ backendID, Known r config backendID ∧
        r.handleRegistration (config.requestFor ask) = .ok (backendID, ask.command config) := by
  cases hauth : r.authenticate config.authorization with
  | none =>
    refine Or.inl ⟨401, ?_⟩
    cases ask <;>
      simp [Runtime.handleRegistration, CompanionConfig.requestFor, CompanionConfig.request, hauth]
  | some backendID =>
    by_cases hbad : trimSpace config.instanceId = [] ∨ ask.Blank
    · refine Or.inl ⟨400, ?_⟩
      cases ask with
      | register p =>
        have howner : trimSpace config.instanceId = [] := hbad.resolve_right id
        simp [Runtime.handleRegistration, CompanionConfig.requestFor, CompanionConfig.request, hauth,
          (parseRegistrationPath_player p).1, putBody, howner]
      | refresh p lease =>
        simp only [Ask.Blank] at hbad
        simp [Runtime.handleRegistration, CompanionConfig.requestFor, CompanionConfig.request, hauth,
          (parseRegistrationPath_player p).2, leaseBody, CompanionConfig.leaseBody, hbad]
      | unregister p lease =>
        simp only [Ask.Blank] at hbad
        simp [Runtime.handleRegistration, CompanionConfig.requestFor, CompanionConfig.request, hauth,
          (parseRegistrationPath_player p).1, leaseBody, CompanionConfig.leaseBody, hbad]
    · have hknown : Known r config backendID := ⟨hauth, fun h => hbad (Or.inl h)⟩
      exact Or.inr ⟨backendID, hknown, handle_known hknown _ fun h => hbad (Or.inr h)⟩

variable {ids : LeaseIDs} {now : ℤ} {n : ℕ} {s s' : Shared} {resp : Response}

/-- **A `PUT` is refused, or stores the registration it answers with.** -/
theorem answer_register (h : answer r ids now n (config.requestFor (.register p)) s = (resp, s')) :
    (s' = s ∧ ∃ code, resp = .status code) ∨
      ∃ reg, Known r config reg.backendID ∧ reg.ownerID = config.instanceId ∧
        ids.newLeaseID n = some reg.leaseID ∧ resp = writeRegistrationResponse reg ∧
        s' = { s with registrations := s.registrations.insert p reg } := by
  rcases handle_cases r config (.register p) with ⟨code, hcode⟩ | ⟨backendID, hknown, hok⟩
  · simp only [answer, hcode, Prod.mk.injEq] at h
    exact Or.inl ⟨h.2.symm, code, h.1.symm⟩
  simp only [answer, hok, Ask.command] at h
  cases hid : ids.newLeaseID n with
  | none =>
    simp only [hid, Prod.mk.injEq] at h
    exact Or.inl ⟨h.2.symm, 500, h.1.symm⟩
  | some leaseID =>
    simp only [hid] at h
    rcases hput : s.putRegistration r ⟨p, backendID, config.instanceId, leaseID, 0,
      now + r.cfg.registrationTTL⟩ with ⟨_ | _ | ⟨reg, replaced⟩, s₁⟩
    · simp only [hput, Prod.mk.injEq] at h
      exact Or.inl ⟨h.2.symm, 503, h.1.symm⟩
    · simp only [hput, Prod.mk.injEq] at h
      exact Or.inl ⟨h.2.symm, 429, h.1.symm⟩
    · simp only [hput, Prod.mk.injEq] at h
      obtain ⟨rfl, rfl⟩ := h
      rcases putRegistration_cases hput with ⟨hout, -⟩ | ⟨stored, old, hout, -, hstored, rfl⟩
      · rcases hout with hout | hout <;> cases hout
      · obtain ⟨rfl, rfl⟩ := Shared.Put.stored.inj hout
        subst hstored
        exact Or.inr ⟨_, hknown, rfl, rfl, rfl, rfl⟩

/-- **A refresh is refused, or moves the deadline of the registration**, and
answers with the lease it was made for. -/
theorem answer_refresh
    (h : answer r ids now n (config.requestFor (.refresh p lease)) s = (resp, s')) :
    (s' = s ∧ ∃ code, resp = .status code) ∨
      ∃ reg expiresAt, s.registrations.lookup p = some reg ∧
        resp = .registration lease.leaseId expiresAt ∧
        s' = { s with registrations := s.registrations.insert p { reg with expiresAt } } := by
  rcases handle_cases r config (.refresh p lease) with ⟨code, hcode⟩ | ⟨backendID, hknown, hok⟩
  · simp only [answer, hcode, Prod.mk.injEq] at h
    exact Or.inl ⟨h.2.symm, code, h.1.symm⟩
  simp only [answer, hok, Ask.command] at h
  rcases hrefresh : s.refreshRegistration r now p backendID config.instanceId lease.leaseId with
    ⟨_ | reg', s₁⟩
  · simp only [hrefresh, Prod.mk.injEq] at h
    exact Or.inl ⟨h.2.symm, 409, h.1.symm⟩
  · simp only [hrefresh, Prod.mk.injEq] at h
    obtain ⟨rfl, rfl⟩ := h
    rcases refreshRegistration_cases hrefresh with ⟨hout, -⟩ | ⟨reg, hout, hreg, hheld, rfl⟩
    · cases hout
    · obtain rfl := Option.some.inj hout
      have hlease : reg.leaseID = lease.leaseId := hheld.2.2
      exact Or.inr ⟨reg, _, hreg, by rw [writeRegistrationResponse, ← hlease], rfl⟩

/-- **A `DELETE` by the holder deletes the registration**, and another one
does nothing. -/
theorem answer_unregister (hlease : trimSpace lease.leaseId ≠ [])
    (h : answer r ids now n (config.requestFor (.unregister p lease)) s = (resp, s')) :
    (∃ reg, s.registrations.lookup p = some reg ∧ reg.leaseID = lease.leaseId ∧
        s' = { s with registrations := s.registrations.erase p }) ∨
      s' = s ∧ ∀ reg, s.registrations.lookup p = some reg → Known r config reg.backendID →
        reg.ownerID = config.instanceId → reg.leaseID ≠ lease.leaseId := by
  rcases handle_cases r config (.unregister p lease) with ⟨code, hcode⟩ | ⟨backendID, hknown, hok⟩
  · simp only [answer, hcode, Prod.mk.injEq] at h
    refine Or.inr ⟨h.2.symm, fun reg hreg hknown => ?_⟩
    rw [handle_known hknown (.unregister p lease) hlease] at hcode
    cases hcode
  simp only [answer, hok, Ask.command, Prod.mk.injEq] at h
  rcases hdelete : s.deleteRegistration p backendID config.instanceId lease.leaseId with ⟨out, s₁⟩
  rw [hdelete] at h
  obtain ⟨-, rfl⟩ := h
  rcases deleteRegistration_cases hdelete with ⟨-, rfl, hnot⟩ | ⟨reg, -, hreg, hheld, rfl⟩
  · refine Or.inr ⟨rfl, fun reg hreg hknown' howner hleaseID => hnot reg hreg ⟨?_, howner, hleaseID⟩⟩
    exact Option.some.inj (hknown'.1.symm.trans hknown.1)
  · exact Or.inl ⟨reg, hreg, hheld.2.2, rfl⟩

/-- The player that a request is about. -/
def Ask.player : Ask → UUID
  | .register playerUuid => playerUuid
  | .refresh playerUuid _ => playerUuid
  | .unregister playerUuid _ => playerUuid

/-- A request about one player leaves the others alone. -/
theorem answer_other {ask : Ask} (h : answer r ids now n (config.requestFor ask) s = (resp, s'))
    {u : UUID} (hu : u ≠ ask.player) :
    s'.registrations.lookup u = s.registrations.lookup u := by
  cases ask with
  | register p =>
    rcases answer_register h with ⟨rfl, -⟩ | ⟨reg, -, -, -, -, rfl⟩
    · rfl
    · exact AList.lookup_insert_ne hu
  | refresh p lease =>
    rcases answer_refresh h with ⟨rfl, -⟩ | ⟨reg, expiresAt, -, -, rfl⟩
    · rfl
    · exact AList.lookup_insert_ne hu
  | unregister p lease =>
    rcases handle_cases r config (.unregister p lease) with ⟨code, hcode⟩ | ⟨backendID, -, hok⟩
    · simp only [answer, hcode, Prod.mk.injEq] at h
      rw [h.2]
    simp only [answer, hok, Ask.command, Prod.mk.injEq] at h
    rcases hdelete : s.deleteRegistration p backendID config.instanceId lease.leaseId with ⟨out, s₁⟩
    rw [hdelete] at h
    obtain ⟨-, rfl⟩ := h
    rcases deleteRegistration_cases hdelete with ⟨-, rfl, -⟩ | ⟨reg, -, -, -, rfl⟩
    · rfl
    · exact AList.lookup_erase_ne hu

end Answers

end Companion

end McRouter
