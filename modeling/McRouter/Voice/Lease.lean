import McRouter.Voice.Routing

/-!
# Lease safety

The registration table does what the accepted requests say, in the order in
which their critical sections ran: a player's registration is the one of the
last accepted `PUT`, until a `DELETE` by its holder, its deadline or `Close`
takes it away (`lease_safety`). Stale requests of an earlier holder change
nothing, whenever they come.

`live` reads the registrations off the log. That the table agrees with it is
what one step keeps (`Effect.log`), so the goroutines are not looked at here.
-/

namespace McRouter

namespace Voice

open Net

/-! ## The registrations of a log -/

/-- The registrations after everything in the log. -/
def live (log : List Entry) : UUID → Option Registration :=
  log.foldr Entry.applyTo fun _ => none

/-- A `PUT` of this player was accepted. -/
def Entry.storesFor (uuid : UUID) : Entry → Bool
  | .stored _ reg _ => reg.playerUUID = uuid
  | _ => false

/-- What an entry leaves of the registration of a player: a refresh by its
holder moves the deadline; a `DELETE` by its holder, a lookup or a sweep
after the deadline and `Close` remove it. -/
def Entry.survive (uuid : UUID) (reg : Registration) : Entry → Option Registration
  | .refreshed u backendID ownerID leaseID expiresAt =>
    if uuid = u ∧ reg.heldBy backendID ownerID leaseID then some { reg with expiresAt } else some reg
  | .deleted u backendID ownerID leaseID =>
    if uuid = u ∧ reg.heldBy backendID ownerID leaseID then none else some reg
  | .looked u now _ => if uuid = u ∧ reg.expiresAt < now then none else some reg
  | .swept now => if reg.expiresAt < now then none else some reg
  | .closed => none
  | _ => some reg

/-- Between two `PUT`s of a player the entries are taken one by one. -/
theorem applyTo_survive {e : Entry} {uuid : UUID} (he : e.storesFor uuid = false)
    (table : UUID → Option Registration) :
    e.applyTo table uuid = (table uuid).bind fun reg => e.survive uuid reg := by
  cases htable : table uuid with
  | none =>
    cases e with
    | stored authorization stored replaced =>
      simp only [Entry.storesFor, decide_eq_false_iff_not] at he
      simp [Entry.applyTo, htable, Ne.symm he]
    | _ =>
      simp only [Entry.applyTo, htable, Option.map_none, Option.filter_none, ite_self,
        Option.bind_none]
  | some reg =>
    cases e with
    | stored authorization stored replaced =>
      simp only [Entry.storesFor, decide_eq_false_iff_not] at he
      simp [Entry.applyTo, Entry.survive, htable, Ne.symm he]
    | refreshed u backendID ownerID leaseID expiresAt =>
      simp only [Entry.applyTo, Entry.survive, htable, Option.bind_some, Option.map_some]
      split_ifs <;> simp_all
    | deleted u backendID ownerID leaseID =>
      simp only [Entry.applyTo, Entry.survive, htable, Option.bind_some, Option.filter_some]
      split_ifs <;> simp_all
    | looked u now found =>
      simp only [Entry.applyTo, Entry.survive, htable, Option.bind_some, Option.filter_some]
      split_ifs <;> simp_all
    | swept now =>
      simp only [Entry.applyTo, Entry.survive, htable, Option.bind_some, Option.filter_some]
      split_ifs <;> simp_all
    | closed => rfl
    | _ => exact htable

/-- A registration keeps everything but its deadline. -/
theorem survive_eq {e : Entry} {uuid : UUID} {reg reg' : Registration}
    (h : e.survive uuid reg = some reg') : reg' = { reg with expiresAt := reg'.expiresAt } := by
  cases e with
  | refreshed u backendID ownerID leaseID expiresAt =>
    simp only [Entry.survive] at h
    split_ifs at h <;> exact Option.some.inj h ▸ rfl
  | deleted u backendID ownerID leaseID =>
    simp only [Entry.survive] at h
    split_ifs at h
    exact Option.some.inj h ▸ rfl
  | looked u now found =>
    simp only [Entry.survive] at h
    split_ifs at h
    exact Option.some.inj h ▸ rfl
  | swept now =>
    simp only [Entry.survive] at h
    split_ifs at h
    exact Option.some.inj h ▸ rfl
  | closed => cases h
  | _ => exact Option.some.inj h ▸ rfl

/-- What is left of a registration after some entries, the newest first. -/
def survivors (uuid : UUID) (created : Registration) (later : List Entry) : Option Registration :=
  later.foldr (fun e reg => reg.bind fun reg => e.survive uuid reg) (some created)

theorem survivors_eq {uuid : UUID} {created : Registration} : ∀ {later : List Entry}
    {reg : Registration}, survivors uuid created later = some reg →
    reg = { created with expiresAt := reg.expiresAt } := by
  intro later
  induction later with
  | nil =>
    intro reg h
    obtain rfl := Option.some.inj h
    rfl
  | cons e later ih =>
    intro reg h
    obtain ⟨reg₁, h₁, h⟩ := Option.bind_eq_some_iff.mp h
    rw [survive_eq h, ih h₁]

/-- **A player's registration is that of the last accepted `PUT`**, as far
as it is left. -/
theorem live_of_stored {uuid : UUID} {authorization : GoString} {created : Registration}
    {replaced : Option Registration} {earlier : List Entry} (hcreated : created.playerUUID = uuid) :
    ∀ {later : List Entry}, (∀ e ∈ later, e.storesFor uuid = false) →
      live (later ++ .stored authorization created replaced :: earlier) uuid =
        survivors uuid created later := by
  intro later
  induction later with
  | nil =>
    intro _
    exact if_pos hcreated.symm
  | cons e later ih =>
    intro hlater
    have htail := ih fun x hx => hlater x (List.mem_cons_of_mem e hx)
    have hhead := applyTo_survive (hlater e List.mem_cons_self)
      (live (later ++ .stored authorization created replaced :: earlier))
    rw [htail] at hhead
    exact hhead

/-- Without a `PUT` there is no registration. -/
theorem live_eq_none {uuid : UUID} : ∀ {log : List Entry}, (∀ e ∈ log, e.storesFor uuid = false) →
    live log uuid = none := by
  intro log
  induction log with
  | nil =>
    intro _
    rfl
  | cons e log ih =>
    intro hlog
    have htail := ih fun x hx => hlog x (List.mem_cons_of_mem e hx)
    have hhead := applyTo_survive (hlog e List.mem_cons_self) (live log)
    rw [htail] at hhead
    exact hhead

/-- A log either has no `PUT` of a player or a last one. -/
theorem last_stored (uuid : UUID) : ∀ log : List Entry, (∀ e ∈ log, e.storesFor uuid = false) ∨
    ∃ later authorization created replaced earlier,
      log = later ++ .stored authorization created replaced :: earlier ∧
      created.playerUUID = uuid ∧ ∀ e ∈ later, e.storesFor uuid = false := by
  intro log
  induction log with
  | nil => exact Or.inl nofun
  | cons e log ih =>
    cases he : e.storesFor uuid with
    | true =>
      cases e with
      | stored authorization created replaced =>
        exact Or.inr ⟨[], authorization, created, replaced, log, rfl, of_decide_eq_true he, nofun⟩
      | _ => cases he
    | false =>
      rcases ih with ih | ⟨later, authorization, created, replaced, earlier, rfl, hcreated, hlater⟩
      · exact Or.inl (List.forall_mem_cons.mpr ⟨he, ih⟩)
      · exact Or.inr ⟨e :: later, authorization, created, replaced, earlier, rfl, hcreated,
          List.forall_mem_cons.mpr ⟨he, hlater⟩⟩

/-! ## Backends -/

/-- What the backend loop of `NewRuntime` adds. -/
theorem addBackends_ok {env : NetEnv} : ∀ {entries : List (Σ _ : GoString, BackendConfig)}
    {r r' : Runtime}, addBackends env r entries = .ok r' →
    r'.tokens = r.tokens ++ entries.map (fun e => ⟨e.1, e.2.token⟩) ∧
      ∀ id, (r.backends.lookup id ≠ none ∨ ∃ e ∈ entries, e.1 = id) →
        r'.backends.lookup id ≠ none := by
  intro entries
  induction entries with
  | nil =>
    intro r r' h
    cases h
    exact ⟨by simp, fun id hid => hid.resolve_right (by simp)⟩
  | cons e entries ih =>
    intro r r' h
    simp only [addBackends] at h
    split at h
    · cases h
    rename_i r₁ hadd
    have hr₁ : r₁.tokens = r.tokens ++ [⟨e.1, e.2.token⟩] ∧
        ∀ id, r.backends.lookup id ≠ none ∨ id = e.1 → r₁.backends.lookup id ≠ none := by
      unfold addBackend at hadd
      split at hadd
      · cases hadd
      split at hadd
      · cases hadd
      cases hadd
      refine ⟨rfl, fun id hid => ?_⟩
      simp only [GoMap.lookup_insert]
      split_ifs with he
      · nofun
      · exact hid.resolve_right he
    obtain ⟨htokens, hbackends⟩ := ih h
    refine ⟨by rw [htokens, hr₁.1]; simp, fun id hid => hbackends id ?_⟩
    rcases hid with hid | ⟨e', he', rfl⟩
    · exact Or.inl (hr₁.2 id (Or.inl hid))
    · rcases List.mem_cons.mp he' with rfl | he'
      · exact Or.inl (hr₁.2 _ (Or.inr rfl))
      · exact Or.inr ⟨e', he', rfl⟩

theorem cfg_addBackends {env : NetEnv} : ∀ {entries : List (Σ _ : GoString, BackendConfig)}
    {r r' : Runtime}, addBackends env r entries = .ok r' → r'.cfg = r.cfg := by
  intro entries
  induction entries with
  | nil =>
    intro r r' h
    exact Except.ok.inj h ▸ rfl
  | cons e entries ih =>
    intro r r' h
    simp only [addBackends] at h
    split at h
    · cases h
    rename_i r₁ hadd
    have hcfg : r₁.cfg = r.cfg := by
      unfold addBackend at hadd
      split at hadd
      · cases hadd
      split at hadd
      · cases hadd
      · exact Except.ok.inj hadd ▸ rfl
    rw [ih h, hcfg]

/-- The backend's token is the one of the header. -/
def Authenticates (cfg : Config) (authorization backendID : GoString) : Prop :=
  ∃ backend, cfg.backends.lookup backendID = some backend ∧
    bearerToken authorization = some backend.token

/-- A runtime is what the backend loop makes of its configuration. -/
theorem addBackends_of_newRuntime {env : NetEnv} {cfg : Config} {r : Runtime}
    (h : newRuntime env cfg = .ok r) : addBackends env { cfg } cfg.backends.entries = .ok r := by
  unfold newRuntime at h
  split at h
  · cases h
  split at h
  · cases h
  split at h
  · cases h
  exact h

/-- The tokens stand in the order in which the backends were visited. -/
theorem newRuntime_tokens {env : NetEnv} {cfg : Config} {r : Runtime}
    (h : newRuntime env cfg = .ok r) :
    r.tokens = cfg.backends.entries.map fun e => ⟨e.1, e.2.token⟩ :=
  (addBackends_ok (addBackends_of_newRuntime h)).1

/-- **A runtime knows its configured backends and their tokens.** -/
theorem newRuntime_ok {env : NetEnv} {cfg : Config} {r : Runtime} (h : newRuntime env cfg = .ok r) :
    (∀ id, cfg.backends.lookup id ≠ none → r.backends.lookup id ≠ none) ∧
      ∀ authorization id, r.authenticate authorization = some id →
        Authenticates cfg authorization id := by
  have hbackends := (addBackends_ok (addBackends_of_newRuntime h)).2
  constructor
  · intro id hid
    obtain ⟨backend, hid⟩ := Option.ne_none_iff_exists'.mp hid
    exact hbackends id (Or.inr ⟨⟨id, backend⟩, GoMap.mem_entries.mpr hid, rfl⟩)
  · intro authorization id hauth
    unfold Runtime.authenticate at hauth
    split at hauth
    · cases hauth
    rename_i token htoken
    obtain ⟨candidate, hfind, rfl⟩ := Option.map_eq_some_iff.mp hauth
    have hmem := List.mem_of_find?_eq_some hfind
    have heq := List.find?_some hfind
    simp only [newRuntime_tokens h, List.mem_map] at hmem
    obtain ⟨e, he, rfl⟩ := hmem
    refine ⟨e.2, GoMap.mem_entries.mp he, ?_⟩
    rw [htoken, of_decide_eq_true heq]

/-- A request is handled for the backend that its header authenticates. -/
theorem authenticate_of_handle {r : Runtime} {req : HTTPRequest} {backendID : GoString}
    {command : Command} (h : r.handleRegistration req = .ok (backendID, command)) :
    r.authenticate req.authorization = some backendID := by
  unfold Runtime.handleRegistration at h
  split at h
  · cases h
  rename_i id hauth
  split at h
  · cases h
  rw [hauth]
  split_ifs at h
  all_goals
    split at h
    · cases h
    · cases h
      rfl

/-! ## The invariant -/

/-- The table is what the log says; every `PUT` was authenticated, and what
it stored has the next generation; lookups found what was stored. -/
structure LeaseInv (r : Runtime) (w : World) : Prop where
  table : ∀ uuid, w.shared.registrations.lookup uuid = live w.log uuid
  pending : ∀ (i : ℕ) authorization reg, w.requests[i]? = some (.put authorization reg) →
    r.authenticate authorization = some reg.backendID
  stored : ∀ later authorization reg replaced earlier,
    w.log = later ++ .stored authorization reg replaced :: earlier →
    r.authenticate authorization = some reg.backendID ∧ live earlier reg.playerUUID = replaced ∧
      reg.generation = nextGeneration replaced
  looked : ∀ uuid lookedAt reg, .looked uuid lookedAt (some reg) ∈ w.log →
    ∃ authorization, r.authenticate authorization = some reg.backendID

section Invariant

variable {r : Runtime} {ids : LeaseIDs} {w w' : World}

theorem LeaseInv.boot (now : ℤ) : LeaseInv r (boot now) where
  table uuid := rfl
  pending i authorization reg h := by simp [Voice.boot] at h
  stored later authorization reg replaced earlier h := by simp [Voice.boot] at h
  looked uuid lookedAt reg h := by simp [Voice.boot] at h

/-- **Where the stored registration comes from.** -/
theorem LeaseInv.origin (h : LeaseInv r w) {uuid : UUID} {reg : Registration}
    (hreg : w.shared.registrations.lookup uuid = some reg) :
    ∃ later authorization created replaced earlier,
      w.log = later ++ .stored authorization created replaced :: earlier ∧
      created.playerUUID = uuid ∧ (∀ e ∈ later, e.storesFor uuid = false) ∧
      reg = { created with expiresAt := reg.expiresAt } ∧
      r.authenticate authorization = some reg.backendID := by
  rw [h.table] at hreg
  rcases last_stored uuid w.log with hnone | ⟨later, authorization, created, replaced, earlier, hlog,
    hcreated, hlater⟩
  · rw [live_eq_none hnone] at hreg
    cases hreg
  · rw [hlog, live_of_stored hcreated hlater] at hreg
    have heq := survivors_eq hreg
    refine ⟨later, authorization, created, replaced, earlier, hlog, hcreated, hlater, heq, ?_⟩
    rw [(h.stored later authorization created replaced earlier hlog).1, heq]

/-- **The step lemma.** -/
theorem LeaseInv.step (h : LeaseInv r w) {a : Action} (hstep : Voice.step r ids w a = some w') :
    LeaseInv r w' := by
  have hpending : ∀ (i : ℕ) authorization reg, w'.requests[i]? = some (.put authorization reg) →
      r.authenticate authorization = some reg.backendID := by
    intro i authorization reg hput
    rcases put_of_step hstep hput with hput | ⟨-, req, haccept⟩
    · exact h.pending i authorization reg hput
    · obtain ⟨rfl, -, ownerID, hreq⟩ := accept_put haccept
      exact authenticate_of_handle hreq
  rcases (step_effect hstep).log with ⟨hlog, hsame⟩ | ⟨e, hlog, hwritten, -, happly⟩
  · refine ⟨fun uuid => ?_, hpending, ?_, ?_⟩
    · rw [hsame, hlog, h.table]
    · rw [hlog]
      exact h.stored
    · rw [hlog]
      exact h.looked
  have htable : (fun u => w.shared.registrations.lookup u) = live w.log := funext h.table
  refine ⟨fun uuid => ?_, hpending, ?_, ?_⟩
  · rw [happly, hlog, htable]
    rfl
  · intro later authorization reg replaced earlier heq
    rw [hlog] at heq
    cases later with
    | nil =>
      -- the section of the `PUT` saw the table as it was before the entry
      obtain ⟨rfl, rfl⟩ := List.cons.inj heq
      obtain ⟨hreplaced, i, reg₀, -, hput, rfl⟩ := hwritten
      exact ⟨h.pending i authorization reg₀ hput, (h.table _).symm.trans hreplaced, rfl⟩
    | cons x later => exact h.stored later authorization reg replaced earlier (List.cons.inj heq).2
  · intro uuid lookedAt reg hmem
    rw [hlog] at hmem
    rcases List.mem_cons.mp hmem with rfl | hmem
    · obtain ⟨_, authorization, _, _, _, _, _, _, _, hauth⟩ := h.origin hwritten.1
      exact ⟨authorization, hauth⟩
    · exact h.looked uuid lookedAt reg hmem

/-- **The run lemma.** -/
theorem LeaseInv.run {now : ℤ} {actions : List Action}
    (hrun : System.run (Voice.step r ids) (Voice.boot now) actions = some w) : LeaseInv r w :=
  System.run_invariant_of_step (fun _ _ _ h hstep => h.step hstep) (.boot now) hrun

/-- **A stale request changes nothing**, and goes no further. -/
theorem stale_request {i : ℕ} {uuid : UUID} {backendID ownerID leaseID : GoString}
    (hrequest : w.requests[i]? = some (.refresh uuid backendID ownerID leaseID) ∨
      w.requests[i]? = some (.delete uuid backendID ownerID leaseID))
    (hstale : ∀ reg, w.shared.registrations.lookup uuid = some reg →
      ¬ reg.heldBy backendID ownerID leaseID)
    (hstep : Voice.step r ids w (.handler i) = some w') :
    w'.shared = w.shared ∧ ∃ status, w'.requests[i]? = some (.answered status) := by
  have hset : ∀ q q' : Request, w.requests[i]? = some q →
      (w.requests.set i q')[i]? = some q' := by
    intro q q' hq
    exact List.getElem?_set_self (List.getElem?_eq_some_iff.mp hq).1
  rcases hrequest with hrequest | hrequest
  · simp only [Voice.step, World.handlerStep, hrequest, Option.some.injEq] at hstep
    subst hstep
    rcases hout : w.shared.refreshRegistration r w.now uuid backendID ownerID leaseID with
      ⟨out, shared⟩
    rcases refreshRegistration_cases hout with ⟨rfl, rfl, -⟩ | ⟨reg, rfl, hreg, hheld, rfl⟩
    · simp only [World.handlerRefresh, hout]
      exact ⟨trivial, _, hset _ _ hrequest⟩
    · exact absurd hheld (hstale reg hreg)
  · simp only [Voice.step, World.handlerStep, hrequest, Option.some.injEq] at hstep
    subst hstep
    rcases hout : w.shared.deleteRegistration uuid backendID ownerID leaseID with ⟨out, shared⟩
    rcases deleteRegistration_cases hout with ⟨rfl, rfl, -⟩ | ⟨reg, rfl, hreg, hheld, rfl⟩
    · simp only [World.handlerDelete, hout]
      exact ⟨trivial, _, hset _ _ hrequest⟩
    · exact absurd hheld (hstale reg hreg)

/-- **`errBackendMissing` does not happen**: what the UDP loop has looked up
is of a configured backend. -/
theorem backend_known (hrouting : RoutingInv r w) (h : LeaseInv r w)
    (hbackends : ∀ authorization id, r.authenticate authorization = some id →
      r.backends.lookup id ≠ none)
    {d : Datagram} {reg : Registration} (hudp : w.udp = .limiting d reg) :
    w.shared.backendFor r reg ≠ .error errBackendMissing := by
  have hknows := hrouting.udp
  rw [hudp] at hknows
  obtain ⟨-, ⟨lookedAt, before, ⟨mid, hlog, -⟩, -⟩, -⟩ := hknows
  obtain ⟨authorization, hauth⟩ := h.looked d.uuid lookedAt reg (by rw [hlog]; simp)
  obtain ⟨backend, hbackend⟩ :=
    Option.ne_none_iff_exists'.mp (hbackends authorization reg.backendID hauth)
  unfold Shared.backendFor
  split_ifs
  · intro hne
    exact absurd (Except.error.inj hne) (by decide)
  · rw [hbackend]
    nofun

end Invariant

/-- A generation that is not the last is below the next. -/
theorem lt_nextGeneration {old : Registration} (h : old.generation.toNat + 1 < 2 ^ 64) :
    old.generation < nextGeneration (some old) := by
  have hone : (1 : UInt64).toNat = 1 := rfl
  rw [nextGeneration, UInt64.lt_iff_toNat_lt, UInt64.toNat_add, hone, Nat.mod_eq_of_lt h]
  omega

/-- **Lease safety.** In every run of a runtime whose backends have distinct
tokens:
* a player without an accepted `PUT` has no registration, and otherwise the
  registration is what later refreshes, `DELETE`s, deadlines and `Close`
  leave of the one the last accepted `PUT` created;
* that is the created one but for its deadline, and its backend is
  configured and the only one whose token is in the header of that `PUT`;
* `errBackendMissing` does not happen;
* a refresh or `DELETE` that does not come from the holder changes nothing;
* a `PUT` that replaces a registration stores a generation above the
  replaced one's, unless that is the last of its type. -/
theorem lease_safety (env : NetEnv) (cfg : Config) (r : Runtime) (hr : newRuntime env cfg = .ok r)
    (hdistinct : ∀ id id' backend backend', cfg.backends.lookup id = some backend →
      cfg.backends.lookup id' = some backend' → backend.token = backend'.token → id = id')
    (ids : LeaseIDs) (now : ℤ) (actions : List Action) (w : World)
    (hrun : System.run (step r ids) (boot now) actions = some w) :
    (∀ uuid, (∀ e ∈ w.log, e.storesFor uuid = false) →
      w.shared.registrations.lookup uuid = none) ∧
    (∀ uuid later authorization created replaced earlier,
      w.log = later ++ .stored authorization created replaced :: earlier →
      created.playerUUID = uuid → (∀ e ∈ later, e.storesFor uuid = false) →
      w.shared.registrations.lookup uuid = survivors uuid created later ∧
      (∀ reg, w.shared.registrations.lookup uuid = some reg →
        reg = { created with expiresAt := reg.expiresAt }) ∧
      Authenticates cfg authorization created.backendID ∧
      ∀ id, Authenticates cfg authorization id → id = created.backendID) ∧
    (∀ d reg, w.udp = .limiting d reg → w.shared.backendFor r reg ≠ .error errBackendMissing) ∧
    (∀ (i : ℕ) uuid backendID ownerID leaseID,
      w.requests[i]? = some (.refresh uuid backendID ownerID leaseID) ∨
        w.requests[i]? = some (.delete uuid backendID ownerID leaseID) →
      (∀ reg, w.shared.registrations.lookup uuid = some reg →
        ¬ reg.heldBy backendID ownerID leaseID) →
      ∀ w', step r ids w (.handler i) = some w' →
        w'.shared = w.shared ∧ ∃ status, w'.requests[i]? = some (.answered status)) ∧
    (∀ later authorization reg old earlier,
      w.log = later ++ .stored authorization reg (some old) :: earlier →
      live earlier reg.playerUUID = some old ∧
      (old.generation.toNat + 1 < 2 ^ 64 → old.generation < reg.generation)) := by
  have hinv : LeaseInv r w := .run hrun
  obtain ⟨hbackends, hauth⟩ := newRuntime_ok hr
  refine ⟨fun uuid hnone => ?_, ?_, fun d reg hudp => ?_, ?_, ?_⟩
  · rw [hinv.table, live_eq_none hnone]
  · intro uuid later authorization created replaced earlier hlog hcreated hlater
    have hlookup : w.shared.registrations.lookup uuid = survivors uuid created later := by
      rw [hinv.table, hlog, live_of_stored hcreated hlater]
    obtain ⟨hstored, -⟩ := hinv.stored later authorization created replaced earlier hlog
    obtain ⟨backend, hbackend, htoken⟩ := hauth authorization created.backendID hstored
    refine ⟨hlookup, fun reg hreg => survivors_eq (hlookup.symm.trans hreg),
      ⟨backend, hbackend, htoken⟩, ?_⟩
    rintro id ⟨backend', hbackend', htoken'⟩
    exact hdistinct id created.backendID backend' backend hbackend' hbackend
      (Option.some.inj (htoken'.symm.trans htoken))
  · refine backend_known (.run hrun) hinv (fun authorization id hid => ?_) hudp
    obtain ⟨backend, hbackend, -⟩ := hauth authorization id hid
    exact hbackends id (by rw [hbackend]; nofun)
  · intro i uuid backendID ownerID leaseID hrequest hstale w' hstep
    exact stale_request hrequest hstale hstep
  · intro later authorization reg old earlier hlog
    obtain ⟨-, hlive, hgeneration⟩ := hinv.stored later authorization reg (some old) earlier hlog
    refine ⟨hlive, fun hlast => ?_⟩
    rw [hgeneration]
    exact lt_nextGeneration hlast

/-- A network where every address is one and the same. -/
def demoNet : NetEnv where
  resolveUDPAddr _ := .ok (some alexAddr)
  listenUDP := none

theorem lease_safety_alex :
    ∃ r w, newRuntime demoNet demoRuntime.cfg = .ok r ∧
      System.run (step r numberedLeases) (boot 0)
        [.request (registerAlex (go "lobby-token")), .handler 0] = some w ∧
      ∃ created, w.shared.registrations.lookup alex = some created ∧
        Authenticates demoRuntime.cfg (go "Bearer lobby-token") created.backendID := by
  have hdistinct : ∀ id id' backend backend', demoRuntime.cfg.backends.lookup id = some backend →
      demoRuntime.cfg.backends.lookup id' = some backend' → backend.token = backend'.token →
      id = id' := by
    intro id id' backend backend' h h' htoken
    have hmem : ∀ e ∈ demoRuntime.cfg.backends.entries, ∀ e' ∈ demoRuntime.cfg.backends.entries,
        e.2.token = e'.2.token → e.1 = e'.1 := by decide +kernel
    exact hmem ⟨id, backend⟩ (GoMap.mem_entries.mpr h) ⟨id', backend'⟩ (GoMap.mem_entries.mpr h')
      htoken
  refine ⟨_, _, rfl, rfl, ⟨alex, go "lobby", go "owner", Strings.itoa 0, 1, 90⟩, ?_⟩
  obtain ⟨hlookup, -, hauth, -⟩ := (lease_safety demoNet demoRuntime.cfg _ rfl hdistinct numberedLeases
    0 [.request (registerAlex (go "lobby-token")), .handler 0] _ rfl).2.1 alex [] _
    ⟨alex, go "lobby", go "owner", Strings.itoa 0, 1, 90⟩ none [] rfl rfl nofun
  exact ⟨hlookup, hauth⟩

/-! ## The last generation -/

/-- A player who is registered is registered again: the generation is the
next one. -/
theorem register_again {w : World} {old : Registration} (hopen : w.shared.closed = false)
    (hold : w.shared.registrations.lookup alex = some old) :
    ∃ w' reg, System.run (step demoRuntime numberedLeases) w
        [.request (registerAlex (go "lobby-token")), .handler w.requests.length] = some w' ∧
      w'.shared.closed = false ∧ w'.shared.registrations.lookup alex = some reg ∧
      reg.generation = old.generation + 1 ∧
      ∃ authorization earlier, w'.log = .stored authorization reg (some old) :: earlier := by
  have hreq : demoRuntime.handleRegistration (registerAlex (go "lobby-token")) =
      .ok (go "lobby", .put alex (go "owner")) := by decide +kernel
  let authorization := (registerAlex (go "lobby-token")).authorization
  let created : Registration := ⟨alex, go "lobby", go "owner", Strings.itoa w.requests.length, 0,
    w.now + demoRuntime.cfg.registrationTTL⟩
  let reg : Registration := { created with generation := old.generation + 1 }
  have haccept : w.accept demoRuntime numberedLeases (registerAlex (go "lobby-token")) =
      .put authorization created := by
    simp only [World.accept, hreq, numberedLeases]
    rfl
  let w₁ : World := { w with requests := w.requests ++ [.put authorization created] }
  have hput : w₁.shared.putRegistration demoRuntime created = (.stored reg (some old),
      { w.shared with registrations := w.shared.registrations.insert alex reg }) := by
    simp only [Shared.putRegistration, w₁, hopen, created, hold, Bool.false_eq_true, if_false]
    rfl
  have hstep : step demoRuntime numberedLeases w₁ (.handler w.requests.length) =
      some (w₁.handlerPut demoRuntime w.requests.length authorization created) := by
    simp only [step, World.handlerStep, w₁, List.getElem?_concat_length]
  refine ⟨w₁.handlerPut demoRuntime w.requests.length authorization created, reg, ?_, ?_, ?_, rfl, ?_⟩
  · refine System.run_cons.mpr ⟨w₁, ?_, System.run_cons.mpr ⟨_, hstep, rfl⟩⟩
    simp only [step, haccept, w₁]
  · simp only [World.handlerPut, hput, hopen]
  · simp only [World.handlerPut, hput, AList.lookup_insert]
  · simp only [World.handlerPut, hput]
    exact ⟨_, _, rfl⟩

/-- Every generation is reached. -/
theorem generation_reached : ∀ n : ℕ, ∃ actions w reg,
    System.run (step demoRuntime numberedLeases) (boot 0) actions = some w ∧
      w.shared.closed = false ∧ w.shared.registrations.lookup alex = some reg ∧
      reg.generation = UInt64.ofNat (n + 1) := by
  intro n
  induction n with
  | zero =>
    refine ⟨[.request (registerAlex (go "lobby-token")), .handler 0], _,
      ⟨alex, go "lobby", go "owner", Strings.itoa 0, 1, 90⟩, rfl, rfl, ?_, rfl⟩
    decide +kernel
  | succ n ih =>
    obtain ⟨actions, w, old, hrun, hopen, hold, hgeneration⟩ := ih
    obtain ⟨w', reg, hrun', hopen', hreg, hnext, -⟩ := register_again hopen hold
    refine ⟨_, w', reg, System.run_append hrun hrun', hopen', hreg, ?_⟩
    rw [hnext, hgeneration, UInt64.ofNat_add (n + 1) 1]
    rfl

/-- **After the last generation comes 0.** `Generation` is a `uint64`, and
replacing a registration of the last generation stores a smaller one. -/
theorem generation_wraps :
    ∃ actions w authorization reg old earlier,
      System.run (step demoRuntime numberedLeases) (boot 0) actions = some w ∧
      w.log = .stored authorization reg (some old) :: earlier ∧ reg.generation = 0 ∧
      ¬ old.generation < reg.generation := by
  obtain ⟨actions, w, old, hrun, hopen, hold, hgeneration⟩ := generation_reached (2 ^ 64 - 2)
  obtain ⟨w', reg, hrun', -, -, hnext, authorization, earlier, hlog⟩ := register_again hopen hold
  have hzero : reg.generation = 0 := by
    rw [hnext, hgeneration]
    rfl
  refine ⟨_, w', authorization, reg, old, earlier, System.run_append hrun hrun', hlog, hzero, ?_⟩
  rw [hzero, UInt64.lt_iff_toNat_lt]
  exact Nat.not_lt_zero _

end Voice

end McRouter
