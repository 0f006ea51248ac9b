import McRouter.Voice.Lease
import McRouter.Voice.Routing

/-!
# Bounds of the voice tables

A limit is checked in the section that stores what it limits, so it does not
matter what happened since it was checked before: **the tables never grow
past their limits**, and once `Close` has run its section nothing comes into
them again (`voice_tables_bounded`). What a step does to the tables is done
by one of the critical sections (`step_section`), and each of these keeps
the bounds (`Shared.Bounded.section`).
-/

namespace McRouter

namespace Voice

open Net

/-! ## The critical sections -/

/-- One of the sections runs on the tables, or none. -/
inductive Section (r : Runtime) (s : Shared) : Shared → Prop
  | none : Section r s s
  | lookup (now : ℤ) (uuid : UUID) : Section r s (s.lookupRegistration now uuid).2
  | find (key : GoString) (reg : Registration) : Section r s (s.findSession key reg).2
  | insert (sess : Session) : Section r s (s.insertSession r sess).2
  | expire (now : ℤ) : Section r s (s.expireRegistrations now).2
  | closeAll (uuid : UUID) : Section r s (s.closeSessionsForUUID uuid).2
  | close (sess : Session) : Section r s (s.closeSession sess)
  | put (reg : Registration) : Section r s (s.putRegistration r reg).2
  | refresh (now : ℤ) (uuid : UUID) (backendID ownerID leaseID : GoString) :
      Section r s (s.refreshRegistration r now uuid backendID ownerID leaseID).2
  | delete (uuid : UUID) (backendID ownerID leaseID : GoString) :
      Section r s (s.deleteRegistration uuid backendID ownerID leaseID).2
  | shutdown : Section r s s.shutdown.2

section Steps

variable {r : Runtime} {ids : LeaseIDs} {a : Action} {w w' : World}

theorem section_udpInsert (d : Datagram) (reg : Registration) (sess : Session) :
    Section r w.shared (w.udpInsert r d reg sess).shared := by
  unfold World.udpInsert
  rcases hout : w.shared.insertSession r sess with ⟨out, shared⟩
  rcases insertSession_cases hout with ⟨err, rfl⟩ | ⟨existing, rfl, -⟩ | ⟨rfl, -, -⟩
  · exact .none
  · exact .none
  · have hshared : (w.shared.insertSession r sess).2 = shared := by rw [hout]
    exact hshared ▸ .insert sess

theorem section_udpStep {fails : Bool} (h : w.udpStep r fails = some w') :
    Section r w.shared w'.shared := by
  unfold World.udpStep at h
  split at h
  · cases h
  all_goals obtain rfl := Option.some.inj h
  · exact .lookup _ _
  · exact .find _ _
  · exact .none
  · exact .none
  · unfold World.udpDial
    split_ifs <;> exact .none
  · exact section_udpInsert _ _ _
  · simp only [World.udpWrite]
    split_ifs <;> exact .none
  · exact .close _
  · exact .none

theorem section_handlerPut (i : ℕ) (authorization : GoString) (reg : Registration) :
    Section r w.shared (w.handlerPut r i authorization reg).shared := by
  unfold World.handlerPut
  have hput : Section r w.shared (w.shared.putRegistration r reg).2 := .put reg
  rcases hout : w.shared.putRegistration r reg with ⟨out, shared⟩
  rw [hout] at hput
  rcases putRegistration_cases hout with ⟨rfl | rfl, -⟩ | ⟨stored, _ | old, rfl, -, -, -⟩
  · exact .none
  · exact .none
  · exact hput
  · exact hput

theorem section_handlerStep {i : ℕ} (h : w.handlerStep r i = some w') :
    Section r w.shared w'.shared := by
  unfold World.handlerStep at h
  split at h
  · exact Option.some.inj h ▸ section_handlerPut _ _ _
  · exact Option.some.inj h ▸ .refresh _ _ _ _ _
  · exact Option.some.inj h ▸ .delete _ _ _ _
  · exact Option.some.inj h ▸ .closeAll _
  · exact Option.some.inj h ▸ .none
  · exact Option.some.inj h ▸ .none
  · cases h

theorem section_sweeperStep : Section r w.shared (w.sweeperStep r).shared := by
  unfold World.sweeperStep
  split
  · exact .none
  · exact .expire _
  · exact .none
  · exact .closeAll _
  · exact .none
  · exact .none
  · exact .none
  · exact .none
  · exact .close _
  · exact .none

/-- **What a step does to the tables** is one of the sections. -/
theorem step_section (h : step r ids w a = some w') : Section r w.shared w'.shared := by
  cases a with
  | tick d => exact Option.some.inj h ▸ .none
  | receive clientAddr data =>
    simp only [step, World.receive] at h
    split_ifs at h
    · exact Option.some.inj h ▸ .none
    · split at h <;> exact Option.some.inj h ▸ .none
  | udp fails => exact section_udpStep h
  | backendRead i result =>
    simp only [step, World.backendRead] at h
    split at h
    · split_ifs at h <;> exact Option.some.inj h ▸ .none
    · split_ifs at h <;> exact Option.some.inj h ▸ .none
    · cases h
  | reader i fails =>
    simp only [step, World.readerStep] at h
    split at h
    · split_ifs at h <;> exact Option.some.inj h ▸ .none
    · split_ifs at h <;> exact Option.some.inj h ▸ .none
    · exact Option.some.inj h ▸ .close _
    · exact Option.some.inj h ▸ .none
    · cases h
  | request req => exact Option.some.inj h ▸ .none
  | handler i => exact section_handlerStep h
  | timeout i =>
    obtain ⟨q, -, -, rfl⟩ := timeout_eq h
    exact .none
  | sweeper => exact Option.some.inj h ▸ section_sweeperStep
  | close =>
    simp only [step, World.closerStep] at h
    split at h
    · exact Option.some.inj h ▸ .shutdown
    · exact Option.some.inj h ▸ .none
    · exact Option.some.inj h ▸ .none
    · cases h

end Steps

/-! ## What the sections keep -/

/-- The tables are within their limits, and empty once they are closed. -/
structure Shared.Bounded (r : Runtime) (s : Shared) : Prop where
  registrations : (s.registrations.len : ℤ) ≤ r.cfg.maxRegistrations
  sessions : (s.sessions.len : ℤ) ≤ r.cfg.maxSessions
  closed : s.closed = true → s.registrations = ∅ ∧ s.sessions = ∅

namespace Shared

variable {r : Runtime} {s s' : Shared}

/-- Tables that only lose entries. -/
theorem Bounded.shrink (h : s.Bounded r) (hclosed : s'.closed = s.closed)
    (hregistrations : s'.registrations.len ≤ s.registrations.len)
    (hsessions : s'.sessions.len ≤ s.sessions.len)
    (hempty : s.registrations = ∅ → s.sessions = ∅ → s'.registrations = ∅ ∧ s'.sessions = ∅) :
    s'.Bounded r := by
  have hreg := h.registrations
  have hsess := h.sessions
  refine ⟨by omega, by omega, fun hc => ?_⟩
  obtain ⟨hr, hs⟩ := h.closed (hclosed ▸ hc)
  exact hempty hr hs

/-- Registrations that come in while there is room, or where there was one. -/
theorem Bounded.store (h : s.Bounded r) {uuid : UUID} {reg : Registration}
    (hopen : s.closed = false ∨ s.registrations.lookup uuid ≠ none)
    (hroom : s.registrations.lookup uuid = none →
      (s.registrations.len : ℤ) < r.cfg.maxRegistrations) :
    Bounded r { s with registrations := s.registrations.insert uuid reg } where
  registrations := by
    cases hlookup : s.registrations.lookup uuid with
    | none =>
      have hlt := hroom hlookup
      have hlen := GoMap.len_insert_of_absent reg hlookup
      show (GoMap.len (s.registrations.insert uuid reg) : ℤ) ≤ r.cfg.maxRegistrations
      omega
    | some old =>
      have hle := h.registrations
      have hlen := GoMap.len_insert_of_present reg hlookup
      show (GoMap.len (s.registrations.insert uuid reg) : ℤ) ≤ r.cfg.maxRegistrations
      omega
  sessions := h.sessions
  closed hc := by
    rcases hopen with hopen | hsome
    · rw [hopen] at hc
      cases hc
    · rw [(h.closed hc).1] at hsome
      exact absurd rfl hsome

theorem Bounded.lookupRegistration (h : s.Bounded r) (now : ℤ) (uuid : UUID) :
    Bounded r (s.lookupRegistration now uuid).2 := by
  unfold Shared.lookupRegistration
  split
  · exact h
  split_ifs
  · refine h.shrink rfl (GoMap.len_erase_le _ _) le_rfl fun hr hs => ⟨?_, hs⟩
    simp only [hr]
    rfl
  · exact h

theorem Bounded.findSession (h : s.Bounded r) (key : GoString) (reg : Registration) :
    Bounded r (s.findSession key reg).2 := by
  rcases hout : s.findSession key reg with ⟨found, s'⟩
  rcases findSession_cases hout with ⟨-, rfl⟩ | ⟨-, rfl, -⟩ | ⟨_, -, rfl, -, -⟩ | ⟨_, -, rfl⟩
  · exact h
  · exact h
  · exact h
  · refine h.shrink rfl le_rfl (GoMap.len_erase_le _ _) fun hr hs => ⟨hr, ?_⟩
    simp only [hs]
    rfl

/-- The limit is checked again where the session is stored. -/
theorem Bounded.insertSession (h : s.Bounded r) (sess : Session) :
    Bounded r (s.insertSession r sess).2 := by
  unfold Shared.insertSession
  split
  · exact h
  rename_i hclosed
  split
  · exact h
  rename_i hlookup
  split
  · exact h
  · refine ⟨h.registrations, ?_, fun hc => absurd hc hclosed⟩
    have hlen := GoMap.len_insert_of_absent sess hlookup
    show (GoMap.len (s.sessions.insert sess.key sess) : ℤ) ≤ r.cfg.maxSessions
    omega

theorem Bounded.closeSession (h : s.Bounded r) (sess : Session) :
    Bounded r (s.closeSession sess) := by
  unfold Shared.closeSession
  split_ifs
  · refine h.shrink rfl le_rfl (GoMap.len_erase_le _ _) fun hr hs => ⟨hr, ?_⟩
    simp only [hs]
    rfl
  · exact h

theorem Bounded.putRegistration (h : s.Bounded r) (reg : Registration) :
    Bounded r (s.putRegistration r reg).2 := by
  unfold Shared.putRegistration
  split
  · exact h
  rename_i hclosed
  have hopen : s.closed = false := Bool.eq_false_iff.mpr hclosed
  split
  · rename_i existing hlookup
    refine h.store (Or.inl hopen) fun hnone => ?_
    rw [hlookup] at hnone
    cases hnone
  · split
    · exact h
    · rename_i hroom
      exact h.store (Or.inl hopen) fun _ => lt_of_not_ge hroom

/-- A refresh does not ask whether the runtime is closed; it finds nothing
to refresh then. -/
theorem Bounded.refreshRegistration (h : s.Bounded r) (now : ℤ) (uuid : UUID)
    (backendID ownerID leaseID : GoString) :
    Bounded r (s.refreshRegistration r now uuid backendID ownerID leaseID).2 := by
  rcases hout : s.refreshRegistration r now uuid backendID ownerID leaseID with ⟨out, s'⟩
  rcases refreshRegistration_cases hout with ⟨-, rfl, -⟩ | ⟨reg, -, hlookup, -, rfl⟩
  · exact h
  · refine h.store (Or.inr (by rw [hlookup]; nofun)) fun hnone => ?_
    rw [hlookup] at hnone
    cases hnone

theorem Bounded.deleteRegistration (h : s.Bounded r) (uuid : UUID)
    (backendID ownerID leaseID : GoString) :
    Bounded r (s.deleteRegistration uuid backendID ownerID leaseID).2 := by
  rcases hout : s.deleteRegistration uuid backendID ownerID leaseID with ⟨out, s'⟩
  rcases deleteRegistration_cases hout with ⟨-, rfl, -⟩ | ⟨reg, -, -, -, rfl⟩
  · exact h
  · refine h.shrink rfl (GoMap.len_erase_le _ _) le_rfl fun hr hs => ⟨?_, hs⟩
    simp only [hr]
    rfl

/-- **Every section keeps the bounds.** -/
theorem Bounded.section (h : s.Bounded r) (hs : Section r s s') : s'.Bounded r := by
  cases hs with
  | none => exact h
  | lookup now uuid => exact h.lookupRegistration now uuid
  | find key reg => exact h.findSession key reg
  | insert sess => exact h.insertSession sess
  | expire now =>
    refine h.shrink rfl (GoMap.len_filter_le _ _) le_rfl fun hr hs => ⟨?_, hs⟩
    simp only [Shared.expireRegistrations, hr]
    rfl
  | closeAll uuid =>
    refine h.shrink rfl le_rfl (GoMap.len_filter_le _ _) fun hr hs => ⟨hr, ?_⟩
    simp only [Shared.closeSessionsForUUID, hs]
    rfl
  | close sess => exact h.closeSession sess
  | put reg => exact h.putRegistration reg
  | refresh now uuid backendID ownerID leaseID =>
    exact h.refreshRegistration now uuid backendID ownerID leaseID
  | delete uuid backendID ownerID leaseID =>
    exact h.deleteRegistration uuid backendID ownerID leaseID
  | shutdown =>
    have hreg := h.registrations
    have hsess := h.sessions
    refine ⟨?_, ?_, fun _ => ⟨rfl, rfl⟩⟩
    · show ((0 : ℕ) : ℤ) ≤ r.cfg.maxRegistrations
      omega
    · show ((0 : ℕ) : ℤ) ≤ r.cfg.maxSessions
      omega

/-- **Closed stays closed.** -/
theorem closed_section (hs : Section r s s') (hclosed : s.closed = true) : s'.closed = true := by
  cases hs with
  | none => exact hclosed
  | lookup now uuid =>
    unfold lookupRegistration
    split
    · exact hclosed
    · split_ifs <;> exact hclosed
  | find key reg =>
    unfold findSession
    rwa [if_pos hclosed]
  | insert sess =>
    unfold insertSession
    rwa [if_pos hclosed]
  | expire now => exact hclosed
  | closeAll uuid => exact hclosed
  | close sess =>
    unfold closeSession
    split_ifs <;> exact hclosed
  | put reg =>
    unfold putRegistration
    rwa [if_pos hclosed]
  | refresh now uuid backendID ownerID leaseID =>
    rcases hout : s.refreshRegistration r now uuid backendID ownerID leaseID with ⟨out, s'⟩
    rcases refreshRegistration_cases hout with ⟨-, rfl, -⟩ | ⟨reg, -, -, -, rfl⟩
    · exact hclosed
    · exact hclosed
  | delete uuid backendID ownerID leaseID =>
    rcases hout : s.deleteRegistration uuid backendID ownerID leaseID with ⟨out, s'⟩
    rcases deleteRegistration_cases hout with ⟨-, rfl, -⟩ | ⟨reg, -, -, -, rfl⟩
    · exact hclosed
    · exact hclosed
  | shutdown => rfl

end Shared

/-! ## Runs -/

/-- What `NewRuntime` has checked of the limits. -/
theorem limits_of_newRuntime {env : NetEnv} {cfg : Config} {r : Runtime}
    (h : newRuntime env cfg = .ok r) :
    r.cfg = cfg ∧ 0 < cfg.maxRegistrations ∧ 0 < cfg.maxSessions := by
  have hpos : ∀ {value : ℤ} {name : GoString}, positive value name = none → 0 < value := by
    intro value name hnone
    unfold positive at hnone
    split_ifs at hnone with hle
    omega
  have hcheck : cfg.check = none := by
    unfold newRuntime at h
    split at h
    · cases h
    · assumption
  simp only [Config.check, Option.or_eq_none_iff] at hcheck
  obtain ⟨-, -, hregistrations, -, -, hsessions, -, -⟩ := hcheck
  exact ⟨cfg_addBackends (addBackends_of_newRuntime h), hpos hregistrations, hpos hsessions⟩

section Runs

variable {r : Runtime} {ids : LeaseIDs} {w w' : World}

/-- **The step lemma.** -/
theorem bounded_step {a : Action} (h : w.shared.Bounded r) (hstep : step r ids w a = some w') :
    w'.shared.Bounded r :=
  h.section (step_section hstep)

/-- **The run lemma.** -/
theorem bounded_run {actions : List Action} (h : w.shared.Bounded r)
    (hrun : System.run (step r ids) w actions = some w') : w'.shared.Bounded r :=
  System.run_invariant_of_step (fun _ _ _ h hstep => bounded_step h hstep) h hrun

theorem closed_run {actions : List Action} (h : w.shared.closed = true)
    (hrun : System.run (step r ids) w actions = some w') : w'.shared.closed = true :=
  System.run_invariant_of_step
    (fun _ _ _ h hstep => Shared.closed_section (step_section hstep) h) h hrun

/-- **What comes of a `PUT` for the limit**: only a player without a
registration is refused, and nothing but the request moves. -/
theorem limit_of_put {i : ℕ} {authorization : GoString} {reg : Registration}
    (hput : w.requests[i]? = some (.put authorization reg))
    (hstep : step r ids w (.handler i) = some w')
    (hanswer : w'.requests[i]? = some (.answered 429)) :
    w' = w.setRequest i (.answered 429) ∧ w.shared.registrations.lookup reg.playerUUID = none := by
  simp only [step, World.handlerStep, hput, Option.some.injEq] at hstep
  subst hstep
  have hset : ∀ q : Request, (w.requests.set i q)[i]? = some q :=
    fun q => System.getElem?_set_eq hput
  unfold World.handlerPut at hanswer ⊢
  rcases hout : w.shared.putRegistration r reg with ⟨out, shared⟩
  rw [hout] at hanswer
  cases out with
  | closed =>
    have hq := (hset (.answered 503)).symm.trans hanswer
    simp at hq
  | limit =>
    refine ⟨rfl, ?_⟩
    unfold Shared.putRegistration at hout
    split at hout
    · simp at hout
    split at hout
    · simp at hout
    · assumption
  | stored stored replaced =>
    cases replaced with
    | none =>
      have hq := (hset (.answered 200)).symm.trans hanswer
      simp at hq
    | some old =>
      have hq := (hset _).symm.trans hanswer
      simp at hq

end Runs

/-- **The voice tables stay within their limits, and closed stays closed.**
In every state a run of the goroutines leads to there are at most
`MaxRegistrations` registrations and `MaxSessions` sessions, and every
session is under the key of its own player and endpoint. A `PUT` that is
refused for the limit changes nothing but the request itself, and one for a
player who is registered is not refused for it. Once `Close` has run its
section, both tables are empty and nothing that still runs puts anything
into them. -/
theorem voice_tables_bounded (env : NetEnv) (cfg : Config) (r : Runtime)
    (hr : newRuntime env cfg = .ok r) (ids : LeaseIDs) (now : ℤ) (actions : List Action) (w : World)
    (hrun : System.run (step r ids) (boot now) actions = some w) :
    ((w.shared.registrations.len : ℤ) ≤ cfg.maxRegistrations ∧
      (w.shared.sessions.len : ℤ) ≤ cfg.maxSessions) ∧
    (∀ key sess, w.shared.sessions.lookup key = some sess →
      key = dynamicSessionKey sess.playerUUID sess.clientAddr) ∧
    (∀ (i : ℕ) authorization reg w', w.requests[i]? = some (.put authorization reg) →
      step r ids w (.handler i) = some w' →
      (w'.requests[i]? = some (.answered 429) → w' = w.setRequest i (.answered 429)) ∧
      (w.shared.registrations.lookup reg.playerUUID ≠ none →
        w'.requests[i]? ≠ some (.answered 429))) ∧
    ∀ w₁ later w', w.closer = .running → step r ids w .close = some w₁ →
      System.run (step r ids) w₁ later = some w' →
      w'.shared.registrations = ∅ ∧ w'.shared.sessions = ∅ := by
  obtain ⟨rfl, hregistrations, hsessions⟩ := limits_of_newRuntime hr
  have hboot : (boot now).shared.Bounded r :=
    ⟨hregistrations.le, hsessions.le, by nofun⟩
  have hbounded := bounded_run hboot hrun
  refine ⟨⟨hbounded.registrations, hbounded.sessions⟩, (RoutingInv.run hrun).table, ?_, ?_⟩
  · intro i authorization reg w' hput hstep
    refine ⟨fun hanswer => (limit_of_put hput hstep hanswer).1, fun hsome hanswer => ?_⟩
    exact hsome (limit_of_put hput hstep hanswer).2
  · intro w₁ later w' hcloser hclose hlater
    have hclosed : w₁.shared.closed = true := by
      simp only [step, World.closerStep, hcloser, Option.some.injEq] at hclose
      rw [← hclose]
      rfl
    exact (bounded_run (bounded_step hbounded hclose) hlater).closed (closed_run hclosed hlater)

/-- A player is registered; a second `PUT` is on its way when `Close` runs. -/
def putAgain : List Action :=
  [.request (registerAlex (go "lobby-token")), .handler 0,
    .request (registerAlex (go "survival-token"))]

theorem voice_tables_bounded_closed :
    ∃ r w w₁ w', newRuntime demoNet demoRuntime.cfg = .ok r ∧
      System.run (step r numberedLeases) (boot 0) putAgain = some w ∧
      w.shared.registrations.len = 1 ∧ step r numberedLeases w .close = some w₁ ∧
      System.run (step r numberedLeases) w₁ [.handler 1] = some w' ∧
      w'.shared.registrations = ∅ ∧ w'.shared.sessions = ∅ := by
  refine ⟨_, _, _, _, rfl, rfl, by decide +kernel, rfl, rfl, ?_⟩
  exact (voice_tables_bounded demoNet demoRuntime.cfg _ rfl numberedLeases 0 putAgain _ rfl).2.2.2
    _ [.handler 1] _ rfl rfl rfl

end Voice

end McRouter
