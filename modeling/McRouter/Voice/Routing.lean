import McRouter.Voice.Effect

/-!
# Voice packets go where their registration says

Every datagram that is written to a backend is one that came in, byte for
byte, and goes through a session of the registration that
`lookupRegistration` found for it (`voice_routing`), whatever requests,
sweeps, closes and backend reads happen in between.

The argument is about the UDP loop alone. The other goroutines only take
sessions out of the table, so from the moment the loop has seen no session
under its key until it inserts one there is none, and the branch that
returns a session already present is never taken with another lease's.
-/

namespace McRouter

namespace Voice

open Net

/-! ## The last thing the UDP loop did -/

/-- `e` is the newest entry of the UDP loop, and `before` is older. -/
def Newest (log : List Entry) (e : Entry) (before : List Entry) : Prop :=
  ∃ mid, log = mid ++ e :: before ∧ ∀ x ∈ mid, x.ofUdp = false

theorem Newest.head (e : Entry) (before : List Entry) : Newest (e :: before) e before :=
  ⟨[], rfl, nofun⟩

/-- Entries of the other goroutines do not matter. -/
theorem Newest.cons {log before : List Entry} {e x : Entry} (h : Newest log e before)
    (hx : x.ofUdp = false) : Newest (x :: log) e before := by
  obtain ⟨mid, rfl, hmid⟩ := h
  refine ⟨x :: mid, rfl, fun y hy => ?_⟩
  rcases List.mem_cons.mp hy with rfl | hy
  · exact hx
  · exact hmid y hy

/-- The datagram is of a size and form to be forwarded. -/
def Datagram.Accepted (r : Runtime) (d : Datagram) : Prop :=
  d.payload.length ≤ r.cfg.maxPacketSize ∧
    ∃ packet, parseClientPacket d.payload = .ok packet ∧ packet.playerUUID = d.uuid

/-- The UDP loop received the datagram and did nothing since. -/
def Datagram.ReceivedIn (d : Datagram) (log : List Entry) : Prop :=
  ∃ before, Newest log (.received d.clientAddr d.payload) before

/-- The UDP loop received the datagram, then looked for a registration of
its player and found `reg`, not expired, and did nothing since. -/
def Datagram.LookedIn (d : Datagram) (reg : Registration) (log : List Entry) : Prop :=
  ∃ now before, Newest log (.looked d.uuid now (some reg)) before ∧ ¬ reg.expiresAt < now ∧
    d.ReceivedIn before

theorem Datagram.ReceivedIn.cons {d : Datagram} {log : List Entry} {x : Entry}
    (h : d.ReceivedIn log) (hx : x.ofUdp = false) : d.ReceivedIn (x :: log) := by
  obtain ⟨before, h⟩ := h
  exact ⟨before, h.cons hx⟩

theorem Datagram.LookedIn.cons {d : Datagram} {reg : Registration} {log : List Entry} {x : Entry}
    (h : d.LookedIn reg log) (hx : x.ofUdp = false) : d.LookedIn reg (x :: log) := by
  obtain ⟨now, before, h, hrest⟩ := h
  exact ⟨now, before, h.cons hx, hrest⟩

/-- The session is one for this datagram under this registration. -/
structure Session.Serves (sess : Session) (d : Datagram) (reg : Registration) : Prop where
  carries : sess.carries reg
  playerUUID : sess.playerUUID = d.uuid
  clientAddr : sess.clientAddr = d.clientAddr

/-- **A write is routed**: what is written through the session after all of
`log` is a datagram the loop received, accepted and looked up last. -/
def Routed (r : Runtime) (log : List Entry) (sess : Session) (payload : GoString) : Prop :=
  ∃ d reg, d.payload = payload ∧ d.Accepted r ∧ d.LookedIn reg log ∧ sess.Serves d reg

/-! ## The invariant -/

/-- The key of a datagram's session. -/
def Datagram.key (d : Datagram) : GoString := dynamicSessionKey d.uuid d.clientAddr

/-- What the UDP loop knows at each point. -/
def UdpKnows (r : Runtime) (w : World) : Udp → Prop
  | .idle | .failed _ | .failedSocket _ => True
  | .looking d now => d.Accepted r ∧ d.ReceivedIn w.log ∧ now ≤ w.now
  | .finding d reg => d.Accepted r ∧ d.LookedIn reg w.log
  | .closingOld d reg _ | .limiting d reg | .dialing d reg =>
    d.Accepted r ∧ d.LookedIn reg w.log ∧ w.shared.sessions.lookup d.key = none
  | .inserting d reg sess =>
    d.Accepted r ∧ d.LookedIn reg w.log ∧ w.shared.sessions.lookup d.key = none ∧
      sess.Serves d reg ∧ sess.key = d.key
  | .writing d reg sess => d.Accepted r ∧ d.LookedIn reg w.log ∧ sess.Serves d reg

/-- A session is in the table under the key of its player and endpoint;
the loop knows what it should; every write so far was routed. -/
structure RoutingInv (r : Runtime) (w : World) : Prop where
  table : ∀ key sess, w.shared.sessions.lookup key = some sess →
    key = dynamicSessionKey sess.playerUUID sess.clientAddr
  udp : UdpKnows r w w.udp
  log : ∀ later sess payload earlier, w.log = later ++ .wroteBackend sess payload :: earlier →
    Routed r earlier sess payload

section Invariant

variable {r : Runtime} {ids : LeaseIDs} {w w' : World}

theorem RoutingInv.boot (now : ℤ) : RoutingInv r (boot now) where
  table := nofun
  udp := trivial
  log later sess payload earlier h := by simp [Voice.boot] at h

/-- A log that grows by an entry that is not a write to a backend. -/
theorem routed_cons {log : List Entry} {e : Entry}
    (h : ∀ later sess payload earlier, log = later ++ .wroteBackend sess payload :: earlier →
      Routed r earlier sess payload)
    (he : ∀ sess payload, e = .wroteBackend sess payload → Routed r log sess payload) :
    ∀ later sess payload earlier, e :: log = later ++ .wroteBackend sess payload :: earlier →
      Routed r earlier sess payload := by
  intro later sess payload earlier heq
  cases later with
  | nil =>
    obtain ⟨rfl, rfl⟩ := List.cons.inj heq
    exact he sess payload rfl
  | cons x later => exact h later sess payload earlier (List.cons.inj heq).2

/-- **The other goroutines leave the loop with what it knows.** -/
theorem UdpKnows.quiet {u : Udp} (h : UdpKnows r w u) (hnow : w.now ≤ w'.now)
    (hsessions : ∀ key sess, w'.shared.sessions.lookup key = some sess →
      w.shared.sessions.lookup key = some sess)
    (hlog : w'.log = w.log ∨ ∃ e, w'.log = e :: w.log ∧ e.ofUdp = false) : UdpKnows r w' u := by
  have hreceived : ∀ {d : Datagram}, d.ReceivedIn w.log → d.ReceivedIn w'.log := by
    intro d hd
    rcases hlog with hlog | ⟨e, hlog, he⟩ <;> rw [hlog]
    · exact hd
    · exact hd.cons he
  have hlooked : ∀ {d : Datagram} {reg : Registration}, d.LookedIn reg w.log →
      d.LookedIn reg w'.log := by
    intro d reg hd
    rcases hlog with hlog | ⟨e, hlog, he⟩ <;> rw [hlog]
    · exact hd
    · exact hd.cons he
  have habsent : ∀ {key : GoString}, w.shared.sessions.lookup key = none →
      w'.shared.sessions.lookup key = none := by
    intro key hkey
    refine Option.eq_none_iff_forall_ne_some.mpr fun sess hsess => ?_
    rw [hsessions key sess hsess] at hkey
    cases hkey
  cases u with
  | idle => trivial
  | failed sess => trivial
  | failedSocket sess => trivial
  | looking d now => exact ⟨h.1, hreceived h.2.1, h.2.2.trans hnow⟩
  | finding d reg => exact ⟨h.1, hlooked h.2⟩
  | closingOld d reg old => exact ⟨h.1, hlooked h.2.1, habsent h.2.2⟩
  | limiting d reg => exact ⟨h.1, hlooked h.2.1, habsent h.2.2⟩
  | dialing d reg => exact ⟨h.1, hlooked h.2.1, habsent h.2.2⟩
  | inserting d reg sess => exact ⟨h.1, hlooked h.2.1, habsent h.2.2.1, h.2.2.2⟩
  | writing d reg sess => exact ⟨h.1, hlooked h.2.1, h.2.2⟩

/-- A step of another goroutine. -/
theorem RoutingInv.other (h : RoutingInv r w) {a : Action} (ha : a.isUdp = false)
    (he : Effect a w w') : RoutingInv r w' := by
  have hnot : ¬ a.isUdp = true := by
    rw [ha]
    decide
  have hsessions : ∀ key sess, w'.shared.sessions.lookup key = some sess →
      w.shared.sessions.lookup key = some sess := by
    intro key sess hsess
    rcases he.sessions key sess hsess with hsess | ⟨hudp, -⟩
    · exact hsess
    · exact absurd hudp hnot
  have hlog : w'.log = w.log ∨ ∃ e, w'.log = e :: w.log ∧ e.ofUdp = false :=
    Or.imp And.left (fun ⟨e, heq, _, hudp, _⟩ => ⟨e, heq, hudp.resolve_left hnot⟩) he.log
  refine ⟨fun key sess hsess => h.table key sess (hsessions key sess hsess), ?_, ?_⟩
  · rw [he.loop.resolve_left hnot]
    exact h.udp.quiet he.now hsessions hlog
  · rcases hlog with hlog | ⟨e, hlog, hudp⟩ <;> rw [hlog]
    · exact h.log
    · refine routed_cons h.log fun sess payload heq => ?_
      rw [heq] at hudp
      cases hudp

/-- A datagram that comes in. -/
theorem RoutingInv.receive (h : RoutingInv r w) {clientAddr : UDPAddr} {data : GoString}
    (hstep : w.receive r clientAddr data = some w') : RoutingInv r w' := by
  unfold World.receive at hstep
  have hlog := routed_cons (e := .received clientAddr data) h.log nofun
  split_ifs at hstep with hidle hsize
  all_goals
    push Not at hidle
    have hknows : UdpKnows r { w with log := .received clientAddr data :: w.log } w.udp := by
      rw [hidle.2]
      trivial
  · exact Option.some.inj hstep ▸ ⟨h.table, hknows, hlog⟩
  · dsimp only at hstep
    split at hstep
    · exact Option.some.inj hstep ▸ ⟨h.table, hknows, hlog⟩
    · rename_i packet hparse
      exact Option.some.inj hstep ▸ ⟨h.table,
        ⟨⟨not_lt.mp hsize, packet, hparse, rfl⟩, ⟨w.log, .head _ _⟩, le_rfl⟩, hlog⟩

/-- Without an insertion the table only loses sessions. -/
theorem RoutingInv.table_of_effect (h : RoutingInv r w) {a : Action} (he : Effect a w w')
    (hudp : ∀ d reg sess, w.udp ≠ .inserting d reg sess) :
    ∀ key sess, w'.shared.sessions.lookup key = some sess →
      key = dynamicSessionKey sess.playerUUID sess.clientAddr := by
  intro key sess hsess
  rcases he.sessions key sess hsess with hsess | ⟨-, d, reg, hinserting⟩
  · exact h.table key sess hsess
  · exact absurd hinserting (hudp d reg sess)

/-- The lookup: the registration found is the one in the log. -/
theorem RoutingInv.look (h : RoutingInv r w) {d : Datagram} {now : ℤ}
    (hudp : w.udp = .looking d now) : RoutingInv r (w.udpLook d now) := by
  have hknows := h.udp
  rw [hudp] at hknows
  obtain ⟨haccepted, hreceived, -⟩ := hknows
  have hlog := routed_cons
    (e := .looked d.uuid now (w.shared.registrations.lookup d.uuid)) h.log nofun
  have he : Effect (.udp false) w (w.udpLook d now) := udpLook_effect hudp
  refine ⟨h.table_of_effect he (by rw [hudp]; nofun), ?_, hlog⟩
  simp only [World.udpLook]
  split
  · trivial
  · rename_i reg hok
    obtain ⟨-, hreg, hnow⟩ := lookupRegistration_ok (Prod.ext hok rfl)
    refine ⟨haccepted, now, w.log, ?_, hnow, hreceived⟩
    rw [hreg]
    exact .head _ _

/-- The first section of `sessionFor`: the session found is one of the
player and the endpoint, since keys tell them apart. -/
theorem RoutingInv.find (h : RoutingInv r w) {d : Datagram} {reg : Registration}
    (hudp : w.udp = .finding d reg) : RoutingInv r (w.udpFind d reg) := by
  have hknows := h.udp
  rw [hudp] at hknows
  obtain ⟨haccepted, hlooked⟩ := hknows
  have he : Effect (.udp false) w (w.udpFind d reg) := udpFind_effect hudp
  refine ⟨h.table_of_effect he (by rw [hudp]; nofun), ?_, h.log⟩
  unfold World.udpFind
  rcases hout : w.shared.findSession (dynamicSessionKey d.uuid d.clientAddr) reg with ⟨found, shared⟩
  rcases findSession_cases hout with ⟨rfl, rfl⟩ | ⟨rfl, rfl, habsent⟩ |
    ⟨sess, rfl, rfl, hsess, hcarries⟩ | ⟨sess, rfl, rfl⟩
  · trivial
  · exact ⟨haccepted, hlooked, habsent⟩
  · obtain ⟨huuid, haddr⟩ := dynamicSessionKey_injective (h.table _ sess hsess)
    exact ⟨haccepted, hlooked, hcarries, huuid.symm, haddr.symm⟩
  · exact ⟨haccepted, hlooked, AList.lookup_erase _ _⟩

/-- The last section of `sessionFor`. There is no session under the key, so
the one that is written through is the new one. -/
theorem RoutingInv.insert (h : RoutingInv r w) {d : Datagram} {reg : Registration} {sess : Session}
    (hudp : w.udp = .inserting d reg sess) : RoutingInv r (w.udpInsert r d reg sess) := by
  have hknows := h.udp
  rw [hudp] at hknows
  obtain ⟨haccepted, hlooked, habsent, hserves, hkey⟩ := hknows
  unfold World.udpInsert
  rcases hout : w.shared.insertSession r sess with ⟨out, shared⟩
  rcases insertSession_cases hout with ⟨err, rfl⟩ | ⟨existing, rfl, hexisting⟩ | ⟨rfl, -, rfl⟩
  · exact ⟨h.table, trivial, h.log⟩
  · rw [hkey, habsent] at hexisting
    cases hexisting
  · refine ⟨fun key sess' hsess => ?_, ⟨haccepted, hlooked.cons rfl, hserves⟩,
      routed_cons h.log nofun⟩
    rcases GoMap.lookup_insert_cases hsess with hsess | ⟨rfl, rfl⟩
    · exact h.table key sess' hsess
    · rw [hkey, hserves.playerUUID, hserves.clientAddr]
      rfl

/-- **Every piece of the UDP loop keeps the invariant.** -/
theorem RoutingInv.udpStep (h : RoutingInv r w) {fails : Bool}
    (hstep : w.udpStep r fails = some w') : RoutingInv r w' := by
  have hknows := h.udp
  unfold World.udpStep at hstep
  cases hudp : w.udp with
  | idle => simp [hudp] at hstep
  | looking d now => exact Option.some.inj (hudp ▸ hstep) ▸ h.look hudp
  | finding d reg => exact Option.some.inj (hudp ▸ hstep) ▸ h.find hudp
  | closingOld d reg old =>
    rw [hudp] at hknows hstep
    exact Option.some.inj hstep ▸ ⟨h.table, hknows, h.log⟩
  | limiting d reg =>
    rw [hudp] at hknows hstep
    obtain rfl := Option.some.inj hstep
    refine ⟨h.table, ?_, h.log⟩
    simp only [World.udpLimit]
    split
    · trivial
    · exact hknows
  | dialing d reg =>
    rw [hudp] at hknows hstep
    obtain rfl := Option.some.inj hstep
    unfold World.udpDial
    split_ifs
    · exact ⟨h.table, trivial, h.log⟩
    · obtain ⟨haccepted, hlooked, habsent⟩ := hknows
      exact ⟨h.table, ⟨haccepted, hlooked, habsent, ⟨⟨rfl, rfl, rfl⟩, rfl, rfl⟩, rfl⟩, h.log⟩
  | inserting d reg sess => exact Option.some.inj (hudp ▸ hstep) ▸ h.insert hudp
  | writing d reg sess =>
    rw [hudp] at hknows hstep
    obtain rfl := Option.some.inj hstep
    obtain ⟨haccepted, hlooked, hserves⟩ := hknows
    simp only [World.udpWrite]
    split_ifs
    · exact ⟨h.table, trivial, h.log⟩
    · refine ⟨h.table, trivial, routed_cons h.log fun sess' payload heq => ?_⟩
      obtain ⟨rfl, rfl⟩ := Entry.wroteBackend.inj heq
      exact ⟨d, reg, rfl, haccepted, hlooked, hserves⟩
  | failed sess =>
    rw [hudp] at hstep
    obtain rfl := Option.some.inj hstep
    exact ⟨fun key sess' hsess => h.table key sess' ((closeSession_sub sess).2 key sess' hsess),
      trivial, h.log⟩
  | failedSocket sess =>
    rw [hudp] at hstep
    exact Option.some.inj hstep ▸ ⟨h.table, trivial, h.log⟩

/-- **The step lemma.** -/
theorem RoutingInv.step (h : RoutingInv r w) {a : Action} (hstep : step r ids w a = some w') :
    RoutingInv r w' := by
  have he := step_effect hstep
  cases a with
  | receive clientAddr data => exact h.receive hstep
  | udp fails => exact h.udpStep hstep
  | _ => exact h.other rfl he

/-- **The run lemma.** -/
theorem RoutingInv.run {now : ℤ} {actions : List Action}
    (hrun : System.run (Voice.step r ids) (Voice.boot now) actions = some w) : RoutingInv r w :=
  System.run_invariant_of_step (fun _ _ _ h hstep => h.step hstep) (.boot now) hrun

/-- **The entries mean what they say**: one of a reception is written when
the datagram comes in, one of a lookup when the section of
`lookupRegistration` runs, with a time read before. -/
theorem log_truthful (h : RoutingInv r w) {a : Action} (hstep : Voice.step r ids w a = some w') :
    (∀ clientAddr data, w'.log = .received clientAddr data :: w.log →
      a = .receive clientAddr data) ∧
    ∀ uuid lookedAt found, w'.log = .looked uuid lookedAt found :: w.log →
      w.shared.registrations.lookup uuid = found ∧ lookedAt ≤ w.now := by
  have hlog := (step_effect hstep).log
  constructor
  · intro clientAddr data he
    obtain ⟨hidle, hudp, -⟩ := hlog.written he
    cases a with
    | receive clientAddr' data' =>
      simp only [Voice.step, World.receive] at hstep
      split_ifs at hstep with _ hsize
      · obtain rfl := Option.some.inj hstep
        obtain ⟨rfl, rfl⟩ := Entry.received.inj (List.cons.inj he).1
        rfl
      · split at hstep
        all_goals
          obtain rfl := Option.some.inj hstep
          obtain ⟨rfl, rfl⟩ := Entry.received.inj (List.cons.inj he).1
          rfl
    | udp fails =>
      simp only [Voice.step, World.udpStep, (show w.udp = .idle from hidle)] at hstep
      cases hstep
    | _ =>
      rcases hudp with hudp | hudp <;> cases hudp
  · intro uuid lookedAt found he
    obtain ⟨⟨hfound, d, hudp, -⟩, -⟩ := hlog.written he
    have hknows := h.udp
    rw [hudp] at hknows
    exact ⟨hfound, hknows.2.2⟩

end Invariant

/-- **Voice packets go where their registration says.** In every run, what
is written to a backend is the datagram that the UDP loop received last, of
at most `MaxPacketSize` bytes and accepted by `ParseClientPacket`. Since it
was received the loop looked once for a registration of its player and
found one that was not expired, and it wrote nothing else. The session
written through has the backend, lease and generation of that registration
and the player and endpoint of the datagram. The entries of the log that
say so are true when they are written. -/
theorem voice_routing (r : Runtime) (ids : LeaseIDs) (now : ℤ) (actions : List Action) (w : World)
    (hrun : System.run (step r ids) (boot now) actions = some w) :
    (∀ later sess payload earlier, w.log = later ++ .wroteBackend sess payload :: earlier →
      ∃ clientAddr packet reg lookedAt mid mid' before,
        earlier = mid ++ .looked packet.playerUUID lookedAt (some reg) ::
          (mid' ++ .received clientAddr payload :: before) ∧
        (∀ e ∈ mid ++ mid', e.ofUdp = false) ∧
        payload.length ≤ r.cfg.maxPacketSize ∧ parseClientPacket payload = .ok packet ∧
        ¬ reg.expiresAt < lookedAt ∧
        sess.backendID = reg.backendID ∧ sess.leaseID = reg.leaseID ∧
        sess.generation = reg.generation ∧
        sess.playerUUID = packet.playerUUID ∧ sess.clientAddr = clientAddr) ∧
    ∀ a w', step r ids w a = some w' →
      (∀ clientAddr data, w'.log = .received clientAddr data :: w.log →
        a = .receive clientAddr data) ∧
      ∀ uuid lookedAt found, w'.log = .looked uuid lookedAt found :: w.log →
        w.shared.registrations.lookup uuid = found ∧ lookedAt ≤ w.now := by
  have hinv : RoutingInv r w := .run hrun
  refine ⟨fun later sess payload earlier heq => ?_, fun a w' hstep => log_truthful hinv hstep⟩
  obtain ⟨d, reg, rfl, ⟨hsize, packet, hparse, huuid⟩, hlooked, hserves⟩ :=
    hinv.log later sess payload earlier heq
  obtain ⟨lookedAt, _, ⟨mid, rfl, hmid⟩, hlive, before, mid', rfl, hmid'⟩ := hlooked
  obtain ⟨hbackend, hlease, hgeneration⟩ := hserves.carries
  refine ⟨d.clientAddr, packet, reg, lookedAt, mid, mid', before, by rw [huuid], fun e he => ?_, hsize,
    hparse, hlive, hbackend, hlease, hgeneration, by rw [hserves.playerUUID, huuid],
    hserves.clientAddr⟩
  exact (List.mem_append.mp he).elim (hmid e) (hmid' e)

/-- A player is registered and talks. -/
def alexTalks : List Action :=
  [.request (registerAlex (go "lobby-token")), .handler 0, .receive alexAddr alexPacket, .udp false,
    .udp false, .udp false, .udp false, .udp false, .udp false]

theorem voice_routing_alexTalks :
    ∃ w, System.run (step demoRuntime numberedLeases) (boot 0) alexTalks = some w ∧
      ∃ sess earlier, w.log = .wroteBackend sess alexPacket :: earlier ∧
        ∃ packet, parseClientPacket alexPacket = .ok packet ∧
          sess.playerUUID = packet.playerUUID := by
  refine ⟨_, rfl, newSession 0 alex alexAddr ⟨alex, go "lobby", go "owner", Strings.itoa 0, 1, 90⟩, _,
    rfl, ?_⟩
  obtain ⟨_, packet, _, _, _, _, _, _, _, _, hparse, _, _, _, _, huuid, _⟩ :=
    (voice_routing demoRuntime numberedLeases 0 alexTalks _ rfl).1 [] _ _ _ rfl
  exact ⟨packet, hparse, huuid⟩

end Voice

end McRouter
