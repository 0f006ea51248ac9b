import McRouter.Voice.Effect

/-!
# One operation at a time is one way to interleave

`Sequential.lean` runs every operation to its end before the next begins;
`Machine.lean` lets the goroutines interleave. The first is a case of the
second: from a world at rest, the pieces of one goroutine, one after the
other, lead to a world at rest that looks as the operation left it
(`op_completes`), and so a list of operations is a run of the goroutines
(`goroutines_of_ops`). What is proved of every run of the goroutines therefore
holds of the operations, and what goes wrong between two operations goes
wrong between the goroutines.
-/

namespace McRouter

namespace Voice

open Net

/-! ## The same state on both sides -/

/-- What an entry says was written to a backend. -/
def Entry.toBackend? : Entry → Option (Session × GoString)
  | .wroteBackend sess payload => some (sess, payload)
  | _ => none

/-- What an entry says was written to a client. -/
def Entry.toClient? : Entry → Option (Session × GoString)
  | .wroteClient sess payload => some (sess, payload)
  | _ => none

/-- The world without the goroutines. Which sessions were made is not in the
world, only how many. -/
def World.state (w : World) (made : List Session) : State where
  now := w.now
  shared := w.shared
  made := made
  closed := w.closedSockets
  lastActivity := w.lastActivity
  toBackend := w.log.filterMap Entry.toBackend?
  toClient := w.log.filterMap Entry.toClient?

/-- What the steps of most goroutines leave alone. -/
def World.frame (w : World) : ℕ × List Reader × List Request × Closer × Bool :=
  (w.made, w.readers, w.requests, w.closer, w.listenerClosed)

/-- A request that got its answer. -/
def Request.IsAnswered (q : Request) : Prop := ∃ status, q = .answered status

/-- A world in which `Close` was not called: every session in the table is
under its key and has a reader that waits, and all requests but the pending
ones are answered. -/
structure Open (made : List Session) (done pending : List Request) (w : World) : Prop where
  made : w.made = made.length
  readers : ∀ key sess, w.shared.sessions.lookup key = some sess →
    sess.key = key ∧ Reader.reading sess ∈ w.readers
  requests : w.requests = done ++ pending
  answered : ∀ q ∈ done, q.IsAnswered
  closer : w.closer = .running
  listener : w.listenerClosed = false

/-- A world in which `Close` is through. -/
structure Closed (w : World) : Prop where
  shared : w.shared = { closed := true }
  closer : w.closer = .sockets []
  listener : w.listenerClosed = true

/-- **At rest**: the world looks like `s`, and no goroutine is under way. -/
structure Rests (n : ℕ) (s : State) (w : World) : Prop where
  state : w.state s.made = s
  udp : w.udp = .idle
  sweeper : w.sweeper = .idle
  requests : w.requests.length = n
  answered : ∀ q ∈ w.requests, q.IsAnswered
  stage : Open s.made w.requests [] w ∨ Closed w

/-- The world can go on to one at rest that looks like `s`, where `n` is the
number of requests. -/
def Completes (r : Runtime) (ids : LeaseIDs) (n : ℕ) (w : World) (s : State) : Prop :=
  ∃ actions w', System.run (step r ids) w actions = some w' ∧ Rests n s w'

section Completes

variable {r : Runtime} {ids : LeaseIDs} {n : ℕ} {w w' : World} {s : State} {made : List Session}
  {done pending : List Request}

theorem Rests.completes (h : Rests n s w) : Completes r ids n w s := ⟨[], w, rfl, h⟩

/-- One piece, and then the rest. -/
theorem Completes.of_step (a : Action) (w' : World) (hs : step r ids w a = some w')
    (h : Completes r ids n w' s) : Completes r ids n w s := by
  obtain ⟨actions, w₁, hrun, hrests⟩ := h
  exact ⟨a :: actions, w₁, System.run_cons.mpr ⟨w', hs, hrun⟩, hrests⟩

theorem Open.rests (h : Open made done [] w) (hudp : w.udp = .idle) (hsweeper : w.sweeper = .idle) :
    Rests done.length (w.state made) w := by
  have hrequests : w.requests = done := h.requests.trans (List.append_nil done)
  subst hrequests
  exact ⟨rfl, hudp, hsweeper, rfl, h.answered, Or.inl h⟩

/-- Sessions may leave the table. -/
theorem Open.of_sub (h : Open made done pending w) (hframe : w'.frame = w.frame)
    (hsub : ∀ key sess, w'.shared.sessions.lookup key = some sess →
      w.shared.sessions.lookup key = some sess) : Open made done pending w' := by
  simp only [World.frame, Prod.mk.injEq] at hframe
  obtain ⟨hmade, hreaders, hrequests, hcloser, hlistener⟩ := hframe
  exact ⟨hmade.trans h.made, fun key sess hs => hreaders ▸ h.readers key sess (hsub key sess hs),
    hrequests.trans h.requests, h.answered, hcloser.trans h.closer, hlistener.trans h.listener⟩

/-- Nothing that matters has changed. -/
theorem Open.keep (h : Open made done pending w) (hframe : w'.frame = w.frame)
    (hsessions : w'.shared.sessions = w.shared.sessions) : Open made done pending w' :=
  h.of_sub hframe fun _ _ hs => hsessions ▸ hs

end Completes

/-! ## The UDP loop -/

section Udp

variable {r : Runtime} {ids : LeaseIDs} {w : World} {made : List Session}
  {done : List Request} {d : Datagram}
  {reg : Registration} {sess : Session}

/-- After a failed write the session is closed. -/
theorem failed_completes (h : Open made done [] w) (hsweeper : w.sweeper = .idle)
    (hudp : w.udp = .failed sess) :
    Completes r ids done.length w ((w.state made).closeSession sess) := by
  let w₁ : World := { w with shared := w.shared.closeSession sess, udp := .failedSocket sess }
  let w₂ : World := { w₁.closeSocket sess with udp := .idle }
  have h₂ : Open made done [] w₂ := h.of_sub rfl (closeSession_sub sess).2
  refine .of_step (.udp false) w₁ (by simp only [step, World.udpStep, hudp]; rfl) ?_
  refine .of_step (.udp false) w₂ rfl ?_
  exact (h₂.rests rfl hsweeper).completes

/-- The write. -/
theorem writing_completes (h : Open made done [] w) (hsweeper : w.sweeper = .idle)
    (hudp : w.udp = .writing d reg sess) (writeErr : Option Err) :
    Completes r ids done.length w ((w.state made).writeBackend sess d.payload writeErr) := by
  have hstep : step r ids w (.udp writeErr.isSome) =
      some (w.udpWrite d sess writeErr.isSome) := by
    simp only [step, World.udpStep, hudp]
  refine .of_step _ _ hstep ?_
  have hiff : (sess.id ∈ (w.touch sess).closedSockets ∨ writeErr.isSome = true) ↔
      (sess.id ∈ ((w.state made).touch sess).closed ∨ writeErr ≠ none) := by
    rw [Option.isSome_iff_ne_none]
    rfl
  unfold World.udpWrite State.writeBackend
  simp only [hiff]
  split_ifs with hfails
  · have h₁ : Open made done [] { w.touch sess with udp := .failed sess } := h.keep rfl rfl
    exact failed_completes h₁ hsweeper rfl
  · have h₁ : Open made done [] { w.touch sess with
        udp := .idle, log := .wroteBackend sess d.payload :: w.log } := h.keep rfl rfl
    exact (h₁.rests rfl hsweeper).completes

/-- What `forwardClientPacket` does with the session it was given, if any. -/
def State.forward (payload : GoString) (writeErr : Option Err) : Option Session × State → State
  | (none, s) => s
  | (some sess, s) => s.writeBackend sess payload writeErr

/-- The last section of `sessionFor`, with a session just made. -/
theorem inserting_completes (h : Open made done [] w) (hsweeper : w.sweeper = .idle)
    (hudp : w.udp = .inserting d reg sess) (writeErr : Option Err) :
    Completes r ids done.length w (State.forward d.payload writeErr
      (match w.shared.insertSession r sess with
        | (.failed _, _) => (none, (w.state made).closeSocket sess)
        | (.existing existing, _) => (some existing, (w.state made).closeSocket sess)
        | (.created, shared) => (some sess, { w.state made with shared }))) := by
  have hstep : step r ids w (.udp false) = some (w.udpInsert r d reg sess) := by
    simp only [step, World.udpStep, hudp]
  refine .of_step _ _ hstep ?_
  unfold World.udpInsert
  rcases hins : w.shared.insertSession r sess with ⟨ins, shared⟩
  cases ins with
  | failed err =>
    have h₁ : Open made done [] { w.closeSocket sess with udp := .idle } := h.keep rfl rfl
    exact (h₁.rests rfl hsweeper).completes
  | existing existing =>
    have h₁ : Open made done [] { w.closeSocket sess with udp := .writing d reg existing } :=
      h.keep rfl rfl
    exact writing_completes h₁ hsweeper rfl writeErr
  | created =>
    -- the session comes with its reader
    have h₁ : Open made done [] { w with
        shared
        udp := .writing d reg sess
        readers := w.readers ++ [.reading sess]
        log := .inserted sess :: w.log } := by
      refine ⟨h.made, fun key sess' hs => ?_, h.requests, h.answered, h.closer, h.listener⟩
      obtain ⟨err, hout⟩ | ⟨existing, hout, -⟩ | ⟨-, -, rfl⟩ := insertSession_cases hins
      · cases hout
      · cases hout
      rcases GoMap.lookup_insert_cases hs with hs | ⟨rfl, rfl⟩
      · obtain ⟨hkey, hmem⟩ := h.readers key sess' hs
        exact ⟨hkey, List.mem_append_left _ hmem⟩
      · exact ⟨rfl, by simp⟩
    exact writing_completes h₁ hsweeper rfl writeErr

/-- `sessionFor` from its second section on. -/
theorem limiting_completes (h : Open made done [] w) (hsweeper : w.sweeper = .idle)
    (hudp : w.udp = .limiting d reg) (dialErr writeErr : Option Err) :
    Completes r ids done.length w (State.forward d.payload writeErr
      ((w.state made).dialSession r d.uuid d.clientAddr reg dialErr)) := by
  have hstep : step r ids w (.udp false) = some (w.udpLimit r d reg) := by
    simp only [step, World.udpStep, hudp]
  refine .of_step _ _ hstep ?_
  unfold World.udpLimit State.dialSession
  have hshared : (w.state made).shared = w.shared := rfl
  rw [hshared]
  cases w.shared.backendFor r reg with
  | error err =>
    have h₁ : Open made done [] { w with udp := .idle } := h.keep rfl rfl
    exact (h₁.rests rfl hsweeper).completes
  | ok backend =>
    cases dialErr with
    | some err =>
      refine .of_step (.udp true) { w with udp := .idle } rfl ?_
      have h₁ : Open made done [] { w with udp := .idle } := h.keep rfl rfl
      exact (h₁.rests rfl hsweeper).completes
    | none =>
      let sess := newSession w.made d.uuid d.clientAddr reg
      let w₁ : World := { w.touch sess with made := w.made + 1, udp := .inserting d reg sess }
      refine .of_step (.udp false) w₁ rfl ?_
      have h₁ : Open (sess :: made) done [] w₁ :=
        ⟨congrArg (· + 1) h.made, h.readers, h.requests, h.answered, h.closer, h.listener⟩
      have hsess : newSession (w.state made).made.length d.uuid d.clientAddr reg = sess := by
        rw [show (w.state made).made.length = w.made from h.made.symm]
      simp only [hsess]
      exact inserting_completes h₁ hsweeper rfl writeErr

/-- `sessionFor`. -/
theorem finding_completes (h : Open made done [] w) (hsweeper : w.sweeper = .idle)
    (hudp : w.udp = .finding d reg) (dialErr writeErr : Option Err) :
    Completes r ids done.length w (State.forward d.payload writeErr
      ((w.state made).sessionFor r d.uuid d.clientAddr reg dialErr)) := by
  have hstep : step r ids w (.udp false) = some (w.udpFind d reg) := by
    simp only [step, World.udpStep, hudp]
  refine .of_step _ _ hstep ?_
  unfold World.udpFind State.sessionFor
  have hshared : (w.state made).shared = w.shared := rfl
  rw [hshared]
  rcases hfind : w.shared.findSession (dynamicSessionKey d.uuid d.clientAddr) reg with
    ⟨found, shared⟩
  rcases findSession_cases hfind with ⟨rfl, rfl⟩ | ⟨rfl, rfl, -⟩ | ⟨sess, rfl, rfl, -⟩ |
    ⟨old, rfl, rfl⟩
  · have h₁ : Open made done [] { w with udp := .idle } := h.keep rfl rfl
    exact (h₁.rests rfl hsweeper).completes
  · have h₁ : Open made done [] { w with udp := .limiting d reg } := h.keep rfl rfl
    exact limiting_completes h₁ hsweeper rfl dialErr writeErr
  · have h₁ : Open made done [] { w with udp := .writing d reg sess } := h.keep rfl rfl
    exact writing_completes h₁ hsweeper rfl writeErr
  · let shared : Shared := { w.shared with
      sessions := w.shared.sessions.erase (dynamicSessionKey d.uuid d.clientAddr) }
    let w₁ : World := { w with shared, udp := .closingOld d reg old }
    let w₂ : World := { w₁.closeSocket old with udp := .limiting d reg }
    have h₂ : Open made done [] w₂ := h.of_sub rfl fun _ _ hs => GoMap.lookup_of_erase hs
    refine .of_step (.udp false) w₂ rfl ?_
    exact limiting_completes h₂ hsweeper rfl dialErr writeErr

theorem lookupRegistration_sessions (s : Shared) (now : ℤ) (uuid : UUID) :
    (s.lookupRegistration now uuid).2.sessions = s.sessions := by
  unfold Shared.lookupRegistration
  split
  · rfl
  · split <;> rfl

/-- **A datagram.** -/
theorem datagram_completes (h : Open made done [] w) (hsweeper : w.sweeper = .idle)
    (hudp : w.udp = .idle) (clientAddr : UDPAddr) (data : GoString) (dialErr writeErr : Option Err) :
    Completes r ids done.length w ((w.state made).serveUDP r clientAddr data dialErr writeErr) := by
  let w₁ : World := { w with log := .received clientAddr data :: w.log }
  have h₁ : Open made done [] w₁ := h.keep rfl rfl
  have hfree : ¬ (w.listenerClosed = true ∨ w.udp ≠ .idle) := by simp [h.listener, hudp]
  unfold State.serveUDP State.forwardClientPacket
  by_cases hsize : r.cfg.maxPacketSize < data.length
  · have hstep : step r ids w (.receive clientAddr data) = some w₁ := by
      simp only [step, World.receive, if_neg hfree, if_pos hsize, w₁]
    rw [if_pos hsize]
    exact .of_step _ _ hstep (h₁.rests hudp hsweeper).completes
  rw [if_neg hsize]
  cases hparse : parseClientPacket data with
  | error err =>
    have hstep : step r ids w (.receive clientAddr data) = some w₁ := by
      simp only [step, World.receive, if_neg hfree, if_neg hsize, hparse, w₁]
    exact .of_step _ _ hstep (h₁.rests hudp hsweeper).completes
  | ok packet =>
    have hstep : step r ids w (.receive clientAddr data) =
        some { w₁ with udp := .looking ⟨clientAddr, data, packet.playerUUID⟩ w.now } := by
      simp only [step, World.receive, if_neg hfree, if_neg hsize, hparse, w₁]
    refine .of_step _ _ hstep ?_
    let d : Datagram := ⟨clientAddr, data, packet.playerUUID⟩
    refine .of_step (.udp false)
      (World.udpLook { w₁ with udp := .looking d w.now } d w.now) rfl ?_
    unfold World.udpLook
    have hshared : (w.state made).shared.lookupRegistration (w.state made).now packet.playerUUID =
      w₁.shared.lookupRegistration w.now d.uuid := rfl
    simp only [hshared]
    have hsessions := lookupRegistration_sessions w₁.shared w.now d.uuid
    rcases hlookup : w₁.shared.lookupRegistration w.now d.uuid with ⟨found, shared⟩
    rw [hlookup] at hsessions
    let log := Entry.looked d.uuid w.now (w₁.shared.registrations.lookup d.uuid) :: w₁.log
    cases found with
    | error err =>
      have h₂ : Open made done [] { w₁ with shared, udp := .idle, log } := h₁.keep rfl hsessions
      exact (h₂.rests rfl hsweeper).completes
    | ok reg =>
      have h₂ : Open made done [] { w₁ with shared, udp := .finding d reg, log } :=
        h₁.keep rfl hsessions
      exact finding_completes h₂ hsweeper rfl dialErr writeErr

end Udp

/-! ## The reader of a session -/

section Reader

variable {r : Runtime} {ids : LeaseIDs} {w : World} {made : List Session}
  {done : List Request} {sess : Session}

variable {i : ℕ} {rd rd' : Reader}

/-- A reader that is set has moved. -/
theorem getElem?_setReader (rd' : Reader) (h : w.readers[i]? = some rd) :
    (w.setReader i rd').readers[i]? = some rd' :=
  System.getElem?_set_eq h

theorem setReader_setReader : (w.setReader i rd).setReader i rd' = w.setReader i rd' := by
  simp [World.setReader]

/-- The other readers are where they were. -/
theorem mem_setReader (h : w.readers[i]? = some rd) {rd₁ : Reader} (hmem : rd₁ ∈ w.readers)
    (hne : rd₁ ≠ rd ∨ rd₁ = rd') : rd₁ ∈ (w.setReader i rd').readers := by
  obtain ⟨j, hj⟩ := List.mem_iff_getElem?.mp hmem
  by_cases hij : j = i
  · subst hij
    obtain rfl := Option.some.inj (hj.symm.trans h)
    obtain rfl := hne.resolve_left fun hne => hne rfl
    exact List.mem_iff_getElem?.mpr ⟨j, getElem?_setReader _ h⟩
  · refine List.mem_iff_getElem?.mpr ⟨j, ?_⟩
    rw [World.setReader, List.getElem?_set_ne (Ne.symm hij)]
    exact hj

/-- A datagram of a backend up to the write. -/
theorem reading_completes {data : GoString} {s : State} (hi : w.readers[i]? = some (.reading sess))
    (hopen : sess.id ∉ w.closedSockets) (hsize : ¬ r.cfg.maxPacketSize < data.length)
    (hcurrent : w.shared.sessionIsCurrent sess = true)
    (h : Completes r ids done.length (w.setReader i (.writing sess data)) s) :
    Completes r ids done.length w s := by
  refine .of_step (.backendRead i (some data)) (w.setReader i (.checking sess data)) ?_ ?_
  · simp only [step, World.backendRead, hi, if_neg hopen, if_neg hsize]
  refine .of_step (.reader i false) _ ?_ h
  have hset := getElem?_setReader (.checking sess data) hi
  have hcurrent : (w.setReader i (.checking sess data)).shared.sessionIsCurrent sess = true :=
    hcurrent
  simp only [step, World.readerStep, hset, hcurrent, if_true, setReader_setReader]

/-- After a failed write the session is closed and its reader ends. -/
theorem readerFailed_completes (h : Open made done [] w) (hsweeper : w.sweeper = .idle)
    (hudp : w.udp = .idle) (hi : w.readers[i]? = some (.reading sess))
    (hholds : w.shared.holds sess) :
    Completes r ids done.length (w.setReader i (.failed sess))
      ((w.state made).closeSession sess) := by
  let w₁ : World := { w.setReader i (.failedSocket sess) with
    shared := w.shared.closeSession sess }
  let w₂ : World := { (w.closeSocket sess).setReader i .done with
    shared := w.shared.closeSession sess }
  refine .of_step (.reader i false) w₁ ?_ ?_
  · simp only [step, World.readerStep, getElem?_setReader _ hi, setReader_setReader]
    rfl
  refine .of_step (.reader i false) w₂ ?_ ?_
  · have hset : w₁.readers[i]? = some (.failedSocket sess) :=
      getElem?_setReader (.failedSocket sess) hi
    simp only [step, World.readerStep, hset]
    simp [w₁, w₂, World.setReader, World.closeSocket]
  have h₂ : Open made done [] w₂ := by
    refine ⟨h.made, fun key sess' hs => ?_, h.requests, h.answered, h.closer, h.listener⟩
    obtain ⟨hkey, hmem⟩ := h.readers key sess' ((closeSession_sub sess).2 key sess' hs)
    refine ⟨hkey, mem_setReader hi hmem (Or.inl ?_)⟩
    -- what is left in the table is under another key
    rintro heq
    obtain rfl := Reader.reading.inj heq
    have hgone : (w.shared.closeSession sess').sessions.lookup sess'.key = none := by
      rw [Shared.closeSession, if_pos hholds]
      exact AList.lookup_erase _ _
    rw [← hkey] at hs
    cases hgone.symm.trans hs
  exact (h₂.rests hudp hsweeper).completes

/-- **A datagram of a backend.** -/
theorem backendDatagram_completes (h : Open made done [] w) (hsweeper : w.sweeper = .idle)
    (hudp : w.udp = .idle) (data : GoString) (writeErr : Option Err) :
    Completes r ids done.length w ((w.state made).readBackend r sess data writeErr) := by
  have hrest : Completes r ids done.length w (w.state made) := (h.rests hudp hsweeper).completes
  unfold State.readBackend
  split_ifs with hread hcurrent
  · exact hrest
  · exact hrest
  obtain ⟨hopen, hsize⟩ := not_or.mp hread
  have hcurrent : w.shared.sessionIsCurrent sess = true := by
    rw [Bool.not_eq_true', Bool.not_eq_false] at hcurrent
    exact hcurrent
  obtain ⟨hclosed, hholds⟩ : w.shared.closed = false ∧ w.shared.holds sess := by
    simpa [Shared.sessionIsCurrent] using hcurrent
  obtain ⟨i, hi⟩ := List.mem_iff_getElem?.mp (h.readers _ _ hholds).2
  have hset := getElem?_setReader (.writing sess data) hi
  cases writeErr with
  | none =>
    refine reading_completes hi hopen hsize hcurrent ?_
    let w₁ : World := { (w.touch sess).setReader i (.reading sess) with
      log := .wroteClient sess data :: w.log }
    refine .of_step (.reader i false) w₁ ?_ ?_
    · have hlistener : (w.setReader i (.writing sess data)).listenerClosed = false := h.listener
      simp only [step, World.readerStep, hset, hlistener]
      simp [w₁, World.setReader, World.touch]
    · have h₁ : Open made done [] w₁ := by
        refine ⟨h.made, fun key sess' hs => ?_, h.requests, h.answered, h.closer, h.listener⟩
        obtain ⟨hkey, hmem⟩ := h.readers key sess' hs
        refine ⟨hkey, mem_setReader hi hmem ?_⟩
        exact ne_or_eq (Reader.reading sess') (.reading sess)
      exact (h₁.rests hudp hsweeper).completes
  | some err =>
    dsimp only
    split_ifs with hdone
    · exact hrest
    · refine reading_completes hi hopen hsize hcurrent ?_
      refine .of_step (.reader i true) (w.setReader i (.failed sess)) ?_ ?_
      · have hlistener : (w.setReader i (.writing sess data)).listenerClosed = false := h.listener
        have hclosed : (w.setReader i (.writing sess data)).shared.closed = false := hclosed
        simp only [step, World.readerStep, hset, hlistener, hclosed]
        simp [World.setReader]
      exact readerFailed_completes h hsweeper hudp hi hholds

end Reader

/-! ## Requests -/

section Requests

variable {r : Runtime} {ids : LeaseIDs} {w : World} {made : List Session} {done : List Request}
  {q : Request} {uuid : UUID} {status : ℕ} {older : Option (List GoString)}

/-- The pending request is the last one. -/
theorem Open.pending (h : Open made done [q] w) : w.requests[done.length]? = some q := by
  rw [h.requests]
  exact List.getElem?_concat_length

/-- The pending request moves. -/
theorem Open.setRequest (h : Open made done [q] w) (q' : Request) :
    Open made done [q'] (w.setRequest done.length q') := by
  refine ⟨h.made, h.readers, ?_, h.answered, h.closer, h.listener⟩
  simp [World.setRequest, h.requests]

/-- The pending request got its answer. -/
theorem Open.completes (h : Open made done [.answered status] w) (hsweeper : w.sweeper = .idle)
    (hudp : w.udp = .idle) : Completes r ids (done.length + 1) w (w.state made) := by
  have h₁ : Open made (done ++ [.answered status]) [] w := by
    refine ⟨h.made, h.readers, by simp [h.requests], fun q hq => ?_, h.closer, h.listener⟩
    rcases List.mem_append.mp hq with hq | hq
    · exact h.answered q hq
    · exact ⟨status, List.mem_singleton.mp hq⟩
  have hrests := h₁.rests hudp hsweeper
  rw [List.length_append, List.length_singleton] at hrests
  exact hrests.completes

/-- The sockets are closed one by one before the answer. -/
theorem answering_completes (sessions : List Session) :
    ∀ {w : World}, Open made done [.sockets sessions uuid status older] w → w.sweeper = .idle →
      w.udp = .idle →
      Completes r ids (done.length + 1) w (sessions.foldl State.closeSocket (w.state made)) := by
  induction sessions with
  | nil =>
    intro w h hsweeper hudp
    let w₁ := w.answer done.length uuid status older
    refine .of_step (.handler done.length) w₁ ?_ ?_
    · simp only [step, World.handlerStep, h.pending]
      rfl
    · have h₁ : Open made done [.answered status] w₁ :=
        (h.setRequest (.answered status)).keep rfl rfl
      have hstate : w₁.state made = w.state made := by
        cases older with
        | none => rfl
        | some older =>
          simp only [w₁, World.answer]
          split <;> rfl
      rw [List.foldl_nil, ← hstate]
      exact h₁.completes hsweeper hudp
  | cons sess sessions ih =>
    intro w h hsweeper hudp
    let q : Request := .sockets sessions uuid status older
    let w₁ : World := (w.closeSocket sess).setRequest done.length q
    have h₁ : Open made done [q] w₁ := (h.setRequest q).keep rfl rfl
    refine .of_step (.handler done.length) w₁ ?_ (ih h₁ hsweeper hudp)
    simp only [step, World.handlerStep, h.pending]
    rfl

/-- `closeSessionsForUUID` and the answer. -/
theorem closing_completes (h : Open made done [.closing uuid status older] w)
    (hsweeper : w.sweeper = .idle) (hudp : w.udp = .idle) :
    Completes r ids (done.length + 1) w ((w.state made).closeSessionsForUUID uuid) := by
  let out := w.shared.closeSessionsForUUID uuid
  let q : Request := .sockets out.1 uuid status older
  let w₁ : World := { w.setRequest done.length q with shared := out.2 }
  have h₁ : Open made done [q] w₁ := (h.setRequest q).of_sub rfl fun key sess hs =>
    ((lookup_closeSessionsForUUID uuid key sess).mp hs).1
  refine .of_step (.handler done.length) w₁ ?_ (answering_completes out.1 h₁ hsweeper hudp)
  simp only [step, World.handlerStep, h.pending]
  rfl

/-- A `PUT` from its section on. -/
theorem put_completes {authorization backendID ownerID leaseID : GoString}
    (h : Open made done [.put authorization
      ⟨uuid, backendID, ownerID, leaseID, 0, w.now + r.cfg.registrationTTL⟩] w)
    (hsweeper : w.sweeper = .idle) (hudp : w.udp = .idle) :
    Completes r ids (done.length + 1) w
      ((w.state made).handlePutRegistration r backendID uuid ownerID (some leaseID)) := by
  let reg : Registration :=
    ⟨uuid, backendID, ownerID, leaseID, 0, w.now + r.cfg.registrationTTL⟩
  refine .of_step (.handler done.length) (w.handlerPut r done.length authorization reg) ?_ ?_
  · simp only [step, World.handlerStep, h.pending]
    rfl
  have hstate : (w.state made).shared.putRegistration r
      ⟨uuid, backendID, ownerID, leaseID, 0, (w.state made).now + r.cfg.registrationTTL⟩ =
    w.shared.putRegistration r reg := rfl
  simp only [World.handlerPut, State.handlePutRegistration, hstate]
  rcases hput : w.shared.putRegistration r reg with ⟨put, shared⟩
  rcases putRegistration_cases hput with ⟨rfl | rfl, rfl⟩ | ⟨stored, replaced, rfl, -, rfl, rfl⟩
  · exact (h.setRequest (.answered 503)).completes hsweeper hudp
  · exact (h.setRequest (.answered 429)).completes hsweeper hudp
  let stored : Registration := { reg with generation := nextGeneration replaced }
  let shared : Shared :=
    { w.shared with registrations := w.shared.registrations.insert reg.playerUUID stored }
  have hsessions : shared.sessions = w.shared.sessions := rfl
  let log := Entry.stored authorization stored replaced :: w.log
  cases replaced with
  | none =>
    have h₁ : Open made done [.answered 200]
        { w.setRequest done.length (.answered 200) with shared, log } :=
      (h.setRequest (.answered 200)).keep rfl hsessions
    exact h₁.completes hsweeper hudp
  | some old =>
    let q : Request := .closing uuid 200 (some (leasesOf uuid w.log))
    have h₁ : Open made done [q] { w.setRequest done.length q with shared, log } :=
      (h.setRequest q).keep rfl hsessions
    exact closing_completes h₁ hsweeper hudp

/-- A refresh from its section on. -/
theorem refresh_completes {backendID ownerID leaseID : GoString}
    (h : Open made done [.refresh uuid backendID ownerID leaseID] w)
    (hsweeper : w.sweeper = .idle) (hudp : w.udp = .idle) :
    Completes r ids (done.length + 1) w
      ((w.state made).handleRefreshRegistration r backendID uuid ownerID leaseID) := by
  let w₁ := w.handlerRefresh r done.length uuid backendID ownerID leaseID
  have hsessions : w₁.shared.sessions = w.shared.sessions := by
    simp only [w₁, World.handlerRefresh]
    rcases hrefresh : w.shared.refreshRegistration r w.now uuid backendID ownerID leaseID with
      ⟨out, shared⟩
    rcases refreshRegistration_cases hrefresh with ⟨-, rfl, -⟩ | ⟨reg, -, -, -, rfl⟩
    · rfl
    · rfl
  have h₁ : Open made done [.answered _] w₁ := (h.setRequest (.answered _)).keep rfl hsessions
  refine .of_step (.handler done.length) w₁ ?_ (h₁.completes hsweeper hudp)
  simp only [step, World.handlerStep, h.pending]
  rfl

/-- A `DELETE` from its section on. -/
theorem delete_completes {backendID ownerID leaseID : GoString}
    (h : Open made done [.delete uuid backendID ownerID leaseID] w)
    (hsweeper : w.sweeper = .idle) (hudp : w.udp = .idle) :
    Completes r ids (done.length + 1) w
      ((w.state made).handleDeleteRegistration backendID uuid ownerID leaseID) := by
  refine .of_step (.handler done.length)
    (w.handlerDelete done.length uuid backendID ownerID leaseID) ?_ ?_
  · simp only [step, World.handlerStep, h.pending]
  have hstate : (w.state made).shared.deleteRegistration uuid backendID ownerID leaseID =
    w.shared.deleteRegistration uuid backendID ownerID leaseID := rfl
  unfold World.handlerDelete State.handleDeleteRegistration
  rw [hstate]
  rcases hdelete : w.shared.deleteRegistration uuid backendID ownerID leaseID with ⟨out, shared⟩
  let log := Entry.deleted uuid backendID ownerID leaseID :: w.log
  rcases deleteRegistration_cases hdelete with ⟨rfl, rfl, -⟩ | ⟨reg, rfl, -, -, rfl⟩
  · have h₁ : Open made done [.answered 204]
        { w.setRequest done.length (.answered 204) with log } :=
      (h.setRequest (.answered 204)).keep rfl rfl
    exact h₁.completes hsweeper hudp
  · let q : Request := .closing uuid 204 none
    let shared : Shared := { w.shared with registrations := w.shared.registrations.erase uuid }
    have h₁ : Open made done [q] { w.setRequest done.length q with shared, log } :=
      (h.setRequest q).keep rfl rfl
    exact closing_completes h₁ hsweeper hudp

/-- **A request**, with the lease that is drawn for it. -/
theorem request_completes (h : Open made done [] w) (hsweeper : w.sweeper = .idle)
    (hudp : w.udp = .idle) (req : HTTPRequest) :
    Completes r ids (done.length + 1) w
      ((w.state made).handle r req (ids.newLeaseID done.length)) := by
  have hdone : w.requests = done := h.requests.trans (List.append_nil done)
  let w₁ : World := { w with requests := w.requests ++ [w.accept r ids req] }
  have h₁ : Open made done [w.accept r ids req] w₁ :=
    ⟨h.made, h.readers, by simp [w₁, hdone], h.answered, h.closer, h.listener⟩
  refine .of_step (.request req) w₁ rfl ?_
  -- both sides look at what the request asks for
  unfold World.accept at h₁
  rw [hdone] at h₁
  unfold State.handle
  split
  · rename_i status herr
    rw [herr] at h₁
    exact h₁.completes hsweeper hudp
  · rename_i backendID uuid ownerID hok
    rw [hok] at h₁
    cases hlease : ids.newLeaseID done.length with
    | none =>
      simp only [hlease] at h₁
      exact h₁.completes hsweeper hudp
    | some leaseID =>
      simp only [hlease] at h₁
      exact put_completes h₁ hsweeper hudp
  · rename_i backendID uuid ownerID leaseID hok
    rw [hok] at h₁
    exact refresh_completes h₁ hsweeper hudp
  · rename_i backendID uuid ownerID leaseID hok
    rw [hok] at h₁
    exact delete_completes h₁ hsweeper hudp

end Requests

/-! ## The sweep -/

section Sweep

variable {r : Runtime} {ids : LeaseIDs} {w : World} {made : List Session}
  {done : List Request}

/-- What the sweep does with a session of its snapshot. -/
def State.closeIdle (r : Runtime) (s : State) (sess : Session) : State :=
  if r.cfg.idleTimeout ≤ s.now - s.lastActivity sess.id then s.closeSession sess else s

/-- The snapshot is gone through. -/
theorem checking_completes (sessions : List Session) : ∀ {w : World}, Open made done [] w →
    w.udp = .idle → w.sweeper = .checking sessions →
    Completes r ids done.length w (sessions.foldl (State.closeIdle r) (w.state made)) := by
  induction sessions with
  | nil =>
    intro w h hudp hsweeper
    have h₁ : Open made done [] { w with sweeper := .idle } := h.keep rfl rfl
    refine .of_step .sweeper _ ?_ (h₁.rests hudp rfl).completes
    simp only [step, World.sweeperStep, hsweeper]
  | cons sess sessions ih =>
    intro w h hudp hsweeper
    rw [List.foldl_cons]
    by_cases hidle : r.cfg.idleTimeout ≤ w.now - w.lastActivity sess.id
    · let w₁ : World := { w with sweeper := .removing sess sessions }
      let w₂ : World :=
        { w with shared := w.shared.closeSession sess, sweeper := .socket sess sessions }
      let w₃ : World := { w₂.closeSocket sess with sweeper := .checking sessions }
      have h₃ : Open made done [] w₃ := h.of_sub rfl (closeSession_sub sess).2
      refine .of_step .sweeper w₁ ?_ ?_
      · simp only [step, World.sweeperStep, hsweeper, if_pos hidle]
        rfl
      refine .of_step .sweeper w₂ rfl ?_
      refine .of_step .sweeper w₃ rfl ?_
      have hclose : State.closeIdle r (w.state made) sess = (w.state made).closeSession sess :=
        if_pos hidle
      rw [hclose]
      exact ih h₃ hudp rfl
    · have h₁ : Open made done [] { w with sweeper := .checking sessions } := h.keep rfl rfl
      refine .of_step .sweeper { w with sweeper := .checking sessions } ?_ ?_
      · simp only [step, World.sweeperStep, hsweeper, if_neg hidle]
      have hkeep : State.closeIdle r (w.state made) sess = w.state made := if_neg hidle
      rw [hkeep]
      exact ih h₁ hudp rfl

/-- The sockets of a player are closed one by one, and then what is next. -/
theorem sockets_completes {uuids : List UUID} {f : State → State}
    (hnext : ∀ {w : World}, Open made done [] w → w.udp = .idle → w.sweeper = .closing uuids →
      Completes r ids done.length w (f (w.state made))) (sessions : List Session) :
    ∀ {w : World}, Open made done [] w → w.udp = .idle → w.sweeper = .sockets sessions uuids →
      Completes r ids done.length w (f (sessions.foldl State.closeSocket (w.state made))) := by
  induction sessions with
  | nil =>
    intro w h hudp hsweeper
    have h₁ : Open made done [] { w with sweeper := .closing uuids } := h.keep rfl rfl
    refine .of_step .sweeper { w with sweeper := .closing uuids } ?_ (hnext h₁ hudp rfl)
    simp only [step, World.sweeperStep, hsweeper]
  | cons sess sessions ih =>
    intro w h hudp hsweeper
    let w₁ : World := { w.closeSocket sess with sweeper := .sockets sessions uuids }
    have h₁ : Open made done [] w₁ := h.keep rfl rfl
    refine .of_step .sweeper w₁ ?_ (ih h₁ hudp rfl)
    simp only [step, World.sweeperStep, hsweeper]
    rfl

/-- The sweep from the players on whose registrations it removed. -/
theorem sweepClosing_completes (uuids : List UUID) : ∀ {w : World}, Open made done [] w →
    w.udp = .idle → w.sweeper = .closing uuids →
    Completes r ids done.length w (let s := uuids.foldl State.closeSessionsForUUID (w.state made)
      s.shared.sessions.values.foldl (State.closeIdle r) s) := by
  induction uuids with
  | nil =>
    intro w h hudp hsweeper
    let w₁ : World := { w with sweeper := .checking w.shared.sessions.values }
    have h₁ : Open made done [] w₁ := h.keep rfl rfl
    refine .of_step .sweeper w₁ ?_ (checking_completes _ h₁ hudp rfl)
    simp only [step, World.sweeperStep, hsweeper]
    rfl
  | cons uuid uuids ih =>
    intro w h hudp hsweeper
    let out := w.shared.closeSessionsForUUID uuid
    let w₁ : World := { w with shared := out.2, sweeper := .sockets out.1 uuids }
    have h₁ : Open made done [] w₁ := h.of_sub rfl fun key sess hs =>
      ((lookup_closeSessionsForUUID uuid key sess).mp hs).1
    refine .of_step .sweeper w₁ ?_ ?_
    · simp only [step, World.sweeperStep, hsweeper]
      rfl
    · exact sockets_completes (f := fun s =>
        let s := uuids.foldl State.closeSessionsForUUID s
        s.shared.sessions.values.foldl (State.closeIdle r) s) ih out.1 h₁ hudp rfl

/-- **A sweep.** -/
theorem sweep_completes (h : Open made done [] w) (hsweeper : w.sweeper = .idle)
    (hudp : w.udp = .idle) :
    Completes r ids done.length w ((w.state made).sweep r) := by
  let out := w.shared.expireRegistrations w.now
  let w₁ : World := { w with sweeper := .expiring w.now }
  let w₂ : World :=
    { w with shared := out.2, sweeper := .closing out.1, log := .swept w.now :: w.log }
  have h₂ : Open made done [] w₂ := h.keep rfl rfl
  refine .of_step .sweeper w₁ ?_ ?_
  · simp only [step, World.sweeperStep, hsweeper]
    rfl
  · exact .of_step .sweeper w₂ rfl (sweepClosing_completes out.1 h₂ hudp rfl)

end Sweep

/-! ## `Close` -/

section Close

variable {r : Runtime} {ids : LeaseIDs} {w : World} {made : List Session}
  {done : List Request}

/-- The sockets that are left are closed one by one. -/
theorem closer_completes (hanswered : ∀ q ∈ done, q.IsAnswered) (sessions : List Session) :
    ∀ {w : World}, w.shared = { closed := true } →
    w.requests = done → w.listenerClosed = true → w.udp = .idle → w.sweeper = .idle →
    w.closer = .sockets sessions →
    Completes r ids done.length w (sessions.foldl State.closeSocket (w.state made)) := by
  induction sessions with
  | nil =>
    intro w hshared hrequests hlistener hudp hsweeper hcloser
    subst hrequests
    have h : Closed w := ⟨hshared, hcloser, hlistener⟩
    exact Rests.completes ⟨rfl, hudp, hsweeper, rfl, hanswered, Or.inr h⟩
  | cons sess sessions ih =>
    intro w hshared hrequests hlistener hudp hsweeper hcloser
    let w₁ : World := { w.closeSocket sess with closer := .sockets sessions }
    refine .of_step .close w₁ ?_ (ih hshared hrequests hlistener hudp hsweeper rfl)
    simp only [step, World.closerStep, hcloser]
    rfl

/-- **`Close`.** -/
theorem close_completes (h : Open made done [] w) (hsweeper : w.sweeper = .idle)
    (hudp : w.udp = .idle) :
    Completes r ids done.length w (w.state made).close := by
  let out := w.shared.shutdown
  let w₁ : World := { w with shared := out.2, closer := .listener out.1, log := .closed :: w.log }
  let w₂ : World := { w₁ with listenerClosed := true, closer := .sockets out.1 }
  refine .of_step .close w₁ ?_ ?_
  · simp only [step, World.closerStep, h.closer]
    rfl
  refine .of_step .close w₂ rfl ?_
  exact closer_completes h.answered out.1 (w := w₂) rfl
    (h.requests.trans (List.append_nil done)) rfl hudp hsweeper rfl

/-- **Nothing happens after `Close`**, whatever is asked; time goes on. -/
theorem run_of_closed {s : State} (h : s.shared = { closed := true }) (op : Op) :
    (∃ d, op = .tick d) ∨ op.run r s = s := by
  obtain ⟨now, shared, made, closed, lastActivity, toBackend, toClient⟩ := s
  obtain rfl : shared = { closed := true } := h
  cases op with
  | tick d => exact Or.inl ⟨d, rfl⟩
  | datagram clientAddr data dialErr writeErr =>
    -- there is no registration to be found
    refine Or.inr ?_
    simp only [Op.run, State.serveUDP, State.forwardClientPacket]
    split
    · rfl
    split
    · rfl
    · rfl
  | request req leaseID =>
    refine Or.inr ?_
    simp only [Op.run, State.handle]
    split
    · rfl
    · cases leaseID <;> rfl
    · rfl
    · rfl
  | sweep => exact Or.inr rfl
  | backendDatagram id data writeErr =>
    refine Or.inr ?_
    simp only [Op.run]
    split
    · rfl
    · exact ite_self _
  | close => exact Or.inr rfl

/-- The last request got its answer. -/
theorem Closed.completes {status : ℕ} (h : Closed w) (hanswered : ∀ q ∈ done, q.IsAnswered)
    (hrequests : w.requests = done ++ [.answered status]) (hsweeper : w.sweeper = .idle)
    (hudp : w.udp = .idle) : Completes r ids (done.length + 1) w (w.state made) := by
  refine Rests.completes ⟨rfl, hudp, hsweeper, by simp [hrequests], fun q hq => ?_, Or.inr h⟩
  rw [hrequests] at hq
  rcases List.mem_append.mp hq with hq | hq
  · exact hanswered q hq
  · exact ⟨status, List.mem_singleton.mp hq⟩

/-- After `Close` a request is answered from empty tables. -/
theorem closed_request_completes (h : Closed w) (hanswered : ∀ q ∈ w.requests, q.IsAnswered)
    (hsweeper : w.sweeper = .idle) (hudp : w.udp = .idle) (req : HTTPRequest) :
    Completes r ids (w.requests.length + 1) w (w.state made) := by
  let n := w.requests.length
  let w₁ : World := { w with requests := w.requests ++ [w.accept r ids req] }
  have h₁ : Closed w₁ := ⟨h.shared, h.closer, h.listener⟩
  have hpending : w₁.requests[n]? = some (w.accept r ids req) := List.getElem?_concat_length
  have hset : ∀ q, (w₁.setRequest n q).requests = w.requests ++ [q] := by
    intro q
    simp [w₁, n, World.setRequest]
  refine .of_step (.request req) w₁ rfl ?_
  cases hq : w.accept r ids req with
  | answered status =>
    have hrequests : w₁.requests = w.requests ++ [.answered status] := by rw [← hq]
    exact h₁.completes hanswered hrequests hsweeper hudp
  | put authorization reg =>
    let w₂ := w₁.setRequest n (.answered 503)
    have h₂ : Closed w₂ := ⟨h.shared, h.closer, h.listener⟩
    refine .of_step (.handler n) w₂ ?_ (h₂.completes hanswered (hset _) hsweeper hudp)
    simp only [step, World.handlerStep, hpending, hq, World.handlerPut, Shared.putRegistration,
      h₁.shared, if_true]
    rfl
  | refresh uuid backendID ownerID leaseID =>
    let w₂ : World := { w₁.setRequest n (.answered 409) with
      log := .refreshed uuid backendID ownerID leaseID (w.now + r.cfg.registrationTTL) :: w.log }
    have h₂ : Closed w₂ := ⟨h.shared, h.closer, h.listener⟩
    have hnone : w₁.shared.refreshRegistration r w₁.now uuid backendID ownerID leaseID =
        (none, w₁.shared) := by
      rw [h₁.shared]
      rfl
    refine .of_step (.handler n) w₂ ?_ (h₂.completes hanswered (hset _) hsweeper hudp)
    simp only [step, World.handlerStep, hpending, hq, World.handlerRefresh, hnone]
    rfl
  | delete uuid backendID ownerID leaseID =>
    let w₂ : World := { w₁.setRequest n (.answered 204) with
      log := .deleted uuid backendID ownerID leaseID :: w.log }
    have h₂ : Closed w₂ := ⟨h.shared, h.closer, h.listener⟩
    have hnone : w₁.shared.deleteRegistration uuid backendID ownerID leaseID =
        (false, w₁.shared) := by
      rw [h₁.shared]
      rfl
    refine .of_step (.handler n) w₂ ?_ (h₂.completes hanswered (hset _) hsweeper hudp)
    simp only [step, World.handlerStep, hpending, hq, World.handlerDelete, hnone]
    rfl
  | closing uuid status older => exact absurd hq ((accept_start req).1 uuid status older)
  | sockets sessions uuid status older =>
    exact absurd hq ((accept_start req).2 sessions uuid status older)

end Close

/-! ## Runs -/

/-- The lease of a request is the one drawn for the `n`-th. -/
def Op.Drawn (ids : LeaseIDs) (n : ℕ) : Op → Prop
  | .request _ leaseID => leaseID = ids.newLeaseID n
  | _ => True

/-- The number of requests after the operation. -/
def Op.count (n : ℕ) : Op → ℕ
  | .request _ _ => n + 1
  | _ => n

/-- Time passes. -/
theorem Rests.tick {n : ℕ} {s : State} {w : World} (h : Rests n s w) (d : ℕ) :
    Rests n { s with now := s.now + d } { w with now := w.now + d } := by
  obtain ⟨hstate, hudp, hsweeper, hrequests, hanswered, hstage⟩ := h
  refine ⟨?_, hudp, hsweeper, hrequests, hanswered, ?_⟩
  · rw [← hstate]
    rfl
  · rcases hstage with h | h
    · exact Or.inl (h.keep rfl rfl)
    · exact Or.inr ⟨h.shared, h.closer, h.listener⟩

/-- **An operation is a run of the goroutines**, from rest to rest. -/
theorem op_completes {r : Runtime} {ids : LeaseIDs} {n : ℕ} {s : State} {w : World}
    (h : Rests n s w) {op : Op} (hdrawn : op.Drawn ids n) :
    Completes r ids (op.count n) w (op.run r s) := by
  have hrests := h
  obtain ⟨hstate, hudp, hsweeper, rfl, hanswered, hopen | hclosed⟩ := h
  · cases op with
    | tick d => exact .of_step (.tick d) _ rfl (hrests.tick d).completes
    | datagram clientAddr data dialErr writeErr =>
      rw [← hstate]
      exact datagram_completes hopen hsweeper hudp clientAddr data dialErr writeErr
    | request req leaseID =>
      obtain rfl := hdrawn
      rw [← hstate]
      exact request_completes hopen hsweeper hudp req
    | sweep =>
      rw [← hstate]
      exact sweep_completes hopen hsweeper hudp
    | backendDatagram id data writeErr =>
      simp only [Op.run]
      split
      · exact hrests.completes
      · rw [← hstate]
        exact backendDatagram_completes hopen hsweeper hudp data writeErr
    | close =>
      rw [← hstate]
      exact close_completes hopen hsweeper hudp
  · have hshared : s.shared = { closed := true } := by
      rw [← hstate]
      exact hclosed.shared
    rcases run_of_closed (r := r) hshared op with ⟨d, rfl⟩ | hrun
    · exact .of_step (.tick d) _ rfl (hrests.tick d).completes
    rw [hrun]
    cases op with
    | request req leaseID =>
      rw [← hstate]
      exact closed_request_completes hclosed hanswered hsweeper hudp req
    | _ => exact hrests.completes

/-- Each request of a list of operations has the lease drawn for it. -/
def Drawn (ids : LeaseIDs) : ℕ → List Op → Prop
  | _, [] => True
  | n, op :: ops => op.Drawn ids n ∧ Drawn ids (op.count n) ops

/-- **A list of operations is a run of the goroutines.** -/
theorem ops_complete {r : Runtime} {ids : LeaseIDs} : ∀ (ops : List Op) {n : ℕ} {s s' : State}
    {w : World}, Rests n s w → Drawn ids n ops → System.run (opStep r) s ops = some s' →
      ∃ n', Completes r ids n' w s' := by
  intro ops
  induction ops with
  | nil =>
    intro n s s' w h _ hrun
    obtain rfl := Option.some.inj hrun
    exact ⟨n, h.completes⟩
  | cons op ops ih =>
    intro n s s' w h hdrawn hrun
    obtain ⟨s₁, hs₁, hrun⟩ := System.run_cons.mp hrun
    obtain rfl := Option.some.inj hs₁
    obtain ⟨actions, w₁, hw₁, hrests⟩ := op_completes (r := r) h hdrawn.1
    obtain ⟨n', actions', w', hw', hrests'⟩ := ih hrests hdrawn.2 hrun
    exact ⟨n', actions ++ actions', w', System.run_append hw₁ hw', hrests'⟩

/-- A runtime that has just been started is at rest. -/
theorem boot_rests (now : ℤ) : Rests 0 { now } (boot now) :=
  ⟨rfl, rfl, rfl, rfl, nofun, Or.inl ⟨rfl, nofun, rfl, nofun, rfl, rfl⟩⟩

/-- **What the operations do to a runtime, the goroutines can do to it**: the
same tables, the same sockets closed and the same datagrams written. -/
theorem goroutines_of_ops {r : Runtime} {ids : LeaseIDs} {now : ℤ} {ops : List Op} {s : State}
    (hdrawn : Drawn ids 0 ops) (hrun : System.run (opStep r) { now } ops = some s) :
    ∃ actions w, System.run (step r ids) (boot now) actions = some w ∧ w.state s.made = s := by
  obtain ⟨n, actions, w, hw, hrests⟩ := ops_complete ops (boot_rests now) hdrawn hrun
  exact ⟨actions, w, hw, hrests.state⟩

/-- A player is registered and talks, and the runtime is closed. -/
theorem goroutines_of_ops_alex :
    ∃ s actions w, System.run (opStep demoRuntime) { now := 0 }
        [.request (registerAlex (go "lobby-token")) (some (Strings.itoa 0)),
          .datagram alexAddr alexPacket none none, .close] = some s ∧
      s.toBackend.map (·.2) = [alexPacket] ∧
      System.run (step demoRuntime numberedLeases) (boot 0) actions = some w ∧
      w.state s.made = s := by
  have hdrawn : Drawn numberedLeases 0
      [.request (registerAlex (go "lobby-token")) (some (Strings.itoa 0)),
        .datagram alexAddr alexPacket none none, .close] := ⟨rfl, trivial, trivial, trivial⟩
  obtain ⟨actions, w, hrun, hstate⟩ := goroutines_of_ops hdrawn
    (show System.run (opStep demoRuntime) { now := 0 } _ = some _ from rfl)
  exact ⟨_, actions, w, rfl, by decide +kernel, hrun, hstate⟩

end Voice

end McRouter
