import McRouter.Common.Pipe
import McRouter.Common.Settling
import McRouter.Proxy.Forwarding

/-!
# The copying of a proxied connection

`proxy` and `copyAndClose` of `proxy/server.go`: two goroutines copy, one
from the client to the backend and one back, while the caller waits for the
first of them to end or for the context, closes both connections and takes
what the copiers still have to report. The goroutines take turns in any
order, and the network does what it likes between two of their steps.

`handleConn` knows of all this only a number of bytes, a text and what
ended first. `proxy_outcome` says that every run of the goroutines is such
an outcome, and that nothing is lost on the side that ended by itself;
`proxy_returns` that `proxy` comes back once a copier is done or the context
is, whatever the peers do.
-/

namespace McRouter

namespace Proxy

namespace Copying

open Pipe

/-! ## The connections -/

/-- `closeReasonForDirection`. -/
def closeReason : Side → Reason
  | .client => .clientClose
  | .backend => .backendClose

/-- A connection: what its peer has sent and what of it is unread, whether
the peer has finished or the connection has failed, and what the gateway has
written to it and closed of it. -/
structure Socket where
  sent : GoString
  unread : GoString
  finished : Bool
  broken : Bool
  written : GoString
  writeClosed : Bool
  closed : Bool
deriving DecidableEq

/-- An open connection of which `bytes` are there to be read. -/
def Socket.fresh (bytes : GoString) : Socket := ⟨bytes, bytes, false, false, [], false, false⟩

/-- What one `Read` or `Write` does: how many bytes it moves, and whether it
returns an error (`io.EOF` is one). -/
structure Moved where
  n : ℕ
  err : Bool
deriving DecidableEq

/-- The buffer of `io.Copy`. -/
def bufferSize : ℕ := 32768

/-- What `Read` may do. A closed connection only fails. On an open one it
waits for bytes, for the peer to finish or for a failure. -/
def Socket.canRead (x : Socket) (o : Moved) : Bool :=
  if x.closed then o.n == 0 && o.err
  else decide (o.n ≤ x.unread.length) && decide (o.n ≤ bufferSize) && (o.n != 0 || o.err) &&
    (!o.err || x.broken || (x.finished && o.n == x.unread.length))

/-- What `Write` of `len` bytes may do. It stops short, or fails, only on a
connection that is closed for writing or has failed. -/
def Socket.canWrite (x : Socket) (len : ℕ) (o : Moved) : Bool :=
  if x.closed || x.writeClosed then o.n == 0 && o.err
  else decide (o.n ≤ len) && (x.broken || (o.n == len && !o.err))

/-- A read fails on a closed connection, and on an open one only where
nothing more will come. -/
theorem Socket.canRead_cases {x : Socket} {o : Moved} (h : x.canRead o = true) :
    (x.closed = true ∧ o.n = 0 ∧ o.err = true) ∨
      (x.closed = false ∧ (o.n = 0 → o.err = true) ∧ (o.err = true →
        x.broken = true ∨ (x.finished = true ∧ x.unread.drop o.n = []))) := by
  unfold canRead at h
  split_ifs at h with hclosed
  · exact .inl ⟨hclosed, by simpa using h⟩
  · simp only [Bool.and_eq_true, Bool.or_eq_true, bne_iff_ne, Bool.not_eq_true', beq_iff_eq] at h
    refine .inr ⟨by simpa using hclosed, fun hn => h.1.2.resolve_left (not_not.mpr hn),
      fun herr => ?_⟩
    rw [herr] at h
    rcases h.2 with (hno | hb) | ⟨hf, hn⟩
    · cases hno
    · exact .inl hb
    · exact .inr ⟨hf, List.drop_of_length_le hn.ge⟩

/-- A write stops short, or fails, on a connection that is closed or has
failed. -/
theorem Socket.canWrite_cases {x : Socket} {len : ℕ} {o : Moved} (h : x.canWrite len o = true) :
    ((x.closed = true ∨ x.writeClosed = true) ∧ o.n = 0 ∧ o.err = true) ∨
      (x.closed = false ∧ o.n ≤ len ∧ (x.broken = true ∨ (o.n = len ∧ o.err = false))) := by
  unfold canWrite at h
  split_ifs at h with hclosed
  · exact .inl ⟨by simpa using hclosed, by simpa using h⟩
  · rw [Bool.or_eq_true, not_or] at hclosed
    exact .inr ⟨by simpa using hclosed.1, by simpa using h⟩

/-! ## The goroutines -/

/-- `copyAndClose`. `writing buf last` has read `buf`, and an error with it
if `last`. -/
inductive Copier where
  | reading
  | writing (buf : GoString) (last : Bool)
  | closingWrite
  | reporting
  | ended
deriving DecidableEq

/-- `proxyResult`; `none` is the empty direction. -/
structure ProxyResult where
  reason : Reason
  direction : Option Side
  bytesCopied : ℕ
deriving DecidableEq

/-- The result `proxy` starts with. -/
def cancelled : ProxyResult := ⟨.contextCancelled, none, 0⟩

/-- `proxy`, with its `result` and `remaining`. -/
inductive Caller where
  | selecting
  | closingClient (result : ProxyResult) (remaining : ℕ)
  | closingBackend (result : ProxyResult) (remaining : ℕ)
  | draining (result : ProxyResult) (remaining : ℕ)
  | returned (result : ProxyResult)
deriving DecidableEq

/-- The connections, the goroutines and what they share. `copied` are the
byte counts of the two `io.Copy`, `done` the channel. -/
structure World where
  socket : Side → Socket
  copier : Side → Copier
  copied : Side → ℕ
  done : List ProxyResult
  ctxDone : Bool
  caller : Caller

/-- The call of `proxy`, with the bytes that are there already. -/
def boot (unread : Side → GoString) : World where
  socket s := .fresh (unread s)
  copier _ := .reading
  copied _ := 0
  done := []
  ctxDone := false
  caller := .selecting

/-- What the copier of a direction puts into `done`. -/
def World.report (w : World) (s : Side) : ProxyResult := ⟨closeReason s, some s, w.copied s⟩

def World.setSocket (w : World) (s : Side) (x : Socket) : World :=
  { w with socket := Function.update w.socket s x }

def World.setCopier (w : World) (s : Side) (c : Copier) : World :=
  { w with copier := Function.update w.copier s c }

section Updates

variable (w : World) (s : Side) (x : Socket) (c : Copier)

@[simp] theorem setSocket_socket : (w.setSocket s x).socket s = x := Function.update_self ..

@[simp] theorem setSocket_other : (w.setSocket s x).socket s.other = w.socket s.other :=
  Function.update_of_ne s.other_ne ..

@[simp] theorem setSocket_of_other : (w.setSocket s.other x).socket s = w.socket s :=
  Function.update_of_ne s.ne_other ..

@[simp] theorem setSocket_copier : (w.setSocket s x).copier = w.copier := rfl

@[simp] theorem setSocket_copied : (w.setSocket s x).copied = w.copied := rfl

@[simp] theorem setCopier_copier : (w.setCopier s c).copier s = c := Function.update_self ..

@[simp] theorem setCopier_other : (w.setCopier s c).copier s.other = w.copier s.other :=
  Function.update_of_ne s.other_ne ..

@[simp] theorem setCopier_socket : (w.setCopier s c).socket = w.socket := rfl

@[simp] theorem setCopier_copied : (w.setCopier s c).copied = w.copied := rfl

end Updates

/-! ## The steps -/

/-- `copy` runs a copier, `call` the caller; the rest is the outside. Where
`proxy` could take the context and a report, `viaCtx` says which it takes. -/
inductive Action where
  | sends (s : Side) (bytes : GoString)
  | finishes (s : Side)
  | breaks (s : Side)
  | cancel
  | copy (s : Side) (o : Moved)
  | call (viaCtx : Bool)
deriving DecidableEq

/-- `io.Copy` after a read. -/
def World.read (w : World) (s : Side) (o : Moved) : World :=
  let x := w.socket s
  (w.setSocket s { x with unread := x.unread.drop o.n }).setCopier s
    (if o.n = 0 then .closingWrite else .writing (x.unread.take o.n) o.err)

/-- `io.Copy` after a write of `buf`. -/
def World.write (w : World) (s : Side) (buf : GoString) (last : Bool) (o : Moved) : World :=
  let x := w.socket s.other
  { (w.setSocket s.other { x with written := x.written ++ buf.take o.n }).setCopier s
      (if o.err || o.n != buf.length || last then .closingWrite else .reading) with
    copied := Function.update w.copied s (w.copied s + o.n) }

/-- The next step of the copier of a direction. -/
def copyStep (w : World) (s : Side) (o : Moved) : Option World :=
  match w.copier s with
  | .reading => if (w.socket s).canRead o then some (w.read s o) else none
  | .writing buf last =>
    if (w.socket s.other).canWrite buf.length o then some (w.write s buf last o) else none
  | .closingWrite =>
    some ((w.setSocket s.other { w.socket s.other with writeClosed := true }).setCopier s
      .reporting)
  | .reporting => some { w.setCopier s .ended with done := w.done ++ [w.report s] }
  | .ended => none

/-- The next step of the caller. -/
def callStep (w : World) (viaCtx : Bool) : Option World :=
  match w.caller, viaCtx, w.done with
  | .selecting, true, _ =>
    if w.ctxDone then some { w with caller := .closingClient cancelled 2 } else none
  | .selecting, false, r :: rest => some { w with done := rest, caller := .closingClient r 1 }
  | .selecting, false, [] => none
  | .closingClient r k, _, _ =>
    some { w.setSocket .client { w.socket .client with closed := true } with
      caller := .closingBackend r k }
  | .closingBackend r k, _, _ =>
    some { w.setSocket .backend { w.socket .backend with closed := true } with
      caller := .draining r k }
  | .draining r 0, _, _ => some { w with caller := .returned r }
  | .draining r (k + 1), _, _ :: rest => some { w with done := rest, caller := .draining r k }
  | .draining _ (_ + 1), _, [] => none
  | .returned _, _, _ => none

/-- One step. A peer that has finished sends nothing more. -/
def step (w : World) : Action → Option World
  | .sends s bytes =>
    let x := w.socket s
    if x.finished then none
    else some (w.setSocket s { x with sent := x.sent ++ bytes, unread := x.unread ++ bytes })
  | .finishes s => some (w.setSocket s { w.socket s with finished := true })
  | .breaks s => some (w.setSocket s { w.socket s with broken := true })
  | .cancel => some { w with ctxDone := true }
  | .copy s o => copyStep w s o
  | .call viaCtx => callStep w viaCtx

/-- What a step can be. -/
inductive Step : World → Action → World → Prop
  | sends (w s bytes) (h : (w.socket s).finished = false) :
    Step w (.sends s bytes) (w.setSocket s { w.socket s with
      sent := (w.socket s).sent ++ bytes, unread := (w.socket s).unread ++ bytes })
  | finishes (w s) : Step w (.finishes s) (w.setSocket s { w.socket s with finished := true })
  | breaks (w s) : Step w (.breaks s) (w.setSocket s { w.socket s with broken := true })
  | cancel (w) : Step w .cancel { w with ctxDone := true }
  | reads (w s o) (hc : w.copier s = .reading) (h : (w.socket s).canRead o = true) :
    Step w (.copy s o) (w.read s o)
  | writes (w s o buf last) (hc : w.copier s = .writing buf last)
      (h : (w.socket s.other).canWrite buf.length o = true) :
    Step w (.copy s o) (w.write s buf last o)
  | shuts (w s o) (hc : w.copier s = .closingWrite) :
    Step w (.copy s o) ((w.setSocket s.other
      { w.socket s.other with writeClosed := true }).setCopier s .reporting)
  | reports (w s o) (hc : w.copier s = .reporting) :
    Step w (.copy s o) { w.setCopier s .ended with done := w.done ++ [w.report s] }
  | cancels (w) (hc : w.caller = .selecting) (h : w.ctxDone = true) :
    Step w (.call true) { w with caller := .closingClient cancelled 2 }
  | selects (w r rest) (hc : w.caller = .selecting) (h : w.done = r :: rest) :
    Step w (.call false) { w with done := rest, caller := .closingClient r 1 }
  | closesClient (w r k viaCtx) (hc : w.caller = .closingClient r k) :
    Step w (.call viaCtx) { w.setSocket .client { w.socket .client with closed := true } with
      caller := .closingBackend r k }
  | closesBackend (w r k viaCtx) (hc : w.caller = .closingBackend r k) :
    Step w (.call viaCtx) { w.setSocket .backend { w.socket .backend with closed := true } with
      caller := .draining r k }
  | drains (w r k rest x viaCtx) (hc : w.caller = .draining r (k + 1)) (h : w.done = x :: rest) :
    Step w (.call viaCtx) { w with done := rest, caller := .draining r k }
  | returns (w r viaCtx) (hc : w.caller = .draining r 0) :
    Step w (.call viaCtx) { w with caller := .returned r }

theorem Step.of_copyStep {w w' : World} {s : Side} {o : Moved} (h : copyStep w s o = some w') :
    Step w (.copy s o) w' := by
  unfold copyStep at h
  split at h
  · rename_i hc
    split_ifs at h with hr
    exact Option.some.inj h ▸ .reads w s o hc hr
  · rename_i buf last hc
    split_ifs at h with hw
    exact Option.some.inj h ▸ .writes w s o buf last hc hw
  · rename_i hc
    exact Option.some.inj h ▸ .shuts w s o hc
  · rename_i hc
    exact Option.some.inj h ▸ .reports w s o hc
  · cases h

theorem Step.of_callStep {w w' : World} {viaCtx : Bool} (h : callStep w viaCtx = some w') :
    Step w (.call viaCtx) w' := by
  unfold callStep at h
  split at h
  · rename_i hc
    split_ifs at h with hd
    exact Option.some.inj h ▸ .cancels w hc hd
  · rename_i r rest hc hd
    exact Option.some.inj h ▸ .selects w r rest hc hd
  · cases h
  · rename_i r k hc
    exact Option.some.inj h ▸ .closesClient w r k _ hc
  · rename_i r k hc
    exact Option.some.inj h ▸ .closesBackend w r k _ hc
  · rename_i r hc
    exact Option.some.inj h ▸ .returns w r _ hc
  · rename_i r k x rest hc hd
    exact Option.some.inj h ▸ .drains w r k rest x _ hc hd
  · cases h
  · cases h

/-- **What a step does.** -/
theorem Step.of_step {w w' : World} {a : Action} (h : step w a = some w') : Step w a w' := by
  cases a with
  | sends s bytes =>
    simp only [step] at h
    split_ifs at h with hf
    exact Option.some.inj h ▸ .sends w s bytes (by simpa using hf)
  | finishes s => exact Option.some.inj h ▸ .finishes w s
  | breaks s => exact Option.some.inj h ▸ .breaks w s
  | cancel => exact Option.some.inj h ▸ .cancel w
  | copy s o => exact .of_copyStep h
  | call viaCtx => exact .of_callStep h

/-! ## One direction -/

/-- What a copier has read and not yet written. -/
def Copier.held : Copier → GoString
  | writing buf _ => buf
  | _ => []

/-- `io.Copy` has not returned. -/
def Copier.Active (c : Copier) : Prop := c = .reading ∨ ∃ buf last, c = .writing buf last

/-- There is nothing more to read, for good. -/
def Socket.Exhausted (x : Socket) : Prop :=
  x.broken = true ∨ (x.finished = true ∧ x.unread = [])

/-- A direction ended by itself: one of its connections failed, or
everything that was to be copied is across. -/
def Clean (src dst : Socket) : Prop :=
  src.broken = true ∨ dst.broken = true ∨ (src.finished = true ∧ dst.written = src.sent)

/-- One direction: what is across, and why `io.Copy` returned if it has. -/
structure Flow (src dst : Socket) (c : Copier) (n : ℕ) : Prop where
  through : dst.written <+: src.sent
  counted : n = dst.written.length
  conserved : c.Active → Conserves src.sent src.unread c.held dst.written
  last : ∀ buf, c = .writing buf true → src.Exhausted
  stopped : ¬ c.Active → src.closed = true ∨ dst.closed = true ∨ Clean src dst
  writeOpen : c.Active ∨ c = .closingWrite → dst.writeClosed = false

theorem Copier.active_reading : Copier.reading.Active := .inl rfl

theorem Copier.active_writing (buf : GoString) (last : Bool) : (Copier.writing buf last).Active :=
  .inr ⟨buf, last, rfl⟩

theorem Copier.not_active {c : Copier} (h : c = .closingWrite ∨ c = .reporting ∨ c = .ended) :
    ¬ c.Active := by
  rintro (rfl | ⟨buf, last, rfl⟩) <;> simp at h

namespace Flow

variable {src dst src' dst' : Socket} {c : Copier} {n : ℕ}

/-- What the direction does not look at may change, and a connection may
finish, fail or be closed. -/
theorem mono (h : Flow src dst c n) (hsent : src'.sent = src.sent)
    (hunread : src'.unread = src.unread)
    (hwritten : dst'.written = dst.written) (hopen : dst'.writeClosed = dst.writeClosed)
    (hfin : src.finished = true → src'.finished = true)
    (hbroken : src.broken = true → src'.broken = true)
    (hbroken' : dst.broken = true → dst'.broken = true)
    (hclosed : src.closed = true → src'.closed = true)
    (hclosed' : dst.closed = true → dst'.closed = true) : Flow src' dst' c n where
  through := by rw [hwritten, hsent]; exact h.through
  counted := by rw [hwritten]; exact h.counted
  conserved hc := by rw [hsent, hunread, hwritten]; exact h.conserved hc
  last buf hbuf := by
    rw [Socket.Exhausted, hunread]
    exact (h.last buf hbuf).imp hbroken (And.imp_left hfin)
  stopped hc := by
    rw [Clean, hwritten, hsent]
    exact (h.stopped hc).imp hclosed
      (Or.imp hclosed' (Or.imp hbroken (Or.imp hbroken' (And.imp_left hfin))))
  writeOpen hc := hopen.trans (h.writeOpen hc)

/-- The peer sends. -/
theorem send (h : Flow src dst c n) (hfin : src.finished = false) (bytes : GoString) :
    Flow { src with sent := src.sent ++ bytes, unread := src.unread ++ bytes } dst c n where
  through := h.through.trans (List.prefix_append _ _)
  counted := h.counted
  conserved hc := (h.conserved hc).send bytes
  last buf hbuf := by
    refine (h.last buf hbuf).imp id fun hx => ?_
    rw [hfin] at hx
    exact absurd hx.1 (by decide)
  stopped hc := by
    refine (h.stopped hc).imp id (Or.imp id (Or.imp id (Or.imp id fun hx => ?_)))
    rw [hfin] at hx
    exact absurd hx.1 (by decide)
  writeOpen := h.writeOpen

/-- A read. -/
theorem read {o : Moved} (h : Flow src dst .reading n) (ho : src.canRead o = true) :
    Flow { src with unread := src.unread.drop o.n } dst
      (if o.n = 0 then .closingWrite else .writing (src.unread.take o.n) o.err) n := by
  have hcons := h.conserved Copier.active_reading
  by_cases hn : o.n = 0
  · simp only [if_pos hn]
    refine ⟨h.through, h.counted, fun hc => absurd hc (Copier.not_active (.inl rfl)), nofun,
      fun _ => ?_, fun _ => h.writeOpen (.inl Copier.active_reading)⟩
    rcases Socket.canRead_cases ho with ⟨hclosed, -⟩ | ⟨-, herr, hend⟩
    · exact .inl hclosed
    rcases hend (herr hn) with hb | ⟨hf, hrest⟩
    · exact .inr (.inr (.inl hb))
    · rw [hn, List.drop_zero] at hrest
      rw [hrest] at hcons
      exact .inr (.inr (.inr (.inr ⟨hf, hcons.eq_of_nil⟩)))
  · simp only [if_neg hn]
    refine ⟨h.through, h.counted, fun _ => hcons.take o.n, fun buf hbuf => ?_,
      fun hc => absurd (Copier.active_writing _ _) hc,
      fun _ => h.writeOpen (.inl Copier.active_reading)⟩
    have herr : o.err = true := by injection hbuf
    rcases Socket.canRead_cases ho with ⟨-, hzero, -⟩ | ⟨-, -, hend⟩
    · exact absurd hzero hn
    · exact hend herr

/-- A write. -/
theorem write {o : Moved} {buf : GoString} {last : Bool} (h : Flow src dst (.writing buf last) n)
    (ho : dst.canWrite buf.length o = true) :
    Flow src { dst with written := dst.written ++ buf.take o.n }
      (if o.err || o.n != buf.length || last then .closingWrite else .reading) (n + o.n) := by
  have hcons := h.conserved (Copier.active_writing buf last)
  have hput := hcons.put o.n
  have hopen := h.writeOpen (.inl (Copier.active_writing buf last))
  have hcases := Socket.canWrite_cases ho
  have hle : o.n ≤ buf.length := by
    rcases hcases with ⟨-, hn, -⟩ | ⟨-, hle, -⟩
    · omega
    · exact hle
  have hcount : n + o.n = (dst.written ++ buf.take o.n).length := by
    rw [List.length_append, List.length_take, h.counted]
    omega
  split_ifs with hend
  · refine ⟨hput.written_isPrefix, hcount,
      fun hc => absurd hc (Copier.not_active (.inl rfl)), nofun,
      fun _ => ?_, fun _ => hopen⟩
    rcases hcases with ⟨hclosed, -⟩ | ⟨-, -, hb | ⟨hn, herr⟩⟩
    · exact .inr (.inl (hclosed.resolve_right (by simp [hopen])))
    · exact .inr (.inr (.inr (.inl hb)))
    · -- the whole buffer went out, so it was the last one
      simp only [herr, hn, bne_self_eq_false, Bool.or_self, Bool.false_or] at hend
      subst hend
      refine .inr (.inr ?_)
      rcases h.last buf rfl with hb | ⟨hf, hrest⟩
      · exact .inl hb
      · rw [hrest, hn] at hput
        simp only [Copier.held, List.drop_length] at hput
        rw [hn]
        exact .inr (.inr ⟨hf, hput.eq_of_nil⟩)
  · have hn : o.n = buf.length := by
      simp only [Bool.or_eq_true, bne_iff_ne, not_or, not_not] at hend
      exact hend.1.2
    refine ⟨hput.written_isPrefix, hcount, fun _ => ?_, nofun,
      fun hc => absurd Copier.active_reading hc, fun _ => hopen⟩
    rw [hn] at hput ⊢
    simpa only [Copier.held, List.drop_length] using hput

/-- `closeWrite` and the report. -/
theorem shut (h : Flow src dst .closingWrite n) :
    Flow src { dst with writeClosed := true } .reporting n where
  through := h.through
  counted := h.counted
  conserved hc := absurd hc (Copier.not_active (.inr (.inl rfl)))
  last := nofun
  stopped _ := h.stopped (Copier.not_active (.inl rfl))
  writeOpen hc := by
    rcases hc with hc | hc
    · exact absurd hc (Copier.not_active (.inr (.inl rfl)))
    · cases hc

theorem report (h : Flow src dst .reporting n) : Flow src dst .ended n where
  through := h.through
  counted := h.counted
  conserved hc := absurd hc (Copier.not_active (.inr (.inr rfl)))
  last := nofun
  stopped _ := h.stopped (Copier.not_active (.inr (.inl rfl)))
  writeOpen hc := by
    rcases hc with hc | hc
    · exact absurd hc (Copier.not_active (.inr (.inr rfl)))
    · cases hc

end Flow

/-! ## Both directions, and the caller -/

/-- Both directions run as they should. -/
def World.Flows (w : World) : Prop :=
  ∀ s, Flow (w.socket s) (w.socket s.other) (w.copier s) (w.copied s)

/-- The direction back. -/
theorem World.Flows.back {w : World} (h : w.Flows) (s : Side) :
    Flow (w.socket s.other) (w.socket s) (w.copier s.other) (w.copied s.other) := by
  simpa only [Side.other_other] using h s.other

theorem World.Flows.of_back {w : World} {s : Side}
    (hs : Flow (w.socket s) (w.socket s.other) (w.copier s) (w.copied s))
    (hback : Flow (w.socket s.other) (w.socket s) (w.copier s.other) (w.copied s.other)) :
    w.Flows := by
  intro d
  rcases d.eq_or_eq_other s with rfl | rfl
  · exact hs
  · simpa only [Side.other_other] using hback

/-- A connection that finishes, fails or is closed. -/
theorem World.Flows.setSocket {w : World} (h : w.Flows) (s : Side) {x : Socket}
    (hsent : x.sent = (w.socket s).sent) (hunread : x.unread = (w.socket s).unread)
    (hwritten : x.written = (w.socket s).written)
    (hopen : x.writeClosed = (w.socket s).writeClosed)
    (hfin : (w.socket s).finished = true → x.finished = true)
    (hbroken : (w.socket s).broken = true → x.broken = true)
    (hclosed : (w.socket s).closed = true → x.closed = true) : (w.setSocket s x).Flows := by
  refine .of_back (s := s) ?_ ?_ <;>
    simp only [setSocket_socket, setSocket_other, setSocket_copier, setSocket_copied]
  · exact (h s).mono hsent hunread rfl rfl hfin hbroken id hclosed id
  · exact (h.back s).mono rfl rfl hwritten hopen id id hbroken id hclosed

theorem step_flows {w w' : World} {a : Action} (hs : Step w a w') (h : w.Flows) : w'.Flows := by
  cases hs with
  | sends s bytes hfin =>
    refine .of_back (s := s) ?_ ?_ <;>
      simp only [setSocket_socket, setSocket_other, setSocket_copier, setSocket_copied]
    · exact (h s).send hfin bytes
    · exact (h.back s).mono rfl rfl rfl rfl id id id id id
  | finishes s => exact h.setSocket s rfl rfl rfl rfl (fun _ => rfl) id id
  | breaks s => exact h.setSocket s rfl rfl rfl rfl id (fun _ => rfl) id
  | cancel => exact h
  | reads s o hc ho =>
    have hd := h s
    rw [hc] at hd
    refine .of_back (s := s) ?_ ?_ <;>
      simp only [World.read, setCopier_socket, setSocket_socket, setSocket_other, setCopier_copier,
        setCopier_other, setSocket_copier, setCopier_copied, setSocket_copied]
    · exact hd.read ho
    · exact (h.back s).mono rfl rfl rfl rfl id id id id id
  | writes s o buf last hc ho =>
    have hd := h s
    rw [hc] at hd
    refine .of_back (s := s) ?_ ?_ <;>
      simp only [World.write, setCopier_socket, setSocket_socket, setSocket_of_other,
        setCopier_copier, setCopier_other, setSocket_copier, Function.update_self,
        Function.update_of_ne s.other_ne]
    · exact hd.write ho
    · exact (h.back s).mono rfl rfl rfl rfl id id id id id
  | shuts s o hc =>
    have hd := h s
    rw [hc] at hd
    refine .of_back (s := s) ?_ ?_ <;>
      simp only [setCopier_socket, setSocket_socket, setSocket_of_other, setCopier_copier,
        setCopier_other, setSocket_copier, setCopier_copied, setSocket_copied]
    · exact hd.shut
    · exact (h.back s).mono rfl rfl rfl rfl id id id id id
  | reports s o hc =>
    have hd := h s
    rw [hc] at hd
    refine .of_back (s := s) ?_ ?_ <;>
      simp only [setCopier_socket, setCopier_copier, setCopier_other, setCopier_copied]
    · exact hd.report
    · exact h.back s
  | cancels hc hd => exact h
  | selects r rest hc hd => exact h
  | closesClient r k v hc =>
    exact h.setSocket .client rfl rfl rfl rfl id id (fun _ => rfl)
  | closesBackend r k v hc =>
    exact h.setSocket .backend rfl rfl rfl rfl id id (fun _ => rfl)
  | drains r k rest x v hc hd => exact h
  | returns r v hc => exact h

/-- A direction that ended by itself stays so, and so does its report. -/
structure Ended (w : World) (s : Side) (r : ProxyResult) : Prop where
  ended : w.copier s = .ended
  report : r = w.report s

/-- A copier that does not act stays where it is. -/
theorem Step.acts {w w' : World} {a : Action} (hs : Step w a w') (d : Side) :
    (w'.copier d = w.copier d ∧ w'.copied d = w.copied d) ∨ ∃ o, a = .copy d o := by
  cases hs with
  | sends | finishes | breaks | cancel | cancels | selects | closesClient | closesBackend
  | drains | returns => exact .inl ⟨rfl, rfl⟩
  | reads t o | writes t o | shuts t o | reports t o =>
    rcases d.eq_or_eq_other t with rfl | rfl
    · exact .inr ⟨o, rfl⟩
    · exact .inl (by simp [World.read, World.write])

theorem step_ended {w w' : World} {a : Action} {s : Side} {r : ProxyResult} (hs : Step w a w')
    (h : Ended w s r) : Ended w' s r := by
  obtain ⟨hend, rfl⟩ := h
  rcases hs.acts s with ⟨hc, hn⟩ | ⟨o, rfl⟩
  · exact ⟨hc.trans hend, by rw [World.report, World.report, hn]⟩
  · cases hs with
    | reads _ _ hc | writes _ _ _ _ hc | shuts _ _ hc | reports _ _ hc =>
      rw [hc] at hend
      cases hend

theorem step_clean {w w' : World} {a : Action} {s : Side} (hs : Step w a w')
    (hend : w.copier s = .ended) (h : Clean (w.socket s) (w.socket s.other)) :
    Clean (w'.socket s) (w'.socket s.other) := by
  cases hs with
  | cancel | cancels | selects | drains | returns | reports => exact h
  | sends t bytes hfin =>
    rcases s.eq_or_eq_other t with rfl | rfl
    · simp only [Clean, hfin, Bool.false_eq_true, false_and, or_false] at h
      simpa only [Clean, setSocket_socket, setSocket_other, hfin, Bool.false_eq_true, false_and,
        or_false] using h
    · simpa [Clean] using h
  | finishes t | breaks t =>
    rcases s.eq_or_eq_other t with rfl | rfl
    · simp only [Clean, setSocket_socket, setSocket_other] at h ⊢
      tauto
    · simp only [Clean, setSocket_socket, setSocket_other, Side.other_other] at h ⊢
      tauto
  | closesClient | closesBackend =>
    all_goals cases s <;> exact h
  | reads t o hc ho =>
    rcases s.eq_or_eq_other t with rfl | rfl
    · rw [hc] at hend; cases hend
    · simpa [Clean, World.read] using h
  | writes t o buf last hc ho =>
    rcases s.eq_or_eq_other t with rfl | rfl
    · rw [hc] at hend; cases hend
    · simpa [Clean, World.write] using h
  | shuts t o hc =>
    rcases s.eq_or_eq_other t with rfl | rfl
    · rw [hc] at hend; cases hend
    · simpa [Clean] using h

/-- `remaining` of `proxy`. -/
def Caller.remaining : Caller → ℕ
  | selecting => 2
  | closingClient _ k | closingBackend _ k | draining _ k => k
  | returned _ => 0

/-- `result` of `proxy`, once it is settled. -/
def Caller.result : Caller → Option ProxyResult
  | selecting => none
  | closingClient r _ | closingBackend r _ | draining r _ | returned r => some r

/-- Whether `proxy` has closed a connection. -/
def Caller.hasClosed : Caller → Side → Bool
  | selecting, _ | closingClient _ _, _ => false
  | closingBackend _ _, s => s = .client
  | draining _ _, _ | returned _, _ => true

/-- A copier that has yet to report counts one. -/
def Copier.pending : Copier → ℕ
  | ended => 0
  | _ => 1

theorem Copier.pending_le (c : Copier) : c.pending ≤ 1 := by
  cases c <;> simp [pending]

/-- What holds in every interleaving. -/
structure Inv (w : World) : Prop where
  flows : w.Flows
  atMostTwo : w.caller.remaining ≤ 2
  reports : w.done.length + both Copier.pending w.copier = w.caller.remaining
  queued : ∀ r ∈ w.done, ∃ s, Ended w s r
  closed : ∀ s, (w.socket s).closed = w.caller.hasClosed s
  result : ∀ r, w.caller.result = some r → (r = cancelled ∧ w.ctxDone = true) ∨
    ∃ s, Ended w s r ∧ Clean (w.socket s) (w.socket s.other)

theorem boot_inv (unread : Side → GoString) : Inv (boot unread) where
  flows _ := ⟨List.nil_prefix, rfl, fun _ => rfl, nofun, fun h => absurd Copier.active_reading h,
    fun _ => rfl⟩
  atMostTwo := Nat.le_refl 2
  reports := rfl
  queued := nofun
  closed _ := rfl
  result := nofun

theorem pending_of_read (n : ℕ) (buf : GoString) (err : Bool) :
    (if n = 0 then Copier.closingWrite else .writing buf err).pending = 1 := by
  split_ifs <;> rfl

theorem pending_of_write (p : Bool) :
    (if p then Copier.closingWrite else .reading).pending = 1 := by
  split_ifs <;> rfl

theorem step_reports {w w' : World} {a : Action} (hs : Step w a w')
    (hrep : w.done.length + both Copier.pending w.copier = w.caller.remaining) :
    w'.done.length + both Copier.pending w'.copier = w'.caller.remaining := by
  cases hs with
  | sends | finishes | breaks | cancel => exact hrep
  | reads s o hc ho =>
    have hp := both_update Copier.pending w.copier s
      (if o.n = 0 then .closingWrite else .writing ((w.socket s).unread.take o.n) o.err)
    rw [hc, pending_of_read] at hp
    exact Nat.add_right_cancel hp ▸ hrep
  | writes s o buf last hc ho =>
    have hp := both_update Copier.pending w.copier s
      (if o.err || o.n != buf.length || last then .closingWrite else .reading)
    rw [hc, pending_of_write] at hp
    exact Nat.add_right_cancel hp ▸ hrep
  | shuts s o hc =>
    have hp := both_update Copier.pending w.copier s .reporting
    rw [hc] at hp
    exact Nat.add_right_cancel hp ▸ hrep
  | reports s o hc =>
    have hp := both_update Copier.pending w.copier s .ended
    rw [hc] at hp
    simp only [Copier.pending] at hp
    simp only [World.setCopier, List.length_append, List.length_singleton]
    omega
  | cancels hc hd => rw [hc] at hrep; exact hrep
  | selects r rest hc hd =>
    rw [hc, hd] at hrep
    simp only [List.length_cons, Caller.remaining] at hrep ⊢
    omega
  | closesClient r k v hc => rw [hc] at hrep; exact hrep
  | closesBackend r k v hc => rw [hc] at hrep; exact hrep
  | drains r k rest x v hc hd =>
    rw [hc, hd] at hrep
    simp only [List.length_cons, Caller.remaining] at hrep ⊢
    omega
  | returns r v hc => rw [hc] at hrep; exact hrep

theorem step_atMostTwo {w w' : World} {a : Action} (hs : Step w a w') (h : w.caller.remaining ≤ 2) :
    w'.caller.remaining ≤ 2 := by
  cases hs with
  | sends | finishes | breaks | cancel | reads | writes | shuts | reports => exact h
  | cancels hc hd | selects r rest hc hd | closesClient r k v hc | closesBackend r k v hc
  | drains r k rest x v hc hd | returns r v hc =>
    rw [hc] at h
    simp only [Caller.remaining] at h ⊢
    omega

theorem step_queued {w w' : World} {a : Action} (hs : Step w a w')
    (h : ∀ r ∈ w.done, ∃ s, Ended w s r) : ∀ r ∈ w'.done, ∃ s, Ended w' s r := by
  have hkeep : ∀ r ∈ w.done, ∃ s, Ended w' s r := fun r hr =>
    (h r hr).imp fun s hended => step_ended hs hended
  cases hs with
  | sends | finishes | breaks | cancel | reads | writes | shuts | cancels | closesClient
  | closesBackend | returns => exact hkeep
  | reports s o hc =>
    intro r hr
    rcases List.mem_append.mp hr with hr | hr
    · exact hkeep r hr
    · exact ⟨s, setCopier_copier .., List.mem_singleton.mp hr⟩
  | selects r rest hc hd | drains r k rest x v hc hd =>
    exact fun r hr => hkeep r (by rw [hd]; exact List.mem_cons_of_mem _ hr)

/-- A connection that stays open or closed. -/
theorem setSocket_closed {w : World} {s : Side} {x : Socket}
    (hx : x.closed = (w.socket s).closed) (d : Side) :
    ((w.setSocket s x).socket d).closed = (w.socket d).closed := by
  rcases d.eq_or_eq_other s with rfl | rfl
  · rw [setSocket_socket, hx]
  · rw [setSocket_other]

theorem step_closed {w w' : World} {a : Action} (hs : Step w a w')
    (h : ∀ s, (w.socket s).closed = w.caller.hasClosed s) :
    ∀ s, (w'.socket s).closed = w'.caller.hasClosed s := by
  intro d
  have hd := h d
  cases hs with
  | cancel | reports => exact hd
  | sends | finishes | breaks | reads | writes | shuts =>
    exact (setSocket_closed (by rfl) d).trans hd
  | cancels hc hctx | selects r rest hc hdone | drains r k rest x v hc hdone | returns r v hc =>
    rw [hc] at hd
    exact hd
  | closesClient r k v hc | closesBackend r k v hc =>
    rw [hc] at hd
    cases d
    · simp_all [World.setSocket, Caller.hasClosed]
    · simp_all [World.setSocket, Caller.hasClosed]

theorem step_result {w w' : World} {a : Action} (hs : Step w a w') (h : Inv w) (r : ProxyResult)
    (hr : w'.caller.result = some r) : (r = cancelled ∧ w'.ctxDone = true) ∨
      ∃ s, Ended w' s r ∧ Clean (w'.socket s) (w'.socket s.other) := by
  -- a settled result stays what it is
  have hkeep : w.caller.result = some r → (r = cancelled ∧ w'.ctxDone = true) ∨
      ∃ s, Ended w' s r ∧ Clean (w'.socket s) (w'.socket s.other) := by
    intro hr
    rcases h.result r hr with ⟨rfl, hctx⟩ | ⟨s, hended, hclean⟩
    · refine .inl ⟨rfl, ?_⟩
      cases hs <;> first | exact hctx | rfl
    · exact .inr ⟨s, step_ended hs hended, step_clean hs hended.ended hclean⟩
  cases hs with
  | sends | finishes | breaks | cancel | reads | writes | shuts | reports => exact hkeep hr
  | cancels hc hd =>
    obtain rfl : cancelled = r := Option.some.inj hr
    exact .inl ⟨rfl, hd⟩
  | selects r' rest hc hd =>
    obtain rfl : r' = r := Option.some.inj hr
    obtain ⟨s, hended⟩ := h.queued r' (by rw [hd]; exact List.mem_cons_self)
    refine .inr ⟨s, ⟨hended.ended, hended.report⟩, ?_⟩
    -- nothing is closed yet, so the direction ended by itself
    have hopen : ∀ t, (w.socket t).closed = false := fun t => by
      rw [h.closed t, hc]
      rfl
    have hover := (h.flows s).stopped (Copier.not_active (.inr (.inr hended.ended)))
    simpa [hopen] using hover
  | closesClient r' k v hc | closesBackend r' k v hc | drains r' k rest x v hc hd
  | returns r' v hc =>
    exact hkeep (by rw [hc]; exact hr)

/-- **Every step keeps the invariant.** -/
theorem step_inv {w : World} {a : Action} {w' : World} (h : Inv w) (hs : step w a = some w') :
    Inv w' := by
  have hstep := Step.of_step hs
  exact ⟨step_flows hstep h.flows, step_atMostTwo hstep h.atMostTwo, step_reports hstep h.reports,
    step_queued hstep h.queued, step_closed hstep h.closed, step_result hstep h⟩

theorem run_inv {unread : Side → GoString} {actions : List Action} {w : World}
    (hrun : System.run step (boot unread) actions = some w) : Inv w :=
  System.run_invariant_of_step (fun _ _ _ => step_inv) (boot_inv unread) hrun

/-! ## What comes of it -/

/-- What `handleConn` is told of a run: the bytes that got across, and what
ended first. -/
def ProxyResult.ended (r : ProxyResult) : ProxyEnd :=
  match r.direction with
  | none => .contextDone
  | some .client => .clientToBackend
  | some .backend => .backendToClient

/-- A run, as the backend of `handleConn`; `writes` are its initial writes. -/
def World.outcome (w : World) (writes : List WriteOutcome) (result : ProxyResult) : Backend where
  writes := writes
  copied := (w.socket .backend).written.length
  toClient := (w.socket .client).written
  ended := result.ended

theorem ended_reason_of_inv {w : World} {r : ProxyResult} (h : Inv w)
    (hr : w.caller.result = some r) : r.ended.reason = r.reason := by
  rcases h.result r hr with ⟨rfl, -⟩ | ⟨s, hended, -⟩
  · rfl
  · rw [hended.report]
    cases s <;> rfl

/-- A copier that is not pending has ended. -/
theorem Copier.eq_ended {c : Copier} (h : c.pending = 0) : c = .ended := by
  cases c <;> simp_all [pending]

/-- Nothing is left over when `proxy` returns. -/
theorem ended_of_returned {w : World} {r : ProxyResult} (h : Inv w) (hret : w.caller = .returned r)
    (s : Side) : (w.socket s).closed = true ∧ w.copier s = .ended := by
  have hrep := h.reports
  rw [hret] at hrep
  simp only [Caller.remaining, both] at hrep
  refine ⟨by rw [h.closed, hret]; rfl, Copier.eq_ended ?_⟩
  cases s <;> omega

/-- **What `proxy` has done when it returns**, whatever the order of the
goroutines and whatever the peers did. Both connections are closed and both
copiers are over; in each direction a beginning of what was sent was
written. The result is the context's, or that of a direction that ended
before anything was closed, with its number of bytes: if neither connection
failed, its peer had finished and all that it sent is across. -/
theorem proxy_outcome (unread : Side → GoString) (actions : List Action) (w : World)
    (result : ProxyResult) (hrun : System.run step (boot unread) actions = some w)
    (hret : w.caller = .returned result) :
    (∀ s, (w.socket s).closed = true ∧ w.copier s = .ended ∧
      (w.socket s.other).written <+: (w.socket s).sent) ∧
    ((result = ⟨.contextCancelled, none, 0⟩ ∧ w.ctxDone = true) ∨
      ∃ s, result = ⟨closeReason s, some s, (w.socket s.other).written.length⟩ ∧
        ((w.socket s).broken = false → (w.socket s.other).broken = false →
          (w.socket s).finished = true ∧ (w.socket s.other).written = (w.socket s).sent)) := by
  have hinv := run_inv hrun
  constructor
  · intro s
    obtain ⟨hclosed, hended⟩ := ended_of_returned hinv hret s
    exact ⟨hclosed, hended, (hinv.flows s).through⟩
  · rcases hinv.result result (by rw [hret]; rfl) with hctx | ⟨s, hended, hclean⟩
    · exact .inl hctx
    · refine .inr ⟨s, ?_, fun hsrc hdst => ?_⟩
      · rw [hended.report, World.report, (hinv.flows s).counted]
      · simpa [Clean, hsrc, hdst] using hclean

/-- The client has sent two bytes, the backend answers one and the client
finishes; the other copier is at its read when the connections are closed. -/
def greeting : Side → GoString
  | .client => [104, 105]
  | .backend => []

def session : List Action :=
  [.copy .client ⟨2, false⟩, .copy .client ⟨2, false⟩, .sends .backend [33],
    .copy .backend ⟨1, false⟩,
    .finishes .client, .copy .backend ⟨1, false⟩, .copy .client ⟨0, true⟩, .copy .client ⟨0, false⟩,
    .copy .client ⟨0, false⟩, .call false, .call false, .call false, .copy .backend ⟨0, true⟩,
    .copy .backend ⟨0, false⟩, .copy .backend ⟨0, false⟩, .call false, .call false]

/-- The session ends with the client's close and its two bytes across. -/
theorem proxy_outcome_of_session : ∃ w, System.run step (boot greeting) session = some w ∧
    w.caller = .returned ⟨.clientClose, some .client, 2⟩ ∧
    ∀ s, (w.socket s).closed = true ∧ w.copier s = .ended ∧
      (w.socket s.other).written <+: (w.socket s).sent :=
  ⟨_, rfl, rfl, (proxy_outcome greeting session _ ⟨.clientClose, some .client, 2⟩ rfl rfl).1⟩

/-- **Every run of the goroutines is an outcome `dialAndProxy` allows**: with
what the run has done for a backend, and with a client whose stream begins
with what was sent, it reports these bytes in both directions and the
result's reason. -/
theorem dialAndProxy_of_run (unread : Side → GoString) (actions : List Action) (w : World)
    (result : ProxyResult) (hrun : System.run step (boot unread) actions = some w)
    (hret : w.caller = .returned result) (state : ServerState) (env : ConnEnv)
    (limiter : RateLimit.Limiter) (handshake : Proto.Handshake) (raw address : GoString)
    (client : Conn)
    (writes : List WriteOutcome) (hdial : env.dial address = .ok (w.outcome writes result))
    (hwrites : writeAll writes raw = (raw, none))
    (hstream : (w.socket .client).sent <+: client.view.rest) :
    dialAndProxy state env limiter handshake raw client address =
      ⟨[.dial address, .writeBackend raw, .copyToBackend (w.socket .backend).written,
        .copyToClient (w.socket .client).written], .closed, result.reason, limiter⟩ := by
  have hinv := run_inv hrun
  have hreason := ended_reason_of_inv hinv (r := result) (by rw [hret]; rfl)
  have htake : client.view.rest.take (w.socket .backend).written.length =
      (w.socket .backend).written :=
    List.prefix_iff_eq_take.mp ((hinv.flows .client).through.trans hstream) |>.symm
  have hreport : (w.outcome writes result).ended.reason = result.reason := hreason
  simp only [dialAndProxy, hdial, hreport]
  simp only [World.outcome, hwrites, htake]

/-- The session, as `handleConn` reports it. -/
theorem dialAndProxy_of_session : ∃ w, System.run step (boot greeting) session = some w ∧
    dialAndProxy openState { paddedEnv with
        dial := fun _ => .ok (w.outcome [] ⟨.clientClose, some .client, 2⟩) }
      openState.clientRateLimit ⟨767, go "a.b", 25565, 2⟩ [1] ⟨[[104, 105]], ioEOF⟩ (go "b:1") =
      ⟨[.dial (go "b:1"), .writeBackend [1], .copyToBackend [104, 105], .copyToClient [33]],
        .closed, .clientClose, openState.clientRateLimit⟩ :=
  ⟨_, rfl, dialAndProxy_of_run greeting session _ ⟨.clientClose, some .client, 2⟩ rfl rfl
    _ _ _ _ _ _
    _ [] rfl rfl (List.prefix_rfl)⟩

/-! ## It comes back -/

/-- A step that waits for nobody outside: the caller's, and a copier's
unless it is at a connection that is still open. -/
def due (w : World) : Action → Bool
  | .copy s _ =>
    match w.copier s with
    | .reading => (w.socket s).closed
    | .writing _ _ => (w.socket s.other).closed
    | .closingWrite | .reporting => true
    | .ended => false
  | .call _ => true
  | _ => false

/-- The copying is coming to its end. -/
def World.Over (w : World) : Prop := w.ctxDone = true ∨ ∃ s, ¬ (w.copier s).Active

/-- The due steps a copier has before it. -/
def Copier.rank : Copier → ℕ
  | reading | writing _ _ => 3
  | closingWrite => 2
  | reporting => 1
  | ended => 0

/-- The due steps the caller has before it. -/
def Caller.rank : Caller → ℕ
  | selecting => 6
  | closingClient _ k => k + 3
  | closingBackend _ k => k + 2
  | draining _ k => k + 1
  | returned _ => 0

def World.rank (w : World) : ℕ := both Copier.rank w.copier + w.caller.rank

theorem Copier.rank_le (c : Copier) : c.rank ≤ 3 := by
  cases c <;> simp [rank]

theorem Copier.rank_of_active {c : Copier} (h : c.Active) : c.rank = 3 := by
  rcases h with rfl | ⟨buf, last, rfl⟩ <;> rfl

/-- A copier that goes on, and one that does so in a due step. -/
theorem rank_setCopier {w : World} {s : Side} {c : Copier} (hle : c.rank ≤ (w.copier s).rank) :
    both Copier.rank (Function.update w.copier s c) ≤ both Copier.rank w.copier ∧
      (c.rank < (w.copier s).rank →
        both Copier.rank (Function.update w.copier s c) < both Copier.rank w.copier) := by
  have hb := both_update Copier.rank w.copier s c
  omega

/-- No step raises the rank, and a due step lowers it. -/
theorem step_rank {w w' : World} {a : Action} (hs : Step w a w') :
    w'.rank ≤ w.rank ∧ (due w a = true → w'.rank < w.rank) := by
  cases hs with
  | sends | finishes | breaks | cancel => exact ⟨Nat.le_refl _, by simp [due]⟩
  | reads s o hc ho =>
    have hthree := Copier.rank_of_active (.inl hc)
    obtain ⟨hle, hlt⟩ := rank_setCopier (w := w) (s := s) (hthree ▸ Copier.rank_le
      (if o.n = 0 then .closingWrite else .writing ((w.socket s).unread.take o.n) o.err))
    refine ⟨Nat.add_le_add_right hle _, fun hdue => Nat.add_lt_add_right (hlt ?_) _⟩
    -- on a closed connection the read fails at once
    have hclosed : (w.socket s).closed = true := by simpa [due, hc] using hdue
    have hn : o.n = 0 := by
      rcases Socket.canRead_cases ho with ⟨-, hn, -⟩ | ⟨hopen, -⟩
      · exact hn
      · simp [hclosed] at hopen
    rw [if_pos hn, hthree]
    decide
  | writes s o buf last hc ho =>
    have hthree := Copier.rank_of_active (.inr ⟨buf, last, hc⟩)
    obtain ⟨hle, hlt⟩ := rank_setCopier (w := w) (s := s) (hthree ▸ Copier.rank_le
      (if o.err || o.n != buf.length || last then .closingWrite else .reading))
    refine ⟨Nat.add_le_add_right hle _, fun hdue => Nat.add_lt_add_right (hlt ?_) _⟩
    have hclosed : (w.socket s.other).closed = true := by simpa [due, hc] using hdue
    simp only [Socket.canWrite, hclosed, Bool.true_or, if_true, Bool.and_eq_true] at ho
    simp only [ho.2, Bool.true_or, if_true, hthree]
    decide
  | shuts s o hc =>
    obtain ⟨hle, hlt⟩ := rank_setCopier (w := w) (s := s) (c := .reporting) (by rw [hc]; decide)
    exact ⟨Nat.add_le_add_right hle _,
      fun _ => Nat.add_lt_add_right (hlt (by rw [hc]; decide)) _⟩
  | reports s o hc =>
    obtain ⟨hle, hlt⟩ := rank_setCopier (w := w) (s := s) (c := .ended) (by rw [hc]; decide)
    exact ⟨Nat.add_le_add_right hle _,
      fun _ => Nat.add_lt_add_right (hlt (by rw [hc]; decide)) _⟩
  | cancels hc h | selects r rest hc h | drains r k rest x v hc h | returns r v hc
  | closesClient r k v hc | closesBackend r k v hc =>
    simp only [World.rank, World.setSocket, hc, Caller.rank]
    omega

theorem step_over {w w' : World} {a : Action} (hs : Step w a w') (h : w.Over) : w'.Over := by
  rcases h with hctx | ⟨d, hd⟩
  · refine .inl ?_
    cases hs <;> first | exact hctx | rfl
  · refine .inr ⟨d, ?_⟩
    rcases hs.acts d with ⟨hc, -⟩ | ⟨o, rfl⟩
    · rwa [hc]
    · cases hs with
      | reads _ _ hc => exact absurd (.inl hc) hd
      | writes _ _ buf last hc => exact absurd (.inr ⟨buf, last, hc⟩) hd
      | shuts => simpa using Copier.not_active (.inr (.inl rfl))
      | reports => simpa using Copier.not_active (.inr (.inr rfl))

/-- A copier past `io.Copy` that has not ended goes on by itself. -/
theorem copy_enabled {w : World} {s : Side}
    (h : w.copier s = .closingWrite ∨ w.copier s = .reporting) :
    ∃ a w', due w a = true ∧ step w a = some w' := by
  refine ⟨.copy s ⟨0, true⟩, ?_⟩
  rcases h with hc | hc <;> simp [due, step, copyStep, hc]

/-- At closed connections every copier goes on. -/
theorem copy_enabled_of_closed {w : World} {s : Side} (hclosed : ∀ t, (w.socket t).closed = true)
    (h : w.copier s ≠ .ended) : ∃ a w', due w a = true ∧ step w a = some w' := by
  cases hc : w.copier s with
  | ended => exact absurd hc h
  | closingWrite => exact copy_enabled (.inl hc)
  | reporting => exact copy_enabled (.inr hc)
  | reading | writing =>
    exact ⟨.copy s ⟨0, true⟩, by
      simp [due, step, copyStep, hc, hclosed, Socket.canRead, Socket.canWrite]⟩

/-- As long as `proxy` has not returned, something is due. -/
theorem due_enabled {w : World} (h : Inv w) (hover : w.Over) (hret : ∀ r, w.caller ≠ .returned r) :
    ∃ a w', due w a = true ∧ step w a = some w' := by
  have hrep := h.reports
  cases hc : w.caller with
  | selecting =>
    rcases hover with hctx | ⟨s, hs⟩
    · exact ⟨.call true, by simp [due, step, callStep, hc, hctx]⟩
    · cases hcs : w.copier s with
      | reading => exact absurd (.inl hcs) hs
      | writing buf last => exact absurd (.inr ⟨buf, last, hcs⟩) hs
      | closingWrite => exact copy_enabled (.inl hcs)
      | reporting => exact copy_enabled (.inr hcs)
      | ended =>
        -- its report is in the channel
        have hpos : 0 < w.done.length := by
          rw [hc] at hrep
          have hb : both Copier.pending w.copier ≤ 1 := by
            have h1 := (w.copier .client).pending_le
            have h2 := (w.copier .backend).pending_le
            cases s
            · simp only [both, hcs, Copier.pending]
              simpa [Copier.pending] using h2
            · simp only [both, hcs, Copier.pending]
              simpa [Copier.pending] using h1
          simp only [Caller.remaining] at hrep
          omega
        obtain ⟨r, rest, hdone⟩ := List.exists_cons_of_length_pos hpos
        exact ⟨.call false, by simp [due, step, callStep, hc, hdone]⟩
  | closingClient r k => exact ⟨.call true, by simp [due, step, callStep, hc]⟩
  | closingBackend r k => exact ⟨.call true, by simp [due, step, callStep, hc]⟩
  | draining r k =>
    cases k with
    | zero => exact ⟨.call true, by simp [due, step, callStep, hc]⟩
    | succ k =>
      cases hdone : w.done with
      | cons x rest => exact ⟨.call true, by simp [due, step, callStep, hc, hdone]⟩
      | nil =>
        -- somebody has yet to report, and the connections are closed
        have hclosed : ∀ t, (w.socket t).closed = true := fun t => by rw [h.closed, hc]; rfl
        rw [hc, hdone] at hrep
        simp only [List.length_nil, both, Caller.remaining] at hrep
        by_cases hclient : w.copier .client = .ended
        · refine copy_enabled_of_closed (s := .backend) hclosed fun hbackend => ?_
          rw [hclient, hbackend] at hrep
          simp only [Copier.pending] at hrep
          omega
        · exact copy_enabled_of_closed hclosed hclient
  | returned r => exact absurd hc (hret r)

theorem settling : System.Settling step (fun _ _ => True) (fun w a => due w a = true)
    (fun w => Inv w ∧ w.Over) (fun w => ∃ r, w.caller = .returned r) World.rank where
  keeps _ _ _ h hs := ⟨step_inv h.1 hs, step_over (.of_step hs) h.2⟩
  never_raises _ _ _ _ _ hs := (step_rank (.of_step hs)).1
  lowers _ _ _ _ hdue hs := (step_rank (.of_step hs)).2 hdue
  enabled _ h hgoal := due_enabled h.1 h.2 fun r hr => hgoal ⟨r, hr⟩

/-- The most the rank can be. -/
theorem rank_le {w : World} (h : Inv w) : w.rank ≤ 12 := by
  have hclient := (w.copier .client).rank_le
  have hbackend := (w.copier .backend).rank_le
  have hcaller : w.caller.rank ≤ 6 := by
    have htwo := h.atMostTwo
    cases hc : w.caller <;> simp only [hc, Caller.remaining, Caller.rank] at htwo ⊢ <;> omega
  simp only [World.rank, both]
  omega

/-- **`proxy` comes back.** Once the context is done, or one `io.Copy` has
returned, then in every continuation, whatever the peers do or leave undone,
at most twelve steps are taken that wait for nobody, and such steps alone
lead to the return: neither peer can hold the handler. -/
theorem proxy_returns (unread : Side → GoString) (actions : List Action) (w : World)
    (hrun : System.run step (boot unread) actions = some w) (hover : w.Over) :
    (∀ more w', System.run step w more = some w' →
      System.dueSteps step (fun w a => due w a = true) w more ≤ 12) ∧
    ∃ more w' result, System.Meets step (fun w a => due w a = true) w more ∧
      System.run step w more = some w' ∧ w'.caller = .returned result := by
  have hinv := run_inv hrun
  obtain ⟨hbound, more, w', hmeets, hmore, result, hret⟩ :=
    settling.settles ⟨hinv, hover⟩ (rank_le hinv)
  exact ⟨hbound, more, w', result, hmeets, hmore, hret⟩

/-- The same session, with the client's copier past its read: the silent
backend does not hold it. -/
theorem proxy_returns_of_session : ∃ w, System.run step (boot greeting) (session.take 7) = some w ∧
    ∃ more w' result, System.Meets step (fun w a => due w a = true) w more ∧
      System.run step w more = some w' ∧ w'.caller = .returned result :=
  ⟨_, rfl, (proxy_returns greeting (session.take 7) _ rfl
    (.inr ⟨.client, Copier.not_active (.inl rfl)⟩)).2⟩

end Copying

end Proxy

end McRouter
