import McRouter.Proto.VarInt
import McRouter.HostAddr

/-!
# The handshake

`mcproto/handshake.go`. `ReadHandshake` frames a packet by its length,
reads it whole and parses the payload in memory. The router forwards the
bytes it read rather than a new encoding of them, so what matters is that
they are the bytes of the stream: `readHandshake_consumes` for a stream
that arrives in any pieces.
-/

namespace McRouter

namespace Proto

open ReadM Strings Unicode

variable {σ : Type}

def handshakePacketID : Int32 := 0x00
def nextStateStatus : Int32 := 1
def nextStateLogin : Int32 := 2
def nextStateTransfer : Int32 := 3

/-- `ErrPacketTooLarge`. -/
def errPacketTooLarge : Err := ⟨go "minecraft packet is too large", [.packetTooLarge]⟩

/-- `ErrMalformedHandshake`. -/
def errMalformedHandshake : Err := ⟨go "malformed minecraft handshake", [.malformedHandshake]⟩

/-- `ErrUnsupportedNextState`. -/
def errUnsupportedNextState : Err :=
  ⟨go "unsupported minecraft next state", [.unsupportedNextState]⟩

/-- `Limits`. -/
structure Limits where
  maxPacketLength : Int32
  maxServerAddressBytes : Int32
deriving DecidableEq, Repr

/-- `DefaultLimits`. -/
def defaultLimits : Limits := ⟨2048, 255⟩

/-- A limit that is not positive stands for the default. -/
def Limits.orDefaults (limits : Limits) : Limits where
  maxPacketLength :=
    if limits.maxPacketLength ≤ 0 then defaultLimits.maxPacketLength else limits.maxPacketLength
  maxServerAddressBytes :=
    if limits.maxServerAddressBytes ≤ 0 then defaultLimits.maxServerAddressBytes
    else limits.maxServerAddressBytes

/-- `Handshake`. -/
structure Handshake where
  protocolVersion : Int32
  serverAddress : GoString
  serverPort : UInt16
  nextState : Int32
deriving DecidableEq, Repr

/-- `Handshake.RouteAddress`. -/
def Handshake.routeAddress (h : Handshake) : GoString :=
  match HostAddr.normalize h.serverAddress with
  | .ok normalized => normalized
  | .error _ => []

/-- `fmt.Errorf("%w: <what>: %w", ErrMalformedHandshake, err)`. -/
def malformed (what : GoString) (err : Err) : Err :=
  errorf (errMalformedHandshake.text ++ go ": " ++ what ++ go ": " ++ err.text)
    [errMalformedHandshake, err]

/-- `fmt.Errorf("%w: <why>", ErrMalformedHandshake)`. -/
def malformedBecause (why : GoString) : Err :=
  errorf (errMalformedHandshake.text ++ go ": " ++ why) [errMalformedHandshake]

/-- `readString`. -/
def readString (r : Reader σ Err) (maxBytes : Int32) : ReadM σ Err GoString := do
  let (length, _) ← mapErr Prod.snd (readVarIntFromReader r)
  if length < 0 ∨ maxBytes < length then
    fail ⟨go "length " ++ itoaInt length.toInt ++ go " exceeds limit " ++ itoaInt maxBytes.toInt, []⟩
  else do
    let buf ← mapErr Prod.snd (r.readFull length.toInt.toNat)
    if validString buf then pure buf else fail ⟨go "not valid utf-8", []⟩

/-- `binary.BigEndian.Uint16`. -/
def bigEndianUint16 (bs : GoString) : UInt16 :=
  UInt16.ofNat ((bs.getD 0 0).toNat * 256 + (bs.getD 1 0).toNat)

/-- The body of `ParseHandshakePayload`, from the reader on. -/
def parseHandshake (limits : Limits) : ReadM (Bytes Err) Err Handshake := do
  let (packetID, _) ← mapErr (fun p => malformed (go "packet id") p.2)
    (readVarIntFromReader bytesReader)
  if packetID ≠ handshakePacketID then
    fail (malformedBecause (go "packet id " ++ itoaInt packetID.toInt))
  else do
    let (protocolVersion, _) ← mapErr (fun p => malformed (go "protocol version") p.2)
      (readVarIntFromReader bytesReader)
    let serverAddress ← mapErr (malformed (go "server address"))
      (readString bytesReader limits.maxServerAddressBytes)
    if trimSpace serverAddress = [] then
      fail (malformedBecause (go "server address is empty"))
    else do
      let _ ← mapErr (malformed (go "server address")) (ofExcept (HostAddr.normalize serverAddress))
      let portRaw ← mapErr (fun p => malformed (go "server port") p.2) (bytesReader.readFull 2)
      let (nextState, _) ← mapErr (fun p => malformed (go "next state") p.2)
        (readVarIntFromReader bytesReader)
      if nextState ≠ nextStateStatus ∧ nextState ≠ nextStateLogin ∧
          nextState ≠ nextStateTransfer then
        fail (errorf (errUnsupportedNextState.text ++ go ": " ++ itoaInt nextState.toInt)
          [errUnsupportedNextState])
      else fun r =>
        if r.rest ≠ [] then (.error (malformedBecause (go "trailing bytes")), r)
        else (.ok ⟨protocolVersion, serverAddress, bigEndianUint16 portRaw, nextState⟩, r)

/-- `ParseHandshakePayload`. -/
def parseHandshakePayload (payload : GoString) (limits : Limits) : Except Err Handshake :=
  let limits := if limits.maxServerAddressBytes ≤ 0 then
    { limits with maxServerAddressBytes := defaultLimits.maxServerAddressBytes } else limits
  (parseHandshake limits (newBytesReader payload)).1

/-- `ReadHandshake`. A failure returns the bytes read as well; when the
payload is cut short they end in the zeros of the unfilled buffer. -/
def readHandshake (r : Reader σ Err) (limits : Limits) :
    ReadM σ (GoString × Err) (Handshake × GoString) := do
  let limits := limits.orDefaults
  let (packetLength, lengthRaw) ← readVarIntFromReader r
  if packetLength ≤ 0 ∨ limits.maxPacketLength < packetLength then
    fail (lengthRaw, errPacketTooLarge)
  else do
    let n := packetLength.toInt.toNat
    let payload ← mapErr (fun p => (lengthRaw ++ p.1 ++ List.replicate (n - p.1.length) 0,
      p.2.prefixed (go "read handshake payload"))) (r.readFull n)
    let raw := lengthRaw ++ payload
    let handshake ← mapErr (fun err => (raw, err)) (ofExcept (parseHandshakePayload payload limits))
    pure (handshake, raw)

/-! ## The bytes of the stream -/

variable {r : Reader σ Err} {view : σ → Bytes Err}

theorem sim_readHandshake (h : r.Simulates unexpectedEOF view) (limits : Limits) :
    Sim view (readHandshake r limits) (readHandshake bytesReader limits) := by
  refine Sim.bind (sim_readVarIntFromReader h) fun p => Sim.ite (Sim.fail _) ?_
  refine Sim.bind (Sim.mapErr _ (h.readFull _)) fun payload => ?_
  exact Sim.bind (Sim.mapErr _ (Sim.ofExcept _)) fun _ => Sim.pure _

theorem readHandshake_bytes {limits : Limits} {hs : Handshake} {raw : GoString} {s s' : Bytes Err}
    (h : readHandshake bytesReader limits s = (.ok (hs, raw), s')) :
    s.rest = raw ++ s'.rest ∧ s'.atEnd = s.atEnd := by
  obtain ⟨⟨packetLength, lengthRaw⟩, s₁, hlen, h⟩ := bind_eq_ok.mp h
  obtain ⟨hrest, hend⟩ := readVarInt_consumes hlen
  dsimp only at h
  split at h
  · cases h
  obtain ⟨payload, s₂, hpay, h⟩ := bind_eq_ok.mp h
  obtain ⟨hrest₂, -, hend₂⟩ := Bytes.readFull_eq_ok (mapErr_eq_ok.mp hpay)
  obtain ⟨handshake, s₃, hparse, h⟩ := bind_eq_ok.mp h
  obtain ⟨-, rfl⟩ := ofExcept_eq_ok.mp (mapErr_eq_ok.mp hparse)
  cases h
  exact ⟨by rw [hrest, hrest₂, List.append_assoc], hend₂.trans hend⟩

/-- **The raw handshake is the part of the stream that was consumed**, for
a connection whose bytes arrive in any pieces. -/
theorem readHandshake_consumes {limits : Limits} {hs : Handshake} {raw : GoString} {s s' : Conn}
    (h : readHandshake connReader limits s = (.ok (hs, raw), s')) :
    s.view.rest = raw ++ s'.view.rest := by
  have hsim := sim_readHandshake (source_simulates unexpectedEOF) limits s
  rw [show readHandshake (Source.reader unexpectedEOF) limits s = _ from h] at hsim
  exact (readHandshake_bytes hsim).1

end Proto

end McRouter
