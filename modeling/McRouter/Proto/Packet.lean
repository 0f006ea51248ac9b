import McRouter.Proto.Handshake

/-!
# Packets the router answers

`mcproto/status.go` and `mcproto/login.go`: reading one framed packet, and
building the status response, the pong and the login disconnect. The JSON
encoder is a parameter: nothing here looks into the text it returns.
-/

namespace McRouter

namespace Proto

open ReadM Strings Unicode

variable {σ : Type}

def statusRequestPacketID : Int32 := 0x00
def statusResponsePacketID : Int32 := 0x00
def statusPingPacketID : Int32 := 0x01
def statusPongPacketID : Int32 := 0x01
def protocolMinecraft1211 : Int32 := 767
def loginStartPacketID : Int32 := 0x00
def loginDisconnectPacketID : Int32 := 0x00
def loginUsernameMaxBytes : Int32 := 16
def loginUUIDBytes : ℕ := 16

/-- `StatusResponse`, with its nested structs flattened. -/
structure StatusResponse where
  versionName : GoString
  versionProtocol : ℤ
  playersMax : ℤ
  playersOnline : ℤ
  descriptionText : GoString
deriving DecidableEq, Repr

/-- `json.Marshal` of the two structs the router sends. It does not fail on
them. -/
structure Json where
  statusResponse : StatusResponse → GoString
  statusChatComponent : GoString → GoString

/-- `ReadPacket`: the packet id and the bytes after it. -/
def readPacket (r : Reader σ Err) (maxPacketLength : Int32) : ReadM σ Err (Int32 × GoString) := do
  let maxPacketLength :=
    if maxPacketLength ≤ 0 then defaultLimits.maxPacketLength else maxPacketLength
  let (packetLength, _) ← mapErr Prod.snd (readVarIntFromReader r)
  if packetLength ≤ 0 ∨ maxPacketLength < packetLength then fail errPacketTooLarge
  else do
    let payload ← mapErr (fun p => p.2.prefixed (go "read packet payload"))
      (r.readFull packetLength.toInt.toNat)
    match readVarIntFromReader bytesReader (newBytesReader payload) with
    | (.error p, _) => fail (p.2.prefixed (go "packet id"))
    | (.ok (packetID, _), reader) => pure (packetID, reader.rest)

/-- `BuildPacket`. -/
def buildPacket (packetID : Int32) (fields : List GoString) : GoString :=
  let payload := writeVarInt packetID ++ fields.flatten
  writeVarInt (Int32.ofNat payload.length) ++ payload

/-- `BuildStatusResponsePacket`. -/
def buildStatusResponsePacket (json : Json) (status : StatusResponse) : GoString :=
  let raw := json.statusResponse status
  buildPacket statusResponsePacketID [writeVarInt (Int32.ofNat raw.length) ++ raw]

/-- `EncodeString`. -/
def encodeString (value : GoString) : GoString := writeVarInt (Int32.ofNat value.length) ++ value

/-- `BuildStatusPongPacket`. -/
def buildStatusPongPacket (payload : GoString) : GoString := buildPacket statusPongPacketID [payload]

/-- `ErrMalformedLoginStart`. -/
def errMalformedLoginStart : Err := ⟨go "malformed minecraft login start", [.malformedLoginStart]⟩

/-- `ErrUnsupportedLoginProtocol`. -/
def errUnsupportedLoginProtocol : Err :=
  ⟨go "unsupported minecraft login protocol", [.unsupportedLoginProtocol]⟩

/-- `fmt.Errorf("%w: %d", ErrUnsupportedLoginProtocol, protocolVersion)`. -/
def unsupportedLogin (protocolVersion : Int32) : Err :=
  errorf (errUnsupportedLoginProtocol.text ++ go ": " ++ itoaInt protocolVersion.toInt)
    [errUnsupportedLoginProtocol]

/-- `ValidateLoginStartPayload`. -/
def validateLoginStartPayload (protocolVersion : Int32) (payload : GoString) : Option Err :=
  if protocolVersion ≠ protocolMinecraft1211 then some (unsupportedLogin protocolVersion)
  else match readString bytesReader loginUsernameMaxBytes (newBytesReader payload) with
    | (.error err, _) =>
      some (errorf (errMalformedLoginStart.text ++ go ": username: " ++ err.text)
        [errMalformedLoginStart, err])
    | (.ok username, reader) =>
      if trimSpace username = [] then
        some (errorf (errMalformedLoginStart.text ++ go ": username is empty")
          [errMalformedLoginStart])
      else if reader.rest.length ≠ loginUUIDBytes then
        some (errorf (errMalformedLoginStart.text ++ go ": uuid bytes " ++ itoa reader.rest.length)
          [errMalformedLoginStart])
      else none

/-- `LoginDisconnectPacketIDForProtocol`. -/
def loginDisconnectPacketIDForProtocol (protocolVersion : Int32) : Except Err Int32 :=
  if protocolVersion ≠ protocolMinecraft1211 then .error (unsupportedLogin protocolVersion)
  else .ok loginDisconnectPacketID

/-- `BuildLoginDisconnectPacket`. -/
def buildLoginDisconnectPacket (json : Json) (protocolVersion : Int32) (message : GoString) :
    Except Err GoString := do
  let packetID ← loginDisconnectPacketIDForProtocol protocolVersion
  let raw := json.statusChatComponent message
  return buildPacket packetID [writeVarInt (Int32.ofNat raw.length) ++ raw]

/-! ## What is built is read -/

theorem sim_readPacket {r : Reader σ Err} {view : σ → Bytes Err}
    (h : r.Simulates unexpectedEOF view) (maxPacketLength : Int32) :
    Sim view (readPacket r maxPacketLength) (readPacket bytesReader maxPacketLength) := by
  refine Sim.bind (Sim.mapErr _ (sim_readVarIntFromReader h)) fun p => Sim.ite (Sim.fail _) ?_
  refine Sim.bind (Sim.mapErr _ (h.readFull _)) fun payload => ?_
  rcases readVarIntFromReader bytesReader (newBytesReader payload) with ⟨_ | p, reader⟩
  · exact Sim.fail _
  · exact Sim.pure _

/-- A length that is written as an `int32` is what is left of it modulo
`2 ^ 32`, below zero from `2 ^ 31` on. -/
theorem toInt_ofNat_cases (n : ℕ) :
    ((Int32.ofNat n).toInt = n % 2 ^ 32 ∧ n % 2 ^ 32 < 2 ^ 31) ∨
      ((Int32.ofNat n).toInt < 0 ∧ 2 ^ 31 ≤ n % 2 ^ 32) := by
  rw [Int32.toInt_ofNat', show Int32.size = 2 ^ 32 from rfl, Int.bmod_def]
  split_ifs <;> omega

theorem toUInt32_ofNat (n : ℕ) : (Int32.ofNat n).toUInt32.toNat = n % 2 ^ 32 := by
  rw [show (Int32.ofNat n).toUInt32 = UInt32.ofNat n from rfl, UInt32.toNat_ofNat']

section Frame

variable {packetID maxPacketLength : Int32} {fields : List GoString} {more : GoString} {e : Err}

theorem not_le_zero (hmax : 0 < maxPacketLength.toInt) : ¬ maxPacketLength ≤ 0 := by
  rw [Int32.le_iff_toInt_le]
  exact not_le.mpr hmax

/-- The length of a packet. -/
theorem readLength_buildPacket :
    mapErr Prod.snd (readVarIntFromReader bytesReader) ⟨buildPacket packetID fields ++ more, e⟩ =
      (.ok (Int32.ofNat (writeVarInt packetID ++ fields.flatten).length,
        writeVarInt (Int32.ofNat (writeVarInt packetID ++ fields.flatten).length)),
        ⟨(writeVarInt packetID ++ fields.flatten) ++ more, e⟩) := by
  rw [buildPacket, List.append_assoc]
  exact mapErr_eq_ok.mpr (readVarInt_writeVarInt _ _ e)

/-- A packet whose length does not pass is not looked at. -/
theorem readPacket_tooLarge (hmax : 0 < maxPacketLength.toInt)
    (hlen : (Int32.ofNat (writeVarInt packetID ++ fields.flatten).length).toInt ≤ 0 ∨
      maxPacketLength.toInt < (Int32.ofNat (writeVarInt packetID ++ fields.flatten).length).toInt) :
    (readPacket bytesReader maxPacketLength ⟨buildPacket packetID fields ++ more, e⟩).1 =
      .error errPacketTooLarge := by
  have hlen' : Int32.ofNat (writeVarInt packetID ++ fields.flatten).length ≤ 0 ∨
      maxPacketLength < Int32.ofNat (writeVarInt packetID ++ fields.flatten).length := by
    rw [Int32.le_iff_toInt_le, Int32.lt_iff_toInt_lt]
    exact hlen
  rw [readPacket, if_neg (not_le_zero hmax), bind_of_ok readLength_buildPacket]
  dsimp only
  rw [if_pos hlen']
  rfl

/-- A packet whose length passes is read up to the length it gives. -/
theorem readPacket_buildPacket (hmax : 0 < maxPacketLength.toInt) {k : ℕ}
    (hk : (Int32.ofNat (writeVarInt packetID ++ fields.flatten).length).toInt = k)
    (hid : (writeVarInt packetID).length ≤ k) (hle : k ≤ maxPacketLength.toInt) :
    (readPacket bytesReader maxPacketLength ⟨buildPacket packetID fields ++ more, e⟩).1 =
      .ok (packetID, fields.flatten.take (k - (writeVarInt packetID).length)) := by
  have hpos := length_writeVarInt_pos packetID
  have hlen : ¬ (Int32.ofNat (writeVarInt packetID ++ fields.flatten).length ≤ 0 ∨
      maxPacketLength < Int32.ofNat (writeVarInt packetID ++ fields.flatten).length) := by
    rw [Int32.le_iff_toInt_le, Int32.lt_iff_toInt_lt, hk, Int32.toInt_zero]
    omega
  -- the length never says more than there is
  have hlong : k ≤ (writeVarInt packetID ++ fields.flatten).length := by
    rcases toInt_ofNat_cases (writeVarInt packetID ++ fields.flatten).length with h | h <;> omega
  have hfull : bytesReader.readFull k ⟨(writeVarInt packetID ++ fields.flatten) ++ more, e⟩ =
      (.ok (writeVarInt packetID ++ fields.flatten.take (k - (writeVarInt packetID).length)),
        ⟨((writeVarInt packetID ++ fields.flatten) ++ more).drop k, e⟩) := by
    have htake : ((writeVarInt packetID ++ fields.flatten) ++ more).take k =
        writeVarInt packetID ++ fields.flatten.take (k - (writeVarInt packetID).length) := by
      rw [List.take_append_of_le_length hlong, List.take_append, List.take_of_length_le hid]
    rw [← htake]
    exact if_pos (by rw [List.length_append]; omega)
  rw [readPacket, if_neg (not_le_zero hmax), bind_of_ok readLength_buildPacket]
  dsimp only
  rw [if_neg hlen, hk, Int.toNat_natCast, bind_of_ok (mapErr_eq_ok.mpr hfull), newBytesReader,
    readVarInt_writeVarInt]
  rfl

end Frame

end Proto

end McRouter
