import McRouter.Availability.Hub
import McRouter.Proto.Packet

/-!
# The status probe

`Probe` and `readVarInt` of `availability/monitor.go`: a status request to a
backend, and what is made of the answer. The gateway's own encoder is one of
the servers that may answer, and `validateAvailability` says which addresses
may be probed. The two do not fit together (`probe_accepts_iff`): the probe
parses the port with `ParseUint`, which takes no sign where `Atoi` takes a
plus, and it reads the answer under the limit that is meant for handshakes,
2048 bytes, where nothing bounds the text of a status.

JSON is a parameter: the encoder, and the check `json.Valid`.
-/

namespace McRouter

namespace Availability

open Strings Unicode Netip Proto

/-! ## `Probe` -/

def statusProtocolVersion : Int32 := 767

/-- A connection to a backend: what becomes of a write, and what is there to
read after it. -/
structure Peer where
  write : GoString → Option Err
  answer : GoString → Conn

/-- `binary.BigEndian.PutUint16`. -/
def putUint16 (port : ℕ) : GoString := [UInt8.ofNat (port / 256), UInt8.ofNat port]

/-- What `Probe` writes: a handshake and a status request. -/
def statusRequest (serverAddress : GoString) (port : ℕ) : GoString :=
  let payload := writeVarInt handshakePacketID ++ writeVarInt statusProtocolVersion ++
    encodeString serverAddress ++ putUint16 port ++ writeVarInt nextStateStatus
  buildPacket 0 [payload.drop 1] ++ buildPacket statusRequestPacketID []

/-- The loop of the monitor's `readVarInt`. -/
def readVarIntFrom : (index : ℕ) → (value : Int32) → GoString → Except Err (Int32 × ℕ)
  | _, _, [] => .error ⟨go "truncated varint", []⟩
  | index, value, b :: data =>
    if index = 5 then .error ⟨go "varint too long", []⟩
    else if b &&& 0x80 = 0 then .ok (value ||| varIntGroup b index, index + 1)
    else readVarIntFrom (index + 1) (value ||| varIntGroup b index) data

/-- `readVarInt`: the value, and the number of bytes it takes. -/
def readVarInt (data : GoString) : Except Err (Int32 × ℕ) := readVarIntFrom 0 0 data

/-- What `Probe` checks of the packet it gets. -/
def checkStatus (valid : GoString → Bool) (id : Int32) (payload : GoString) : Option Err :=
  if id ≠ statusResponsePacketID then
    some ⟨go "unexpected status packet " ++ itoaInt id.toInt, []⟩
  else match readVarInt payload with
    | .error _ => some ⟨go "invalid status response", []⟩
    | .ok (length, offset) =>
      if length < 1 ∨ length.toInt ≠ (payload.length : ℤ) - offset then
        some ⟨go "invalid status response", []⟩
      else if !valid (payload.drop offset) then some ⟨go "status response is not JSON", []⟩
      else none

/-- The answer of `Probe`, from `ReadPacket` on. -/
def readStatus {σ : Type} (valid : GoString → Bool) (r : Reader σ Err) (s : σ) : Option Err :=
  match (readPacket r defaultLimits.maxPacketLength s).1 with
  | .error err => some err
  | .ok (id, payload) => checkStatus valid id payload

/-- `Probe`. `valid` is `json.Valid`. -/
def probe (valid : GoString → Bool) (dial : GoString → Except Err Peer)
    (address serverAddress : GoString) : Option Err :=
  match splitHostPort address with
  | .error text => some ⟨text, []⟩
  | .ok (_, portRaw) =>
    match parseUint 65535 portRaw with
    | .error err =>
      some ⟨go "strconv.ParseUint: parsing " ++ quote portRaw ++ go ": " ++ err.text, []⟩
    | .ok port =>
      match dial address with
      | .error err => some err
      | .ok conn =>
        match conn.write (statusRequest serverAddress port) with
        | some err => some err
        | none => readStatus valid connReader (conn.answer (statusRequest serverAddress port))

/-! ## Ports -/

/-- What `Atoi` and the range check accept. -/
theorem port_of_validateBackend {backend : GoString} (h : Config.validateBackend backend = none) :
    ∃ host port p, splitHostPort backend = .ok (host, port) ∧ atoi port = some p ∧ 1 ≤ p ∧
      p ≤ 65535 := by
  unfold Config.validateBackend at h
  split at h
  · cases h
  rename_i host port hsplit
  split_ifs at h with _ _ hrange
  cases hatoi : atoi port with
  | none =>
    rw [hatoi] at hrange
    exact absurd rfl hrange
  | some p =>
    simp only [hatoi, Option.all_some, Bool.or_eq_true, decide_eq_true_eq, not_or, not_lt] at hrange
    exact ⟨host, port, p, hsplit, hatoi, hrange.1, hrange.2⟩

/-- **`ParseUint` takes what `Atoi` takes in the range of a port, except for a
plus.** -/
theorem parseUint_port_iff {port : GoString} {p : ℤ} (hatoi : atoi port = some p) (hp : 1 ≤ p)
    (hmax : p ≤ 65535) : (∃ n, parseUint 65535 port = .ok n) ↔ port.head? ≠ some 43 := by
  have hsigned : signed? port = some p := (Option.filter_eq_some_iff.mp hatoi).1
  unfold signed? at hsigned
  split at hsigned
  · -- a plus: the first byte is no digit
    rename_i t
    have hplus : parseUint 65535 (43 :: t) = .error .malformed := rfl
    rw [hplus]
    simp
  · -- a minus: no number is left in the range
    obtain ⟨n, -, hn⟩ := Option.map_eq_some_iff.mp hsigned
    have : (0 : ℤ) ≤ Int.ofNat n := Int.natCast_nonneg n
    omega
  · rename_i hplus _
    obtain ⟨n, hdecimal, hn⟩ := Option.map_eq_some_iff.mp hsigned
    have hn' : n ≤ 65535 := by
      have : (n : ℤ) = p := hn
      omega
    refine iff_of_true ⟨n, parseUint_of_decimal hdecimal hn'⟩ ?_
    intro hhead
    cases port with
    | nil => cases hhead
    | cons b t =>
      obtain rfl : b = 43 := Option.some.inj hhead
      exact hplus t rfl

/-! ## Lengths -/

/-- Groups are read to their end. -/
theorem readVarIntFrom_groups {i : ℕ} {value v : Int32} {bytes : GoString}
    (h : Groups i value v bytes) : i + bytes.length ≤ 5 → ∀ rest,
      readVarIntFrom i value (bytes ++ rest) = .ok (v, i + bytes.length) := by
  induction h with
  | last hb =>
    intro hlen rest
    rw [List.length_singleton] at hlen
    rw [List.singleton_append, readVarIntFrom, if_neg (by omega), if_pos hb, List.length_singleton]
  | more hb _ ih =>
    intro hlen rest
    rw [List.length_cons] at hlen
    rw [List.cons_append, readVarIntFrom, if_neg (by omega), if_neg hb, ih (by omega) rest,
      List.length_cons]
    congr 2
    omega

/-- Groups that are cut short are not a VarInt. -/
theorem readVarIntFrom_take {i : ℕ} {value v : Int32} {bytes : GoString}
    (h : Groups i value v bytes) : i + bytes.length ≤ 5 → ∀ k < bytes.length,
      ∃ err, readVarIntFrom i value (bytes.take k) = .error err := by
  induction h with
  | last hb =>
    intro _ k hk
    obtain rfl : k = 0 := by
      rw [List.length_singleton] at hk
      omega
    exact ⟨_, rfl⟩
  | more hb _ ih =>
    intro hlen k hk
    rw [List.length_cons] at hlen hk
    cases k with
    | zero => exact ⟨_, rfl⟩
    | succ k =>
      rw [List.take_succ_cons, readVarIntFrom, if_neg (by omega), if_neg hb]
      exact ih (by omega) k (by omega)

theorem readVarInt_write (v : Int32) (rest : GoString) :
    readVarInt (writeVarInt v ++ rest) = .ok (v, (writeVarInt v).length) := by
  have hlen := length_writeVarInt_le v
  rw [readVarInt, readVarIntFrom_groups (groups_writeVarInt v) (by omega) rest, Nat.zero_add]

/-! ## Answers -/

/-- The gateway's status packet for a text. -/
def statusPacket (raw : GoString) : GoString :=
  buildPacket statusResponsePacketID [writeVarInt (Int32.ofNat raw.length) ++ raw]

/-- A text of 4 GiB or more whose length, written as an `int32`, passes for a
short one, and that begins with a text of that length. -/
def Wraps (valid : GoString → Bool) (raw : GoString) : Prop :=
  2 ^ 32 ≤ raw.length ∧ 0 < raw.length % 2 ^ 32 ∧ raw.length % 2 ^ 32 ≤ 2045 ∧
    valid (raw.take (raw.length % 2 ^ 32)) = true

section Answer

variable {valid : GoString → Bool} {raw more : GoString} {e : Err}

theorem length_statusID : (writeVarInt statusResponsePacketID).length = 1 := by decide

theorem length_status (raw : GoString) :
    (writeVarInt statusResponsePacketID ++
      [writeVarInt (Int32.ofNat raw.length) ++ raw].flatten).length =
      1 + (writeVarInt (Int32.ofNat raw.length)).length + raw.length := by
  simp only [List.flatten_cons, List.flatten_nil, List.append_nil, List.length_append,
    length_statusID]
  omega

/-- A frame that passes the limit is read up to its length. -/
theorem readStatus_of_length {k : ℕ}
    (hk : (1 + (writeVarInt (Int32.ofNat raw.length)).length + raw.length) % 2 ^ 32 = k + 1)
    (hle : k < 2048) : readStatus valid bytesReader ⟨statusPacket raw ++ more, e⟩ =
      checkStatus valid statusResponsePacketID
        ((writeVarInt (Int32.ofNat raw.length) ++ raw).take k) := by
  have hlen : (Int32.ofNat (writeVarInt statusResponsePacketID ++
      [writeVarInt (Int32.ofNat raw.length) ++ raw].flatten).length).toInt = (k + 1 : ℕ) := by
    rw [length_status]
    rcases toInt_ofNat_cases (1 + (writeVarInt (Int32.ofNat raw.length)).length + raw.length)
      with ⟨h, -⟩ | ⟨-, h⟩ <;> omega
  have hmax : defaultLimits.maxPacketLength.toInt = 2048 := by decide
  have hid := length_statusID
  have hread : (readPacket bytesReader defaultLimits.maxPacketLength
      ⟨statusPacket raw ++ more, e⟩).1 = .ok (statusResponsePacketID,
        [writeVarInt (Int32.ofNat raw.length) ++ raw].flatten.take
          (k + 1 - (writeVarInt statusResponsePacketID).length)) :=
    readPacket_buildPacket (by omega) hlen (by omega) (by omega)
  rw [readStatus, hread, hid, Nat.add_sub_cancel, List.flatten_singleton]

/-- A text whose length says 2045 or less is read as far as that. -/
theorem readStatus_short (hn : raw.length % 2 ^ 32 ≤ 2045) :
    readStatus valid bytesReader ⟨statusPacket raw ++ more, e⟩ = none ↔
      0 < raw.length % 2 ^ 32 ∧ valid (raw.take (raw.length % 2 ^ 32)) = true := by
  have hw : (writeVarInt (Int32.ofNat raw.length)).length ≤ 2 :=
    length_writeVarInt_le_two (by rw [toUInt32_ofNat]; omega)
  have hk : (1 + (writeVarInt (Int32.ofNat raw.length)).length + raw.length) % 2 ^ 32 =
      (writeVarInt (Int32.ofNat raw.length)).length + raw.length % 2 ^ 32 + 1 := by omega
  have hlength : (Int32.ofNat raw.length).toInt = (raw.length % 2 ^ 32 : ℕ) := by
    rcases toInt_ofNat_cases raw.length with ⟨h, -⟩ | ⟨-, h⟩ <;> omega
  have hone : Int32.ofNat raw.length < 1 ↔ ¬ 0 < raw.length % 2 ^ 32 := by
    rw [Int32.lt_iff_toInt_lt, hlength, Int32.toInt_one]
    omega
  -- the inner length is that of the text that was read
  have hmin : (raw.take (raw.length % 2 ^ 32)).length = raw.length % 2 ^ 32 :=
    List.length_take_of_le (Nat.mod_le _ _)
  have hinner : (Int32.ofNat raw.length).toInt =
      ((writeVarInt (Int32.ofNat raw.length) ++ raw.take (raw.length % 2 ^ 32)).length : ℤ) -
        (writeVarInt (Int32.ofNat raw.length)).length := by
    rw [hlength, List.length_append, hmin]
    omega
  rw [readStatus_of_length hk (by omega), List.take_length_add_append, checkStatus,
    if_neg (by simp), readVarInt_write]
  simp only [hone, ← hinner, ne_eq, not_true_eq_false, or_false, List.drop_left]
  by_cases hpos : 0 < raw.length % 2 ^ 32
  · rw [if_neg (not_not.mpr hpos), and_iff_right hpos]
    cases valid (raw.take (raw.length % 2 ^ 32)) <;> simp
  · rw [if_pos hpos]
    exact iff_of_false (by simp) fun h => hpos h.1

/-- A text whose length says more is not read. -/
theorem readStatus_long (hn : 2045 < raw.length % 2 ^ 32) :
    readStatus valid bytesReader ⟨statusPacket raw ++ more, e⟩ ≠ none := by
  have hw : 2 ≤ (writeVarInt (Int32.ofNat raw.length)).length :=
    two_le_length_writeVarInt (by rw [toUInt32_ofNat]; omega)
  have hw' := length_writeVarInt_le (Int32.ofNat raw.length)
  obtain ⟨k, hk⟩ : ∃ k, (1 + (writeVarInt (Int32.ofNat raw.length)).length + raw.length) % 2 ^ 32 =
    k := ⟨_, rfl⟩
  by_cases hframe : 0 < k ∧ k ≤ 2048
  · -- the length of the frame has wrapped: it ends inside the inner length
    have hcut : k - 1 < (writeVarInt (Int32.ofNat raw.length)).length := by omega
    obtain ⟨err, herr⟩ := readVarIntFrom_take (groups_writeVarInt (Int32.ofNat raw.length))
      (by omega) (k - 1) hcut
    rw [readStatus_of_length (show _ = k - 1 + 1 by omega) (by omega),
      List.take_append_of_le_length hcut.le, checkStatus, if_neg (by simp), readVarInt, herr]
    simp
  · have hmax : defaultLimits.maxPacketLength.toInt = 2048 := by decide
    have hread : (readPacket bytesReader defaultLimits.maxPacketLength
        ⟨statusPacket raw ++ more, e⟩).1 = .error errPacketTooLarge := by
      refine readPacket_tooLarge (by omega) ?_
      rw [length_status]
      rcases toInt_ofNat_cases (1 + (writeVarInt (Int32.ofNat raw.length)).length + raw.length)
        with ⟨h, -⟩ | ⟨h, -⟩ <;> omega
    rw [readStatus, hread]
    simp

/-- **What the probe makes of the gateway's own encoding.** -/
theorem readStatus_iff (hne : raw ≠ []) (hvalid : valid raw = true) :
    readStatus valid bytesReader ⟨statusPacket raw ++ more, e⟩ = none ↔
      raw.length ≤ 2045 ∨ Wraps valid raw := by
  have hpos := List.length_pos_iff.mpr hne
  by_cases hn : raw.length % 2 ^ 32 ≤ 2045
  · rw [readStatus_short hn]
    by_cases hwrap : raw.length < 2 ^ 32
    · rw [Nat.mod_eq_of_lt hwrap] at hn ⊢
      rw [List.take_length]
      exact iff_of_true ⟨hpos, hvalid⟩ (Or.inl hn)
    · have hlong : ¬ raw.length ≤ 2045 := by omega
      rw [Wraps, or_iff_right hlong]
      exact ⟨fun h => ⟨not_lt.mp hwrap, h.1, hn, h.2⟩, fun h => ⟨h.2.1, h.2.2.2⟩⟩
  · refine iff_of_false (readStatus_long (by omega)) ?_
    rintro (h | ⟨-, -, h, -⟩) <;> omega

end Answer

/-! ## The probe -/

/-- The backend accepts the connection and the status request, and the bytes
that it sends begin with the packet. -/
def Answers (dial : GoString → Except Err Peer) (backend : Config.AvailabilityBackend)
    (packet : GoString) : Prop :=
  ∃ peer, dial backend.address = .ok peer ∧
    ∀ port, peer.write (statusRequest backend.serverAddress port) = none ∧
      ∃ more, (peer.answer (statusRequest backend.serverAddress port)).view.rest = packet ++ more

/-- Every backend of a list without errors has a good address. -/
theorem validateBackend_of_availability : ∀ {backends : List Config.AvailabilityBackend}
    {seen : List GoString}, Config.validateAvailabilityBackends seen backends = none →
    ∀ backend ∈ backends, Config.validateBackend backend.address = none := by
  intro backends
  induction backends with
  | nil =>
    intro seen _ backend hbackend
    cases hbackend
  | cons b backends ih =>
    intro seen h backend hbackend
    simp only [Config.validateAvailabilityBackends] at h
    split_ifs at h
    split at h
    · cases h
    rename_i hb
    split at h
    · cases h
    rcases List.mem_cons.mp hbackend with rfl | hbackend
    · exact hb
    · exact ih h backend hbackend

theorem validateBackend_of_validate {env : Env} {availability : Config.Availability}
    (henabled : availability.enabled = true)
    (h : Config.validateAvailability env availability = none) :
    ∀ backend ∈ availability.backends, Config.validateBackend backend.address = none := by
  unfold Config.validateAvailability at h
  split_ifs at h with hdisabled
  · rw [henabled] at hdisabled
    cases hdisabled
  · exact validateBackend_of_availability h

theorem readStatus_conn (valid : GoString → Bool) (conn : Conn) :
    readStatus valid connReader conn = readStatus valid bytesReader conn.view := by
  have hsim := sim_readPacket (source_simulates unexpectedEOF) defaultLimits.maxPacketLength conn
  rw [readStatus, readStatus, hsim]
  rfl

/-- **The probe accepts an answer of the gateway's own encoder exactly if the
port is spelled without a plus and the JSON has at most 2045 bytes**; the
second alternative is a text past 4 GiB. -/
theorem probe_accepts_iff (env : Env) (availability : Config.Availability)
    (henabled : availability.enabled = true)
    (hvalid : Config.validateAvailability env availability = none)
    (backend : Config.AvailabilityBackend) (hbackend : backend ∈ availability.backends)
    (valid : GoString → Bool) (json : Json) (status : StatusResponse)
    (hjson : json.statusResponse status ≠ [] ∧ valid (json.statusResponse status) = true)
    (dial : GoString → Except Err Peer)
    (hpeer : Answers dial backend (buildStatusResponsePacket json status)) :
    probe valid dial backend.address backend.serverAddress = none ↔
      (∀ host port, splitHostPort backend.address = .ok (host, port) → port.head? ≠ some 43) ∧
        ((json.statusResponse status).length ≤ 2045 ∨ Wraps valid (json.statusResponse status)) := by
  obtain ⟨host, port, p, hsplit, hatoi, hp, hmax⟩ :=
    port_of_validateBackend (validateBackend_of_validate henabled hvalid backend hbackend)
  obtain ⟨peer, hdial, hanswers⟩ := hpeer
  have hplus : (∀ host port, splitHostPort backend.address = .ok (host, port) →
      port.head? ≠ some 43) ↔ ∃ n, parseUint 65535 port = .ok n := by
    rw [parseUint_port_iff hatoi hp hmax]
    constructor
    · intro h
      exact h host port hsplit
    · intro h host' port' hsplit'
      cases hsplit.symm.trans hsplit'
      exact h
  rw [hplus]
  cases hparse : parseUint 65535 port with
  | error err => simp [probe, hsplit, hparse]
  | ok n =>
    obtain ⟨hwrite, more, hview⟩ := hanswers n
    have hprobe : probe valid dial backend.address backend.serverAddress =
        readStatus valid bytesReader ⟨statusPacket (json.statusResponse status) ++ more,
          (peer.answer (statusRequest backend.serverAddress n)).view.atEnd⟩ := by
      simp only [probe, hsplit, hparse, hdial, hwrite, readStatus_conn]
      congr 1
      exact congrArg (fun rest => Bytes.mk rest _) hview
    rw [hprobe, readStatus_iff hjson.1 hjson.2]
    simp

/-- What `json.Marshal` writes for texts without anything to escape. -/
def plainJson : Json where
  statusResponse s :=
    go "\x7b\"version\":\x7b\"name\":" ++ quoted s.versionName ++
    go ",\"protocol\":" ++ itoaInt s.versionProtocol ++
    go "\x7d,\"players\":\x7b\"max\":" ++ itoaInt s.playersMax ++
    go ",\"online\":" ++ itoaInt s.playersOnline ++
    go "\x7d,\"description\":\x7b\"text\":" ++ quoted s.descriptionText ++ go "\x7d\x7d"
  statusChatComponent text := go "\x7b\"text\":" ++ quoted text ++ go "\x7d"

/-- A check that lets every object pass. -/
def isObject (text : GoString) : Bool := text.head? = some 123 && text.getLast? = some 125

def motdStatus (motd : GoString) : StatusResponse := ⟨go "1.21.1", 767, 20, 0, motd⟩

/-- One backend, at this address. -/
def lobbyAt (address : GoString) : Config.AvailabilityBackend :=
  ⟨go "lobby", address, go "lobby.example.com"⟩

def lobbyProbed (address : GoString) : Config.Availability where
  enabled := true
  controlURL := go "http://hub:8080"
  tokenEnv := go "CONTROL_TOKEN"
  backends := [lobbyAt address]

def hubEnv : Env where
  getenv _ := []
  resolveUDPAddr _ := none
  resolveTCPAddr _ := none
  parseRequestURI _ := some (go "http", go "hub:8080")

/-- A backend that answers everything with one packet. -/
def answering (packet : GoString) : GoString → Except Err Peer :=
  fun _ => .ok ⟨fun _ => none, fun _ => ⟨[packet], ioEOF⟩⟩

theorem answers_answering (backend : Config.AvailabilityBackend) (packet : GoString) :
    Answers (answering packet) backend packet := by
  refine ⟨_, rfl, fun port => ⟨rfl, [], ?_⟩⟩
  simp [Source.view]

/-- A backend whose port is written with a plus is taken for offline, and so
is one with a message of 2000 letters. -/
theorem probe_refuses_plus_and_long :
    (Config.validateAvailability hubEnv (lobbyProbed (go "10.0.0.5:+25565")) = none ∧
      isObject (plainJson.statusResponse (motdStatus (go "hello"))) = true ∧
      probe isObject (answering (buildStatusResponsePacket plainJson (motdStatus (go "hello"))))
        (go "10.0.0.5:+25565") (go "lobby.example.com") ≠ none) ∧
    (Config.validateAvailability hubEnv (lobbyProbed (go "10.0.0.5:25565")) = none ∧
      isObject (plainJson.statusResponse (motdStatus (List.replicate 2000 97))) = true ∧
      probe isObject (answering (buildStatusResponsePacket plainJson
        (motdStatus (List.replicate 2000 97)))) (go "10.0.0.5:25565")
        (go "lobby.example.com") ≠ none) := by
  decide +kernel

theorem probe_accepts_hello :
    probe isObject (answering (buildStatusResponsePacket plainJson (motdStatus (go "hello"))))
      (go "10.0.0.5:25565") (go "lobby.example.com") = none := by
  refine (probe_accepts_iff hubEnv (lobbyProbed (go "10.0.0.5:25565")) rfl (by decide +kernel)
    (lobbyAt (go "10.0.0.5:25565")) List.mem_cons_self isObject plainJson (motdStatus (go "hello"))
    (by decide +kernel) _ (answers_answering _ _)).mpr ⟨?_, Or.inl (by decide +kernel)⟩
  intro host port hsplit
  have hport : splitHostPort (go "10.0.0.5:25565") = .ok (go "10.0.0.5", go "25565") := by
    decide +kernel
  cases hport.symm.trans hsplit
  decide +kernel

end Availability

end McRouter
