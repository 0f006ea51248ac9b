import McRouter.Common.Format
import McRouter.Proto.Packet

/-!
# The formats of the protocol

What a VarInt, a handshake and a framed packet are, as bytes, without a
reader. `ParseHandshakePayload` accepts exactly the handshakes
(`handshake_format`) and `ReadPacket` exactly the frames. A frame carries
its own length, so frames sent one after another come apart again at the
same places, whatever follows them (`packet_framing`).
-/

namespace McRouter

namespace Proto

open ReadM Strings Unicode Bytes

/-! ## VarInts -/

/-- The number the bytes of a VarInt stand for: seven bits each, the lowest
first. -/
def varIntNat : GoString → ℕ
  | [] => 0
  | b :: bytes => b.toNat % 128 + 128 * varIntNat bytes

/-- All bytes but the last have the continuation bit. -/
def Continued : GoString → Prop
  | [] => False
  | [b] => b.toNat < 128
  | b :: bytes => 128 ≤ b.toNat ∧ Continued bytes

/-- **A VarInt**: one to five bytes, the value modulo `2 ^ 32`. -/
structure VarIntCode (bytes : GoString) (v : Int32) : Prop where
  continued : Continued bytes
  length_le : bytes.length ≤ maxVarIntBytes
  value : v = Int32.ofNat (varIntNat bytes)

/-- A group as a number. -/
theorem toNat_varIntGroup {b : UInt8} {i : ℕ} (hi : i < 5) :
    (varIntGroup b i).toUInt32.toNat = 2 ^ (7 * i) * (b.toNat % 128) % 2 ^ 32 := by
  have hgroup := varIntGroup_low (u := b.toUInt32) hi (by rw [UInt8.toNat_toUInt32])
  show (varIntGroup b i).toBitVec.toNat = _
  rw [hgroup, BitVec.toNat_shiftLeft, BitVec.toNat_and, Nat.shiftLeft_eq, Nat.mul_comm]
  refine congrArg (fun n => 2 ^ (7 * i) * n % 2 ^ 32) ?_
  have hand := Nat.and_two_pow_sub_one_eq_mod b.toNat 7
  exact (congrArg (· &&& 127) b.toNat_toUInt32).trans hand

/-- A group above what is collected adds to it. -/
theorem toNat_or_varIntGroup {value : Int32} {b : UInt8} {i : ℕ} (hi : i < 5)
    (hvalue : value.toUInt32.toNat < 2 ^ (7 * i)) :
    (value ||| varIntGroup b i).toUInt32.toNat =
      value.toUInt32.toNat + 2 ^ (7 * i) * (b.toNat % 128) % 2 ^ 32 := by
  have hgroup := toNat_varIntGroup (b := b) hi
  have hsplit : 2 ^ (7 * i) * (b.toNat % 128) % 2 ^ 32 =
      2 ^ (7 * i) * (b.toNat % 128 % 2 ^ (32 - 7 * i)) := by
    rw [show 2 ^ 32 = 2 ^ (7 * i) * 2 ^ (32 - 7 * i) by rw [← Nat.pow_add]; congr 1; omega,
      Nat.mul_mod_mul_left]
  show (value.toUInt32 ||| (varIntGroup b i).toUInt32).toNat = _
  rw [UInt32.toNat_or, hgroup, hsplit, Nat.or_comm, ← Nat.two_pow_add_eq_or_of_lt hvalue,
    Nat.add_comm]

/-- The value of the groups from index `i` on. -/
theorem value_of_groups {i : ℕ} {value v : Int32} {bytes : GoString}
    (h : Groups i value v bytes) : i + bytes.length ≤ 5 → value.toUInt32.toNat < 2 ^ (7 * i) →
      v.toUInt32.toNat = (value.toUInt32.toNat + 2 ^ (7 * i) * varIntNat bytes) % 2 ^ 32 := by
  induction h with
  | @last i value b hb =>
    intro hlen hvalue
    have hi : i < 5 := by
      rw [List.length_singleton] at hlen
      omega
    rw [toNat_or_varIntGroup hi hvalue]
    simp only [varIntNat, Nat.mul_zero, Nat.add_zero]
    interval_cases i <;> omega
  | @more i value v b bytes hb hbytes ih =>
    intro hlen hvalue
    rw [List.length_cons] at hlen
    have hpos : 0 < bytes.length := by cases hbytes <;> simp
    have hi : i < 4 := by omega
    have hor := toNat_or_varIntGroup (b := b) (by omega : i < 5) hvalue
    have hbyte := Nat.mod_lt b.toNat (by omega : 0 < 128)
    have hsmall : 2 ^ (7 * i) * (b.toNat % 128) % 2 ^ 32 = 2 ^ (7 * i) * (b.toNat % 128) := by
      interval_cases i <;> omega
    rw [hsmall] at hor
    have hnext : (value ||| varIntGroup b i).toUInt32.toNat < 2 ^ (7 * (i + 1)) := by
      rw [hor]
      interval_cases i <;> omega
    rw [ih (by omega) hnext, hor, varIntNat, Nat.mul_succ, Nat.pow_add, Nat.mul_add,
      Nat.mul_assoc, Nat.add_assoc]

theorem continued_of_groups {i : ℕ} {value v : Int32} {bytes : GoString}
    (h : Groups i value v bytes) : Continued bytes := by
  induction h with
  | last hb => exact (and_cont_eq_zero _).mp hb
  | @more i value v b bytes hb hbytes ih =>
    have hb' : 128 ≤ b.toNat := Nat.le_of_not_lt fun hlt => hb ((and_cont_eq_zero b).mpr hlt)
    cases bytes with
    | nil => cases hbytes
    | cons c bytes => exact ⟨hb', ih⟩

theorem groups_of_continued : ∀ {bytes : GoString}, Continued bytes → ∀ (i : ℕ) (value : Int32),
    ∃ v, Groups i value v bytes := by
  intro bytes
  induction bytes with
  | nil => intro h; exact h.elim
  | cons b bytes ih =>
    intro h i value
    cases bytes with
    | nil => exact ⟨_, Groups.last ((and_cont_eq_zero b).mpr h)⟩
    | cons c bytes =>
      obtain ⟨v, hv⟩ := ih h.2 (i + 1) (value ||| varIntGroup b i)
      have hb : 128 ≤ b.toNat := h.1
      refine ⟨v, Groups.more (fun hzero => ?_) hv⟩
      have hlt := (and_cont_eq_zero b).mp hzero
      omega

/-- **The groups are the bytes of the format.** -/
theorem groups_iff {bytes : GoString} {v : Int32} :
    Groups 0 0 v bytes ∧ bytes.length ≤ maxVarIntBytes ↔ VarIntCode bytes v := by
  have hvalue : ∀ {v : Int32}, Groups 0 0 v bytes → bytes.length ≤ maxVarIntBytes →
      v = Int32.ofNat (varIntNat bytes) := by
    intro v hgroups hlen
    have hv := value_of_groups hgroups (by rwa [Nat.zero_add]) (by decide)
    refine Int32.toBitVec_inj.mp (BitVec.eq_of_toNat_eq ?_)
    show v.toUInt32.toNat = (Int32.ofNat (varIntNat bytes)).toUInt32.toNat
    rw [hv, toUInt32_ofNat, show (0 : Int32).toUInt32.toNat = 0 from rfl, Nat.mul_zero, Nat.pow_zero,
      Nat.one_mul, Nat.zero_add]
  constructor
  · rintro ⟨hgroups, hlen⟩
    exact ⟨continued_of_groups hgroups, hlen, hvalue hgroups hlen⟩
  · rintro ⟨hcont, hlen, rfl⟩
    obtain ⟨v, hgroups⟩ := groups_of_continued hcont 0 0
    exact ⟨hvalue hgroups hlen ▸ hgroups, hlen⟩

/-- **`ReadVarInt` reads VarInts.** -/
theorem reads_varInt :
    Reads (readVarIntFromReader bytesReader) fun word p => p.2 = word ∧ VarIntCode word p.1 := by
  rintro s ⟨v, raw⟩ s'
  rw [readVarIntFromReader, mapErr_eq_ok]
  constructor
  · intro h
    obtain ⟨got, hgroups, hlen, hraw, hrest, hend⟩ := readVarIntLoop_ok h
    exact ⟨got, ⟨hraw, groups_iff.mp ⟨hgroups, hlen⟩⟩, by rw [← hrest, hend]⟩
  · rintro ⟨_, ⟨rfl, hcode⟩, rfl⟩
    obtain ⟨hgroups, hlen⟩ := groups_iff.mpr hcode
    exact readVarIntLoop_groups hgroups maxVarIntBytes [] s'.rest s'.atEnd hlen

/-- A string: its length as a VarInt, within the limit, and as many bytes
of UTF-8. -/
inductive StringCode (maxBytes : Int32) : Format GoString
  | mk {length text : GoString} {n : Int32} (hlength : VarIntCode length n)
      (hnonneg : 0 ≤ n.toInt) (hmax : n.toInt ≤ maxBytes.toInt) (htext : (text.length : ℤ) = n.toInt)
      (hvalid : validString text = true) : StringCode maxBytes (length ++ text) text

theorem reads_string (maxBytes : Int32) :
    Reads (readString bytesReader maxBytes) (StringCode maxBytes) := by
  refine (Reads.bind (Reads.mapErr Prod.snd reads_varInt) fun p => Reads.guard _
    (Reads.bind (Reads.mapErr Prod.snd (Reads.readFull unexpectedEOF _)) fun buf =>
      Reads.check _ _)).congr ?_
  intro word text
  simp only [Int32.lt_iff_toInt_lt, Int32.toInt_zero, not_or, not_lt]
  constructor
  · rintro ⟨_, _, ⟨n, _⟩, rfl, ⟨rfl, hlength⟩, ⟨hnonneg, hmax⟩, _, _, _, rfl, ⟨rfl, hlen⟩, hvalid,
      rfl, rfl⟩
    rw [List.append_nil]
    exact .mk hlength hnonneg hmax (by omega) hvalid
  · rintro ⟨hlength, hnonneg, hmax, htext, hvalid⟩
    refine ⟨_, _, ⟨_, _⟩, rfl, ⟨rfl, hlength⟩, ⟨hnonneg, hmax⟩, _, [], _,
      (List.append_nil _).symm, ⟨rfl, ?_⟩, hvalid, rfl, rfl⟩
    rw [← htext, Int.toNat_natCast]

/-- **A handshake**: packet id 0, the protocol version, the address, the
port in two bytes and one of the three next states. -/
inductive HandshakeCode (maxAddress : Int32) : Format Handshake
  | mk {id version length address state host : GoString} {v n next : Int32} {hi lo : UInt8}
      (hid : VarIntCode id 0) (hversion : VarIntCode version v) (hlength : VarIntCode length n)
      (hnonneg : 0 ≤ n.toInt) (hmax : n.toInt ≤ maxAddress.toInt)
      (haddress : (address.length : ℤ) = n.toInt) (hvalid : validString address = true)
      (hhost : HostAddr.normalize address = .ok host) (hstate : VarIntCode state next)
      (hnext : next = nextStateStatus ∨ next = nextStateLogin ∨ next = nextStateTransfer) :
      HandshakeCode maxAddress (id ++ version ++ length ++ address ++ [hi, lo] ++ state)
        ⟨v, address, UInt16.ofNat (hi.toNat * 256 + lo.toNat), next⟩

/-- Two bytes are their first and their second. -/
theorem eq_pair {bs : GoString} (h : bs.length = 2) : bs = [bs.getD 0 0, bs.getD 1 0] := by
  obtain ⟨a, b, rfl⟩ := List.length_eq_two.mp h
  rfl

theorem readsAll_handshake (limits : Limits) :
    ReadsAll (parseHandshake limits) (HandshakeCode limits.maxServerAddressBytes) := by
  refine (ReadsAll.bind (Reads.mapErr _ reads_varInt) fun _ => ReadsAll.guard _ <|
    ReadsAll.bind (Reads.mapErr _ reads_varInt) fun _ =>
    ReadsAll.bind (Reads.mapErr _ (reads_string _)) fun _ => ReadsAll.guard _ <|
    ReadsAll.bind (Reads.mapErr _ (Reads.ofExcept _)) fun _ =>
    ReadsAll.bind (Reads.mapErr _ (Reads.readFull unexpectedEOF 2)) fun _ =>
    ReadsAll.bind (Reads.mapErr _ reads_varInt) fun _ => ReadsAll.guard _ <|
    ReadsAll.atEnd _ _).congr ?_
  intro payload hs
  constructor
  · rintro ⟨id, _, ⟨_, _⟩, rfl, ⟨rfl, hid⟩, hzero, version, _, ⟨v, _⟩, rfl, ⟨rfl, hversion⟩, _, _, _,
      rfl, ⟨hlength, hnonneg, hmax, haddress, hvalid⟩, -, _, _, host, rfl, ⟨rfl, hhost⟩, port, _, _,
      rfl, ⟨rfl, hport⟩, state, _, ⟨next, _⟩, rfl, ⟨rfl, hstate⟩, hnext, rfl, rfl⟩
    have hid' : VarIntCode _ 0 := not_not.mp hzero ▸ hid
    simp only [not_and_or, not_not] at hnext
    have hcode : HandshakeCode _ (_ ++ _ ++ _ ++ _ ++ [port.getD 0 0, port.getD 1 0] ++ _) _ :=
      .mk hid' hversion hlength hnonneg hmax haddress hvalid hhost hstate hnext
    rw [← eq_pair hport] at hcode
    simpa only [List.append_assoc, List.append_nil, List.nil_append, bigEndianUint16] using hcode
  · intro hcode
    cases hcode with
    | @mk id version length address state host v n next hi lo hid hversion hlength hnonneg hmax
        haddress hvalid hhost hstate hnext =>
      refine ⟨id, _, (0, id), ?_, ⟨rfl, hid⟩, not_not.mpr rfl, version, _, (v, version), rfl,
        ⟨rfl, hversion⟩, length ++ address, _, address, rfl,
        .mk hlength hnonneg hmax haddress hvalid, HostAddr.trimSpace_ne_nil hhost, [], _, host, rfl,
        ⟨rfl, hhost⟩, [hi, lo], _, [hi, lo], rfl, ⟨rfl, rfl⟩, state, [], (next, state), rfl,
        ⟨rfl, hstate⟩, ?_, rfl, rfl⟩
      · simp only [List.append_assoc, List.append_nil, List.nil_append]
      · simpa only [not_and_or, not_not] using hnext

/-- `ParseHandshakePayload` accepts the handshakes. -/
theorem parseHandshakePayload_eq_ok {payload : GoString} {limits : Limits} {hs : Handshake} :
    parseHandshakePayload payload limits = .ok hs ↔
      HandshakeCode limits.orDefaults.maxServerAddressBytes payload hs := by
  unfold parseHandshakePayload Limits.orDefaults
  by_cases h : limits.maxServerAddressBytes ≤ 0
  · simp only [if_pos h]
    exact readsAll_handshake _ (newBytesReader payload) hs
  · simp only [if_neg h]
    exact readsAll_handshake _ (newBytesReader payload) hs

/-! ## Frames -/

/-- What is written is a VarInt. -/
theorem varIntCode_writeVarInt (v : Int32) : VarIntCode (writeVarInt v) v :=
  groups_iff.mp ⟨groups_writeVarInt v, length_writeVarInt_le v⟩

theorem varIntNat_lt (bytes : GoString) : varIntNat bytes < 128 ^ bytes.length := by
  induction bytes with
  | nil => exact Nat.one_pos
  | cons b bytes ih =>
    rw [varIntNat, List.length_cons, Nat.pow_succ]
    omega

/-- The writer needs no more bytes than the number has groups of seven
bits. -/
theorem length_writeVarIntLoop_of_lt : ∀ (fuel k : ℕ) (u : UInt32), u.toNat < 128 ^ (k + 1) →
    (writeVarIntLoop fuel u).length ≤ k + 1 := by
  intro fuel
  induction fuel with
  | zero =>
    intro k u _
    exact Nat.zero_le _
  | succ fuel ih =>
    intro k u hu
    have hshift := toNat_shiftRight_seven u
    rw [writeVarIntLoop]
    split
    · simp
    · rename_i hrest
      cases k with
      | zero =>
        refine absurd (UInt32.toNat_inj.mp ?_) hrest
        rw [hshift, UInt32.toNat_zero]
        omega
      | succ k =>
        have hlen := ih k (u >>> 7) (by rw [Nat.pow_succ] at hu; omega)
        rw [List.length_cons]
        omega

/-- **The writer's VarInt is the shortest.** -/
theorem VarIntCode.length_writeVarInt_le {bytes : GoString} {v : Int32} (h : VarIntCode bytes v) :
    (writeVarInt v).length ≤ bytes.length := by
  obtain ⟨hcont, -, rfl⟩ := h
  have hlt := varIntNat_lt bytes
  cases bytes with
  | nil => exact hcont.elim
  | cons b bytes =>
    refine length_writeVarIntLoop_of_lt _ _ _ (lt_of_le_of_lt ?_ hlt)
    rw [toUInt32_ofNat]
    exact Nat.mod_le _ _

/-- A frame: the length of the payload as a VarInt, within the limit, and
the payload, a word of `L`. -/
inductive FrameCode {α : Type} (maxLength : Int32) (L : Format α) : Format α
  | mk {length payload : GoString} {n : Int32} {a : α} (hlength : VarIntCode length n)
      (hpos : 0 < n.toInt) (hmax : n.toInt ≤ maxLength.toInt)
      (hpayload : (payload.length : ℤ) = n.toInt) (hword : L payload a) :
      FrameCode maxLength L (length ++ payload) a

theorem orDefaults_orDefaults (limits : Limits) : limits.orDefaults.orDefaults = limits.orDefaults := by
  have hif : ∀ {n d : Int32}, ¬ d ≤ 0 →
      (if (if n ≤ 0 then d else n) ≤ 0 then d else if n ≤ 0 then d else n) =
        if n ≤ 0 then d else n := by
    intro n d hd
    by_cases hn : n ≤ 0
    · simp [hn]
    · simp [hn]
  unfold Limits.orDefaults
  rw [hif (by decide), hif (by decide)]

/-- **`ReadHandshake` reads framed handshakes** and returns the bytes. -/
theorem reads_handshake (limits : Limits) :
    Reads (readHandshake bytesReader limits) fun word p => p.2 = word ∧
      FrameCode limits.orDefaults.maxPacketLength
        (HandshakeCode limits.orDefaults.maxServerAddressBytes) word p.1 := by
  refine (Reads.bind reads_varInt fun _ => Reads.guard _ <|
    Reads.bind (Reads.mapErr _ (Reads.readFull unexpectedEOF _)) fun _ =>
    Reads.bind (Reads.mapErr _ (Reads.ofExcept _)) fun _ => Reads.pure _).congr ?_
  rintro word ⟨hs, raw⟩
  simp only [parseHandshakePayload_eq_ok, orDefaults_orDefaults, Int32.le_iff_toInt_le,
    Int32.lt_iff_toInt_lt, Int32.toInt_zero, not_or, not_le, not_lt]
  constructor
  · rintro ⟨length, _, ⟨n, _⟩, rfl, ⟨rfl, hlength⟩, ⟨hpos, hmax⟩, payload, _, _, rfl, ⟨rfl, hlen⟩,
      _, _, _, rfl, ⟨rfl, hword⟩, rfl, heq⟩
    obtain ⟨rfl, rfl⟩ := Prod.mk.inj heq
    rw [List.append_nil, List.append_nil]
    exact ⟨rfl, .mk hlength hpos hmax (by omega) hword⟩
  · rintro ⟨rfl, hframe⟩
    cases hframe with
    | @mk length payload n _ hlength hpos hmax hpayload hword =>
      refine ⟨length, payload, (n, length), rfl, ⟨rfl, hlength⟩, ⟨hpos, hmax⟩, payload, [], payload,
        (List.append_nil _).symm, ⟨rfl, ?_⟩, [], [], hs, rfl, ⟨rfl, hword⟩, rfl, rfl⟩
      rw [← hpayload, Int.toNat_natCast]

/-- The two bytes of a port, the high one first. -/
def bigEndian (port : UInt16) : GoString := [UInt8.ofNat (port.toNat / 256), UInt8.ofNat port.toNat]

/-- A length that fits an `int32`. -/
theorem toInt_ofNat_of_le {n : ℕ} {limit : Int32} (h : (n : ℤ) ≤ limit.toInt) :
    (Int32.ofNat n).toInt = n := by
  have hlimit := limit.toInt_lt
  rcases toInt_ofNat_cases n with ⟨heq, -⟩ | ⟨-, hge⟩
  · omega
  · omega

/-- What is built from the parts of a handshake is one. -/
theorem handshakeCode_fields {maxAddress v next : Int32} {address host : GoString} (port : UInt16)
    (hmax : (address.length : ℤ) ≤ maxAddress.toInt) (hvalid : validString address = true)
    (hhost : HostAddr.normalize address = .ok host)
    (hnext : next = nextStateStatus ∨ next = nextStateLogin ∨ next = nextStateTransfer) :
    HandshakeCode maxAddress (writeVarInt 0 ++
      [writeVarInt v, encodeString address, bigEndian port, writeVarInt next].flatten)
      ⟨v, address, port, next⟩ := by
  have hlen := toInt_ofNat_of_le hmax
  have hport : UInt16.ofNat ((UInt8.ofNat (port.toNat / 256)).toNat * 256 +
      (UInt8.ofNat port.toNat).toNat) = port := by
    have hlt := port.toNat_lt
    rw [UInt8.toNat_ofNat', UInt8.toNat_ofNat', ← UInt16.toNat_inj, UInt16.toNat_ofNat']
    omega
  have hcode : HandshakeCode maxAddress (_ ++ _ ++ _ ++ _ ++
      [UInt8.ofNat (port.toNat / 256), UInt8.ofNat port.toNat] ++ _) _ :=
    .mk (varIntCode_writeVarInt 0) (varIntCode_writeVarInt v)
      (varIntCode_writeVarInt (Int32.ofNat address.length)) (by omega) (by omega) (by omega) hvalid
      hhost (varIntCode_writeVarInt next) hnext
  rw [hport] at hcode
  simpa only [encodeString, bigEndian, List.flatten_cons, List.flatten_nil, List.append_assoc,
    List.append_nil] using hcode

/-- A built packet is a frame of its payload. -/
theorem frameCode_buildPacket {α : Type} {maxLength : Int32} (id : Int32) {fields : List GoString}
    {L : Format α} {a : α} (hmax : ((writeVarInt id ++ fields.flatten).length : ℤ) ≤ maxLength.toInt)
    (hword : L (writeVarInt id ++ fields.flatten) a) :
    FrameCode maxLength L (buildPacket id fields) a := by
  have hlen := toInt_ofNat_of_le hmax
  have hpos := length_writeVarInt_pos id
  rw [List.length_append] at hlen
  refine .mk (varIntCode_writeVarInt _) ?_ ?_ ?_ hword
  · rw [List.length_append]
    omega
  · rw [List.length_append] at hmax ⊢
    omega
  · rw [List.length_append]
    omega

/-- **The format of the handshake**: what `ParseHandshakePayload` accepts
and what it returns, and that a handshake built field by field is read back
off a connection, whatever the pieces it arrives in and whatever comes
after it. -/
theorem handshake_format (limits : Limits) :
    (∀ payload hs, parseHandshakePayload payload limits = .ok hs ↔
      HandshakeCode limits.orDefaults.maxServerAddressBytes payload hs) ∧
    ∀ (v : Int32) (address host : GoString) (port : UInt16) (next : Int32) (more : GoString)
      (conn : Conn),
      (address.length : ℤ) ≤ limits.orDefaults.maxServerAddressBytes.toInt →
      validString address = true → HostAddr.normalize address = .ok host →
      next = nextStateStatus ∨ next = nextStateLogin ∨ next = nextStateTransfer →
      let fields := [writeVarInt v, encodeString address, bigEndian port, writeVarInt next]
      ((writeVarInt handshakePacketID ++ fields.flatten).length : ℤ) ≤
        limits.orDefaults.maxPacketLength.toInt →
      conn.view.rest = buildPacket handshakePacketID fields ++ more →
      ∃ conn', readHandshake connReader limits conn =
          (.ok (⟨v, address, port, next⟩, buildPacket handshakePacketID fields), conn') ∧
        conn'.view.rest = more := by
  refine ⟨fun _ _ => parseHandshakePayload_eq_ok, ?_⟩
  intro v address host port next more conn hmax hvalid hhost hnext fields hlen hrest
  have hword := handshakeCode_fields (v := v) port hmax hvalid hhost hnext
  have hframe := frameCode_buildPacket handshakePacketID hlen hword
  have hsim := sim_readHandshake (source_simulates unexpectedEOF) limits
  have hview : conn.view = ⟨buildPacket handshakePacketID fields ++ more, conn.err⟩ := by
    rw [← hrest]
    rfl
  obtain ⟨conn', hread, hview⟩ := Reads.sim_append hsim (reads_handshake limits)
    (a := (_, buildPacket handshakePacketID fields)) ⟨rfl, hframe⟩ hview
  exact ⟨conn', hread, by rw [hview]⟩

/-! ## Packets -/

/-- The payload of a packet: its id and the rest. -/
inductive PacketCode : Format (Int32 × GoString)
  | mk {raw fields : GoString} {id : Int32} (hid : VarIntCode raw id) :
      PacketCode (raw ++ fields) (id, fields)

/-- What reading the id off a payload leaves is the rest. -/
theorem packetCode_iff {payload fields : GoString} {id : Int32} :
    PacketCode payload (id, fields) ↔ ∃ raw,
      readVarIntFromReader bytesReader (newBytesReader payload) = (.ok (id, raw), ⟨fields, ioEOF⟩) := by
  constructor
  · intro hpacket
    cases hpacket with
    | @mk raw _ _ hid => exact ⟨raw, reads_varInt.append (a := (id, raw)) ⟨rfl, hid⟩ fields ioEOF⟩
  · rintro ⟨raw, hread⟩
    obtain ⟨_, ⟨rfl, hid⟩, heq⟩ := (reads_varInt _ _ _).mp hread
    obtain rfl : payload = raw ++ fields := congrArg Bytes.rest heq
    exact .mk hid

/-- The last step of `ReadPacket` takes nothing more off the stream. -/
theorem reads_packetID (payload : GoString) :
    Reads (match readVarIntFromReader bytesReader (newBytesReader payload) with
      | (.error p, _) => ReadM.fail (p.2.prefixed (go "packet id"))
      | (.ok (packetID, _), reader) => pure (packetID, reader.rest) :
        ReadM (Bytes Err) Err (Int32 × GoString))
      fun word p => word = [] ∧ PacketCode payload p := by
  have hcode : ∀ p, PacketCode payload p ↔ ∃ raw,
      readVarIntFromReader bytesReader (newBytesReader payload) =
        (.ok (p.1, raw), ⟨p.2, ioEOF⟩) := fun p => packetCode_iff
  simp only [hcode]
  rcases hread : readVarIntFromReader bytesReader (newBytesReader payload) with ⟨_ | ⟨id, raw⟩, reader⟩
  · exact (Reads.fail _).congr fun word p => by simp
  · obtain ⟨word, -, heq⟩ := (reads_varInt _ _ _).mp hread
    have hend : reader.atEnd = ioEOF := (congrArg Bytes.atEnd heq).symm
    refine (Reads.pure _).congr fun word p => and_congr_right fun _ => ?_
    obtain ⟨rest, e⟩ := reader
    obtain rfl : e = ioEOF := hend
    obtain ⟨id', fields⟩ := p
    simp

/-- The length limit `ReadPacket` uses. -/
def packetLimit (maxPacketLength : Int32) : Int32 :=
  if maxPacketLength ≤ 0 then defaultLimits.maxPacketLength else maxPacketLength

/-- **`ReadPacket` reads framed packets.** -/
theorem reads_packet (maxPacketLength : Int32) :
    Reads (readPacket bytesReader maxPacketLength)
      (FrameCode (packetLimit maxPacketLength) PacketCode) := by
  refine (Reads.bind (Reads.mapErr _ reads_varInt) fun _ => Reads.guard _ <|
    Reads.bind (Reads.mapErr _ (Reads.readFull unexpectedEOF _)) fun payload =>
    reads_packetID payload).congr ?_
  intro word p
  simp only [packetLimit, Int32.le_iff_toInt_le, Int32.lt_iff_toInt_lt, Int32.toInt_zero, not_or,
    not_le, not_lt]
  constructor
  · rintro ⟨length, _, ⟨n, _⟩, rfl, ⟨rfl, hlength⟩, ⟨hpos, hmax⟩, payload, _, _, rfl, ⟨rfl, hlen⟩,
      rfl, hword⟩
    rw [List.append_nil]
    exact .mk hlength hpos hmax (by omega) hword
  · intro hframe
    cases hframe with
    | @mk length payload n _ hlength hpos hmax hpayload hword =>
      refine ⟨length, payload, (n, length), rfl, ⟨rfl, hlength⟩, ⟨hpos, hmax⟩, payload, [], payload,
        (List.append_nil _).symm, ⟨rfl, ?_⟩, rfl, hword⟩
      rw [← hpayload, Int.toNat_natCast]

/-- `ReadPacket` called `count` times. -/
def readPackets {σ : Type} (r : Reader σ Err) (maxPacketLength : Int32) :
    (count : ℕ) → ReadM σ Err (List (Int32 × GoString))
  | 0 => pure []
  | count + 1 => do
    let packet ← readPacket r maxPacketLength
    let packets ← readPackets r maxPacketLength count
    pure (packet :: packets)

theorem sim_readPackets {σ : Type} {r : Reader σ Err} {view : σ → Bytes Err}
    (h : r.Simulates unexpectedEOF view) (maxPacketLength : Int32) : ∀ count,
    Sim view (readPackets r maxPacketLength count) (readPackets bytesReader maxPacketLength count) := by
  intro count
  induction count with
  | zero => exact Sim.pure _
  | succ count ih =>
    exact Sim.bind (sim_readPacket h maxPacketLength) fun _ => Sim.bind ih fun _ => Sim.pure _

/-- Frames one after another are read one after another. -/
theorem readPackets_frames {maxPacketLength : Int32} (tail : GoString) (e : Err) :
    ∀ packets : List (Int32 × List GoString),
      (∀ p ∈ packets,
        ((writeVarInt p.1 ++ p.2.flatten).length : ℤ) ≤ maxPacketLength.toInt) →
      readPackets bytesReader maxPacketLength packets.length
          ⟨packets.flatMap (fun p => buildPacket p.1 p.2) ++ tail, e⟩ =
        (.ok (packets.map fun p => (p.1, p.2.flatten)), ⟨tail, e⟩) := by
  intro packets
  induction packets with
  | nil => intro _; rfl
  | cons p packets ih =>
    intro hmax
    have hp := hmax p List.mem_cons_self
    have hpos := length_writeVarInt_pos p.1
    have hlimit : packetLimit maxPacketLength = maxPacketLength := by
      refine if_neg (not_le_zero ?_)
      rw [List.length_append] at hp
      omega
    have hframe : FrameCode (packetLimit maxPacketLength) PacketCode (buildPacket p.1 p.2)
        (p.1, p.2.flatten) := by
      rw [hlimit]
      exact frameCode_buildPacket p.1 hp (.mk (varIntCode_writeVarInt p.1))
    have ih := ih fun q hq => hmax q (List.mem_cons_of_mem p hq)
    rw [List.flatMap_cons, List.append_assoc, List.length_cons, readPackets,
      bind_of_ok ((reads_packet maxPacketLength).append hframe _ e), bind_of_ok ih]
    rfl

/-- **Packet framing is self-delimiting**: frames sent one after another
are read back one by one and nothing of what follows them is touched, and
whatever `ReadPacket` accepts is a length and as many bytes, those after
the id returned as they came. -/
theorem packet_framing (maxPacketLength : Int32) :
    (∀ (packets : List (Int32 × List GoString)) (tail : GoString) (conn : Conn),
      (∀ p ∈ packets, ((writeVarInt p.1 ++ p.2.flatten).length : ℤ) ≤ maxPacketLength.toInt) →
      conn.view.rest = packets.flatMap (fun p => buildPacket p.1 p.2) ++ tail →
      ∃ conn', readPackets connReader maxPacketLength packets.length conn =
          (.ok (packets.map fun p => (p.1, p.2.flatten)), conn') ∧ conn'.view.rest = tail) ∧
    ∀ (conn conn' : Conn) (id : Int32) (fields : GoString),
      readPacket connReader maxPacketLength conn = (.ok (id, fields), conn') →
      ∃ (length raw : GoString) (n : Int32), VarIntCode length n ∧ VarIntCode raw id ∧
        ((raw ++ fields).length : ℤ) = n.toInt ∧
        conn.view.rest = length ++ (raw ++ fields) ++ conn'.view.rest := by
  constructor
  · intro packets tail conn hmax hrest
    have hsim := sim_readPackets (source_simulates unexpectedEOF) maxPacketLength packets.length conn
    have hview : conn.view = ⟨packets.flatMap (fun p => buildPacket p.1 p.2) ++ tail, conn.err⟩ := by
      rw [← hrest]
      rfl
    rw [hview, readPackets_frames tail conn.err packets hmax, Prod.mk.injEq] at hsim
    exact ⟨_, Prod.ext hsim.1.symm rfl, (congrArg Bytes.rest hsim.2).symm⟩
  · intro conn conn' id fields hread
    obtain ⟨word, hframe, hview⟩ := Reads.of_sim
      (sim_readPacket (source_simulates unexpectedEOF) maxPacketLength)
      (reads_packet maxPacketLength) hread
    have hrest := congrArg Bytes.rest hview
    cases hframe with
    | @mk length payload n _ hlength _ _ hpayload hword =>
      cases hword with
      | @mk raw _ _ hid => exact ⟨length, raw, n, hlength, hid, hpayload, hrest⟩

end Proto

end McRouter
