import McRouter.Proto.VarInt
import McRouter.Common.UDPAddr

/-!
# Voice packets

`voicechat/udp.go`: the envelope of a client's datagram that can be read
without decrypting it, and the player identifiers it carries. Identifiers
and session keys print without loss (`UUID.string_injective`,
`dynamicSessionKey_injective`).
-/

namespace McRouter

namespace Voice

open Strings Unicode Netip Net

/-- `UUID`: sixteen bytes. -/
structure UUID where
  bytes : List UInt8
  length_eq : bytes.length = 16
deriving DecidableEq, Repr

/-- `hex.Encode`. -/
def hexEncode (bytes : List UInt8) : GoString :=
  bytes.flatMap fun b => [hexDigit (b.toNat / 16), hexDigit (b.toNat % 16)]

/-- `hex.DecodeString`; which byte is wrong is not kept. -/
def hexDecode : GoString → Option (List UInt8)
  | [] => some []
  | [_] => none
  | hi :: lo :: rest =>
    match hexVal? hi, hexVal? lo, hexDecode rest with
    | some h, some l, some bytes => some (UInt8.ofNat (16 * h + l) :: bytes)
    | _, _, _ => none

/-- `UUID.String`. -/
def UUID.string (u : UUID) : GoString :=
  hexEncode (u.bytes.take 4) ++ 45 :: (hexEncode ((u.bytes.drop 4).take 2) ++
    45 :: (hexEncode ((u.bytes.drop 6).take 2) ++ 45 :: (hexEncode ((u.bytes.drop 8).take 2) ++
      45 :: hexEncode (u.bytes.drop 10))))

/-- `ParseUUID`; the error's text is read by nobody. -/
def parseUUID (s : GoString) : Option UUID :=
  let cleaned := removeAll 45 s
  if cleaned.length ≠ 32 then none
  else match hexDecode cleaned with
    | none => none
    | some decoded => if h : decoded.length = 16 then some ⟨decoded, h⟩ else none

/-- `MagicByte`. -/
def magicByte : UInt8 := 0xff

/-- `ErrPacketTooShort`. -/
def errPacketTooShort : Err := ⟨go "voicechat packet too short", []⟩

/-- `ErrInvalidMagic`. -/
def errInvalidMagic : Err := ⟨go "voicechat packet has invalid magic byte", []⟩

/-- `ErrInvalidLength`. -/
def errInvalidLength : Err := ⟨go "voicechat packet has invalid encrypted payload length", []⟩

/-- `ErrTruncatedPacket`. -/
def errTruncatedPacket : Err := ⟨go "voicechat packet is truncated", []⟩

/-- `ErrTrailingBytes`. -/
def errTrailingBytes : Err := ⟨go "voicechat packet has trailing bytes", []⟩

/-- `ClientPacket`. -/
structure ClientPacket where
  playerUUID : UUID
  encryptedPayload : GoString
deriving DecidableEq

/-- The loop of `readVarInt` at index `i`, with `fuel` rounds to go. -/
def readVarIntLoop : (fuel i : ℕ) → (value : Int32) → GoString → Except Err (ℕ × ℕ)
  | 0, _, _, _ => .error errInvalidLength
  | _ + 1, _, _, [] => .error errTruncatedPacket
  | fuel + 1, i, value, b :: data =>
    let value := value ||| Proto.varIntGroup b i
    if b &&& 0x80 = 0 then
      if value < 0 then .error errInvalidLength else .ok (value.toInt.toNat, i + 1)
    else readVarIntLoop fuel (i + 1) value data

/-- `readVarInt`: the value, which is never negative, and the number of
bytes it takes. -/
def readVarInt (data : GoString) : Except Err (ℕ × ℕ) := readVarIntLoop 5 0 0 data

/-- `ParseClientPacket`. -/
def parseClientPacket (packet : GoString) : Except Err ClientPacket :=
  match packet with
  | [] => .error errPacketTooShort
  | magic :: body =>
    if magic ≠ magicByte then .error errInvalidMagic
    else if h : body.length < 17 then .error errPacketTooShort
    else
      match readVarInt (body.drop 16) with
      | .error err => .error err
      | .ok (payloadLen, varIntLen) =>
        let payload := body.drop (16 + varIntLen)
        if payload.length < payloadLen then .error errTruncatedPacket
        else if payloadLen < payload.length then .error errTrailingBytes
        else .ok ⟨⟨body.take 16, by rw [List.length_take]; omega⟩, payload⟩

/-- `dynamicSessionKey`. -/
def dynamicSessionKey (uuid : UUID) (addr : UDPAddr) : GoString :=
  uuid.string ++ go "|" ++ addr.string

/-! ## Identifiers as texts -/

/-- What is encoded decodes to itself. -/
theorem hexDecode_hexEncode (bs : List UInt8) : hexDecode (hexEncode bs) = some bs := by
  induction bs with
  | nil => rfl
  | cons b bs ih =>
    have hb := b.toNat_lt
    have hhi := (hexVal_hexDigit (b.toNat / 16) (by omega)).1
    have hlo := (hexVal_hexDigit (b.toNat % 16) (by omega)).1
    have hbyte : UInt8.ofNat (16 * (b.toNat / 16) + b.toNat % 16) = b := by
      rw [Nat.div_add_mod]
      exact UInt8.ofNat_toNat
    show hexDecode (hexDigit (b.toNat / 16) :: hexDigit (b.toNat % 16) :: hexEncode bs) = _
    simp only [hexDecode, hhi, hlo, ih, hbyte]

theorem hexEncode_injective : Function.Injective hexEncode := by
  intro bs bs' h
  have hdecode := hexDecode_hexEncode bs
  rw [h, hexDecode_hexEncode] at hdecode
  exact (Option.some.inj hdecode).symm

theorem notMem_hexEncode {bs : List UInt8} {b : UInt8} (hb : isGroupByte b = false) :
    b ∉ hexEncode bs := by
  intro h
  obtain ⟨c, -, hc⟩ := List.mem_flatMap.mp h
  have hlt := c.toNat_lt
  have h₁ := (hexVal_hexDigit (c.toNat / 16) (by omega)).2
  have h₂ := (hexVal_hexDigit (c.toNat % 16) (by omega)).2
  simp only [List.mem_cons, List.not_mem_nil, or_false] at hc
  rcases hc with rfl | rfl
  · rw [hb] at h₁
    cases h₁
  · rw [hb] at h₂
    cases h₂

/-- The parts of an identifier make it up. -/
theorem append_parts (bs : List UInt8) : bs.take 4 ++ ((bs.drop 4).take 2 ++ ((bs.drop 6).take 2 ++
    ((bs.drop 8).take 2 ++ bs.drop 10))) = bs := by
  rw [← List.drop_drop (i := 2) (j := 8), List.take_append_drop, ← List.drop_drop (i := 2) (j := 6),
    List.take_append_drop, ← List.drop_drop (i := 2) (j := 4), List.take_append_drop,
    List.take_append_drop]

/-- **Different identifiers print differently.** -/
theorem UUID.string_injective : Function.Injective UUID.string := by
  intro u u' h
  have hdash : ∀ bs, (45 : UInt8) ∉ hexEncode bs := fun bs => notMem_hexEncode (by decide)
  unfold UUID.string at h
  obtain ⟨h₁, h⟩ := append_sep_inj (hdash _) (hdash _) h
  obtain ⟨h₂, h⟩ := append_sep_inj (hdash _) (hdash _) h
  obtain ⟨h₃, h⟩ := append_sep_inj (hdash _) (hdash _) h
  obtain ⟨h₄, h₅⟩ := append_sep_inj (hdash _) (hdash _) h
  have hbytes : u.bytes = u'.bytes := by
    rw [← append_parts u.bytes, ← append_parts u'.bytes, hexEncode_injective h₁,
      hexEncode_injective h₂, hexEncode_injective h₃, hexEncode_injective h₄, hexEncode_injective h₅]
  cases u
  cases u'
  simpa using hbytes

theorem hexEncode_append (bs bs' : List UInt8) :
    hexEncode (bs ++ bs') = hexEncode bs ++ hexEncode bs' := List.flatMap_append

theorem length_hexEncode (bs : List UInt8) : (hexEncode bs).length = 2 * bs.length := by
  simp [hexEncode, List.length_flatMap, mul_comm]

/-- **An identifier reads back.** -/
theorem parseUUID_string (u : UUID) : parseUUID u.string = some u := by
  have hpart : ∀ bs, removeAll 45 (hexEncode bs) = hexEncode bs := by
    intro bs
    refine List.filter_eq_self.mpr fun b hb => bne_iff_ne.mpr ?_
    rintro rfl
    exact notMem_hexEncode (by decide) hb
  have hcleaned : removeAll 45 u.string = hexEncode u.bytes := by
    have hdash : ∀ s t, removeAll 45 (s ++ 45 :: t) = removeAll 45 s ++ removeAll 45 t := by
      simp [removeAll]
    simp only [UUID.string, hdash, hpart, ← hexEncode_append, append_parts]
  have hlength := u.length_eq
  simp only [parseUUID, hcleaned, length_hexEncode, hlength, hexDecode_hexEncode, ne_eq,
    not_true_eq_false, if_false, dite_true]

/-- **A session key names one player at one endpoint.** -/
theorem dynamicSessionKey_injective {uuid uuid' : UUID} {addr addr' : UDPAddr}
    (h : dynamicSessionKey uuid addr = dynamicSessionKey uuid' addr') :
    uuid = uuid' ∧ addr = addr' := by
  have hbar : ∀ u : UUID, (124 : UInt8) ∉ u.string := by
    intro u hb
    have hno : ∀ bs, (124 : UInt8) ∉ hexEncode bs := fun bs => notMem_hexEncode (by decide)
    simp [UUID.string, hno] at hb
  have hsep : go "|" = [124] := by decide
  simp only [dynamicSessionKey, hsep, List.append_assoc, List.singleton_append] at h
  obtain ⟨hu, ha⟩ := append_sep_inj (hbar _) (hbar _) h
  exact ⟨UUID.string_injective hu, UDPAddr.string_injective ha⟩

end Voice

end McRouter
