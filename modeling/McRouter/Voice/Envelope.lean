import McRouter.Proto.Formats
import McRouter.Voice.Packet

/-!
# The envelope of a voice packet

What `ParseClientPacket` accepts, exactly: the magic byte, an identifier, a
VarInt and as many bytes as it says, with nothing left over
(`voice_envelope`). The length field is the sender's, five bytes of it at
most, and may come out negative; whatever it is, no index the code computes
from it is out of range (`parseClientPacketChecked_eq`).
-/

namespace McRouter

namespace Voice

open Proto

/-! ## Indices -/

/-- `a[i:j]`, `none` where Go panics. -/
def slice? (a : GoString) (i j : ℕ) : Option GoString :=
  if i ≤ j ∧ j ≤ a.length then some ((a.drop i).take (j - i)) else none

theorem slice?_of_le {a : GoString} {i j : ℕ} (hij : i ≤ j) (hj : j ≤ a.length) :
    slice? a i j = some ((a.drop i).take (j - i)) := if_pos ⟨hij, hj⟩

/-- A slice to the end. -/
theorem slice?_length {a : GoString} {i : ℕ} (hi : i ≤ a.length) :
    slice? a i a.length = some (a.drop i) := by
  rw [slice?_of_le hi le_rfl, List.take_of_length_le (by rw [List.length_drop])]

/-- `copy(playerUUID[:], bytes)`. -/
def copyUUID (bytes : GoString) : UUID where
  bytes := (bytes ++ List.replicate 16 0).take 16
  length_eq := by simp

/-- The loop of `readVarInt` with the index checked. -/
def readVarIntChecked (data : GoString) : (fuel i : ℕ) → (value : Int32) →
    Option (Except Err (ℤ × ℕ))
  | 0, _, _ => some (.error errInvalidLength)
  | fuel + 1, i, value =>
    if data.length ≤ i then some (.error errTruncatedPacket)
    else do
      let b ← data[i]?
      let value := value ||| varIntGroup b i
      if b &&& 0x80 = 0 then
        if value < 0 then some (.error errInvalidLength) else some (.ok (value.toInt, i + 1))
      else readVarIntChecked data fuel (i + 1) value

/-- `ParseClientPacket` with every index and every slice checked: `none` is
a panic. -/
def parseClientPacketChecked (packet : GoString) : Option (Except Err ClientPacket) :=
  if packet.length < 1 then some (.error errPacketTooShort)
  else do
    let magic ← packet[0]?
    if magic ≠ magicByte then some (.error errInvalidMagic)
    else if packet.length < 1 + 16 + 1 then some (.error errPacketTooShort)
    else do
      let playerUUID ← slice? packet 1 (1 + 16)
      let data ← slice? packet (1 + 16) packet.length
      match ← readVarIntChecked data 5 0 0 with
      | .error err => some (.error err)
      | .ok (payloadLen, varIntLen) =>
        let payloadOffset := 1 + 16 + varIntLen
        if payloadLen < 0 then some (.error errInvalidLength)
        else if (packet.length : ℤ) - payloadOffset < payloadLen then some (.error errTruncatedPacket)
        else if (packet.length : ℤ) - payloadOffset > payloadLen then some (.error errTrailingBytes)
        else do
          let payload ← slice? packet payloadOffset (payloadOffset + payloadLen.toNat)
          some (.ok ⟨copyUUID playerUUID, payload⟩)

theorem readVarIntChecked_loop (data : GoString) : ∀ (fuel i : ℕ) (value : Int32),
    readVarIntChecked data fuel i value =
      some ((readVarIntLoop fuel i value (data.drop i)).map fun p => ((p.1 : ℤ), p.2)) := by
  intro fuel
  induction fuel with
  | zero => intro i value; rfl
  | succ fuel ih =>
    intro i value
    rw [readVarIntChecked]
    by_cases hi : data.length ≤ i
    · rw [if_pos hi, List.drop_of_length_le hi]
      rfl
    · have hlt : i < data.length := by omega
      rw [if_neg hi, List.getElem?_eq_getElem hlt, List.drop_eq_getElem_cons hlt, Option.bind_eq_bind,
        Option.bind_some]
      simp only [readVarIntLoop, ih]
      generalize value ||| varIntGroup data[i] i = value
      split
      · split
        · rfl
        · rename_i hneg
          have hnonneg : 0 ≤ value.toInt := by
            rwa [Int32.lt_iff_toInt_lt, Int32.toInt_zero, not_lt] at hneg
          simp only [Except.map, Int.toNat_of_nonneg hnonneg]
      · rfl

theorem readVarIntChecked_eq (data : GoString) : readVarIntChecked data 5 0 0 =
    some ((readVarInt data).map fun p => ((p.1 : ℤ), p.2)) :=
  readVarIntChecked_loop data 5 0 0

theorem copyUUID_take {body : GoString} (h : ¬ body.length < 17) :
    copyUUID (body.take 16) = ⟨body.take 16, by rw [List.length_take]; omega⟩ := by
  have hlen : (body.take 16).length = 16 := by rw [List.length_take]; omega
  simp only [copyUUID, UUID.mk.injEq]
  rw [List.take_append_of_le_length (by omega), List.take_of_length_le (by omega)]

/-! ## The length field -/

/-- The loop takes groups from the front, as many as it has rounds at most,
and their value is not negative. -/
theorem groups_of_readVarIntLoop : ∀ {fuel i : ℕ} {value : Int32} {data : GoString} {v n : ℕ},
    readVarIntLoop fuel i value data = .ok (v, n) → ∃ bytes rest w, data = bytes ++ rest ∧
      Groups i value w bytes ∧ bytes.length ≤ fuel ∧ w.toInt = (v : ℤ) ∧ n = i + bytes.length := by
  intro fuel
  induction fuel with
  | zero => intro i value data v n h; cases h
  | succ fuel ih =>
    intro i value data v n h
    cases data with
    | nil => cases h
    | cons b data =>
      rw [readVarIntLoop] at h
      split at h
      · rename_i hb
        split at h
        · cases h
        · rename_i hneg
          have hnonneg : 0 ≤ (value ||| varIntGroup b i).toInt := by
            rwa [Int32.lt_iff_toInt_lt, Int32.toInt_zero, not_lt] at hneg
          cases h
          exact ⟨[b], data, _, rfl, Groups.last hb, by simp, by omega, rfl⟩
      · rename_i hb
        obtain ⟨bytes, rest, w, rfl, hgroups, hlen, hv, rfl⟩ := ih h
        refine ⟨b :: bytes, rest, w, rfl, Groups.more hb hgroups, by simpa using hlen, hv, ?_⟩
        rw [List.length_cons]
        omega

/-- And it takes all of them, with enough rounds to go. -/
theorem readVarIntLoop_of_groups {i : ℕ} {value w : Int32} {bytes : GoString}
    (h : Groups i value w bytes) : ∀ {fuel : ℕ} (rest : GoString), bytes.length ≤ fuel →
      readVarIntLoop fuel i value (bytes ++ rest) =
        if w < 0 then .error errInvalidLength else .ok (w.toInt.toNat, i + bytes.length) := by
  induction h with
  | last hb =>
    intro fuel rest hfuel
    cases fuel with
    | zero => cases hfuel
    | succ fuel => rw [List.singleton_append, readVarIntLoop, if_pos hb, List.length_singleton]
  | more hb _ ih =>
    intro fuel rest hfuel
    cases fuel with
    | zero => cases hfuel
    | succ fuel =>
      rw [List.cons_append, readVarIntLoop, if_neg hb, ih rest (by simpa using hfuel),
        List.length_cons, Nat.add_right_comm, Nat.add_assoc]

/-- **The length field is a VarInt** that is not negative. -/
theorem readVarInt_eq_ok {data : GoString} {v n : ℕ} :
    readVarInt data = .ok (v, n) ↔ ∃ length rest w, data = length ++ rest ∧
      VarIntCode length w ∧ w.toInt = (v : ℤ) ∧ n = length.length := by
  constructor
  · intro h
    obtain ⟨length, rest, w, hdata, hgroups, hlen, hw, hn⟩ := groups_of_readVarIntLoop h
    exact ⟨length, rest, w, hdata, groups_iff.mp ⟨hgroups, hlen⟩, hw, by omega⟩
  · rintro ⟨length, rest, w, rfl, hlength, hw, rfl⟩
    obtain ⟨hgroups, hlen⟩ := groups_iff.mpr hlength
    have hread := readVarIntLoop_of_groups hgroups rest hlen
    have hnonneg : ¬ w < 0 := by
      rw [Int32.lt_iff_toInt_lt, Int32.toInt_zero]
      omega
    rwa [if_neg hnonneg, hw, Int.toNat_natCast, Nat.zero_add] at hread

/-! ## The packet -/

/-- **No index is out of range**, and the checks change nothing. -/
theorem parseClientPacketChecked_eq (packet : GoString) :
    parseClientPacketChecked packet = some (parseClientPacket packet) := by
  cases packet with
  | nil => rfl
  | cons magic body =>
    unfold parseClientPacketChecked parseClientPacket
    dsimp only
    have hlen : (magic :: body).length = body.length + 1 := List.length_cons
    rw [if_neg (by omega), List.getElem?_cons_zero, Option.bind_eq_bind, Option.bind_some]
    by_cases hmagic : magic ≠ magicByte
    · rw [if_pos hmagic, if_pos hmagic]
    rw [if_neg hmagic, if_neg hmagic]
    by_cases hshort : body.length < 17
    · rw [if_pos (by omega), dif_pos hshort]
    have huuid : ((magic :: body).drop 1).take (1 + 16 - 1) = body.take 16 := rfl
    have hdata : (magic :: body).drop (1 + 16) = body.drop 16 := rfl
    rw [if_neg (by omega), dif_neg hshort, slice?_of_le (by omega) (by omega),
      slice?_length (by omega), huuid, hdata]
    simp only [Option.bind_eq_bind, Option.bind_some, readVarIntChecked_eq, copyUUID_take hshort]
    cases hread : readVarInt (body.drop 16) with
    | error err => rfl
    | ok p =>
      obtain ⟨payloadLen, varIntLen⟩ := p
      -- the payload starts inside the packet, since the length field is in it
      obtain ⟨length, rest, w, hdata, -, -, rfl⟩ := readVarInt_eq_ok.mp hread
      have hdrop : (body.drop 16).length = body.length - 16 := List.length_drop
      have hpayload : (body.drop (16 + length.length)).length = body.length - (16 + length.length) :=
        List.length_drop
      rw [hdata, List.length_append] at hdrop
      simp only [Except.map]
      rw [if_neg (by omega)]
      by_cases htruncated : (body.drop (16 + length.length)).length < payloadLen
      · rw [if_pos (by omega), if_pos htruncated]
      rw [if_neg (by omega), if_neg htruncated]
      by_cases htrailing : payloadLen < (body.drop (16 + length.length)).length
      · rw [if_pos (by omega), if_pos htrailing]
      have hend : 1 + 16 + length.length + (payloadLen : ℤ).toNat = (magic :: body).length := by
        omega
      rw [if_neg (by omega), if_neg htrailing, hend, slice?_length (by omega), Option.bind_some,
        show 1 + 16 + length.length = (16 + length.length) + 1 by omega, List.drop_succ_cons]

/-- **The envelope**: the magic byte, the identifier, a VarInt that is not
negative and as many bytes as it says. -/
inductive Envelope : Format ClientPacket
  | mk {u : UUID} {length payload : GoString} {n : Int32} (hlength : VarIntCode length n)
      (hnonneg : 0 ≤ n.toInt) (hpayload : (payload.length : ℤ) = n.toInt) :
      Envelope (magicByte :: (u.bytes ++ (length ++ payload))) ⟨u, payload⟩

theorem envelope_of_parse {packet : GoString} {p : ClientPacket}
    (h : parseClientPacket packet = .ok p) : Envelope packet p := by
  unfold parseClientPacket at h
  split at h
  · cases h
  rename_i magic body
  split at h
  · cases h
  rename_i hmagic
  split at h
  · cases h
  rename_i hshort
  split at h
  · cases h
  rename_i payloadLen varIntLen hread
  obtain ⟨length, rest, w, hdata, hlength, hw, rfl⟩ := readVarInt_eq_ok.mp hread
  have hrest : body.drop (16 + length.length) = rest := by
    rw [← List.drop_drop, hdata, List.drop_left]
  simp only [hrest] at h
  split at h
  · cases h
  split at h
  · cases h
  cases h
  obtain rfl : magic = magicByte := not_not.mp hmagic
  have henvelope := Envelope.mk (u := ⟨body.take 16, by rw [List.length_take]; omega⟩)
    hlength (by omega) (by omega : (rest.length : ℤ) = w.toInt)
  rwa [← hdata, List.take_append_drop] at henvelope

theorem parse_of_envelope {packet : GoString} {p : ClientPacket} (h : Envelope packet p) :
    parseClientPacket packet = .ok p := by
  obtain ⟨hlength, hnonneg, hpayload⟩ := h
  rename_i u length payload n
  have hpos : 0 < length.length := List.length_pos_iff.mpr (by rintro rfl; exact hlength.continued)
  have hu := u.length_eq
  have hdrop : (u.bytes ++ (length ++ payload)).drop 16 = length ++ payload := by
    rw [← hu, List.drop_left]
  have hread : readVarInt (length ++ payload) = .ok (payload.length, length.length) :=
    readVarInt_eq_ok.mpr ⟨length, payload, n, rfl, hlength, hpayload.symm, rfl⟩
  have hrest : (u.bytes ++ (length ++ payload)).drop (16 + length.length) = payload := by
    rw [← List.drop_drop, hdrop, List.drop_left]
  have htake : (u.bytes ++ (length ++ payload)).take 16 = u.bytes := by
    rw [← hu, List.take_left]
  unfold parseClientPacket
  simp only [ne_eq, not_true_eq_false, if_false]
  rw [dif_neg (by rw [List.length_append, List.length_append]; omega), hdrop, hread]
  simp only [hrest, lt_irrefl, if_false, htake]

/-- A packet has one identifier and one payload at most. -/
theorem Envelope.unique {packet : GoString} {p p' : ClientPacket} (h : Envelope packet p)
    (h' : Envelope packet p') : p = p' := by
  have hparse := (parse_of_envelope h).symm.trans (parse_of_envelope h')
  exact Except.ok.inj hparse

/-- **Voice packets**: what `ParseClientPacket` accepts and what it returns,
without an index out of range on the way. A packet built around a payload
with the shortest length field is read back. -/
theorem voice_envelope (packet : GoString) :
    parseClientPacketChecked packet = some (parseClientPacket packet) ∧
    (∀ (u : UUID) (e : GoString), parseClientPacket packet = .ok ⟨u, e⟩ ↔
      ∃ length n, packet = magicByte :: (u.bytes ++ (length ++ e)) ∧ VarIntCode length n ∧
        0 ≤ n.toInt ∧ n.toInt = e.length) ∧
    (∀ p p' : ClientPacket, Envelope packet p → Envelope packet p' → p = p') ∧
    (∀ (u : UUID) (e : GoString), e.length < 2 ^ 31 →
      parseClientPacket (magicByte :: (u.bytes ++ (writeVarInt (Int32.ofNat e.length) ++ e))) =
        .ok ⟨u, e⟩ ∧
      ∀ length, VarIntCode length (Int32.ofNat e.length) →
        (writeVarInt (Int32.ofNat e.length)).length ≤ length.length) := by
  refine ⟨parseClientPacketChecked_eq packet, fun u e => ⟨fun h => ?_, ?_⟩,
    fun p p' => Envelope.unique, fun u e he => ⟨parse_of_envelope ?_, fun length hlength => ?_⟩⟩
  · obtain ⟨hlength, hnonneg, hpayload⟩ := envelope_of_parse h
    exact ⟨_, _, rfl, hlength, hnonneg, hpayload.symm⟩
  · rintro ⟨length, n, rfl, hlength, hnonneg, hn⟩
    exact parse_of_envelope (.mk hlength hnonneg hn.symm)
  · have hn : (Int32.ofNat e.length).toInt = e.length := Int32.toInt_ofNat_of_lt he
    exact .mk (varIntCode_writeVarInt _) (by omega) hn.symm
  · exact hlength.length_writeVarInt_le

theorem voice_envelope_three_bytes :
    parseClientPacket (0xff :: (List.replicate 16 7 ++ ([3] ++ [1, 2, 3]))) =
      .ok ⟨⟨List.replicate 16 7, rfl⟩, [1, 2, 3]⟩ :=
  ((voice_envelope []).2.2.2 ⟨List.replicate 16 7, rfl⟩ [1, 2, 3] (by decide)).1

end Voice

end McRouter
