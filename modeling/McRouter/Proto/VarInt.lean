import McRouter.Errors
import McRouter.Common.Reader
import Mathlib.Tactic.IntervalCases

/-!
# VarInts

`mcproto/varint.go`: the reader, over any `io.ByteReader` and over a
reader without `ReadByte`, and the writer. A read returns the value and
the bytes it took; those bytes are exactly what it consumed
(`readVarInt_consumes`), canonical or not. What the writer writes is read
back (`readVarInt_writeVarInt`).
-/

namespace McRouter

/-- `io.EOF`. -/
def ioEOF : Err := ⟨go "EOF", [.ioEOF]⟩

/-- What `io.ReadAtLeast` makes of an error that comes after some bytes:
`io.EOF` becomes `io.ErrUnexpectedEOF`. -/
def unexpectedEOF (e : Err) : Err :=
  if e = ioEOF then ⟨go "unexpected EOF", [.ioUnexpectedEOF]⟩ else e

/-- A client connection's read side. -/
abbrev Conn := Source Err

/-- `net.Conn` as a reader. -/
def connReader : Reader Conn Err := Source.reader unexpectedEOF

/-- `bytes.NewReader`. -/
def newBytesReader (payload : GoString) : Bytes Err := ⟨payload, ioEOF⟩

/-- `bytes.Reader` as a reader. -/
def bytesReader : Reader (Bytes Err) Err := Bytes.reader unexpectedEOF

namespace Proto

open ReadM

variable {σ : Type}

/-- `MaxVarIntBytes`. -/
def maxVarIntBytes : ℕ := 5

/-- `ErrVarIntTooLong`. -/
def errVarIntTooLong : Err := ⟨go "varint is too long", [.varIntTooLong]⟩

/-- `int32(b&0x7f) << (7 * i)`. -/
def varIntGroup (b : UInt8) (i : ℕ) : Int32 :=
  (b &&& 0x7f).toUInt32.toInt32 <<< Int32.ofNat (7 * i)

/-- The loop of `ReadVarInt` at index `i`, with `fuel` rounds to go: the
value and the bytes so far. A failure returns the bytes as well. -/
def readVarIntLoop (r : Reader σ Err) : (fuel i : ℕ) → (value : Int32) → (raw : GoString) →
    ReadM σ (GoString × Err) (Int32 × GoString)
  | 0, _, _, raw => fail (raw, errVarIntTooLong)
  | fuel + 1, i, value, raw => do
    let b ← mapErr (fun e => (raw, e)) r.readByte
    if b &&& 0x80 = 0 then pure (value ||| varIntGroup b i, raw ++ [b])
    else readVarIntLoop r fuel (i + 1) (value ||| varIntGroup b i) (raw ++ [b])

/-- `ReadVarInt`. -/
def readVarInt (r : Reader σ Err) : ReadM σ (GoString × Err) (Int32 × GoString) :=
  readVarIntLoop r maxVarIntBytes 0 0 []

/-- `readVarIntFromReader`. Which of the two readers is used, the reader's
own `ReadByte` or `byteReader`, is in `r`. -/
def readVarIntFromReader (r : Reader σ Err) : ReadM σ (GoString × Err) (Int32 × GoString) :=
  mapErr (fun p => (p.1, p.2.prefixed (go "read varint"))) (readVarInt r)

/-- The loop of `WriteVarInt`; `fuel` rounds are enough when the value has
at most `7 * fuel` bits. -/
def writeVarIntLoop : (fuel : ℕ) → (value : UInt32) → GoString
  | 0, _ => []
  | fuel + 1, value =>
    let temp := (value &&& 0x7f).toUInt8
    let value := value >>> 7
    if value = 0 then [temp] else (temp ||| 0x80) :: writeVarIntLoop fuel value

/-- `WriteVarInt`. -/
def writeVarInt (value : Int32) : GoString := writeVarIntLoop maxVarIntBytes value.toUInt32

/-! ## What is read is what was there -/

section Sim

variable {r : Reader σ Err} {view : σ → Bytes Err}

theorem sim_readVarIntLoop (h : r.Simulates unexpectedEOF view) :
    ∀ (fuel i : ℕ) (value : Int32) (raw : GoString),
      Sim view (readVarIntLoop r fuel i value raw) (readVarIntLoop bytesReader fuel i value raw) := by
  intro fuel
  induction fuel with
  | zero => intro i value raw; exact Sim.fail _
  | succ fuel ih =>
    intro i value raw
    exact Sim.bind (Sim.mapErr _ h.readByte) fun b => Sim.ite (Sim.pure _) (ih _ _ _)

theorem sim_readVarIntFromReader (h : r.Simulates unexpectedEOF view) :
    Sim view (readVarIntFromReader r) (readVarIntFromReader bytesReader) :=
  Sim.mapErr _ (sim_readVarIntLoop h _ _ _ _)

end Sim

/-- `bytes` are the groups of a VarInt from index `i` on: they take `value`,
collected so far, to `v`. -/
inductive Groups : ℕ → Int32 → Int32 → GoString → Prop
  | last {i : ℕ} {value : Int32} {b : UInt8} (hb : b &&& 0x80 = 0) :
      Groups i value (value ||| varIntGroup b i) [b]
  | more {i : ℕ} {value v : Int32} {b : UInt8} {bytes : GoString} (hb : b &&& 0x80 ≠ 0)
      (hbytes : Groups (i + 1) (value ||| varIntGroup b i) v bytes) : Groups i value v (b :: bytes)

/-- The loop takes groups, as many as it has rounds at most, and adds them
to the bytes so far. -/
theorem readVarIntLoop_ok : ∀ {fuel i : ℕ} {value v : Int32} {raw raw' : GoString}
    {s s' : Bytes Err}, readVarIntLoop bytesReader fuel i value raw s = (.ok (v, raw'), s') →
      ∃ got, Groups i value v got ∧ got.length ≤ fuel ∧ raw' = raw ++ got ∧
        s.rest = got ++ s'.rest ∧ s'.atEnd = s.atEnd := by
  intro fuel
  induction fuel with
  | zero => intro i value v raw raw' s s' h; cases h
  | succ fuel ih =>
    intro i value v raw raw' s s' h
    rw [readVarIntLoop] at h
    obtain ⟨b, s₁, hb, h⟩ := bind_eq_ok.mp h
    obtain ⟨hrest, hend⟩ := Bytes.readByte_eq_ok (mapErr_eq_ok.mp hb)
    split at h
    · rename_i hlast
      cases h
      exact ⟨[b], Groups.last hlast, by simp, rfl, by simpa using hrest, hend⟩
    · rename_i hmore
      obtain ⟨got, hgroups, hlen, rfl, hs, he⟩ := ih h
      exact ⟨b :: got, Groups.more hmore hgroups, by simpa using hlen, by simp, by simp [hrest, hs],
        he.trans hend⟩

/-- **The bytes a VarInt read returns are the bytes it consumed.** -/
theorem readVarInt_consumes {v : Int32} {raw : GoString} {s s' : Bytes Err}
    (h : readVarIntFromReader bytesReader s = (.ok (v, raw), s')) :
    s.rest = raw ++ s'.rest ∧ s'.atEnd = s.atEnd := by
  obtain ⟨got, -, -, rfl, hs, he⟩ := readVarIntLoop_ok (mapErr_eq_ok.mp h)
  exact ⟨by simpa using hs, he⟩

/-! ## What is written is read back -/

theorem toNat_and_mask (b : UInt8) : (b &&& 0x7f).toNat = b.toNat % 128 := by
  rw [UInt8.toNat_and]
  exact Nat.and_two_pow_sub_one_eq_mod b.toNat 7

/-- The low seven bits of a number. -/
theorem toNat_low (u : UInt32) : ((u &&& 0x7f).toUInt8).toNat = u.toNat % 128 := by
  have hand : (u &&& 0x7f).toNat = u.toNat % 128 := by
    rw [UInt32.toNat_and]
    exact Nat.and_two_pow_sub_one_eq_mod u.toNat 7
  rw [UInt32.toNat_toUInt8, hand]
  omega

/-- The same with the continuation bit. -/
theorem toNat_low_or (u : UInt32) : ((u &&& 0x7f).toUInt8 ||| 0x80).toNat = u.toNat % 128 + 128 := by
  have hlow := toNat_low u
  rw [UInt8.toNat_or, hlow, Nat.or_comm]
  have hdisjoint := Nat.two_pow_add_eq_or_of_lt (show u.toNat % 128 < 2 ^ 7 by omega) 1
  rw [show (0x80 : UInt8).toNat = 2 ^ 7 * 1 from rfl, ← hdisjoint]
  omega

/-- A number is its low group and the rest of it. -/
theorem low_or_rest (u : BitVec 32) (i : ℕ) :
    (u &&& 0x7f#32) <<< (7 * i) ||| (u >>> 7) <<< (7 * (i + 1)) = u <<< (7 * i) := by
  refine BitVec.eq_of_getLsbD_eq fun k hk => ?_
  have hmask : (0x7f#32).getLsbD (k - 7 * i) = decide (k - 7 * i < 7) := by
    rw [BitVec.getLsbD_ofNat, show 0x7f = 2 ^ 7 - 1 from rfl, Nat.testBit_two_pow_sub_one]
    simp only [Bool.and_eq_right_iff_imp, decide_eq_true_eq]
    omega
  simp only [BitVec.getLsbD_or, BitVec.getLsbD_shiftLeft, BitVec.getLsbD_and,
    BitVec.getLsbD_ushiftRight, hmask]
  by_cases hlow : k < 7 * (i + 1)
  · have h7 : k < 7 * i ∨ k - 7 * i < 7 := by omega
    rcases h7 with h7 | h7 <;> simp [hlow, h7]
  · have hbit : 7 + (k - 7 * (i + 1)) = k - 7 * i := by omega
    have hlow' : ¬ k < 7 * i := by omega
    have h7 : ¬ k - 7 * i < 7 := by omega
    simp [hlow, hlow', h7, hbit]

/-- The group of a byte that holds the low seven bits, with the continuation
bit or without. -/
theorem varIntGroup_low {u : UInt32} {b : UInt8} {i : ℕ} (hi : i < 5)
    (hb : b.toNat % 128 = u.toNat % 128) :
    (varIntGroup b i).toBitVec = (u.toBitVec &&& 0x7f#32) <<< (7 * i) := by
  have hshift : ((Int32.ofNat (7 * i)).toBitVec.smod 32).toNat = 7 * i := by
    interval_cases i <;> decide
  have hlow : (b &&& 0x7f).toUInt32 = u &&& 0x7f := by
    refine UInt32.toNat_inj.mp ?_
    rw [UInt8.toNat_toUInt32, toNat_and_mask, hb, UInt32.toNat_and]
    exact (Nat.and_two_pow_sub_one_eq_mod u.toNat 7).symm
  rw [varIntGroup, Int32.toBitVec_shiftLeft, BitVec.shiftLeft_eq', hshift, hlow]
  rfl

/-- The continuation bit. -/
theorem and_cont_eq_zero (b : UInt8) : b &&& 0x80 = 0 ↔ b.toNat < 128 := by
  refine Strings.forall_byte (P := fun b => b &&& 0x80 = 0 ↔ b.toNat < 128) ?_ b
  decide +kernel

/-- `u << (7 * i)` as an `int32`. -/
def shifted (u : UInt32) (i : ℕ) : Int32 := ⟨⟨u.toBitVec <<< (7 * i)⟩⟩

theorem toNat_shiftRight_seven (u : UInt32) : (u >>> 7).toNat = u.toNat / 128 := by
  rw [UInt32.toNat_shiftRight]
  exact Nat.shiftRight_eq_div_pow u.toNat 7

/-- A group and what is shifted past it. -/
theorem varIntGroup_or_shifted {u : UInt32} {b : UInt8} {i : ℕ} (hi : i < 5)
    (hb : b.toNat % 128 = u.toNat % 128) :
    varIntGroup b i ||| shifted (u >>> 7) (i + 1) = shifted u i := by
  refine Int32.toBitVec_inj.mp ?_
  rw [Int32.toBitVec_or, varIntGroup_low hi hb]
  exact low_or_rest u.toBitVec i

/-- The last byte of the writer. -/
theorem groups_last {fuel i : ℕ} {u : UInt32} (hi : i < 5) (value : Int32) (hrest : u >>> 7 = 0) :
    Groups i value (value ||| shifted u i) (writeVarIntLoop (fuel + 1) u) := by
  have hlow := toNat_low u
  have hlow' : (u &&& 0x7f).toUInt8.toNat % 128 = u.toNat % 128 := by omega
  have hgroup := varIntGroup_or_shifted hi hlow'
  have hzero : shifted (u >>> 7) (i + 1) = 0 := by
    rw [hrest]
    exact Int32.toBitVec_inj.mp (BitVec.zero_shiftLeft (7 * (i + 1)))
  rw [writeVarIntLoop, if_pos hrest, ← hgroup, hzero, Int32.or_zero]
  exact Groups.last ((and_cont_eq_zero _).mpr (by omega))

/-- The bytes of the writer are groups that add the number to what is
collected. -/
theorem groups_write : ∀ (fuel i : ℕ) (u : UInt32) (value : Int32), i + fuel = 4 →
    u.toNat < 2 ^ (32 - 7 * i) →
    Groups i value (value ||| shifted u i) (writeVarIntLoop (fuel + 1) u) := by
  intro fuel
  induction fuel with
  | zero =>
    intro i u value hi hu
    obtain rfl : i = 4 := by omega
    have hrest : u >>> 7 = 0 := by
      refine UInt32.toNat_inj.mp ?_
      rw [toNat_shiftRight_seven]
      exact Nat.div_eq_of_lt (by omega)
    exact groups_last (by omega) value hrest
  | succ fuel ih =>
    intro i u value hi hu
    by_cases hrest : u >>> 7 = 0
    · exact groups_last (by omega) value hrest
    have hlow := toNat_low_or u
    have hsmall : (u >>> 7).toNat < 2 ^ (32 - 7 * (i + 1)) := by
      rw [toNat_shiftRight_seven, Nat.div_lt_iff_lt_mul (by omega)]
      rwa [show 32 - 7 * i = 32 - 7 * (i + 1) + 7 by omega, Nat.pow_add] at hu
    rw [writeVarIntLoop, if_neg hrest]
    refine Groups.more (fun hzero => ?_) ?_
    · have := (and_cont_eq_zero _).mp hzero
      omega
    · have hgroups := ih (i + 1) (u >>> 7) (value ||| varIntGroup ((u &&& 0x7f).toUInt8 ||| 0x80) i)
        (by omega) hsmall
      rwa [Int32.or_assoc, varIntGroup_or_shifted (by omega) (by omega)] at hgroups

/-- A round of the loop. -/
theorem readVarIntLoop_cons (fuel i : ℕ) (value : Int32) (raw : GoString) (b : UInt8) (t : GoString)
    (e : Err) : readVarIntLoop bytesReader (fuel + 1) i value raw ⟨b :: t, e⟩ =
      if b &&& 0x80 = 0 then (.ok (value ||| varIntGroup b i, raw ++ [b]), ⟨t, e⟩)
      else readVarIntLoop bytesReader fuel (i + 1) (value ||| varIntGroup b i) (raw ++ [b]) ⟨t, e⟩ := by
  have hbyte : mapErr (fun e => (raw, e)) bytesReader.readByte ⟨b :: t, e⟩ = (.ok b, ⟨t, e⟩) := rfl
  rw [readVarIntLoop]
  refine (bind_of_ok hbyte).trans ?_
  split_ifs <;> rfl

/-- Reading groups, with enough rounds to go. -/
theorem readVarIntLoop_groups {i : ℕ} {value v : Int32} {bytes : GoString}
    (h : Groups i value v bytes) : ∀ (fuel : ℕ) (raw rest : GoString) (e : Err),
      bytes.length ≤ fuel → readVarIntLoop bytesReader fuel i value raw ⟨bytes ++ rest, e⟩ =
        (.ok (v, raw ++ bytes), ⟨rest, e⟩) := by
  induction h with
  | last hb =>
    intro fuel raw rest e hfuel
    cases fuel with
    | zero => cases hfuel
    | succ fuel => rw [List.singleton_append, readVarIntLoop_cons, if_pos hb]
  | more hb _ ih =>
    intro fuel raw rest e hfuel
    cases fuel with
    | zero => cases hfuel
    | succ fuel =>
      rw [List.cons_append, readVarIntLoop_cons, if_neg hb, ih fuel _ rest e (by simpa using hfuel)]
      simp

theorem length_writeVarIntLoop_le : ∀ (fuel : ℕ) (u : UInt32),
    (writeVarIntLoop fuel u).length ≤ fuel := by
  intro fuel
  induction fuel with
  | zero =>
    intro u
    exact le_rfl
  | succ fuel ih =>
    intro u
    rw [writeVarIntLoop]
    split
    · simp
    · simpa using ih (u >>> 7)

/-- The bytes of a VarInt are its groups. -/
theorem groups_writeVarInt (v : Int32) : Groups 0 0 v (writeVarInt v) := by
  have h := groups_write 4 0 v.toUInt32 0 rfl v.toUInt32.toNat_lt
  have hv : 0 ||| shifted v.toUInt32 0 = v := by
    refine Int32.toBitVec_inj.mp ?_
    simp [shifted]
  rwa [hv] at h

/-- **What `WriteVarInt` writes is read back.** -/
theorem readVarInt_writeVarInt (v : Int32) (rest : GoString) (e : Err) :
    readVarIntFromReader bytesReader ⟨writeVarInt v ++ rest, e⟩ =
      (.ok (v, writeVarInt v), ⟨rest, e⟩) :=
  mapErr_eq_ok.mpr
    (readVarIntLoop_groups (groups_writeVarInt v) maxVarIntBytes [] rest e
      (length_writeVarIntLoop_le maxVarIntBytes v.toUInt32))

/-- A VarInt has one byte or more. -/
theorem length_writeVarInt_pos (v : Int32) : 0 < (writeVarInt v).length := by
  rw [writeVarInt, maxVarIntBytes, writeVarIntLoop]
  split <;> simp

theorem length_writeVarInt_le (v : Int32) : (writeVarInt v).length ≤ 5 :=
  length_writeVarIntLoop_le maxVarIntBytes v.toUInt32

/-- From 128 on it has two or more. -/
theorem two_le_length_writeVarInt {v : Int32} (hv : 128 ≤ v.toUInt32.toNat) :
    2 ≤ (writeVarInt v).length := by
  have hrest : v.toUInt32 >>> 7 ≠ 0 := by
    intro hzero
    have h := toNat_shiftRight_seven v.toUInt32
    rw [hzero, UInt32.toNat_zero] at h
    omega
  rw [writeVarInt, maxVarIntBytes, writeVarIntLoop, if_neg hrest, writeVarIntLoop]
  split <;> simp

/-- Below `2 ^ 14` it has two at most. -/
theorem length_writeVarInt_le_two {v : Int32} (hv : v.toUInt32.toNat < 2 ^ 14) :
    (writeVarInt v).length ≤ 2 := by
  have hrest : v.toUInt32 >>> 7 >>> 7 = 0 := by
    refine UInt32.toNat_inj.mp ?_
    rw [toNat_shiftRight_seven, toNat_shiftRight_seven, UInt32.toNat_zero]
    omega
  rw [writeVarInt, maxVarIntBytes, writeVarIntLoop]
  split
  · simp
  · rw [writeVarIntLoop, if_pos hrest]
    simp

end Proto

end McRouter
