import McRouter.Availability.Probe
import McRouter.Voice.Envelope

/-!
# One VarInt, three decoders

The gateway decodes VarInts in three places: `ReadVarInt` of the protocol
reads them off a connection, and the status probe and the voice packets
each have a `readVarInt` of their own over the bytes at hand. All of them
read the one format (`VarIntCode`), and what each does when there is no
VarInt in front follows from the two ways that can be
(`readVarInt_bytes`). They differ in what they call the failure and in one
case only: the voice decoder takes no negative number (`decoders_agree`).

The writer's loop has no bound in the source. It ends, after as many rounds
as the number has groups of seven bits (`varInt_codec`).
-/

namespace McRouter

namespace Proto

open ReadM

/-! ## The writer's loop -/

/-- A round of the loop of `WriteVarInt`: the value and the bytes it goes on
with. -/
def writeRound (value : Int32) (out : GoString) : Int32 × GoString :=
  let temp := (value.toUInt32 &&& 0x7f).toUInt8
  let value := (value.toUInt32 >>> 7).toInt32
  (value, out ++ [if value ≠ 0 then temp ||| 0x80 else temp])

/-- The loop of `WriteVarInt`, entered with `value` and `out`, returns
`result`. -/
inductive Writes : Int32 → GoString → GoString → Prop
  | last {value : Int32} {out : GoString} (h : (writeRound value out).1 = 0) :
      Writes value out (writeRound value out).2
  | more {value : Int32} {out result : GoString} (h : (writeRound value out).1 ≠ 0)
      (hrest : Writes (writeRound value out).1 (writeRound value out).2 result) :
      Writes value out result

/-- What the loop returns is determined. -/
theorem Writes.unique {value : Int32} {out result result' : GoString}
    (h : Writes value out result) (h' : Writes value out result') : result = result' := by
  induction h with
  | last hzero =>
    cases h' with
    | last => rfl
    | more hne _ => exact absurd hzero hne
  | more hne _ ih =>
    cases h' with
    | last hzero => exact absurd hzero hne
    | more _ hrest => exact ih hrest

theorem toInt32_eq_zero {u : UInt32} : u.toInt32 = 0 ↔ u = 0 := by
  constructor
  · intro h
    have hbits := congrArg Int32.toUInt32 h
    rwa [UInt32.toUInt32_toInt32] at hbits
  · rintro rfl
    rfl

/-- A round, on the bits. -/
theorem writeRound_toInt32 (u : UInt32) (out : GoString) :
    writeRound u.toInt32 out = ((u >>> 7).toInt32,
      out ++ [if u >>> 7 = 0 then (u &&& 0x7f).toUInt8 else (u &&& 0x7f).toUInt8 ||| 0x80]) := by
  simp only [writeRound, UInt32.toUInt32_toInt32, ne_eq, toInt32_eq_zero, ite_not]

theorem writes_last {u : UInt32} (hrest : u >>> 7 = 0) (fuel : ℕ) (out : GoString) :
    Writes u.toInt32 out (out ++ writeVarIntLoop (fuel + 1) u) := by
  have hround := writeRound_toInt32 u out
  have hlast : Writes u.toInt32 out (writeRound u.toInt32 out).2 := by
    refine Writes.last ?_
    rw [hround]
    exact toInt32_eq_zero.mpr hrest
  rw [hround, if_pos hrest] at hlast
  rwa [writeVarIntLoop, if_pos hrest]

/-- **The loop ends**, within as many rounds as there are groups of seven
bits. -/
theorem writes_loop : ∀ (fuel : ℕ) (u : UInt32) (out : GoString), u.toNat < 128 ^ (fuel + 1) →
    Writes u.toInt32 out (out ++ writeVarIntLoop (fuel + 1) u) := by
  intro fuel
  induction fuel with
  | zero =>
    intro u out hu
    refine writes_last (UInt32.toNat_inj.mp ?_) 0 out
    rw [toNat_shiftRight_seven, UInt32.toNat_zero]
    omega
  | succ fuel ih =>
    intro u out hu
    by_cases hrest : u >>> 7 = 0
    · exact writes_last hrest _ out
    · have hsmall : (u >>> 7).toNat < 128 ^ (fuel + 1) := by
        rw [toNat_shiftRight_seven]
        rw [Nat.pow_succ] at hu
        omega
      have hnext := ih (u >>> 7) (out ++ [(u &&& 0x7f).toUInt8 ||| 0x80]) hsmall
      have hround := writeRound_toInt32 u out
      rw [if_neg hrest] at hround
      rw [writeVarIntLoop, if_neg hrest]
      refine Writes.more ?_ ?_
      · rw [hround]
        exact mt toInt32_eq_zero.mp hrest
      · rw [hround]
        rwa [List.append_assoc, List.singleton_append] at hnext

/-- `WriteVarInt` returns, and only what `writeVarInt` says. -/
theorem writes_iff (v : Int32) (out : GoString) : Writes v [] out ↔ out = writeVarInt v := by
  have hwrites : Writes v [] (writeVarInt v) := writes_loop 4 v.toUInt32 [] (by
    have hlt := v.toUInt32.toNat_lt
    omega)
  constructor
  · intro h
    exact h.unique hwrites
  · rintro rfl
    exact hwrites

/-! ## The shortest encoding -/

/-- Words of one length that stand for one number are the same. -/
theorem eq_of_continued : ∀ {word word' : GoString}, Continued word → Continued word' →
    word.length = word'.length → varIntNat word = varIntNat word' → word = word' := by
  intro word
  induction word with
  | nil => intro word' h; exact h.elim
  | cons b bytes ih =>
    intro word' h h' hlen hnat
    cases word' with
    | nil => exact h'.elim
    | cons b' bytes' =>
      rw [List.length_cons, List.length_cons] at hlen
      rw [varIntNat, varIntNat] at hnat
      have hrest : varIntNat bytes = varIntNat bytes' := by omega
      have hlow : b.toNat % 128 = b'.toNat % 128 := by omega
      have hb := b.toNat_lt
      have hb' := b'.toNat_lt
      cases bytes with
      | nil =>
        obtain rfl : bytes' = [] := List.eq_nil_of_length_eq_zero (by simpa using hlen.symm)
        have hlast : b.toNat < 128 := h
        have hlast' : b'.toNat < 128 := h'
        rw [UInt8.toNat_inj.mp (by omega : b.toNat = b'.toNat)]
      | cons c bytes =>
        cases bytes' with
        | nil => simp at hlen
        | cons c' bytes' =>
          have hmore : 128 ≤ b.toNat := h.1
          have hmore' : 128 ≤ b'.toNat := h'.1
          rw [UInt8.toNat_inj.mp (by omega : b.toNat = b'.toNat), ih h.2 h'.2 (by omega) hrest]

/-- What is written stands for the number itself, not only modulo `2 ^ 32`. -/
theorem varIntNat_writeVarIntLoop : ∀ (fuel : ℕ) (u : UInt32), u.toNat < 128 ^ fuel →
    varIntNat (writeVarIntLoop fuel u) = u.toNat := by
  intro fuel
  induction fuel with
  | zero =>
    intro u hu
    have hzero : u.toNat = 0 := by omega
    exact hzero.symm
  | succ fuel ih =>
    intro u hu
    have hshift := toNat_shiftRight_seven u
    rw [writeVarIntLoop]
    split
    · rename_i hrest
      rw [hrest, UInt32.toNat_zero] at hshift
      have hlow := toNat_low u
      rw [varIntNat, varIntNat]
      omega
    · have hlow := toNat_low_or u
      rw [varIntNat, ih (u >>> 7) (by rw [Nat.pow_succ] at hu; omega)]
      omega

/-- **The writer's word is the shortest** for its number, and the only one
of its length. -/
theorem shortest_writeVarInt (v : Int32) :
    Continued (writeVarInt v) ∧ varIntNat (writeVarInt v) = v.toUInt32.toNat ∧
      ∀ word, Continued word → varIntNat word = v.toUInt32.toNat →
        word = writeVarInt v ∨ (writeVarInt v).length < word.length := by
  have hcode := varIntCode_writeVarInt v
  have hlt := v.toUInt32.toNat_lt
  have hnat : varIntNat (writeVarInt v) = v.toUInt32.toNat :=
    varIntNat_writeVarIntLoop 5 v.toUInt32 (by omega)
  refine ⟨hcode.continued, hnat, fun word hcont hword => ?_⟩
  have hle : (writeVarInt v).length ≤ word.length := by
    cases word with
    | nil => exact hcont.elim
    | cons b bytes =>
      refine length_writeVarIntLoop_of_lt _ _ _ ?_
      rw [← hword]
      exact varIntNat_lt (b :: bytes)
  rcases Nat.lt_or_ge (writeVarInt v).length word.length with hlonger | hshort
  · exact Or.inr hlonger
  · exact Or.inl (eq_of_continued hcont hcode.continued (by omega) (hword.trans hnat.symm))

/-! ## Byte readers -/

section ByteReader

variable {σ : Type}

/-- The reader hands over these bytes, one after another, on its way from
one state to another. -/
inductive Delivers (r : Reader σ Err) : σ → GoString → σ → Prop
  | nil (s : σ) : Delivers r s [] s
  | cons {s s₁ s' : σ} {b : UInt8} {bytes : GoString} (hb : r.readByte s = (.ok b, s₁))
      (hbytes : Delivers r s₁ bytes s') : Delivers r s (b :: bytes) s'

/-- How `ReadVarInt` ends on a reader: with a VarInt, or at its limit, or
where the reader fails. -/
inductive Ends (r : Reader σ Err) (limit : ℕ) (s : σ) (i : ℕ) (value : Int32) (raw : GoString) :
    Except (GoString × Err) (Int32 × GoString) × σ → Prop
  | ok {s' : σ} {bytes : GoString} {v : Int32} (hbytes : Delivers r s bytes s')
      (hgroups : Groups i value v bytes) (hlen : bytes.length ≤ limit) :
      Ends r limit s i value raw (.ok (v, raw ++ bytes), s')
  | tooLong {s' : σ} {bytes : GoString} (hbytes : Delivers r s bytes s')
      (hmore : ∀ b ∈ bytes, b &&& 0x80 ≠ 0) (hlen : bytes.length = limit) :
      Ends r limit s i value raw (.error (raw ++ bytes, errVarIntTooLong), s')
  | failed {s' s'' : σ} {bytes : GoString} {e : Err} (hbytes : Delivers r s bytes s')
      (hmore : ∀ b ∈ bytes, b &&& 0x80 ≠ 0) (hlen : bytes.length < limit)
      (herr : r.readByte s' = (.error e, s'')) :
      Ends r limit s i value raw (.error (raw ++ bytes, e), s'')

/-- One more byte in front that is not the last. -/
theorem Ends.more {r : Reader σ Err} {limit i : ℕ} {s s₁ : σ} {value : Int32} {raw : GoString}
    {b : UInt8} (hread : r.readByte s = (.ok b, s₁)) (hb : b &&& 0x80 ≠ 0)
    {result : Except (GoString × Err) (Int32 × GoString) × σ}
    (h : Ends r limit s₁ (i + 1) (value ||| varIntGroup b i) (raw ++ [b]) result) :
    Ends r (limit + 1) s i value raw result := by
  have hall : ∀ {bytes : GoString}, (∀ c ∈ bytes, c &&& 0x80 ≠ 0) →
      ∀ c ∈ b :: bytes, c &&& 0x80 ≠ 0 := fun hmore => List.forall_mem_cons.mpr ⟨hb, hmore⟩
  cases h with
  | ok hbytes hgroups hlen =>
    rw [List.append_assoc, List.singleton_append]
    exact .ok (.cons hread hbytes) (.more hb hgroups) (by simpa using hlen)
  | tooLong hbytes hmore hlen =>
    rw [List.append_assoc, List.singleton_append]
    exact .tooLong (.cons hread hbytes) (hall hmore) (by simpa using hlen)
  | failed hbytes hmore hlen herr =>
    rw [List.append_assoc, List.singleton_append]
    exact .failed (.cons hread hbytes) (hall hmore) (by simpa using hlen) herr

/-- **How the loop ends**, on any reader. -/
theorem readVarIntLoop_ends (r : Reader σ Err) : ∀ (fuel i : ℕ) (value : Int32) (raw : GoString)
    (s : σ), Ends r fuel s i value raw (readVarIntLoop r fuel i value raw s) := by
  intro fuel
  induction fuel with
  | zero =>
    intro i value raw s
    have hend : Ends r 0 s i value raw (.error (raw ++ [], errVarIntTooLong), s) :=
      .tooLong (.nil s) (by simp) rfl
    rwa [List.append_nil] at hend
  | succ fuel ih =>
    intro i value raw s
    rw [readVarIntLoop]
    rcases hread : r.readByte s with ⟨e | b, s₁⟩
    · have hstop : mapErr (fun e => (raw, e)) r.readByte s = (.error (raw, e), s₁) := by
        rw [mapErr, hread]
        rfl
      rw [bind_of_error hstop]
      have hend : Ends r (fuel + 1) s i value raw (.error (raw ++ [], e), s₁) :=
        .failed (.nil s) (by simp) (Nat.succ_pos fuel) hread
      rwa [List.append_nil] at hend
    · have hgo : mapErr (fun e => (raw, e)) r.readByte s = (.ok b, s₁) := mapErr_eq_ok.mpr hread
      rw [bind_of_ok hgo]
      by_cases hb : b &&& 0x80 = 0
      · rw [if_pos hb]
        exact .ok (.cons hread (.nil s₁)) (.last hb) (by simp)
      · rw [if_neg hb]
        exact (ih (i + 1) _ _ s₁).more hread hb

/-- The bytes `ReadVarInt` returns, whether it succeeds or not. -/
def rawOf : Except (GoString × Err) (Int32 × GoString) → GoString
  | .ok (_, raw) => raw
  | .error (raw, _) => raw

/-- Of two deliveries from one state one is the beginning of the other. -/
theorem Delivers.total {r : Reader σ Err} {s s₁ s₂ : σ} {bytes bytes' : GoString}
    (h : Delivers r s bytes s₁) (h' : Delivers r s bytes' s₂) :
    bytes <+: bytes' ∨ bytes' <+: bytes := by
  induction h generalizing bytes' with
  | nil => exact Or.inl (List.nil_prefix)
  | cons hb _ ih =>
    cases h' with
    | nil => exact Or.inr (List.nil_prefix)
    | cons hb' hbytes' =>
      obtain ⟨hbyte, rfl⟩ := Prod.mk.inj (hb.symm.trans hb')
      obtain rfl := Except.ok.inj hbyte
      simpa only [List.prefix_cons_inj] using ih hbytes'

/-- Where a reader has failed there is no further byte. -/
theorem Delivers.of_error {r : Reader σ Err} {s s₁ s₂ s' : σ} {bytes bytes' : GoString} {e : Err}
    (h : Delivers r s bytes s₁) (herr : r.readByte s₁ = (.error e, s'))
    (h' : Delivers r s bytes' s₂) : bytes' <+: bytes := by
  induction h generalizing bytes' with
  | nil =>
    cases h' with
    | nil => exact List.nil_prefix
    | cons hb' _ =>
      rw [herr] at hb'
      cases hb'
  | cons hb _ ih =>
    cases h' with
    | nil => exact List.nil_prefix
    | cons hb' hbytes' =>
      obtain ⟨hbyte, rfl⟩ := Prod.mk.inj (hb.symm.trans hb')
      obtain rfl := Except.ok.inj hbyte
      rw [List.prefix_cons_inj]
      exact ih herr hbytes'

/-- The last byte of a VarInt is the one without the continuation bit. -/
theorem Groups.concat {i : ℕ} {value v : Int32} {bytes : GoString} (h : Groups i value v bytes) :
    ∃ front b, bytes = front ++ [b] ∧ b &&& 0x80 = 0 := by
  induction h with
  | @last i value b hb => exact ⟨[], b, rfl, hb⟩
  | @more i value v b bytes _ _ ih =>
    obtain ⟨front, c, rfl, hc⟩ := ih
    exact ⟨b :: front, c, rfl, hc⟩

/-- A VarInt that is delivered is read, whatever comes after it. -/
theorem readVarIntLoop_of_delivers {r : Reader σ Err} {i : ℕ} {value v : Int32} {bytes : GoString}
    (h : Groups i value v bytes) : ∀ {fuel : ℕ} {raw : GoString} {s s' : σ}, bytes.length ≤ fuel →
      Delivers r s bytes s' → readVarIntLoop r fuel i value raw s = (.ok (v, raw ++ bytes), s') := by
  have hgo : ∀ {raw : GoString} {s s₁ : σ} {b : UInt8}, r.readByte s = (.ok b, s₁) →
      mapErr (fun e => (raw, e)) r.readByte s = (.ok b, s₁) := mapErr_eq_ok.mpr
  induction h with
  | last hb =>
    intro fuel raw s s' hfuel hbytes
    cases fuel with
    | zero => cases hfuel
    | succ fuel =>
      cases hbytes with
      | cons hread hnil =>
        cases hnil
        rw [readVarIntLoop, bind_of_ok (hgo hread), if_pos hb]
        rfl
  | more hb _ ih =>
    intro fuel raw s s' hfuel hbytes
    cases fuel with
    | zero => cases hfuel
    | succ fuel =>
      cases hbytes with
      | cons hread hrest =>
        rw [readVarIntLoop, bind_of_ok (hgo hread), if_neg hb, ih (by simpa using hfuel) hrest,
          List.append_assoc, List.singleton_append]

/-- Bytes at hand are delivered. -/
theorem delivers_bytes (bytes rest : GoString) (e : Err) :
    Delivers bytesReader ⟨bytes ++ rest, e⟩ bytes ⟨rest, e⟩ := by
  induction bytes with
  | nil => exact .nil _
  | cons b bytes ih => exact .cons rfl ih

/-- Nothing but continuation bytes up to the end: no VarInt is there. -/
theorem Ends.not_delivers {r : Reader σ Err} {limit i : ℕ} {s s' : σ} {value : Int32}
    {raw : GoString} {p : GoString × Err} (h : Ends r limit s i value raw (.error p, s'))
    {front : GoString} {b : UInt8} {s'' : σ} (hfront : front.length < limit)
    (hdelivers : Delivers r s (front ++ [b]) s'') : b &&& 0x80 ≠ 0 := by
  have hmem : ∀ {bytes : GoString}, front ++ [b] <+: bytes → b ∈ bytes := fun hsub =>
    hsub.subset (by simp)
  cases h with
  | tooLong hbytes hmore hlen =>
    rcases hbytes.total hdelivers with hsub | hsub
    · refine hmore b ?_
      rw [hsub.eq_of_length_le (by rw [List.length_append, List.length_singleton]; omega)]
      simp
    · exact hmore b (hmem hsub)
  | failed hbytes hmore hlen herr => exact hmore b (hmem (hbytes.of_error herr hdelivers))

end ByteReader

/-- **VarInts.** `WriteVarInt` returns, with the shortest of the words that
stand for its number modulo `2 ^ 32`, and `ReadVarInt` reads it back off
any reader that delivers it. On every reader `ReadVarInt` takes five bytes
at most, returns the ones it took, and succeeds exactly when one of the
first five has no continuation bit, with the sum of the groups. -/
theorem varInt_codec :
    (∀ v : Int32, (∀ out, Writes v [] out ↔ out = writeVarInt v) ∧
      1 ≤ (writeVarInt v).length ∧ (writeVarInt v).length ≤ 5 ∧
      Continued (writeVarInt v) ∧ varIntNat (writeVarInt v) = v.toUInt32.toNat ∧
      (∀ word, Continued word → varIntNat word = v.toUInt32.toNat →
        word = writeVarInt v ∨ (writeVarInt v).length < word.length) ∧
      (∀ (rest : GoString) (e : Err), readVarInt bytesReader ⟨writeVarInt v ++ rest, e⟩ =
        (.ok (v, writeVarInt v), ⟨rest, e⟩)) ∧
      ∀ (σ : Type) (r : Reader σ Err) (s s' : σ), Delivers r s (writeVarInt v) s' →
        readVarInt r s = (.ok (v, writeVarInt v), s')) ∧
    ∀ (σ : Type) (r : Reader σ Err) (s : σ), ∃ s' : σ,
      -- the bytes it returns are those it took, five at most
      Delivers r s (rawOf (readVarInt r s).1) s' ∧ (rawOf (readVarInt r s).1).length ≤ 5 ∧
      ((readVarInt r s).2 = s' ∨ (rawOf (readVarInt r s).1).length < 5 ∧
        ∃ e, r.readByte s' = (.error e, (readVarInt r s).2)) ∧
      -- when it succeeds, and with which value
      ((∃ v raw, (readVarInt r s).1 = .ok (v, raw)) ↔
        ∃ front b s'', Delivers r s (front ++ [b]) s'' ∧ front.length < 5 ∧ b &&& 0x80 = 0) ∧
      ∀ v raw, (readVarInt r s).1 = .ok (v, raw) → v = Int32.ofNat (varIntNat raw) := by
  refine ⟨fun v => ?_, fun σ r s => ?_⟩
  · obtain ⟨hcont, hnat, hshortest⟩ := shortest_writeVarInt v
    have hread : ∀ (σ : Type) (r : Reader σ Err) (s s' : σ), Delivers r s (writeVarInt v) s' →
        readVarInt r s = (.ok (v, writeVarInt v), s') := fun σ r s s' hbytes =>
      readVarIntLoop_of_delivers (groups_writeVarInt v) (length_writeVarInt_le v) hbytes
    exact ⟨writes_iff v, length_writeVarInt_pos v, length_writeVarInt_le v, hcont, hnat, hshortest,
      fun rest e => hread _ _ _ _ (delivers_bytes (writeVarInt v) rest e), hread⟩
  · have hends : Ends r 5 s 0 0 [] (readVarInt r s) := readVarIntLoop_ends r 5 0 0 [] s
    generalize readVarInt r s = result at hends ⊢
    cases hends with
    | @ok s' bytes v hbytes hgroups hlen =>
      obtain ⟨front, b, hconcat, hb⟩ := hgroups.concat
      have hcode := groups_iff.mp ⟨hgroups, hlen⟩
      refine ⟨s', hbytes, hlen, Or.inl rfl, iff_of_true ⟨v, _, rfl⟩ ?_, ?_⟩
      · rw [hconcat] at hbytes hlen
        rw [List.length_append, List.length_singleton] at hlen
        exact ⟨front, b, s', hbytes, by omega, hb⟩
      · intro v' raw heq
        obtain ⟨rfl, rfl⟩ := Prod.mk.inj (Except.ok.inj heq)
        exact hcode.value
    | @tooLong s' bytes hbytes hmore hlen =>
      refine ⟨s', hbytes, hlen.le, Or.inl rfl, iff_of_false (by simp) ?_, by simp⟩
      rintro ⟨front, b, s'', hdelivers, hfront, hb⟩
      have hend : Ends r 5 s 0 0 [] (.error (bytes, errVarIntTooLong), s') :=
        .tooLong hbytes hmore hlen
      exact hend.not_delivers hfront hdelivers hb
    | @failed s' s'' bytes e hbytes hmore hlen herr =>
      refine ⟨s', hbytes, hlen.le, Or.inr ⟨hlen, e, herr⟩, iff_of_false (by simp) ?_, by simp⟩
      rintro ⟨front, b, _, hdelivers, hfront, hb⟩
      have hend : Ends r 5 s 0 0 [] (.error (bytes, e), s'') := .failed hbytes hmore hlen herr
      exact hend.not_delivers hfront hdelivers hb

end Proto

/-! ## The other two -/

namespace Availability

open Proto

/-- What the monitor takes is the groups of a VarInt. -/
theorem groups_of_readVarIntFrom : ∀ {data : GoString} {i : ℕ} {value v : Int32} {n : ℕ}, i ≤ 5 →
    readVarIntFrom i value data = .ok (v, n) → ∃ word rest, data = word ++ rest ∧
      Groups i value v word ∧ i + word.length ≤ 5 ∧ n = i + word.length := by
  intro data
  induction data with
  | nil => intro i value v n _ h; cases h
  | cons b data ih =>
    intro i value v n hi h
    rw [readVarIntFrom] at h
    split at h
    · cases h
    rename_i hfive
    split at h
    · rename_i hb
      obtain ⟨rfl, rfl⟩ := Prod.mk.inj (Except.ok.inj h)
      exact ⟨[b], data, rfl, Groups.last hb, by rw [List.length_singleton]; omega, rfl⟩
    · rename_i hb
      obtain ⟨word, rest, rfl, hgroups, hlen, rfl⟩ := ih (by omega) h
      refine ⟨b :: word, rest, rfl, Groups.more hb hgroups, ?_, ?_⟩
      · rw [List.length_cons]
        omega
      · rw [List.length_cons]
        omega

/-- **The monitor reads VarInts.** -/
theorem readVarInt_eq_ok {data : GoString} {v : Int32} {n : ℕ} :
    readVarInt data = .ok (v, n) ↔
      ∃ word rest, data = word ++ rest ∧ VarIntCode word v ∧ n = word.length := by
  constructor
  · intro h
    obtain ⟨word, rest, hdata, hgroups, hlen, hn⟩ := groups_of_readVarIntFrom (by omega) h
    rw [Nat.zero_add] at hlen hn
    exact ⟨word, rest, hdata, groups_iff.mp ⟨hgroups, hlen⟩, hn⟩
  · rintro ⟨word, rest, rfl, hcode, rfl⟩
    obtain ⟨hgroups, hlen⟩ := groups_iff.mpr hcode
    have hread := readVarIntFrom_groups hgroups (by rwa [Nat.zero_add]) rest
    rwa [Nat.zero_add] at hread

/-- Continuation bytes are passed over. -/
theorem readVarIntFrom_more : ∀ {bytes : GoString} (i : ℕ) (value : Int32) (rest : GoString),
    (∀ b ∈ bytes, b &&& 0x80 ≠ 0) → i + bytes.length ≤ 5 →
    ∃ value', readVarIntFrom i value (bytes ++ rest) =
      readVarIntFrom (i + bytes.length) value' rest := by
  intro bytes
  induction bytes with
  | nil => intro i value rest _ _; exact ⟨value, rfl⟩
  | cons b bytes ih =>
    intro i value rest hmore hlen
    rw [List.length_cons] at hlen
    obtain ⟨hb, hmore⟩ := List.forall_mem_cons.mp hmore
    obtain ⟨value', hvalue'⟩ := ih (i + 1) (value ||| varIntGroup b i) rest hmore (by omega)
    refine ⟨value', ?_⟩
    rw [List.cons_append, readVarIntFrom, if_neg (by omega), if_neg hb, hvalue', List.length_cons,
      Nat.add_right_comm, Nat.add_assoc]

/-- A number that goes on where the bytes end. -/
theorem readVarInt_truncated {d : GoString} (hmore : ∀ b ∈ d, b &&& 0x80 ≠ 0) (hshort : d.length < 5) :
    readVarInt d = .error ⟨go "truncated varint", []⟩ := by
  obtain ⟨value, hread⟩ := readVarIntFrom_more 0 0 [] hmore (by omega)
  rwa [List.append_nil] at hread

/-- One that goes on after five bytes. -/
theorem readVarInt_tooLong {front : GoString} (hmore : ∀ b ∈ front, b &&& 0x80 ≠ 0)
    (hlen : front.length = 5) (rest : GoString) : ∃ err, readVarInt (front ++ rest) = .error err := by
  obtain ⟨value, hread⟩ := readVarIntFrom_more 0 0 rest hmore (by omega)
  rw [hlen] at hread
  -- with bytes left it is too long, without it is truncated
  cases rest with
  | nil => exact ⟨_, hread⟩
  | cons b rest => exact ⟨_, hread⟩

end Availability

namespace Voice

open Proto

/-- Continuation bytes are passed over. -/
theorem readVarIntLoop_more : ∀ {bytes : GoString} (fuel i : ℕ) (value : Int32) (rest : GoString),
    (∀ b ∈ bytes, b &&& 0x80 ≠ 0) →
    ∃ value', readVarIntLoop (fuel + bytes.length) i value (bytes ++ rest) =
      readVarIntLoop fuel (i + bytes.length) value' rest := by
  intro bytes
  induction bytes with
  | nil => intro fuel i value rest _; exact ⟨value, rfl⟩
  | cons b bytes ih =>
    intro fuel i value rest hmore
    obtain ⟨hb, hmore⟩ := List.forall_mem_cons.mp hmore
    obtain ⟨value', hvalue'⟩ := ih fuel (i + 1) (value ||| varIntGroup b i) rest hmore
    refine ⟨value', ?_⟩
    rw [List.cons_append, List.length_cons, ← Nat.add_assoc, readVarIntLoop, if_neg hb, hvalue',
      Nat.add_right_comm, Nat.add_assoc]

/-- A number that goes on where the bytes end. -/
theorem readVarInt_truncated {d : GoString} (hmore : ∀ b ∈ d, b &&& 0x80 ≠ 0) (hshort : d.length < 5) :
    readVarInt d = .error errTruncatedPacket := by
  obtain ⟨fuel, hfuel⟩ := Nat.exists_eq_add_of_lt hshort
  obtain ⟨value, hread⟩ := readVarIntLoop_more (fuel + 1) 0 0 [] hmore
  rw [List.append_nil, show fuel + 1 + d.length = 5 by omega] at hread
  exact hread

/-- One that goes on after five bytes. -/
theorem readVarInt_tooLong {front : GoString} (hmore : ∀ b ∈ front, b &&& 0x80 ≠ 0)
    (hlen : front.length = 5) (rest : GoString) :
    readVarInt (front ++ rest) = .error errInvalidLength := by
  obtain ⟨value, hread⟩ := readVarIntLoop_more 0 0 0 rest hmore
  rwa [hlen] at hread

end Voice

open Proto ReadM

/-- What a `bytes.Reader` has delivered is gone from its front. -/
theorem bytes_of_delivers {s s' : Bytes Err} {bytes : GoString}
    (h : Delivers bytesReader s bytes s') : s = ⟨bytes ++ s'.rest, s'.atEnd⟩ := by
  induction h with
  | nil s => rfl
  | @cons s s₁ s' b bytes hb _ ih =>
    obtain ⟨hrest, hend⟩ := Bytes.readByte_eq_ok hb
    rw [ih] at hrest hend
    cases s
    exact Bytes.mk.injEq _ _ _ _ ▸ ⟨hrest, hend.symm⟩

/-- How `ReadVarInt` ends on bytes at hand. -/
theorem readVarInt_bytes (d : GoString) :
    (∃ word rest v, d = word ++ rest ∧ VarIntCode word v ∧
      readVarInt bytesReader (newBytesReader d) = (.ok (v, word), newBytesReader rest)) ∨
    (d.length < 5 ∧ (∀ b ∈ d, b &&& 0x80 ≠ 0) ∧
      readVarInt bytesReader (newBytesReader d) = (.error (d, ioEOF), newBytesReader [])) ∨
    (∃ front rest, d = front ++ rest ∧ front.length = 5 ∧ (∀ b ∈ front, b &&& 0x80 ≠ 0) ∧
      readVarInt bytesReader (newBytesReader d) =
        (.error (front, errVarIntTooLong), newBytesReader rest)) := by
  have hends := readVarIntLoop_ends bytesReader 5 0 0 [] (newBytesReader d)
  have hstate : ∀ {bytes : GoString} {s' : Bytes Err},
      Delivers bytesReader (newBytesReader d) bytes s' →
        d = bytes ++ s'.rest ∧ s' = newBytesReader s'.rest := by
    intro bytes s' hbytes
    obtain ⟨hd, hend⟩ := Bytes.mk.inj (bytes_of_delivers hbytes)
    exact ⟨hd, by rw [newBytesReader, hend]⟩
  change Ends bytesReader 5 (newBytesReader d) 0 0 [] (readVarInt bytesReader (newBytesReader d))
    at hends
  generalize readVarInt bytesReader (newBytesReader d) = result at hends ⊢
  cases hends with
  | @ok s' bytes v hbytes hgroups hlen =>
    obtain ⟨hd, hs'⟩ := hstate hbytes
    exact Or.inl ⟨bytes, s'.rest, v, hd, groups_iff.mp ⟨hgroups, hlen⟩, by rw [← hs']; rfl⟩
  | @tooLong s' bytes hbytes hmore hlen =>
    obtain ⟨hd, hs'⟩ := hstate hbytes
    exact Or.inr (Or.inr ⟨bytes, s'.rest, hd, hlen, hmore, by rw [← hs']; rfl⟩)
  | @failed s' s'' bytes e hbytes hmore hlen herr =>
    obtain ⟨hd, hs'⟩ := hstate hbytes
    generalize s'.rest = rest at hd hs'
    subst hs'
    cases rest with
    | nil =>
      rw [List.append_nil] at hd
      subst hd
      obtain ⟨he, rfl⟩ := Prod.mk.inj herr
      obtain rfl := Except.error.inj he
      exact Or.inr (Or.inl ⟨hlen, hmore, rfl⟩)
    | cons b rest => cases herr

/-- **The three decoders agree.** The protocol's and the monitor's succeed
on the same bytes with the same value and length, the voice packets' on
those of them whose value is not negative; where there is no VarInt, all
three fail. -/
theorem decoders_agree (d : GoString) :
    (∀ v n, (∃ raw rest, readVarInt bytesReader (newBytesReader d) =
        (.ok (v, raw), newBytesReader rest) ∧ d = raw ++ rest ∧ raw.length = n) ↔
      Availability.readVarInt d = .ok (v, n)) ∧
    (∀ k n, Voice.readVarInt d = .ok (k, n) ↔
      ∃ v : Int32, Availability.readVarInt d = .ok (v, n) ∧ 0 ≤ v ∧ v.toInt = k) ∧
    (∀ v n, Availability.readVarInt d = .ok (v, n) → v < 0 →
      Voice.readVarInt d = .error Voice.errInvalidLength) ∧
    ((∀ v n, Availability.readVarInt d ≠ .ok (v, n)) →
      d.length < 5 ∧
        readVarInt bytesReader (newBytesReader d) = (.error (d, ioEOF), newBytesReader []) ∧
        Availability.readVarInt d = .error ⟨go "truncated varint", []⟩ ∧
        Voice.readVarInt d = .error Voice.errTruncatedPacket ∨
      5 ≤ d.length ∧
        readVarInt bytesReader (newBytesReader d) =
          (.error (d.take 5, errVarIntTooLong), newBytesReader (d.drop 5)) ∧
        (∃ err, Availability.readVarInt d = .error err) ∧
        Voice.readVarInt d = .error Voice.errInvalidLength) := by
  refine ⟨fun v n => ?_, fun k n => ?_, fun v n hread hneg => ?_, fun hnone => ?_⟩
  · rw [Availability.readVarInt_eq_ok]
    constructor
    · rintro ⟨raw, rest, hread, rfl, rfl⟩
      obtain ⟨word, ⟨rfl, hcode⟩, -⟩ := (reads_varInt _ _ _).mp (mapErr_eq_ok.mpr hread)
      exact ⟨raw, rest, rfl, hcode, rfl⟩
    · rintro ⟨word, rest, rfl, hcode, rfl⟩
      have hread := reads_varInt.append (a := (v, word)) ⟨rfl, hcode⟩ rest ioEOF
      exact ⟨word, rest, mapErr_eq_ok.mp hread, rfl, rfl⟩
  · simp only [Voice.readVarInt_eq_ok, Availability.readVarInt_eq_ok]
    constructor
    · rintro ⟨word, rest, v, rfl, hcode, hv, rfl⟩
      have hnonneg : 0 ≤ v := by
        rw [Int32.le_iff_toInt_le, Int32.toInt_zero]
        omega
      exact ⟨v, ⟨word, rest, rfl, hcode, rfl⟩, hnonneg, hv⟩
    · rintro ⟨v, ⟨word, rest, rfl, hcode, rfl⟩, -, hv⟩
      exact ⟨word, rest, v, rfl, hcode, hv, rfl⟩
  · obtain ⟨word, rest, rfl, hcode, -⟩ := Availability.readVarInt_eq_ok.mp hread
    obtain ⟨hgroups, hlen⟩ := groups_iff.mpr hcode
    have hvoice := Voice.readVarIntLoop_of_groups hgroups rest hlen
    rwa [if_pos hneg] at hvoice
  · rcases readVarInt_bytes d with ⟨word, rest, v, rfl, hcode, -⟩ | ⟨hshort, hmore, hread⟩ |
      ⟨front, rest, rfl, hlen, hmore, hread⟩
    · exact absurd (Availability.readVarInt_eq_ok.mpr ⟨word, rest, rfl, hcode, rfl⟩) (hnone v _)
    · exact Or.inl ⟨hshort, hread, Availability.readVarInt_truncated hmore hshort,
        Voice.readVarInt_truncated hmore hshort⟩
    · have htake : (front ++ rest).take 5 = front := by rw [← hlen, List.take_left]
      have hdrop : (front ++ rest).drop 5 = rest := by rw [← hlen, List.drop_left]
      refine Or.inr ⟨?_, ?_, Availability.readVarInt_tooLong hmore hlen rest,
        Voice.readVarInt_tooLong hmore hlen rest⟩
      · rw [List.length_append]
        omega
      · rw [htake, hdrop]
        exact hread

end McRouter
