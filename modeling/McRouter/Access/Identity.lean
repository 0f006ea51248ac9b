import McRouter.Access.ProxyHeader
import McRouter.Access.ClientPolicy
import McRouter.Access.RateLimit

/-!
# Whose connection it is

A PROXY header names the client that the policy and the rate limiter
decide about. The same IPv6 address can be named by a header of either
version, and both should give the same client. `readV1` unmaps the address
it parsed and keeps a zone; `readV2` does neither. So **the two versions
agree on an address exactly when it is not IPv4-mapped**, and what `Read`
returns is of the form the policy's prefixes are matched with exactly when
it comes neither from a mapped address of a v2 header nor from a zoned text
of a v1 header (`source_identity_iff`).
-/

namespace McRouter

namespace ProxyProtocol

open ReadM Strings Netip

/-! ## Headers -/

/-- A v1 header: one line of six fields. -/
structure V1Header where
  family : GoString
  source : GoString
  dest : GoString
  sourcePort : GoString
  destPort : GoString

namespace V1Header

variable (h : V1Header)

/-- The fields of the line. -/
def fields : List GoString := [go "PROXY", h.family, h.source, h.dest, h.sourcePort, h.destPort]

/-- The line without its end. -/
def line : GoString := [32].intercalate h.fields

/-- The header as it is sent. -/
def bytes : GoString := h.line ++ [13, 10]

/-- The fields hold no blank and no carriage return, and the line is not too
long. -/
structure WellFormed : Prop where
  plain : ∀ field ∈ h.fields, 32 ∉ field ∧ 13 ∉ field
  short : h.bytes.length ≤ maxV1

end V1Header

/-- A v2 header: the signature, the version and command, the family and the
payload with its length. -/
structure V2Header where
  family : UInt8
  payload : GoString

/-- The header as it is sent. -/
def V2Header.bytes (h : V2Header) : GoString :=
  v2sig ++ [0x21, h.family, UInt8.ofNat (h.payload.length / 256), UInt8.ofNat (h.payload.length % 256)]
    ++ h.payload

/-- The payload holds two addresses with their ports, and is not too long. -/
structure V2Header.WellFormed (h : V2Header) : Prop where
  long : 36 ≤ h.payload.length
  short : h.payload.length ≤ maxV2

/-- **A v1 header with an IPv6 source** is the code of that source, unmapped. -/
theorem V1Header.headerCode {h : V1Header} (hwf : h.WellFormed) (hfamily : h.family = go "TCP6")
    {addr : Addr} (hsource : parseAddr h.source = .ok addr) (his6 : addr.is6 = true) :
    HeaderCode h.bytes addr.unmap := by
  have hsplit : split 32 h.line = h.fields :=
    List.splitOn_intercalate 32 (fun l hl => (hwf.plain l hl).1) (List.cons_ne_nil _ _)
  have hcr : 13 ∉ h.line := by
    intro hm
    rcases mem_of_mem_split 32 hm with h13 | ⟨field, hf, h13⟩
    · cases h13
    · rw [hsplit] at hf
      exact (hwf.plain field hf).2 h13
  refine .v1 hsplit (Or.inr ⟨hfamily, his6⟩) hsource (unbroken_snoc.mpr ⟨?_, ?_⟩) hwf.short
  · -- the last byte is the CR
    rw [Bool.eq_false_iff]
    intro hends
    obtain ⟨body, hbody⟩ := endsCRLF_iff.mp hends
    have hlast := congrArg List.getLast? hbody
    simp at hlast
  · intro hcrlf
    exact hcr (hcrlf.subset (by simp))

/-- **A v2 header with an IPv6 source** is the code of that source. -/
theorem V2Header.headerCode {h : V2Header} (hwf : h.WellFormed) (hfamily : h.family = 0x21) :
    HeaderCode h.bytes (addrFrom16 (h.payload.take 16)) := by
  have hshort := hwf.short
  have hmax : maxV2 = 512 := rfl
  refine .v2 ?_ hshort (Or.inr ⟨hfamily, hwf.long, rfl⟩)
  rw [UInt8.toNat_ofNat', UInt8.toNat_ofNat']
  omega

/-! ## The form of the address -/

/-- The address is neither IPv4-mapped nor zoned: the form that
`Prefix.contains` matches with the prefix of its own family. -/
def Plain : Addr → Prop
  | .v6 a z => Addr.mapped a = false ∧ z = []
  | _ => True

/-- The stream starts with a v1 line whose source has a zone, and is not
IPv4-mapped (`Unmap` drops the zone of a mapped one). -/
def ZonedV1 (stream : GoString) : Prop :=
  stream.head? = some 80 ∧
    ∃ source a z, (split 32 stream)[2]? = some source ∧ parseAddr source = .ok (.v6 a z) ∧
      Addr.mapped a = false ∧ z ≠ []

/-- The stream starts with a v2 header whose IPv6 source is IPv4-mapped. -/
def MappedV2 (stream : GoString) : Prop :=
  stream.head? ≠ some 80 ∧ stream.getD 13 0 = 0x21 ∧
    Addr.mapped (BitVec.ofNat 128 (ofBytes ((stream.drop 16).take 16))) = true

/-- `Unmap` leaves no mapped address, and a zone only on an address that was
not mapped. -/
theorem plain_unmap (addr : Addr) :
    Plain addr.unmap ↔ ¬ ∃ a z, addr = .v6 a z ∧ Addr.mapped a = false ∧ z ≠ [] := by
  cases addr with
  | zero => simp [Addr.unmap, Plain]
  | v4 a => simp [Addr.unmap, Plain]
  | v6 a z => cases hm : Addr.mapped a <;> simp [Addr.unmap, Plain, hm]

/-- **An address that was read is plain unless the header is one of the
two.** -/
theorem plain_of_read {s s' : Bytes Err} {addr : Addr} (h : read bytesReader s = (.ok addr, s')) :
    Plain addr ↔ ¬ ZonedV1 s.rest ∧ ¬ MappedV2 s.rest := by
  obtain ⟨word, hcode, rfl⟩ := (reads_header s addr s').mp h
  generalize s'.rest = rest
  cases hcode with
  | @v1 text family source dest sourcePort destPort a htext hfamily hsource hfirst hlen =>
    -- the third field of the line is the third of the stream
    have hhead : (text ++ [13, 10] ++ rest).head? = some 80 := by
      obtain ⟨t, rfl⟩ := eq_cons_of_split htext
      rfl
    have hstream : (split 32 (text ++ [13, 10] ++ rest))[2]? = some source := by
      rw [List.append_assoc, split_append_getElem? 32 _ _ (by simp [htext]), htext]
      rfl
    have hzoned : ZonedV1 (text ++ [13, 10] ++ rest) ↔
        ∃ x z, a = .v6 x z ∧ Addr.mapped x = false ∧ z ≠ [] := by
      constructor
      · rintro ⟨-, source', x, z, hsource', hx, hm, hz⟩
        rw [hstream] at hsource'
        cases hsource'
        rw [hsource] at hx
        cases hx
        exact ⟨x, z, rfl, hm, hz⟩
      · rintro ⟨x, z, rfl, hm, hz⟩
        exact ⟨hhead, source, x, z, hstream, hsource, hm, hz⟩
    have hmapped : ¬ MappedV2 (text ++ [13, 10] ++ rest) := fun hv2 => hv2.1 hhead
    rw [plain_unmap, hzoned]
    exact ⟨fun hno => ⟨hno, hmapped⟩, And.left⟩
  | @v2 family high low payload _ hpayload hlen hsource =>
    have hhead : (v2sig ++ [0x21, family, high, low] ++ payload ++ rest).head? ≠ some 80 := by
      simp [v2sig]
    have hzoned : ¬ ZonedV1 (v2sig ++ [0x21, family, high, low] ++ payload ++ rest) :=
      fun hv1 => hhead hv1.1
    have hbyte : (v2sig ++ [0x21, family, high, low] ++ payload ++ rest).getD 13 0 = family := rfl
    rcases hsource with ⟨rfl, -, rfl⟩ | ⟨rfl, hlong, rfl⟩
    · refine ⟨fun _ => ⟨hzoned, fun hv2 => ?_⟩, fun _ => trivial⟩
      have h21 := hv2.2.1
      rw [hbyte] at h21
      cases h21
    · have hdrop : ((v2sig ++ [0x21, 0x21, high, low] ++ payload ++ rest).drop 16).take 16 =
          payload.take 16 := by
        show (payload ++ rest).take 16 = _
        rw [List.take_append_of_le_length (by omega)]
      have hv2 : MappedV2 (v2sig ++ [0x21, 0x21, high, low] ++ payload ++ rest) ↔
          Addr.mapped (BitVec.ofNat 128 (ofBytes (payload.take 16))) = true := by
        rw [MappedV2, hbyte, hdrop]
        simp only [ne_eq, hhead, not_false_eq_true, true_and]
      rw [hv2, and_iff_right hzoned]
      simp [addrFrom16, Plain]

/-! ## One client, two headers -/

/-- The limiter unmaps what it is given: it counts both forms of an address
as one client. -/
theorem allow_unmap (l : RateLimit.Limiter) (addr : Addr) (now : ℤ) :
    RateLimit.allow l addr.unmap now = RateLimit.allow l addr now := by
  rw [RateLimit.allow, RateLimit.allow, Addr.isValid_unmap, Addr.unmap_unmap]

/-- A policy that denies one IPv4 address. -/
def denyOne (b : BitVec 32) : ClientPolicy.Policy := ⟨[], [⟨.v4 b, some 32⟩]⟩

/-- **The policy tells the two forms of an IPv4-mapped address apart**: what
denies the IPv4 address lets the IPv6 form pass. -/
theorem denyOne_allows (b : BitVec 32) (a : BitVec 128) :
    (denyOne b).allows (.v4 b) = false ∧ (denyOne b).allows (.v6 a []) = true := by
  simp [denyOne, ClientPolicy.Policy.allows, ClientPolicy.contains, Prefix.contains, Addr.isValid]

/-- The source of a connection's header is that of its bytes. -/
theorem read_conn {c : Conn} {header tail : GoString} (hc : c.view.rest = header ++ tail)
    {addr : Addr} (hcode : HeaderCode header addr) : (read connReader c).1 = .ok addr := by
  have hsim := sim_read (source_simulates unexpectedEOF) c
  have hview : c.view = ⟨header ++ tail, c.view.atEnd⟩ := by rw [← hc]
  have hbytes := (reads_header c.view addr ⟨tail, c.view.atEnd⟩).mpr ⟨header, hcode, hview⟩
  rw [hsim] at hbytes
  exact congrArg Prod.fst hbytes

/-- **Which headers name a client by one address.** A v1 header with the
text of an IPv6 address and a v2 header with the address itself are both
read, the limiter decides alike for the two, and they are the same address,
with the same answer of every policy, exactly when the address is not
IPv4-mapped. And an address that was read is neither mapped nor zoned
exactly when the stream starts neither with a v2 header of a mapped address
nor with a v1 header of a zoned one. -/
theorem source_identity_iff (c₁ c₂ : Conn) :
    (∀ (a : List UInt8) (v1 : V1Header) (v2 : V2Header) (tail₁ tail₂ : GoString),
      a.length = 16 → v1.WellFormed → v1.family = go "TCP6" →
      parseAddr v1.source = .ok (addrFrom16 a) →
      v2.WellFormed → v2.family = 0x21 → v2.payload.take 16 = a →
      c₁.view.rest = v1.bytes ++ tail₁ → c₂.view.rest = v2.bytes ++ tail₂ →
      ∃ x y, (read connReader c₁).1 = .ok x ∧ (read connReader c₂).1 = .ok y ∧
        x = (addrFrom16 a).unmap ∧
        (∀ (l : RateLimit.Limiter) now, RateLimit.allow l x now = RateLimit.allow l y now) ∧
        ((x = y ∧ ∀ p : ClientPolicy.Policy, p.allows x = p.allows y) ↔
          Addr.mapped (BitVec.ofNat 128 (ofBytes a)) = false) ∧
        (Addr.mapped (BitVec.ofNat 128 (ofBytes a)) = true →
          ∃ p : ClientPolicy.Policy, p.allows x = false ∧ p.allows y = true)) ∧
    (∀ (c' : Conn) (addr : Addr), read connReader c₁ = (.ok addr, c') →
      (Plain addr ↔ ¬ ZonedV1 c₁.view.rest ∧ ¬ MappedV2 c₁.view.rest)) := by
  constructor
  · intro a v1 v2 tail₁ tail₂ _ hv1 hfamily hsource hv2 hfamily₂ hpayload hc₁ hc₂
    have hx := V1Header.headerCode hv1 hfamily hsource rfl
    have hy := V2Header.headerCode hv2 hfamily₂
    rw [hpayload] at hy
    refine ⟨_, _, read_conn hc₁ hx, read_conn hc₂ hy, rfl, fun l now => allow_unmap l _ now, ?_, ?_⟩
    · cases hm : Addr.mapped (BitVec.ofNat 128 (ofBytes a)) with
      | false => simp [addrFrom16, Addr.unmap, hm]
      | true => simp [addrFrom16, Addr.unmap, hm]
    · intro hm
      refine ⟨denyOne ((BitVec.ofNat 128 (ofBytes a)).setWidth 32), ?_⟩
      rw [addrFrom16, Addr.unmap, if_pos hm]
      exact denyOne_allows _ _
  · intro c' addr h
    have hsim := sim_read (source_simulates unexpectedEOF) c₁
    rw [show read (Source.reader unexpectedEOF) c₁ = _ from h] at hsim
    exact plain_of_read hsim

/-- A connection that delivers these bytes at once. -/
def connOf (stream : GoString) : Conn := ⟨[stream], ioEOF⟩

/-- A v1 header from `source`. -/
def v1From (source : GoString) : V1Header :=
  ⟨go "TCP6", source, go "::1", go "1024", go "25565"⟩

/-- A v2 header from the address `a`. -/
def v2From (a : List UInt8) : V2Header := ⟨0x21, a ++ List.replicate 20 0⟩

/-- The bytes of `::ffff:10.0.0.1`. -/
def mappedSource : List UInt8 := List.replicate 10 0 ++ [255, 255, 10, 0, 0, 1]

/-- **A denied client comes in by the other header.** The policy denies
`10.0.0.1`. The client is turned away when its proxy sends the v1 header and
let in when it sends the v2 header with the same address. And a v1 header
may name a client with a zone, which no prefix contains. -/
theorem mapped_source_passes :
    (read connReader (connOf (v1From (go "::ffff:10.0.0.1")).bytes)).1 = .ok (.v4 0x0A000001) ∧
    (read connReader (connOf (v2From mappedSource).bytes)).1 =
      .ok (.v6 0xFFFF0A000001 []) ∧
    (∃ p, ClientPolicy.new [] [go "10.0.0.1"] = .ok p ∧ p.allows (.v4 0x0A000001) = false ∧
      p.allows (.v6 0xFFFF0A000001 []) = true) ∧
    (read connReader (connOf (v1From (go "fe80::1%eth0")).bytes)).1 =
      .ok (.v6 0xFE800000000000000000000000000001 (go "eth0")) := by
  refine ⟨by decide +kernel, by decide +kernel, ⟨denyOne 0x0A000001, ?_, ?_⟩, by decide +kernel⟩
  · decide +kernel
  · decide +kernel

/-- A client at `2001:db8::1` is the same by either header. -/
theorem plain_source_agrees :
    ∃ x y, (read connReader (connOf (v1From (go "2001:db8::1")).bytes)).1 = .ok x ∧
      (read connReader (connOf (v2From ([32, 1, 13, 184] ++ List.replicate 11 0 ++ [1])).bytes)).1 =
        .ok y ∧ x = y := by
  obtain ⟨x, y, hx, hy, -, -, hsame, -⟩ := (source_identity_iff
    (connOf (v1From (go "2001:db8::1")).bytes)
    (connOf (v2From ([32, 1, 13, 184] ++ List.replicate 11 0 ++ [1])).bytes)).1
    ([32, 1, 13, 184] ++ List.replicate 11 0 ++ [1]) (v1From (go "2001:db8::1"))
    (v2From ([32, 1, 13, 184] ++ List.replicate 11 0 ++ [1])) [] [] rfl
    ⟨by decide +kernel, by decide +kernel⟩ rfl (by decide +kernel)
    ⟨by decide, by decide⟩ rfl rfl (by decide +kernel) (by decide +kernel)
  exact ⟨x, y, hx, hy, (hsame.mpr (by decide +kernel)).1⟩

end ProxyProtocol

end McRouter
