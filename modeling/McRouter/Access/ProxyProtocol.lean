import McRouter.Proto.VarInt
import McRouter.Common.Net

/-!
# The PROXY protocol

`internal/proxyprotocol`: the list of trusted peers, and the reader that
takes exactly one header off a connection and returns the source address
it names.
-/

namespace McRouter

namespace ProxyProtocol

open ReadM Strings Unicode Netip

variable {σ : Type}

def maxV1 : ℕ := 108
def maxV2 : ℕ := 512

/-- `v2sig`. -/
def v2sig : GoString := [13, 10, 13, 10, 0, 13, 10, 81, 85, 73, 84, 10]

/-- One entry of `ParseCIDRs`. -/
def parseCIDR (value : GoString) : Except Err Prefix :=
  let value := trimSpace value
  match parseAddr value with
  | .ok addr => .ok (prefixFrom addr.unmap addr.bitLen)
  | .error _ =>
    match parsePrefix value with
    | .ok p => .ok p.masked
    | .error _ => .error ⟨go "invalid trusted proxy " ++ quote value, []⟩

/-- `ParseCIDRs`: the first bad entry is the error. -/
def parseCIDRs (values : List GoString) : Except Err (List Prefix) := values.mapM parseCIDR

/-- `Trusted`. -/
def trusted (prefixes : List Prefix) (addr : Addr) : Bool := prefixes.any (·.contains addr)

/-- The line ends in CR LF. -/
def endsCRLF (line : GoString) : Bool := [13, 10].isSuffixOf line

theorem endsCRLF_iff {line : GoString} : endsCRLF line = true ↔ [13, 10] <:+ line :=
  List.isSuffixOf_iff_suffix

/-- The loop of `readV1`; `fuel` is how far the line is from `maxV1`. -/
def readV1Loop (r : Reader σ Err) : (fuel : ℕ) → (line : GoString) → ReadM σ Err GoString
  | 0, line => pure line
  | fuel + 1, line => do
    let next ← mapErr Prod.snd (r.readFull 1)
    if endsCRLF (line ++ next) then pure (line ++ next) else readV1Loop r fuel (line ++ next)

/-- What `readV1` makes of the line it read. -/
def parseV1 (line : GoString) : Except Err Addr :=
  if !endsCRLF line then .error ⟨go "oversized PROXY v1 header", []⟩
  else match split 32 (line.take (line.length - 2)) with
    | [proxy, family, source, _, _, _] =>
      if proxy ≠ go "PROXY" ∨ (family ≠ go "TCP4" ∧ family ≠ go "TCP6") then
        .error ⟨go "invalid PROXY v1 header", []⟩
      else match parseAddr source with
        | .error _ => .error ⟨go "invalid PROXY v1 source", []⟩
        | .ok addr =>
          if (family = go "TCP4" ∧ !addr.is4) ∨ (family = go "TCP6" ∧ !addr.is6) then
            .error ⟨go "invalid PROXY v1 source", []⟩
          else .ok addr.unmap
    | _ => .error ⟨go "invalid PROXY v1 header", []⟩

/-- `readV1`. -/
def readV1 (r : Reader σ Err) (first : UInt8) : ReadM σ Err Addr := do
  let line ← readV1Loop r (maxV1 - 1) [first]
  ofExcept (parseV1 line)

/-- The announced length of a v2 header, or why the sixteen bytes are not
one. -/
def v2Length (header : GoString) : Except Err ℕ :=
  if header.take 12 ≠ v2sig ∨ header.getD 12 0 ≠ 0x21 then
    .error ⟨go "invalid PROXY v2 header", []⟩
  else
    let length := (header.getD 14 0).toNat * 256 + (header.getD 15 0).toNat
    if maxV2 < length then .error ⟨go "oversized PROXY v2 header", []⟩ else .ok length

/-- The address in a v2 payload, by the family byte. -/
def v2Source (family : UInt8) (payload : GoString) : Except Err Addr :=
  if family = 0x11 then
    if payload.length < 12 then .error ⟨go "short PROXY v2 IPv4 header", []⟩
    else .ok (addrFrom4 (payload.take 4))
  else if family = 0x21 then
    if payload.length < 36 then .error ⟨go "short PROXY v2 IPv6 header", []⟩
    else .ok (addrFrom16 (payload.take 16))
  else .error ⟨go "unsupported PROXY v2 family", []⟩

/-- `readV2`. -/
def readV2 (r : Reader σ Err) (first : UInt8) : ReadM σ Err Addr := do
  let rest ← mapErr Prod.snd (r.readFull 15)
  let header := first :: rest
  let length ← ofExcept (v2Length header)
  let payload ← mapErr Prod.snd (r.readFull length)
  ofExcept (v2Source (header.getD 13 0) payload)

/-- `Read`. -/
def read (r : Reader σ Err) : ReadM σ Err Addr := do
  let first ← mapErr Prod.snd (r.readFull 1)
  if first.headD 0 = 80 then readV1 r (first.headD 0) else readV2 r (first.headD 0)

/-! ## What it takes off the stream -/

section Sim

variable {r : Reader σ Err} {view : σ → Bytes Err}

theorem sim_readV1Loop (h : r.Simulates unexpectedEOF view) : ∀ (fuel : ℕ) (line : GoString),
    Sim view (readV1Loop r fuel line) (readV1Loop bytesReader fuel line) := by
  intro fuel
  induction fuel with
  | zero => intro line; exact Sim.pure _
  | succ fuel ih =>
    intro line
    exact Sim.bind (Sim.mapErr _ (h.readFull 1)) fun next => Sim.ite (Sim.pure _) (ih _)

theorem sim_read (h : r.Simulates unexpectedEOF view) : Sim view (read r) (read bytesReader) := by
  refine Sim.bind (Sim.mapErr _ (h.readFull 1)) fun first => Sim.ite ?_ ?_
  · exact Sim.bind (sim_readV1Loop h _ _) fun line => Sim.ofExcept _
  · refine Sim.bind (Sim.mapErr _ (h.readFull 15)) fun rest => ?_
    refine Sim.bind (Sim.ofExcept _) fun length => ?_
    exact Sim.bind (Sim.mapErr _ (h.readFull _)) fun payload => Sim.ofExcept _

end Sim

theorem consumes_readV1Loop : ∀ (fuel : ℕ) (line : GoString),
    Bytes.Consumes (readV1Loop bytesReader fuel line) := by
  intro fuel
  induction fuel with
  | zero => intro line; exact .pure _
  | succ fuel ih =>
    intro line
    exact .bind (.mapErr _ (.readFull _ _)) fun next => .ite (.pure _) (ih _)

theorem consumes_read : Bytes.Consumes (read bytesReader) := by
  refine .bind (.mapErr _ (.readFull _ _)) fun first => .ite ?_ ?_
  · exact .bind (consumes_readV1Loop _ _) fun line => .ofExcept _
  · refine .bind (.mapErr _ (.readFull _ _)) fun rest => .bind (.ofExcept _) fun length => ?_
    exact .bind (.mapErr _ (.readFull _ _)) fun payload => .ofExcept _

/-- **A header is taken off the front of the stream**, whatever pieces it
arrives in. -/
theorem read_consumes {addr : Addr} {s s' : Conn} (h : read connReader s = (.ok addr, s')) :
    ∃ header, s.view.rest = header ++ s'.view.rest := by
  have hsim := sim_read (source_simulates unexpectedEOF) s
  rw [show read (Source.reader unexpectedEOF) s = _ from h] at hsim
  exact consumes_read _ _ _ hsim

end ProxyProtocol

end McRouter
