import McRouter.Common.Unicode
import Mathlib.Data.BitVec

/-!
# Addresses

Go's `net/netip` addresses and prefixes, and the `net` functions that
split and join `host:port`. The parsers follow the standard library
statement by statement, since which spellings they accept decides what a
configuration means. A parse error carries the text Go reports.
-/

namespace McRouter

namespace Netip

open Strings

/-- `netip.Addr`: the zero value, an IPv4 address, or an IPv6 address with
its zone. An IPv4-mapped IPv6 address is a `v6`. -/
inductive Addr where
  | zero
  | v4 (a : BitVec 32)
  | v6 (a : BitVec 128) (zone : GoString)
deriving DecidableEq, Repr

namespace Addr

/-- `Addr.IsValid`. -/
def isValid : Addr → Bool
  | zero => false
  | _ => true

/-- `Addr.BitLen`. -/
def bitLen : Addr → ℕ
  | zero => 0
  | v4 _ => 32
  | v6 _ _ => 128

/-- `Addr.Is4`. -/
def is4 : Addr → Bool
  | v4 _ => true
  | _ => false

/-- `Addr.Is6`, which counts the IPv4-mapped addresses. -/
def is6 : Addr → Bool
  | v6 _ _ => true
  | _ => false

/-- `Addr.Zone`. -/
def zone : Addr → GoString
  | v6 _ z => z
  | _ => []

/-- The prefix `::ffff:0:0/96` of the IPv4-mapped addresses. -/
def mapped (a : BitVec 128) : Bool := a.toNat / 2 ^ 32 == 0xFFFF

/-- `Addr.Unmap`: an IPv4-mapped address becomes the IPv4 address, and
loses its zone. -/
def unmap : Addr → Addr
  | v6 a z => if mapped a then v4 (a.setWidth 32) else v6 a z
  | a => a

/-- `Addr.withoutZone`. -/
def withoutZone : Addr → Addr
  | v6 a _ => v6 a []
  | a => a

@[simp] theorem isValid_unmap (a : Addr) : a.unmap.isValid = a.isValid := by
  cases a with
  | zero => rfl
  | v4 a => rfl
  | v6 a z => cases hm : mapped a <;> simp [unmap, isValid, hm]

@[simp] theorem unmap_unmap (a : Addr) : a.unmap.unmap = a.unmap := by
  cases a with
  | zero => rfl
  | v4 a => rfl
  | v6 a z => cases hm : mapped a <;> simp [unmap, hm]

end Addr

/-- The number a list of bytes writes in base 256, most significant byte
first. -/
def ofBytes (bs : List UInt8) : ℕ := bs.foldl (fun acc b => acc * 256 + b.toNat) 0

/-- `netip.AddrFrom4`. -/
def addrFrom4 (bs : List UInt8) : Addr := .v4 (BitVec.ofNat 32 (ofBytes bs))

/-- `netip.AddrFrom16`. -/
def addrFrom16 (bs : List UInt8) : Addr := .v6 (BitVec.ofNat 128 (ofBytes bs)) []

/-- `netip.AddrFromSlice`: four or sixteen bytes. -/
def addrFromSlice (bs : List UInt8) : Option Addr :=
  if bs.length = 4 then some (addrFrom4 bs)
  else if bs.length = 16 then some (addrFrom16 bs)
  else none

/-! ## Parsing -/

/-- A parse failure: what is wrong, and the rest of the text where it was
noticed. -/
structure ParseFailure where
  msg : GoString
  at_ : GoString := []
deriving DecidableEq, Repr

/-- The text Go reports for a failure on `s`. -/
def ParseFailure.text (s : GoString) (f : ParseFailure) : GoString :=
  go "ParseAddr(" ++ Unicode.quote s ++ go "): " ++ f.msg ++
    (if f.at_ = [] then [] else go " (at " ++ Unicode.quote f.at_ ++ go ")")

/-- The value of a hexadecimal digit. -/
def hexVal? (b : UInt8) : Option ℕ :=
  if 48 ≤ b ∧ b ≤ 57 then some (b.toNat - 48)
  else if 97 ≤ b ∧ b ≤ 102 then some (b.toNat - 87)
  else if 65 ≤ b ∧ b ≤ 70 then some (b.toNat - 55)
  else none

/-- `parseIPv4Fields`: the four octets. `digLen` digits of the current
octet have been read, with value `val`; it is zero exactly at the start
and after a dot. -/
def parseIPv4Fields : (val digLen : ℕ) → (fields : List UInt8) → GoString →
    Except ParseFailure (List UInt8)
  | val, _, fields, [] =>
    if fields.length < 3 then .error ⟨go "IPv4 address too short", []⟩
    else .ok (fields ++ [UInt8.ofNat val])
  | val, digLen, fields, c :: t =>
    match digit? c with
    | some d =>
      if digLen = 1 ∧ val = 0 then .error ⟨go "IPv4 field has octet with leading zero", []⟩
      else if 255 < val * 10 + d then .error ⟨go "IPv4 field has value >255", []⟩
      else parseIPv4Fields (val * 10 + d) (digLen + 1) fields t
    | none =>
      if c = 46 then
        if digLen = 0 ∨ t = [] then
          .error ⟨go "IPv4 field must have at least one digit", c :: t⟩
        else if fields.length = 3 then .error ⟨go "IPv4 address too long", []⟩
        else parseIPv4Fields 0 0 (fields ++ [UInt8.ofNat val]) t
      else .error ⟨go "unexpected character", c :: t⟩

/-- The hexadecimal number at the front of `s`, with the number of digits
read and what is left. -/
def hexField (s : GoString) : (off acc : ℕ) → GoString → Except ParseFailure (ℕ × ℕ × GoString)
  | off, acc, [] => .ok (off, acc, [])
  | off, acc, c :: t =>
    match hexVal? c with
    | some d =>
      if 3 < off then .error ⟨go "each group must have 4 or less digits", s⟩
      else if 0xFFFF < acc * 16 + d then .error ⟨go "IPv6 field has value >=2^16", s⟩
      else hexField s (off + 1) (acc * 16 + d) t
    | none => .ok (off, acc, c :: t)

/-- What the loop of `parseIPv6` leaves: the bytes written, the position of
the ellipsis, and the unread text. -/
structure V6State where
  ip : List UInt8
  ellipsis : Option ℕ
  rest : GoString
deriving DecidableEq, Repr

/-- The loop of `parseIPv6`, one 16-bit group a round, `fuel` rounds at
most: the source's `for i < 16` with `i` the number of bytes written. -/
def parseIPv6Loop : (fuel : ℕ) → V6State → Except ParseFailure V6State
  | 0, st => .ok st
  | fuel + 1, st => do
    let s := st.rest
    let (off, acc, after) ← hexField s 0 0 s
    if off = 0 then
      .error ⟨go "each colon-separated field must have at least one digit", s⟩
    else if after.head? = some 46 then
      if st.ellipsis = none ∧ st.ip.length ≠ 12 then
        .error ⟨go "embedded IPv4 address must replace the final 2 fields of the address", s⟩
      else if 16 < st.ip.length + 4 then
        .error ⟨go "too many hex fields to fit an embedded IPv4 at the end of the address", s⟩
      else do
        let octets ← parseIPv4Fields 0 0 [] s
        .ok ⟨st.ip ++ octets, st.ellipsis, []⟩
    else
      let ip := st.ip ++ [UInt8.ofNat (acc / 256), UInt8.ofNat (acc % 256)]
      match after with
      | [] => .ok ⟨ip, st.ellipsis, []⟩
      | 58 :: [] => .error ⟨go "colon must be followed by more characters", after⟩
      | 58 :: 58 :: t =>
        if st.ellipsis ≠ none then .error ⟨go "multiple :: in address", 58 :: t⟩
        else if t = [] then .ok ⟨ip, some ip.length, []⟩
        else parseIPv6Loop fuel ⟨ip, some ip.length, t⟩
      | 58 :: t => parseIPv6Loop fuel ⟨ip, st.ellipsis, t⟩
      | _ => .error ⟨go "unexpected character, want colon", after⟩

/-- Filling the ellipsis with zeros. -/
def expandEllipsis (st : V6State) : Except ParseFailure (List UInt8) :=
  if st.rest ≠ [] then .error ⟨go "trailing garbage after address", st.rest⟩
  else if st.ip.length < 16 then
    match st.ellipsis with
    | none => .error ⟨go "address string too short", []⟩
    | some e => .ok (st.ip.take e ++ List.replicate (16 - st.ip.length) 0 ++ st.ip.drop e)
  else if st.ellipsis ≠ none then
    .error ⟨go "the :: must expand to at least one field of zeros", []⟩
  else .ok st.ip

/-- The sixteen bytes of an IPv6 text without its zone. -/
def parseIPv6Bytes (s : GoString) : Except ParseFailure (List UInt8) :=
  match s with
  | 58 :: 58 :: [] => .ok (List.replicate 16 0)
  | 58 :: 58 :: t => do expandEllipsis (← parseIPv6Loop 8 ⟨[], some 0, t⟩)
  | _ => do expandEllipsis (← parseIPv6Loop 8 ⟨[], none, s⟩)

/-- `parseIPv6`. -/
def parseIPv6 (s : GoString) : Except ParseFailure Addr := do
  let zone := (s.dropWhile (· != 37)).drop 1
  if 37 ∈ s ∧ zone = [] then .error ⟨go "zone must be a non-empty string", []⟩
  else do
    let bytes ← parseIPv6Bytes (cutAt 37 s)
    .ok (.v6 (BitVec.ofNat 128 (ofBytes bytes)) zone)

/-- `netip.ParseAddr`: the first `.`, `:` or `%` decides the family. -/
def parseAddr (s : GoString) : Except ParseFailure Addr :=
  match s.find? (fun c => c == 46 || c == 58 || c == 37) with
  | some 46 => do .ok (addrFrom4 (← parseIPv4Fields 0 0 [] s))
  | some 58 => parseIPv6 s
  | some _ => .error ⟨go "missing IPv6 address", []⟩
  | none => .error ⟨go "unable to parse IP", []⟩

/-- `net.ParseIP(s) != nil`: an address without a zone. -/
def isIP (s : GoString) : Bool :=
  match parseAddr s with
  | .ok a => a.zone == []
  | .error _ => false

/-! ## Prefixes -/

/-- `netip.Prefix`; `bits` is `none` on an invalid one. -/
structure Prefix where
  ip : Addr
  bits : Option ℕ
deriving DecidableEq, Repr

/-- `netip.PrefixFrom`: invalid when the bit count exceeds the width of the
address. -/
def prefixFrom (ip : Addr) (bits : ℕ) : Prefix :=
  ⟨ip.withoutZone, if ip.isValid ∧ bits ≤ ip.bitLen then some bits else none⟩

/-- The address with all but its first `bits` bits cleared. -/
def maskBits {w : ℕ} (a : BitVec w) (bits : ℕ) : BitVec w :=
  BitVec.ofNat w (a.toNat / 2 ^ (w - bits) * 2 ^ (w - bits))

/-- `Prefix.Masked`. -/
def Prefix.masked (p : Prefix) : Prefix :=
  match p.bits, p.ip with
  | some b, .v4 a => prefixFrom (.v4 (maskBits a b)) b
  | some b, .v6 a _ => prefixFrom (.v6 (maskBits a b) []) b
  | _, _ => ⟨.zero, none⟩

/-- `Prefix.Contains`: the same family, no zone, and the same leading
bits. -/
def Prefix.contains (p : Prefix) (ip : Addr) : Bool :=
  match p.bits, p.ip, ip with
  | some b, .v4 a, .v4 c => a.toNat / 2 ^ (32 - b) == c.toNat / 2 ^ (32 - b)
  | some b, .v6 a _, .v6 c z => z == [] && a.toNat / 2 ^ (128 - b) == c.toNat / 2 ^ (128 - b)
  | _, _, _ => false

/-- The last index of a byte. -/
def lastIndexByte (b : UInt8) (s : GoString) : Option ℕ :=
  (s.reverse.idxOf? b).map fun i => s.length - 1 - i

/-- `netip.ParsePrefix`. -/
def parsePrefix (s : GoString) : Except GoString Prefix :=
  let fail (msg : GoString) : Except GoString Prefix :=
    .error (go "netip.ParsePrefix(" ++ Unicode.quote s ++ go "): " ++ msg)
  match lastIndexByte 47 s with
  | none => fail (go "no '/'")
  | some i =>
    match parseAddr (s.take i) with
    | .error f => fail (f.text (s.take i))
    | .ok ip =>
      let bitsStr := s.drop (i + 1)
      if ip.is6 && ip.zone != [] then fail (go "IPv6 zones cannot be present in a prefix")
      else if 1 < bitsStr.length ∧ ¬ (49 ≤ bitsStr.headD 0 ∧ bitsStr.headD 0 ≤ 57) then
        fail (go "bad bits after slash: " ++ Unicode.quote bitsStr)
      else match atoi bitsStr with
        | none => fail (go "bad bits after slash: " ++ Unicode.quote bitsStr)
        | some bits =>
          if bits < 0 ∨ (ip.bitLen : ℤ) < bits then fail (go "prefix length out of range")
          else .ok (prefixFrom ip bits.toNat)

/-! ## Host and port -/

/-- `net.SplitHostPort`. -/
def splitHostPort (hostport : GoString) : Except GoString (GoString × GoString) :=
  let fail (why : GoString) : Except GoString (GoString × GoString) :=
    .error ((if hostport = [] then [] else go "address " ++ hostport ++ go ": ") ++ why)
  match lastIndexByte 58 hostport with
  | none => fail (go "missing port in address")
  | some i =>
    let port := hostport.drop (i + 1)
    if hostport.head? = some 91 then
      match hostport.idxOf? 93 with
      | none => fail (go "missing ']' in address")
      | some e =>
        if e + 1 = hostport.length then fail (go "missing port in address")
        else if e + 1 ≠ i then
          if hostport[e + 1]? = some 58 then fail (go "too many colons in address")
          else fail (go "missing port in address")
        else if 91 ∈ hostport.drop 1 then fail (go "unexpected '[' in address")
        else if 93 ∈ hostport.drop (e + 1) then fail (go "unexpected ']' in address")
        else .ok ((hostport.take e).drop 1, port)
    else if 58 ∈ hostport.take i then fail (go "too many colons in address")
    else if 91 ∈ hostport then fail (go "unexpected '[' in address")
    else if 93 ∈ hostport then fail (go "unexpected ']' in address")
    else .ok (hostport.take i, port)

/-- `net.JoinHostPort`. -/
def joinHostPort (host port : GoString) : GoString :=
  if 58 ∈ host then [91] ++ host ++ [93, 58] ++ port else host ++ [58] ++ port

end Netip

end McRouter
