import McRouter.Access.ProxyProtocol
import McRouter.Access.ClientPolicy
import McRouter.Access.Identity
import McRouter.Common.NetText
import McRouter.Proxy.Conn
import Mathlib.Data.Set.Basic

/-!
# What the lists of addresses mean

The client policy and the trusted proxies are lists of addresses and
blocks. A peer's address is compared with them in one form only: without a
zone, and an IPv4-mapped address as the IPv4 address it maps. An entry is
compared in the form it was written in.

So **a mapped entry of the client policy never matches anybody**, and a
literal with a zone matches the address without it, which it does not name.
The policy means what it says exactly for peers that are not named by mapped
entries alone and not taken for the address of a zoned one
(`policy_means_iff`); a client that is denied by its mapped address gets in
(`mapped_deny_ineffective`). Of the trusted proxies the mapped literals
become invalid prefixes and the zoned ones never match, and **all is well
exactly without them** (`proxies_trusted_iff`).
-/

namespace McRouter

namespace Netip

open Strings Unicode ProxyProtocol

/-! ## Literals and blocks -/

/-- What `ParseAddr` returns. -/
theorem parseAddr_eq_ok {s : GoString} {a : Addr} (h : parseAddr s = .ok a) :
    (∃ c, a = .v4 c) ∨ ∃ c, a = .v6 c ((s.dropWhile (· != 37)).drop 1) := by
  unfold parseAddr at h
  split at h
  · cases hfields : parseIPv4Fields 0 0 [] s with
    | error f => simp [hfields, bind, Except.bind] at h
    | ok bytes =>
      simp only [hfields, bind, Except.bind, Except.ok.injEq] at h
      exact Or.inl ⟨_, h.symm⟩
  · unfold parseIPv6 at h
    simp only at h
    split at h
    · cases h
    · cases hbytes : parseIPv6Bytes (cutAt 37 s) with
      | error f => simp [hbytes, bind, Except.bind] at h
      | ok bytes =>
        simp only [hbytes, bind, Except.bind, Except.ok.injEq] at h
        exact Or.inr ⟨_, h.symm⟩
  · cases h
  · cases h

theorem isValid_of_parseAddr {s : GoString} {a : Addr} (h : parseAddr s = .ok a) :
    a.isValid = true := by
  rcases parseAddr_eq_ok h with ⟨c, rfl⟩ | ⟨c, rfl⟩ <;> rfl

/-- A zone follows a percent sign. -/
theorem zone_of_parseAddr {s : GoString} {a : Addr} (h : parseAddr s = .ok a) (hs : 37 ∉ s) :
    a.zone = [] := by
  have hall : ∀ b ∈ s, (b != 37) = true := by
    intro b hb
    simp only [bne_iff_ne]
    rintro rfl
    exact hs hb
  have hdrop : s.dropWhile (· != 37) = [] := List.dropWhile_eq_nil_iff.mpr hall
  rcases parseAddr_eq_ok h with ⟨c, rfl⟩ | ⟨c, rfl⟩
  · rfl
  · rw [hdrop]
    rfl

theorem of_lastIndexByte {b : UInt8} {s : GoString} {i : ℕ} (h : lastIndexByte b s = some i) :
    s = s.take i ++ b :: s.drop (i + 1) := by
  obtain ⟨j, hj, rfl⟩ := Option.map_eq_some_iff.mp h
  obtain ⟨hlen, hget, -⟩ := List.idxOf?_eq_some_iff.mp hj
  rw [List.length_reverse] at hlen
  have hlt : s.length - 1 - j < s.length := by omega
  have hb : s[s.length - 1 - j] = b := by
    rw [← hget, List.getElem_reverse]
  conv_lhs => rw [← List.take_append_drop (s.length - 1 - j) s]
  rw [List.drop_eq_getElem_cons hlt, hb]

/-- What `ParsePrefix` accepts. -/
theorem parsePrefix_eq_ok {s : GoString} {p : Prefix} (h : parsePrefix s = .ok p) :
    ∃ i ip n, lastIndexByte 47 s = some i ∧ parseAddr (s.take i) = .ok ip ∧ ip.zone = [] ∧
      atoi (s.drop (i + 1)) = some n ∧ n.toNat ≤ ip.bitLen ∧ p = prefixFrom ip n.toNat := by
  unfold parsePrefix at h
  simp only at h
  cases hi : lastIndexByte 47 s with
  | none => simp [hi] at h
  | some i =>
    simp only [hi] at h
    cases hip : parseAddr (s.take i) with
    | error f => simp [hip] at h
    | ok ip =>
      simp only [hip] at h
      split at h
      · cases h
      rename_i hzone
      split at h
      · cases h
      cases hn : atoi (s.drop (i + 1)) with
      | none => simp [hn] at h
      | some n =>
        simp only [hn] at h
        split at h
        · cases h
        rename_i hrange
        refine ⟨i, ip, n, rfl, hip, ?_, hn, by omega, (Except.ok.inj h).symm⟩
        cases ip with
        | zero => rfl
        | v4 a => rfl
        | v6 a z => simpa [Addr.is6] using hzone

theorem ne_of_isIPByte : ∀ b : UInt8, isIPByte b = true → b ≠ 47 ∧ b ≠ 37 :=
  forall_byte (by decide +kernel)

theorem ne_percent_of_number : ∀ b : UInt8, (digit? b).isSome = true ∨ b = 43 ∨ b = 45 → b ≠ 37 :=
  forall_byte (by decide +kernel)

/-- **No text is both an address and a block.** -/
theorem parseAddr_of_parsePrefix {s : GoString} {p : Prefix} {a : Addr} (hp : parsePrefix s = .ok p)
    (ha : parseAddr s = .ok a) : False := by
  obtain ⟨i, ip, n, hi, hip, hzone, hn, -, -⟩ := parsePrefix_eq_ok hp
  have hs := of_lastIndexByte hi
  have hfront : IPText (s.take i) := (ipText_of_isIP (by simp [isIP, hip, hzone])).1
  have hpercent : (37 : UInt8) ∉ s := by
    intro hmem
    rw [hs] at hmem
    rcases List.mem_append.mp hmem with hmem | hmem
    · exact (ne_of_isIPByte 37 (hfront.1 37 hmem)).2 rfl
    · rcases List.mem_cons.mp hmem with hmem | hmem
      · exact absurd hmem (by decide)
      · exact ne_percent_of_number 37 (bytes_of_atoi hn 37 hmem) rfl
  -- without a zone an address has no slash
  have hwhole : IPText s := (ipText_of_isIP (by simp [isIP, ha, zone_of_parseAddr ha hpercent])).1
  have hslash : (47 : UInt8) ∈ s := by
    rw [hs]
    simp
  exact (ne_of_isIPByte 47 (hwhole.1 47 hslash)).1 rfl

/-! ## The form of a peer's address -/

/-- Of an IPv4-mapped block the IPv4 block. -/
def Prefix.unmap (p : Prefix) : Prefix :=
  match p.bits, p.ip with
  | some b, .v6 a _ => if Addr.mapped a ∧ 96 ≤ b then ⟨.v4 (a.setWidth 32), some (b - 96)⟩ else p
  | _, _ => p

/-- The entry is an address of which the one holds, or a block of which the
other one does. -/
def Written (value : GoString) (literal : Addr → Prop) (block : Prefix → Prop) : Prop :=
  (∃ a, parseAddr (trimSpace value) = .ok a ∧ literal a) ∨
    ∃ p, parsePrefix (trimSpace value) = .ok p ∧ block p

theorem written_literal {value : GoString} {a : Addr} (ha : parseAddr (trimSpace value) = .ok a)
    {literal : Addr → Prop} {block : Prefix → Prop} : Written value literal block ↔ literal a := by
  constructor
  · rintro (⟨a', ha', h⟩ | ⟨p, hp, -⟩)
    · rw [ha] at ha'
      cases ha'
      exact h
    · exact (parseAddr_of_parsePrefix hp ha).elim
  · exact fun h => Or.inl ⟨a, ha, h⟩

theorem written_block {value : GoString} {p : Prefix} (hp : parsePrefix (trimSpace value) = .ok p)
    {literal : Addr → Prop} {block : Prefix → Prop} : Written value literal block ↔ block p := by
  constructor
  · rintro (⟨a, ha, -⟩ | ⟨p', hp', h⟩)
    · exact (parseAddr_of_parsePrefix hp ha).elim
    · rw [hp] at hp'
      cases hp'
      exact h
  · exact fun h => Or.inr ⟨p, hp, h⟩

/-- The addresses an entry names: a literal its address with its zone, a
block what is in it when it is masked, and mapped ones the IPv4 addresses
they map. -/
def denotes (value : GoString) : Set Addr :=
  {x | Written value (fun a => x = a.unmap) fun p => p.masked.unmap.contains x = true}

/-- The entry is written as an IPv4-mapped address or block. -/
def Mapped (value : GoString) : Prop :=
  Written value (fun a => a.unmap ≠ a) fun p => p.masked.unmap ≠ p.masked

/-- What is left of a literal with a zone when the zone is dropped. -/
def unzoned (value : GoString) : Set Addr :=
  {x | Written value (fun a => a.zone ≠ [] ∧ x = a.withoutZone) fun _ => False}

section Peers

variable {x : Addr}

/-- Two addresses with the same first 96 bits are both mapped or neither. -/
theorem mapped_of_div_eq {a c : BitVec 128} {b : ℕ} (hb : 96 ≤ b)
    (h : a.toNat / 2 ^ (128 - b) = c.toNat / 2 ^ (128 - b)) : Addr.mapped a = Addr.mapped c := by
  have hpow : 2 ^ (128 - b) * 2 ^ (32 - (128 - b)) = 2 ^ 32 := by
    rw [← pow_add]
    congr 1
    omega
  unfold Addr.mapped
  rw [← hpow, ← Nat.div_div_eq_div_mul, ← Nat.div_div_eq_div_mul, h]

/-- **A mapped block matches no peer**, and another one what it says. -/
theorem contains_iff_unmap (hx : Plain x) (p : Prefix) :
    p.contains x = true ↔ p.unmap.contains x = true ∧ p.unmap = p := by
  obtain ⟨ip, bits⟩ := p
  cases bits with
  | none => simp [Prefix.contains, Prefix.unmap]
  | some b =>
    cases ip with
    | zero => simp [Prefix.contains, Prefix.unmap]
    | v4 a => simp [Prefix.unmap]
    | v6 a z =>
      by_cases hm : Addr.mapped a = true ∧ 96 ≤ b
      · have hunmap : (Prefix.mk (.v6 a z) (some b)).unmap =
            ⟨.v4 (a.setWidth 32), some (b - 96)⟩ := if_pos hm
        rw [hunmap]
        constructor
        · intro h
          cases x with
          | zero => simp [Prefix.contains] at h
          | v4 c => simp [Prefix.contains] at h
          | v6 c z' =>
            simp only [Prefix.contains, Bool.and_eq_true, beq_iff_eq] at h
            have hmapped := mapped_of_div_eq hm.2 h.2
            rw [hm.1, hx.1] at hmapped
            cases hmapped
        · rintro ⟨-, h⟩
          cases h
      · have hunmap : (Prefix.mk (.v6 a z) (some b)).unmap = ⟨.v6 a z, some b⟩ := if_neg hm
        rw [hunmap]
        simp

theorem prefixFrom_bitLen {a : Addr} (ha : a.isValid = true) :
    prefixFrom a a.bitLen = ⟨a.withoutZone, some a.bitLen⟩ := by
  simp [prefixFrom, ha]

/-- The prefix of an address contains it alone, without its zone. -/
theorem contains_literal (hx : x.isValid = true) {a : Addr} (ha : a.isValid = true) :
    (prefixFrom a a.bitLen).contains x = true ↔ x = a.withoutZone := by
  rw [prefixFrom_bitLen ha, eq_comm (b := a.withoutZone)]
  cases a with
  | zero => cases ha
  | v4 a =>
    cases x with
    | zero => cases hx
    | v4 c => simp [Addr.withoutZone, Addr.bitLen, Prefix.contains, BitVec.toNat_inj]
    | v6 c z => simp [Addr.withoutZone, Prefix.contains]
  | v6 a z =>
    cases x with
    | zero => cases hx
    | v4 c => simp [Addr.withoutZone, Prefix.contains]
    | v6 c z' =>
      simp only [Addr.withoutZone, Addr.bitLen, Prefix.contains, Nat.sub_self, pow_zero, Nat.div_one,
        Bool.and_eq_true, beq_iff_eq, BitVec.toNat_inj, Addr.v6.injEq]
      exact ⟨fun h => ⟨h.2, h.1.symm⟩, fun h => ⟨h.2.symm, h.1⟩⟩

/-- Of a literal and a peer only one is mapped. -/
theorem unmap_of_eq_withoutZone (hx : Plain x) {a : Addr} (h : x = a.withoutZone) :
    a.unmap = a := by
  cases a with
  | zero => rfl
  | v4 a => rfl
  | v6 a z =>
    obtain rfl := h
    exact if_neg (by rw [hx.1]; simp)

theorem withoutZone_eq_self {a : Addr} (h : a.zone = []) : a.withoutZone = a := by
  cases a with
  | zero => rfl
  | v4 a => rfl
  | v6 a z => exact congrArg (Addr.v6 a) h.symm

/-- A peer has no zone of its own. -/
theorem zone_of_plain (hx : Plain x) : x.zone = [] := by
  cases x with
  | zero => rfl
  | v4 c => rfl
  | v6 c z => exact hx.2

/-- **What an entry of the client policy matches**: the peers it names,
unless it is mapped, and of a literal with a zone the address without it. -/
theorem contains_entry (hx : Plain x) (hvalid : x.isValid = true) {value : GoString} {p : Prefix}
    (h : ClientPolicy.parsePrefix value = .ok p) :
    p.contains x = true ↔ (x ∈ denotes value ∧ ¬ Mapped value) ∨ x ∈ unzoned value := by
  unfold ClientPolicy.parsePrefix at h
  simp only at h
  split_ifs at h
  cases hblock : parsePrefix (trimSpace value) with
  | ok q =>
    simp only [hblock, Except.ok.injEq] at h
    rw [← h, contains_iff_unmap hx q.masked, denotes, unzoned, Set.mem_ofPred_eq, Set.mem_ofPred_eq,
      Mapped, written_block hblock, written_block hblock, written_block hblock, not_not, or_false]
  | error why =>
    cases hliteral : parseAddr (trimSpace value) with
    | error f => simp [hblock, hliteral] at h
    | ok a =>
      simp only [hblock, hliteral, Except.ok.injEq] at h
      rw [← h, contains_literal hvalid (isValid_of_parseAddr hliteral), denotes, unzoned,
        Set.mem_ofPred_eq, Set.mem_ofPred_eq, Mapped, written_literal hliteral,
        written_literal hliteral, written_literal hliteral, not_not]
      constructor
      · intro heq
        by_cases hzone : a.zone = []
        · have hunmap := unmap_of_eq_withoutZone hx heq
          rw [withoutZone_eq_self hzone] at heq
          exact Or.inl ⟨heq.trans hunmap.symm, hunmap⟩
        · exact Or.inr ⟨hzone, heq⟩
      · rintro (⟨heq, hunmap⟩ | ⟨-, heq⟩)
        · -- a literal that names a peer has no zone either
          rw [hunmap] at heq
          rw [withoutZone_eq_self (heq ▸ zone_of_plain hx), heq]
        · exact heq

end Peers

/-- The prefixes of a list are those of its entries. -/
theorem parsed_mem {parse : GoString → Except Err Prefix} {values : List GoString}
    {prefixes : List Prefix} (h : List.Forall₂ (fun value p => parse value = .ok p) values prefixes) :
    (∀ value ∈ values, ∃ p ∈ prefixes, parse value = .ok p) ∧
      ∀ p ∈ prefixes, ∃ value ∈ values, parse value = .ok p := by
  induction h with
  | nil => simp
  | cons hp _ ih =>
    obtain ⟨hvalues, hprefixes⟩ := ih
    refine ⟨List.forall_mem_cons.mpr ⟨⟨_, List.mem_cons_self, hp⟩, ?_⟩,
      List.forall_mem_cons.mpr ⟨⟨_, List.mem_cons_self, hp⟩, ?_⟩⟩
    · intro value hmem
      obtain ⟨p, hmem', hp'⟩ := hvalues value hmem
      exact ⟨p, List.mem_cons_of_mem _ hmem', hp'⟩
    · intro p hmem
      obtain ⟨value, hmem', hp'⟩ := hprefixes p hmem
      exact ⟨value, List.mem_cons_of_mem _ hmem', hp'⟩

/-- Some prefix of the list contains the address, if what they contain is what
the entries mean. -/
theorem any_contains_iff {parse : GoString → Except Err Prefix} {values : List GoString}
    {prefixes : List Prefix} (h : List.Forall₂ (fun value p => parse value = .ok p) values prefixes)
    {x : Addr} {means : GoString → Prop}
    (hmeans : ∀ value ∈ values, ∀ p, parse value = .ok p → (p.contains x = true ↔ means value)) :
    prefixes.any (·.contains x) = true ↔ ∃ value ∈ values, means value := by
  rw [List.any_eq_true]
  constructor
  · rintro ⟨p, hmem, hcontains⟩
    obtain ⟨value, hvalue, hp⟩ := (parsed_mem h).2 p hmem
    exact ⟨value, hvalue, (hmeans value hvalue p hp).mp hcontains⟩
  · rintro ⟨value, hvalue, hvm⟩
    obtain ⟨p, hmem, hp⟩ := (parsed_mem h).1 value hvalue
    exact ⟨p, hmem, (hmeans value hvalue p hp).mpr hvm⟩

end Netip

/-! ## The client policy -/

namespace ClientPolicy

open Strings Unicode Netip ProxyProtocol Proxy

theorem parsed_entries {kind : GoString} : ∀ {values : List GoString} {i : ℕ} {prefixes : List Prefix},
    parsePrefixesFrom kind i values = .ok prefixes →
      List.Forall₂ (fun value p => parsePrefix value = .ok p) values prefixes := by
  intro values
  induction values with
  | nil =>
    intro i prefixes h
    cases h
    exact .nil
  | cons value values ih =>
    intro i prefixes h
    unfold parsePrefixesFrom at h
    cases hp : parsePrefix value with
    | error err => simp [hp] at h
    | ok p =>
      cases hrest : parsePrefixesFrom kind (i + 1) values with
      | error err => simp [hp, hrest, bind, Except.bind] at h
      | ok rest =>
        simp only [hp, hrest, bind, Except.bind, pure, Except.pure, Except.ok.injEq] at h
        rw [← h]
        exact .cons hp (ih hrest)

theorem parsed_lists {allow deny : List GoString} {policy : Policy} (h : new allow deny = .ok policy) :
    List.Forall₂ (fun value p => parsePrefix value = .ok p) allow policy.allow ∧
      List.Forall₂ (fun value p => parsePrefix value = .ok p) deny policy.deny := by
  unfold new parsePrefixes at h
  cases hallow : parsePrefixesFrom (go "allow") 0 allow with
  | error err => simp [hallow, bind, Except.bind] at h
  | ok parsedAllow =>
    cases hdeny : parsePrefixesFrom (go "deny") 0 deny with
    | error err => simp [hallow, hdeny, bind, Except.bind] at h
    | ok parsedDeny =>
      simp only [hallow, hdeny, bind, Except.bind, pure, Except.pure, Except.ok.injEq] at h
      rw [← h]
      exact ⟨parsed_entries hallow, parsed_entries hdeny⟩

/-- What a list matches. -/
theorem contains_parsed {x : Addr} (hx : Plain x) (hvalid : x.isValid = true) {values : List GoString}
    {prefixes : List Prefix}
    (h : List.Forall₂ (fun value p => parsePrefix value = .ok p) values prefixes) :
    contains prefixes x = true ↔
      ∃ value ∈ values, (x ∈ denotes value ∧ ¬ Mapped value) ∨ x ∈ unzoned value :=
  any_contains_iff h fun _ _ _ hp => contains_entry hx hvalid hp

/-- A TCP peer's address has the form the lists are compared with. -/
theorem peer_plain {ip text : GoString} {x : Addr} (h : addressFromAddr (.tcp ip text) = .ok x) :
    Plain x ∧ x.isValid = true := by
  unfold addressFromAddr at h
  cases hslice : addrFromSlice ip with
  | none => simp [hslice] at h
  | some a =>
    simp only [hslice, Except.ok.injEq] at h
    rw [← h, plain_unmap, Addr.isValid_unmap]
    unfold addrFromSlice at hslice
    split_ifs at hslice
    · cases hslice
      exact ⟨by simp [addrFrom4], rfl⟩
    · cases hslice
      exact ⟨by simp [addrFrom16], rfl⟩

/-- The entries that decide: an allow list decides alone. -/
def deciding (allow deny : List GoString) : List GoString := if allow ≠ [] then allow else deny

/-- **When the policy means what it says**: for every pair of lists that
`New` accepts and every TCP peer, `Allows` follows what the entries name
exactly if a peer that is named is not named by mapped entries alone, and
one that is what is left of a zoned literal is named. -/
theorem policy_means_iff {allow deny : List GoString} {policy : Policy}
    (hnew : new allow deny = .ok policy) {ip text : GoString} {x : Addr}
    (hpeer : addressFromAddr (.tcp ip text) = .ok x) :
    (policy.allows x = true ↔
      if allow ≠ [] then ∃ value ∈ allow, x ∈ denotes value else ¬ ∃ value ∈ deny, x ∈ denotes value) ↔
    ((∃ value ∈ deciding allow deny, x ∈ denotes value) →
      ∃ value ∈ deciding allow deny, (x ∈ denotes value ∧ ¬ Mapped value) ∨ x ∈ unzoned value) ∧
    ((∃ value ∈ deciding allow deny, x ∈ unzoned value) →
      ∃ value ∈ deciding allow deny, x ∈ denotes value) := by
  obtain ⟨hplain, hvalid⟩ := peer_plain hpeer
  obtain ⟨hallow, hdeny⟩ := parsed_lists hnew
  have hempty : policy.allow ≠ [] ↔ allow ≠ [] := by
    rw [← List.length_pos_iff, ← List.length_pos_iff, hallow.length_eq]
  -- a list whose matches are what it names
  have hlist : ∀ values : List GoString,
      ((∃ value ∈ values, (x ∈ denotes value ∧ ¬ Mapped value) ∨ x ∈ unzoned value) ↔
        ∃ value ∈ values, x ∈ denotes value) ↔
      ((∃ value ∈ values, x ∈ denotes value) →
        ∃ value ∈ values, (x ∈ denotes value ∧ ¬ Mapped value) ∨ x ∈ unzoned value) ∧
      ((∃ value ∈ values, x ∈ unzoned value) → ∃ value ∈ values, x ∈ denotes value) := by
    intro values
    constructor
    · rintro ⟨hnamed, hmatched⟩
      exact ⟨hmatched, fun ⟨value, hmem, h⟩ => hnamed ⟨value, hmem, Or.inr h⟩⟩
    · rintro ⟨hmatched, hzoned⟩
      refine ⟨?_, hmatched⟩
      rintro ⟨value, hmem, ⟨h, -⟩ | h⟩
      · exact ⟨value, hmem, h⟩
      · exact hzoned ⟨value, hmem, h⟩
  unfold Policy.allows deciding
  rw [if_neg (by simp [hvalid])]
  by_cases hne : allow ≠ []
  · rw [if_pos (hempty.mpr hne), if_pos hne, if_pos hne, contains_parsed hplain hvalid hallow]
    exact hlist allow
  · rw [if_neg (hempty.not.mpr hne), if_neg hne, if_neg hne, Bool.not_eq_true',
      ← Bool.not_eq_true, contains_parsed hplain hvalid hdeny, not_iff_not]
    exact hlist deny

/-- The entry that is to keep a client out. -/
def mappedDeny : List GoString := [go "::ffff:203.0.113.9"]

/-- A client is denied by its mapped address, and gets in. -/
theorem mapped_deny_ineffective :
    ¬ ∀ (allow deny : List GoString) (policy : Policy), new allow deny = .ok policy →
      ∀ (ip text : GoString) (x : Addr), addressFromAddr (.tcp ip text) = .ok x →
        (policy.allows x = true ↔ if allow ≠ [] then ∃ value ∈ allow, x ∈ denotes value
          else ¬ ∃ value ∈ deny, x ∈ denotes value) := by
  intro h
  have hiff := h [] mappedDeny ⟨[], [⟨.v6 0xFFFFCB007109 [], some 128⟩]⟩ (by decide +kernel)
    [203, 0, 113, 9] (go "203.0.113.9:4711") (.v4 0xCB007109) (by decide +kernel)
  have hallows := hiff.mp (by decide +kernel)
  refine hallows ⟨go "::ffff:203.0.113.9", List.mem_singleton_self _, ?_⟩
  exact Or.inl ⟨.v6 0xFFFFCB007109 [], by decide +kernel, by decide +kernel⟩

/-- The same client, denied by its IPv4 address, stays out. -/
theorem policy_means_plain :
    ∃ policy, new [] [go "203.0.113.9"] = .ok policy ∧ (policy.allows (.v4 0xCB007109) = true ↔
      if ([] : List GoString) ≠ [] then ∃ value ∈ ([] : List GoString), .v4 0xCB007109 ∈ denotes value
      else ¬ ∃ value ∈ [go "203.0.113.9"], .v4 0xCB007109 ∈ denotes value) := by
  have hnew : new [] [go "203.0.113.9"] = .ok ⟨[], [⟨.v4 0xCB007109, some 32⟩]⟩ := by decide +kernel
  have hpeer : addressFromAddr (.tcp [203, 0, 113, 9] (go "203.0.113.9:4711")) =
      .ok (.v4 0xCB007109) := by decide +kernel
  have hparse : parseAddr (trimSpace (go "203.0.113.9")) = .ok (.v4 0xCB007109) := by decide +kernel
  have hnamed : (.v4 0xCB007109 : Addr) ∈ denotes (go "203.0.113.9") := Or.inl ⟨_, hparse, rfl⟩
  refine ⟨_, hnew, (policy_means_iff hnew hpeer).mpr ⟨fun _ => ?_, fun _ => ?_⟩⟩
  · refine ⟨go "203.0.113.9", List.mem_singleton_self _, Or.inl ⟨hnamed, ?_⟩⟩
    rw [Mapped, written_literal hparse]
    exact fun h => h rfl
  · exact ⟨go "203.0.113.9", List.mem_singleton_self _, hnamed⟩

end ClientPolicy

/-! ## The trusted proxies -/

namespace ProxyProtocol

open Strings Unicode Netip

theorem parsed_proxies : ∀ {values : List GoString} {prefixes : List Prefix},
    parseCIDRs values = .ok prefixes →
      List.Forall₂ (fun value p => parseCIDR value = .ok p) values prefixes := by
  intro values
  induction values with
  | nil =>
    intro prefixes h
    cases h
    exact .nil
  | cons value values ih =>
    intro prefixes h
    unfold parseCIDRs at h ih
    rw [List.mapM_cons] at h
    cases hp : parseCIDR value with
    | error err => simp [hp, bind, Except.bind] at h
    | ok p =>
      cases hrest : values.mapM parseCIDR with
      | error err => simp [hp, hrest, bind, Except.bind] at h
      | ok rest =>
        simp only [hp, hrest, bind, Except.bind, pure, Except.pure, Except.ok.injEq] at h
        rw [← h]
        exact .cons hp (ih hrest)

/-- The entry's address or block contains the address. -/
def Holds (value : GoString) (x : Addr) : Prop :=
  Written value (fun a => x = a.unmap) fun p => p.masked.contains x = true

theorem parseCIDR_literal {value : GoString} {a : Addr} (ha : parseAddr (trimSpace value) = .ok a) :
    parseCIDR value = .ok (prefixFrom a.unmap a.bitLen) := by
  simp [parseCIDR, ha]

theorem parseCIDR_block {value : GoString} {q : Prefix} (hq : parsePrefix (trimSpace value) = .ok q) :
    parseCIDR value = .ok q.masked := by
  cases ha : parseAddr (trimSpace value) with
  | ok a => exact (parseAddr_of_parsePrefix hq ha).elim
  | error f => simp [parseCIDR, ha, hq]

/-- What is accepted is a literal or a block. -/
theorem parseCIDR_cases {value : GoString} {p : Prefix} (h : parseCIDR value = .ok p) :
    (∃ a, parseAddr (trimSpace value) = .ok a) ∨ ∃ q, parsePrefix (trimSpace value) = .ok q := by
  unfold parseCIDR at h
  cases ha : parseAddr (trimSpace value) with
  | ok a => exact Or.inl ⟨a, rfl⟩
  | error f =>
    cases hq : parsePrefix (trimSpace value) with
    | ok q => exact Or.inr ⟨q, rfl⟩
    | error why => simp [ha, hq] at h

/-- A block is valid. -/
theorem masked_valid {s : GoString} {q : Prefix} (h : parsePrefix s = .ok q) :
    q.masked.bits.isSome = true := by
  obtain ⟨i, ip, n, -, hip, -, -, hn, rfl⟩ := parsePrefix_eq_ok h
  cases ip with
  | zero => cases isValid_of_parseAddr hip
  | v4 a =>
    have hn' : n.toNat ≤ 32 := hn
    simp [prefixFrom, Prefix.masked, Addr.withoutZone, Addr.isValid, Addr.bitLen, hn']
  | v6 a z =>
    have hn' : n.toNat ≤ 128 := hn
    simp [prefixFrom, Prefix.masked, Addr.withoutZone, Addr.isValid, Addr.bitLen, hn']

/-- **A mapped literal is an invalid prefix**: it has the bits of an IPv6
address and the address of an IPv4 one. -/
theorem prefixFrom_mapped {a : Addr} (h : a.unmap ≠ a) :
    (prefixFrom a.unmap a.bitLen).bits = none := by
  cases a with
  | zero => exact absurd rfl h
  | v4 a => exact absurd rfl h
  | v6 a z =>
    have hm : Addr.mapped a = true := by
      by_contra hm
      exact h (if_neg hm)
    have hunmap : (Addr.v6 a z).unmap = .v4 (a.setWidth 32) := if_pos hm
    rw [hunmap]
    rfl

/-- No prefix contains an address with a zone. -/
theorem contains_zoned {p : Prefix} {x : Addr} (hx : x.zone ≠ []) : p.contains x = false := by
  obtain ⟨ip, bits⟩ := p
  cases x with
  | zero => exact absurd rfl hx
  | v4 c => exact absurd rfl hx
  | v6 c z =>
    have hz : z ≠ [] := hx
    cases bits with
    | none => rfl
    | some b => cases ip <;> simp [Prefix.contains, hz]

/-- A literal that is neither mapped nor zoned. -/
theorem contains_plain {a x : Addr} (ha : a.isValid = true) (hunmap : a.unmap = a)
    (hzone : a.zone = []) : (prefixFrom a.unmap a.bitLen).contains x = true ↔ x = a.unmap := by
  rw [hunmap]
  cases hx : x.isValid with
  | true => rw [contains_literal hx ha, withoutZone_eq_self hzone]
  | false =>
    have hzero : x = .zero := by cases x <;> simp_all [Addr.isValid]
    subst hzero
    refine iff_of_false ?_ ?_
    · rw [prefixFrom_bitLen ha]
      cases a <;> simp [Prefix.contains, Addr.withoutZone]
    · rintro rfl
      cases ha

/-- What an entry's prefix contains is what the entry does, if the entry is
no literal that is mapped or zoned. -/
theorem contains_iff_holds {value : GoString}
    (hplain : ∀ a, parseAddr (trimSpace value) = .ok a → a.unmap = a ∧ a.zone = []) {p : Prefix}
    (hp : parseCIDR value = .ok p) (x : Addr) : p.contains x = true ↔ Holds value x := by
  rcases parseCIDR_cases hp with ⟨a, ha⟩ | ⟨q, hq⟩
  · obtain ⟨hunmap, hzone⟩ := hplain a ha
    rw [parseCIDR_literal ha] at hp
    rw [← Except.ok.inj hp, contains_plain (isValid_of_parseAddr ha) hunmap hzone, Holds,
      written_literal ha]
  · rw [parseCIDR_block hq] at hp
    rw [← Except.ok.inj hp, Holds, written_block hq]

/-- The prefix of such an entry is valid. -/
theorem valid_of_plain {value : GoString}
    (hplain : ∀ a, parseAddr (trimSpace value) = .ok a → a.unmap = a ∧ a.zone = []) {p : Prefix}
    (hp : parseCIDR value = .ok p) : p.bits.isSome = true := by
  rcases parseCIDR_cases hp with ⟨a, ha⟩ | ⟨q, hq⟩
  · rw [parseCIDR_literal ha, (hplain a ha).1, prefixFrom_bitLen (isValid_of_parseAddr ha)] at hp
    rw [← Except.ok.inj hp]
    rfl
  · rw [parseCIDR_block hq] at hp
    rw [← Except.ok.inj hp]
    exact masked_valid hq

/-- **When every configured proxy is trusted**: for every list that
`ParseCIDRs` accepts, each literal's address is trusted, every prefix is
valid, an address is trusted if and only if some entry contains it, and the
order of the entries does not matter, exactly if no literal is IPv4-mapped
or has a zone. -/
theorem proxies_trusted_iff {values : List GoString} {prefixes : List Prefix}
    (h : parseCIDRs values = .ok prefixes) :
    ((∀ value ∈ values, ∀ a, parseAddr (trimSpace value) = .ok a → trusted prefixes a.unmap = true) ∧
      (∀ p ∈ prefixes, p.bits.isSome = true) ∧
      (∀ x, trusted prefixes x = true ↔ ∃ value ∈ values, Holds value x) ∧
      ∀ values' prefixes', values'.Perm values → parseCIDRs values' = .ok prefixes' →
        ∀ x, trusted prefixes' x = trusted prefixes x) ↔
    ∀ value ∈ values, ∀ a, parseAddr (trimSpace value) = .ok a → a.unmap = a ∧ a.zone = [] := by
  have hparsed := parsed_proxies h
  obtain ⟨hvalues, hprefixes⟩ := parsed_mem hparsed
  constructor
  · rintro ⟨htrusted, hvalid, -, -⟩ value hmem a ha
    obtain ⟨p, hp, hcidr⟩ := hvalues value hmem
    rw [parseCIDR_literal ha] at hcidr
    have hunmap : a.unmap = a := by
      by_contra hmapped
      have hsome := hvalid p hp
      rw [← Except.ok.inj hcidr, prefixFrom_mapped hmapped] at hsome
      cases hsome
    refine ⟨hunmap, ?_⟩
    by_contra hzone
    obtain ⟨q, -, hq⟩ := List.any_eq_true.mp (htrusted value hmem a ha)
    rw [hunmap, contains_zoned hzone] at hq
    cases hq
  · intro hplain
    have hiff : ∀ x, trusted prefixes x = true ↔ ∃ value ∈ values, Holds value x := fun x =>
      any_contains_iff hparsed fun value hmem _ hp => contains_iff_holds (hplain value hmem) hp x
    refine ⟨?_, ?_, hiff, ?_⟩
    · intro value hmem a ha
      exact (hiff _).mpr ⟨value, hmem, (written_literal ha).mpr rfl⟩
    · intro p hp
      obtain ⟨value, hmem, hcidr⟩ := hprefixes p hp
      exact valid_of_plain (hplain value hmem) hcidr
    · intro values' prefixes' hperm h' x
      have hiff' : trusted prefixes' x = true ↔ ∃ value ∈ values', Holds value x :=
        any_contains_iff (parsed_proxies h') fun value hmem _ hp =>
          contains_iff_holds (hplain value (hperm.mem_iff.mp hmem)) hp x
      rw [Bool.eq_iff_iff, hiff', hiff]
      simp only [hperm.mem_iff]

/-- A proxy that is configured by its mapped address is not trusted. -/
theorem mapped_proxy_untrusted :
    ¬ ∀ (values : List GoString) (prefixes : List Prefix), parseCIDRs values = .ok prefixes →
      (∀ value ∈ values, ∀ a, parseAddr (trimSpace value) = .ok a → trusted prefixes a.unmap = true) ∧
      (∀ p ∈ prefixes, p.bits.isSome = true) ∧
      ∀ x, trusted prefixes x = true ↔ ∃ value ∈ values, Holds value x := by
  intro h
  have hparse : parseCIDRs [go "::ffff:10.0.0.1"] = .ok [⟨.v4 0x0A000001, none⟩] := by decide +kernel
  have htrusted := (h _ _ hparse).1 _ List.mem_cons_self (.v6 0xFFFF0A000001 []) (by decide +kernel)
  revert htrusted
  decide

/-- An address and a block, in either order. -/
theorem proxies_trusted_two :
    ∃ prefixes, parseCIDRs [go "10.0.0.1", go "2001:db8::/32"] = .ok prefixes ∧
      trusted prefixes (.v4 0x0A000001) = true ∧
      ∀ values' prefixes', values'.Perm [go "10.0.0.1", go "2001:db8::/32"] →
        parseCIDRs values' = .ok prefixes' → ∀ x, trusted prefixes' x = trusted prefixes x := by
  have hparse : parseCIDRs [go "10.0.0.1", go "2001:db8::/32"] =
      .ok [⟨.v4 0x0A000001, some 32⟩, ⟨.v6 0x20010DB8000000000000000000000000 [], some 32⟩] := by
    decide +kernel
  have hliteral : parseAddr (trimSpace (go "10.0.0.1")) = .ok (.v4 0x0A000001) := by decide +kernel
  have hblock : ∃ q, parsePrefix (trimSpace (go "2001:db8::/32")) = .ok q :=
    ⟨⟨.v6 0x20010DB8000000000000000000000000 [], some 32⟩, by decide +kernel⟩
  obtain ⟨htrusted, -, -, horder⟩ := (proxies_trusted_iff hparse).mpr (by
    intro value hmem a ha
    rcases List.mem_pair.mp hmem with rfl | rfl
    · rw [hliteral] at ha
      cases ha
      exact ⟨rfl, rfl⟩
    · obtain ⟨q, hq⟩ := hblock
      exact (parseAddr_of_parsePrefix hq ha).elim)
  exact ⟨_, hparse, htrusted _ List.mem_cons_self _ hliteral, horder⟩

end ProxyProtocol

end McRouter
