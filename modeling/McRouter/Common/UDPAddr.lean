import McRouter.Common.Net

/-!
# UDP endpoints

`net.IP` and `net.UDPAddr` with the texts they print as. The voice relay
keeps its sessions under such a text, so what matters is that **different
endpoints print differently** (`UDPAddr.string_injective`).

An address is taken in its 16-byte form, the one an IPv4 address and its
IPv6-mapped spelling share.
-/

namespace McRouter

namespace Net

open Strings Unicode Netip

/-- `net.IP`, as eight groups of sixteen bits. -/
structure IP where
  groups : List UInt16
  length_eq : groups.length = 8
deriving DecidableEq, Repr

/-- `appendHex`: no leading zeros. -/
def appendHex (x : ℕ) : GoString :=
  (if 0x1000 ≤ x then [hexDigit (x / 0x1000)] else []) ++
  (if 0x100 ≤ x then [hexDigit (x / 0x100 % 16)] else []) ++
  (if 0x10 ≤ x then [hexDigit (x / 0x10 % 16)] else []) ++ [hexDigit (x % 16)]

/-- Where the longest run of zero groups starts, and its length: the first
of the longest ones of two groups or more. -/
def zeroRun (groups : List UInt16) : ℕ × ℕ :=
  (List.range 8).foldl (fun best i =>
    let len := ((groups.drop i).takeWhile (· == 0)).length
    if 2 ≤ len ∧ best.2 < len then (i, len) else best) (0, 0)

/-- Groups between colons. -/
def joinGroups (groups : List UInt16) : GoString :=
  [58].intercalate (groups.map fun g => appendHex g.toNat)

/-- `netip.Addr.String` of an IPv6 address. -/
def string6 (groups : List UInt16) : GoString :=
  let run := zeroRun groups
  if run.2 = 0 then joinGroups groups
  else joinGroups (groups.take run.1) ++ [58, 58] ++ joinGroups (groups.drop (run.1 + run.2))

/-- `netip.Addr.String` of an IPv4 address. -/
def string4 (hi lo : ℕ) : GoString :=
  [46].intercalate [itoa (hi / 256), itoa (hi % 256), itoa (lo / 256), itoa (lo % 256)]

/-- `IP.String`: dotted when `To4` finds an IPv4 address. -/
def IP.string (ip : IP) : GoString :=
  match ip.groups with
  | [0, 0, 0, 0, 0, 0xFFFF, hi, lo] => string4 hi.toNat lo.toNat
  | groups => string6 groups

/-- `net.UDPAddr`. -/
structure UDPAddr where
  ip : IP
  port : UInt16
  zone : GoString := []
deriving DecidableEq, Repr

/-- The host part of the text: a zone follows a percent sign. -/
def UDPAddr.host (a : UDPAddr) : GoString :=
  if a.zone = [] then a.ip.string else a.ip.string ++ [37] ++ a.zone

/-- `UDPAddr.String`. -/
def UDPAddr.string (a : UDPAddr) : GoString := joinHostPort a.host (itoa a.port.toNat)

/-! ## Groups -/

/-- The digits of a group. -/
def isGroupByte (b : UInt8) : Bool := (48 ≤ b && b ≤ 57) || (97 ≤ b && b ≤ 102)

theorem hexVal_hexDigit : ∀ n < 16, hexVal? (hexDigit n) = some n ∧ isGroupByte (hexDigit n) := by
  decide +kernel

/-- The number a group writes. -/
def hexNumber (s : GoString) : ℕ := s.foldl (fun acc b => acc * 16 + (hexVal? b).getD 0) 0

theorem appendHex_ne_nil (x : ℕ) : appendHex x ≠ [] := by simp [appendHex]

/-- A group reads back as its number. -/
theorem hexNumber_appendHex {x : ℕ} (h : x < 2 ^ 16) : hexNumber (appendHex x) = x := by
  have hval : ∀ n < 16, hexVal? (hexDigit n) = some n := fun n hn => (hexVal_hexDigit n hn).1
  have h₀ := hval (x % 16) (by omega)
  have h₁ := hval (x / 0x10 % 16) (by omega)
  have h₂ := hval (x / 0x100 % 16) (by omega)
  have h₃ := hval (x / 0x1000) (by omega)
  unfold hexNumber appendHex
  split_ifs <;> simp [h₀, h₁, h₂, h₃] <;> omega

theorem isGroupByte_of_mem_appendHex {x : ℕ} (h : x < 2 ^ 16) {b : UInt8} (hb : b ∈ appendHex x) :
    isGroupByte b = true := by
  have hdigit : ∀ n < 16, isGroupByte (hexDigit n) = true := fun n hn => (hexVal_hexDigit n hn).2
  have h₀ := hdigit (x % 16) (by omega)
  have h₁ := hdigit (x / 0x10 % 16) (by omega)
  have h₂ := hdigit (x / 0x100 % 16) (by omega)
  have h₃ := hdigit (x / 0x1000) (by omega)
  unfold appendHex at hb
  simp only [List.mem_append, List.mem_singleton] at hb
  rcases hb with ((hb | hb) | hb) | rfl
  · split_ifs at hb <;> simp_all
  · split_ifs at hb <;> simp_all
  · split_ifs at hb <;> simp_all
  · exact h₀

/-- The texts of some groups. -/
def texts (groups : List UInt16) : List GoString := groups.map fun g => appendHex g.toNat

theorem texts_injective : Function.Injective texts := by
  refine List.map_injective_iff.mpr fun g g' h => ?_
  have h := congrArg hexNumber h
  rw [hexNumber_appendHex g.toNat_lt, hexNumber_appendHex g'.toNat_lt] at h
  exact UInt16.toNat_inj.mp h

theorem mem_texts {groups : List UInt16} {t : GoString} (h : t ∈ texts groups) :
    t ≠ [] ∧ ∀ b ∈ t, isGroupByte b = true := by
  obtain ⟨g, -, rfl⟩ := List.mem_map.mp h
  exact ⟨appendHex_ne_nil _, fun b hb => isGroupByte_of_mem_appendHex g.toNat_lt hb⟩

theorem not_isGroupByte : isGroupByte 58 = false ∧ isGroupByte 46 = false ∧
    isGroupByte 37 = false ∧ isGroupByte 91 = false := by
  decide

/-! ## IPv6 texts -/

/-- The run that is left out is one of zeros, and within the address. -/
theorem zeroRun_spec (groups : List UInt16) :
    let run := zeroRun groups
    groups = groups.take run.1 ++ List.replicate run.2 0 ++ groups.drop (run.1 + run.2) := by
  -- what the loop keeps: the best run so far is the zeros found at its start
  have hkeep : ∀ (is : List ℕ) (best : ℕ × ℕ),
      (best.2 = 0 ∨ ((groups.drop best.1).takeWhile (· == 0)).length = best.2) →
      let run := is.foldl (fun best i =>
        let len := ((groups.drop i).takeWhile (· == 0)).length
        if 2 ≤ len ∧ best.2 < len then (i, len) else best) best
      run.2 = 0 ∨ ((groups.drop run.1).takeWhile (· == 0)).length = run.2 := by
    intro is
    induction is with
    | nil => intro best h; exact h
    | cons i is ih =>
      intro best h
      refine ih _ ?_
      dsimp only
      split
      · exact Or.inr rfl
      · exact h
  intro run
  rcases hkeep (List.range 8) (0, 0) (Or.inl rfl) with h | h
  · have h : run.2 = 0 := h
    simp [h]
  · have h : ((groups.drop run.1).takeWhile (· == 0)).length = run.2 := h
    have hzeros : (groups.drop run.1).takeWhile (· == 0) = List.replicate run.2 0 := by
      refine List.eq_replicate_iff.mpr ⟨h, fun g hg => ?_⟩
      simpa using List.mem_takeWhile_imp hg
    have hrest : (groups.drop run.1).dropWhile (· == 0) = groups.drop (run.1 + run.2) := by
      rw [← List.drop_drop, ← h]
      nth_rewrite 3 [← List.takeWhile_append_dropWhile (p := (· == 0)) (l := groups.drop run.1)]
      rw [List.drop_left]
    conv_lhs => rw [← List.take_append_drop run.1 groups,
      ← List.takeWhile_append_dropWhile (p := (· == 0)) (l := groups.drop run.1), hzeros, hrest]
    rw [List.append_assoc]

theorem intercalate_append {sep : UInt8} {as bs : List GoString} (ha : as ≠ []) (hb : bs ≠ []) :
    [sep].intercalate (as ++ bs) = [sep].intercalate as ++ sep :: [sep].intercalate bs := by
  induction as with
  | nil => exact absurd rfl ha
  | cons a as ih =>
    rcases eq_or_ne as [] with rfl | has
    · simp [List.intercalate_cons_of_ne_nil hb]
    · rw [List.cons_append, List.intercalate_cons_of_ne_nil (by simp [has]), ih has,
        List.intercalate_cons_of_ne_nil has]
      simp

/-- No text where there is nothing to write is one empty text. -/
def orEmpty (ts : List GoString) : List GoString := if ts = [] then [[]] else ts

/-- What stands between the colons of an address. -/
def pieces (groups : List UInt16) : List GoString :=
  let run := zeroRun groups
  if run.2 = 0 then texts groups
  else orEmpty (texts (groups.take run.1)) ++ [] :: orEmpty (texts (groups.drop (run.1 + run.2)))

theorem string6_eq {groups : List UInt16} : string6 groups = [58].intercalate (pieces groups) := by
  have hor : ∀ gs, [58].intercalate (orEmpty (texts gs)) = joinGroups gs := by
    intro gs
    unfold orEmpty
    split
    · rename_i h
      rw [joinGroups, ← texts, h]
      rfl
    · rfl
  have hne : ∀ gs, orEmpty (texts gs) ≠ [] := by
    intro gs
    unfold orEmpty
    split
    · simp
    · assumption
  unfold string6 pieces
  dsimp only
  split
  · rfl
  · rw [intercalate_append (hne _) (by simp), List.intercalate_cons_of_ne_nil (hne _), hor, hor]
    simp

/-- The pieces hold no colon, and none is empty unless a run is left out. -/
theorem mem_pieces {groups : List UInt16} {t : GoString} (h : t ∈ pieces groups) :
    (∀ b ∈ t, isGroupByte b = true) ∧ ((zeroRun groups).2 = 0 → t ≠ []) := by
  have hor : ∀ gs, t ∈ orEmpty (texts gs) → ∀ b ∈ t, isGroupByte b = true := by
    intro gs ht
    unfold orEmpty at ht
    split at ht
    · obtain rfl : t = [] := by simpa using ht
      simp
    · exact (mem_texts ht).2
  unfold pieces at h
  dsimp only at h
  split at h
  · exact ⟨(mem_texts h).2, fun _ => (mem_texts h).1⟩
  · rename_i hrun
    refine ⟨?_, fun h0 => absurd h0 hrun⟩
    rcases List.mem_append.mp h with h | h
    · exact hor _ h
    · rcases List.mem_cons.mp h with rfl | h
      · simp
      · exact hor _ h

/-- Up to the first empty piece stand the groups before the run. -/
theorem takeWhile_orEmpty (gs : List UInt16) (rest : List GoString) :
    (orEmpty (texts gs) ++ [] :: rest).takeWhile (· ≠ []) = texts gs := by
  unfold orEmpty
  split
  · rename_i h
    simp [h]
  · rw [List.takeWhile_append_of_pos fun t ht => by simpa using (mem_texts ht).1]
    simp

theorem reverse_orEmpty (ts : List GoString) : (orEmpty ts).reverse = orEmpty ts.reverse := by
  unfold orEmpty
  split_ifs <;> simp_all

/-- **The pieces determine the groups.** -/
theorem pieces_inj {groups groups' : List UInt16} (hlen : groups.length = 8)
    (hlen' : groups'.length = 8) (h : pieces groups = pieces groups') : groups = groups' := by
  have hspec := zeroRun_spec groups
  have hspec' := zeroRun_spec groups'
  have hempty : ∀ gs, (zeroRun gs).2 ≠ 0 → [] ∈ pieces gs := by
    intro gs hgs
    simp [pieces, hgs]
  by_cases hrun : (zeroRun groups).2 = 0
  · have hrun' : (zeroRun groups').2 = 0 := by
      by_contra hne
      exact (mem_pieces (h ▸ hempty groups' hne)).2 hrun rfl
    simp only [pieces, hrun, hrun', if_true] at h
    exact texts_injective h
  · have hrun' : (zeroRun groups').2 ≠ 0 := fun h0 => (mem_pieces (h ▸ hempty groups hrun)).2 h0 rfl
    simp only [pieces, hrun, hrun', if_false] at h
    have hleft := congrArg (List.takeWhile (· ≠ [])) h
    rw [takeWhile_orEmpty, takeWhile_orEmpty] at hleft
    have hright := congrArg (fun ts => List.takeWhile (· ≠ []) (List.reverse ts)) h
    simp only [List.reverse_append, List.reverse_cons, List.append_assoc, List.singleton_append,
      reverse_orEmpty] at hright
    have htexts : ∀ gs, (texts gs).reverse = texts gs.reverse := fun gs => by simp [texts]
    simp only [htexts, takeWhile_orEmpty] at hright
    have hleft := texts_injective hleft
    have hright := List.reverse_injective (texts_injective hright)
    -- the same groups on both sides leave the same room for zeros
    have hzeros : (zeroRun groups).2 = (zeroRun groups').2 := by
      have h₁ := congrArg List.length hspec
      have h₂ := congrArg List.length hspec'
      have h₃ := congrArg List.length hleft
      have h₄ := congrArg List.length hright
      simp only [List.length_append, List.length_replicate] at h₁ h₂
      omega
    rw [hspec, hspec', hleft, hright, hzeros]

theorem string6_inj {groups groups' : List UInt16} (hlen : groups.length = 8)
    (hlen' : groups'.length = 8) (h : string6 groups = string6 groups') : groups = groups' := by
  have hne : ∀ gs : List UInt16, gs.length = 8 → pieces gs ≠ [] := by
    intro gs hgs hnil
    have : gs ≠ [] := by
      rintro rfl
      cases hgs
    unfold pieces at hnil
    dsimp only at hnil
    split at hnil
    · exact this (List.map_eq_nil_iff.mp hnil)
    · simp at hnil
  have hsep : ∀ gs, ∀ t ∈ pieces gs, (58 : UInt8) ∉ t := by
    intro gs t ht hb
    have := (mem_pieces ht).1 58 hb
    rw [not_isGroupByte.1] at this
    cases this
  rw [string6_eq, string6_eq] at h
  exact pieces_inj hlen hlen' (intercalate_inj (hne _ hlen) (hne _ hlen') (hsep _) (hsep _) h)

/-! ## Endpoints -/

/-- What an IPv6 text is made of. -/
theorem mem_string6 {groups : List UInt16} {b : UInt8} (h : b ∈ string6 groups) :
    isGroupByte b = true ∨ b = 58 := by
  rw [string6_eq] at h
  rcases mem_of_mem_split 58 h with rfl | ⟨t, ht, hb⟩
  · exact Or.inr rfl
  · by_cases hne : pieces groups = []
    · rw [hne] at h
      cases h
    · have hsep : ∀ t ∈ pieces groups, (58 : UInt8) ∉ t := by
        intro t ht hb
        have := (mem_pieces ht).1 58 hb
        rw [not_isGroupByte.1] at this
        cases this
      rw [split, List.splitOn_intercalate 58 hsep hne] at ht
      exact Or.inl ((mem_pieces ht).1 b hb)

theorem string4_eq (hi lo : ℕ) : string4 hi lo =
    itoa (hi / 256) ++ 46 :: (itoa (hi % 256) ++ 46 :: (itoa (lo / 256) ++ 46 :: itoa (lo % 256))) := by
  simp [string4, List.intercalate_cons_cons]

/-- What an IPv4 text is made of. -/
theorem mem_string4 {hi lo : ℕ} {b : UInt8} (h : b ∈ string4 hi lo) :
    isGroupByte b = true ∨ b = 46 := by
  have hdigit : ∀ b : UInt8, 48 ≤ b ∧ b ≤ 57 → isGroupByte b = true := by
    intro b hb
    simp [isGroupByte, hb.1, hb.2]
  rw [string4_eq] at h
  simp only [List.mem_append, List.mem_cons] at h
  rcases h with h | rfl | h | rfl | h | rfl | h
  · exact Or.inl (hdigit b (isDigit_of_mem_itoa h))
  · exact Or.inr rfl
  · exact Or.inl (hdigit b (isDigit_of_mem_itoa h))
  · exact Or.inr rfl
  · exact Or.inl (hdigit b (isDigit_of_mem_itoa h))
  · exact Or.inr rfl
  · exact Or.inl (hdigit b (isDigit_of_mem_itoa h))

theorem notMem_itoa {n : ℕ} {b : UInt8} (hb : ¬ (48 ≤ b ∧ b ≤ 57)) : b ∉ itoa n :=
  fun h => hb (isDigit_of_mem_itoa h)

theorem string4_inj {hi lo hi' lo' : UInt16}
    (h : string4 hi.toNat lo.toNat = string4 hi'.toNat lo'.toNat) : hi = hi' ∧ lo = lo' := by
  have hdot : ∀ n, (46 : UInt8) ∉ itoa n := fun n => notMem_itoa (by decide)
  rw [string4_eq, string4_eq] at h
  obtain ⟨h₁, h⟩ := append_sep_inj (hdot _) (hdot _) h
  obtain ⟨h₂, h⟩ := append_sep_inj (hdot _) (hdot _) h
  obtain ⟨h₃, h₄⟩ := append_sep_inj (hdot _) (hdot _) h
  have h₁ := itoa_injective h₁
  have h₂ := itoa_injective h₂
  have h₃ := itoa_injective h₃
  have h₄ := itoa_injective h₄
  exact ⟨UInt16.toNat_inj.mp (by omega), UInt16.toNat_inj.mp (by omega)⟩

/-- The two ways an address prints. -/
theorem IP.string_cases (ip : IP) :
    (∃ hi lo : UInt16, ip.groups = [0, 0, 0, 0, 0, 0xFFFF, hi, lo] ∧
      ip.string = string4 hi.toNat lo.toNat) ∨ ip.string = string6 ip.groups := by
  unfold IP.string
  split
  · rename_i hi lo h
    exact Or.inl ⟨hi, lo, h, rfl⟩
  · exact Or.inr rfl

/-- An address prints as digits, colons and dots, at least one of them. -/
theorem mem_ip_string {ip : IP} {b : UInt8} (h : b ∈ ip.string) : b ≠ 37 ∧ b ≠ 91 := by
  have hne : isGroupByte b = true ∨ b = 58 ∨ b = 46 → b ≠ 37 ∧ b ≠ 91 := by
    rintro (hb | rfl | rfl)
    · refine ⟨?_, ?_⟩
      · rintro rfl
        exact absurd hb (by decide)
      · rintro rfl
        exact absurd hb (by decide)
    · decide
    · decide
  rcases ip.string_cases with ⟨hi, lo, -, hs⟩ | hs
  · rcases mem_string4 (hs ▸ h) with hb | hb
    · exact hne (Or.inl hb)
    · exact hne (Or.inr (Or.inr hb))
  · rcases mem_string6 (hs ▸ h) with hb | hb
    · exact hne (Or.inl hb)
    · exact hne (Or.inr (Or.inl hb))

theorem IP.string_injective {ip ip' : IP} (h : ip.string = ip'.string) : ip = ip' := by
  have hext : ip.groups = ip'.groups → ip = ip' := by
    intro hg
    cases ip
    cases ip'
    simpa using hg
  -- a dotted text has a dot, the other kind has none
  have hmixed : ∀ (hi lo : ℕ) (gs : List UInt16), string4 hi lo ≠ string6 gs := by
    intro hi lo gs heq
    have hdot : (46 : UInt8) ∈ string6 gs := by
      rw [← heq, string4_eq]
      simp
    rcases mem_string6 hdot with hb | hb
    · exact absurd hb (by decide)
    · exact absurd hb (by decide)
  rcases ip.string_cases with ⟨hi, lo, hg, hs⟩ | hs
  · rcases ip'.string_cases with ⟨hi', lo', hg', hs'⟩ | hs'
    · obtain ⟨rfl, rfl⟩ := string4_inj (hs.symm.trans (h.trans hs'))
      exact hext (hg.trans hg'.symm)
    · exact absurd (hs.symm.trans (h.trans hs')) (hmixed _ _ _)
  · rcases ip'.string_cases with ⟨hi', lo', hg', hs'⟩ | hs'
    · exact absurd (hs'.symm.trans (h.symm.trans hs)) (hmixed _ _ _)
    · exact hext (string6_inj ip.length_eq ip'.length_eq (hs.symm.trans (h.trans hs')))

theorem UDPAddr.host_injective {a a' : UDPAddr} (h : a.host = a'.host) :
    a.ip = a'.ip ∧ a.zone = a'.zone := by
  have hno : ∀ ip : IP, (37 : UInt8) ∉ ip.string := fun ip hb => (mem_ip_string hb).1 rfl
  unfold UDPAddr.host at h
  split at h
  · split at h
    · rename_i hz hz'
      exact ⟨IP.string_injective h, hz.trans hz'.symm⟩
    · exact absurd (h ▸ by simp) (hno a.ip)
  · split at h
    · exact absurd (h ▸ by simp) (hno a'.ip)
    · obtain ⟨hip, hzone⟩ := append_sep_inj (hno _) (hno _) (by simpa using h)
      exact ⟨IP.string_injective hip, hzone⟩

/-- `net.JoinHostPort` is one to one, where a host does not start with a
bracket and a port has no colon. -/
theorem joinHostPort_inj {host host' port port' : GoString} (hh : host.head? ≠ some 91)
    (hh' : host'.head? ≠ some 91) (hp : 58 ∉ port) (hp' : 58 ∉ port')
    (h : joinHostPort host port = joinHostPort host' port') : host = host' ∧ port = port' := by
  unfold joinHostPort at h
  split at h
  · split at h
    · have heq : (91 :: (host ++ [93])) ++ 58 :: port = (91 :: (host' ++ [93])) ++ 58 :: port' := by
        simpa using h
      obtain ⟨h₁, h₂⟩ := append_last_sep_inj hp hp' heq
      exact ⟨List.append_cancel_right (List.cons.inj h₁).2, h₂⟩
    · exfalso
      refine hh' ?_
      cases host' with
      | nil => simp at h
      | cons c t => simp at h; simp [← h.1]
  · split at h
    · exfalso
      refine hh ?_
      cases host with
      | nil => simp at h
      | cons c t => simp at h; simp [h.1]
    · exact append_last_sep_inj hp hp' (by simpa using h)

/-- **Different endpoints print differently.** -/
theorem UDPAddr.string_injective : Function.Injective UDPAddr.string := by
  intro a a' h
  have hhead : ∀ x : UDPAddr, x.host.head? ≠ some 91 := by
    intro x hx
    have hmem : (91 : UInt8) ∈ x.ip.string := by
      unfold UDPAddr.host at hx
      split at hx
      · exact List.mem_of_mem_head? hx
      · cases hs : x.ip.string with
        | nil => simp [hs] at hx
        | cons c t =>
          simp only [hs, List.cons_append, List.head?_cons, Option.some.injEq] at hx
          simp [hx]
    exact (mem_ip_string hmem).2 rfl
  have hport : ∀ x : UDPAddr, (58 : UInt8) ∉ itoa x.port.toNat := fun x => notMem_itoa (by decide)
  obtain ⟨hhost, hp⟩ := joinHostPort_inj (hhead a) (hhead a') (hport a) (hport a') h
  obtain ⟨hip, hzone⟩ := UDPAddr.host_injective hhost
  have hp := UInt16.toNat_inj.mp (itoa_injective hp)
  cases a
  cases a'
  simp_all

end Net

end McRouter
