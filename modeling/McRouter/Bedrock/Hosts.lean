import McRouter.Config.Validate
import McRouter.Common.Runes
import McRouter.HostSyntax

/-!
# Bedrock hosts and ports

`NormalizeHost` of `bedrockroute/host.go` takes a port off a host and hands
the rest to `hostaddr.Normalize`. The port is cut off by `SplitHostPort`, or
where that fails by hand, at the only colon. White space is trimmed before
that, the part behind a NUL byte is cut off after it, and `Normalize` takes
brackets off as `SplitHostPort` does. None of this gets in the way: **with a
port or without, a host normalises to the same name** (`normalizeHost_port`,
`normalizeHost_bracketed`).
-/

namespace McRouter

open Strings Unicode Netip

/-! ## What `Normalize` does not see -/

namespace HostAddr

/-- `Normalize` looks at the text only. -/
theorem normalize_congr {address address' : GoString} (h : text address = text address') :
    normalize address = normalize address' := by
  unfold text at h
  unfold normalize
  dsimp only
  rw [h]

/-- **White space around an address is not part of its text**, with a NUL
byte in it or not. -/
theorem text_of_parts {front part back : List Rune} {s : GoString}
    (h : runes s = front ++ part ++ back) (hspace : ∀ r ∈ front ++ back, isSpace r.code = true) :
    text (part.flatMap Rune.bytes) = text s := by
  obtain ⟨hpart, hbytes⟩ := runes_of_parts h
  obtain ⟨hfront, hback⟩ := notMem_of_parts h hspace (c := 0) (by decide) (by decide)
  by_cases hnul : (0 : UInt8) ∈ part.flatMap Rune.bytes
  · obtain ⟨kept, cut, hkept, hnot⟩ := List.eq_append_cons_of_mem hnul
    -- the text is cut off at a rune, and what is left of `s` is white space and `kept`
    have hrunes : runes s = front ++ runes kept ++ (runes (0 :: cut) ++ back) := by
      rw [h, ← hpart, hkept, runes_append_cons (by decide)]
      simp only [List.append_assoc]
    have hcut : cutAt 0 s = front.flatMap Rune.bytes ++ kept := by
      rw [hbytes, hkept, ← List.append_assoc, List.append_assoc, List.cons_append]
      refine cutAt_append_cons (fun hmem => ?_) _
      rcases List.mem_append.mp hmem with hmem | hmem
      · exact hfront hmem
      · exact hnot hmem
    have hleft : runes (front.flatMap Rune.bytes ++ kept) = front ++ runes kept ++ [] := by
      have hfrontRunes := runes_of_front hrunes
      rwa [List.flatMap_append, flatMap_bytes_runes, ← List.append_nil (front ++ runes kept)]
        at hfrontRunes
    rw [text, text, hkept, cutAt_append_cons hnot, hcut,
      trimSpace_of_parts hleft fun r hr => hspace r (by simpa using Or.inl (by simpa using hr)),
      flatMap_bytes_runes]
  · have hs : (0 : UInt8) ∉ s := by
      rw [hbytes, List.mem_append, List.mem_append]
      rintro ((hmem | hmem) | hmem)
      · exact hfront hmem
      · exact hnul hmem
      · exact hback hmem
    rw [text, text, cutAt_of_notMem hnul, cutAt_of_notMem hs, trimSpace_of_parts h hspace]

theorem text_trimSpace (s : GoString) : text (trimSpace s) = text s := by
  obtain ⟨front, core, back, hrunes, hspace, hcore⟩ := runes_trimSpace s
  rw [← hcore, text_of_parts hrunes hspace]

/-! ## Brackets -/

/-- An address and a final dot are not white space. -/
theorem trimSpace_of_isIP {u : GoString} (h : isIP u = true) {dot : GoString}
    (hdot : dot = [] ∨ dot = [46]) : trimSpace (u ++ dot) = u ++ dot := by
  have hbyte : ∀ b : UInt8, isIPByte b = true → b < 0x80 ∧ isSpace b.toNat = false :=
    forall_byte (by decide +kernel)
  have hbytes : ∀ b ∈ u ++ dot, b < 0x80 ∧ isSpace b.toNat = false := by
    intro b hb
    rcases List.mem_append.mp hb with hb | hb
    · exact hbyte b ((ipText_of_isIP h).1.1 b hb)
    · rcases hdot with rfl | rfl
      · cases hb
      · exact List.mem_singleton.mp hb ▸ ⟨by decide, by decide⟩
  exact trimSpace_eq_self (fun b hb => (hbytes b hb).1) fun b hb => (hbytes b hb).2

/-- An address, perhaps with a final dot, normalises to its lower case. -/
theorem normalize_of_isIP {u address dot : GoString} (h : isIP u = true)
    (hdot : dot = [] ∨ dot = [46]) (htext : text address = u ++ dot) :
    normalize address = .ok (lowerAscii u) := by
  have hcore : core address = u := by
    rw [core, htext]
    rcases hdot with rfl | rfl
    · rw [List.append_nil, trimSuffix_singleton_of_getLast_ne (ipText_of_isIP h).1.2]
    · exact trimSuffix_concat u 46
  have hascii : IsAscii (text address) := by
    refine isAscii_trimSuffix_dot.mp ?_
    rw [← core, hcore]
    exact isAscii_of_isIP h
  refine normalize_eq_ok.mpr (Or.inl ⟨u, h, Or.inl ?_, rfl⟩)
  rw [folded_eq_core hascii, hcore]

theorem text_of_isIP {u : GoString} (h : isIP u = true) : text u = u ++ [] := by
  rw [text, cutAt_of_notMem (notMem_of_isIP h (by decide)), ← trimSpace_of_isIP h (Or.inl rfl),
    List.append_nil]

/-- What begins with a bracket is no name. -/
theorem not_hostName_of_bracket {address rest : GoString} (htext : text address = 91 :: rest) :
    ¬ HostName (folded address) := by
  intro hname
  refine hname.noBrackets.1 ((mem_trimSuffix_dot (by decide)).mpr ?_)
  rw [htext, fold, runes_cons_ascii (by decide), List.flatMap_cons, foldRune_ofByte (by decide)]
  exact List.mem_cons_self

/-- What begins with a bracket and is accepted is an address, with or
without a closing bracket. -/
theorem isIP_of_bracket {address rest n : GoString} (htext : text address = 91 :: rest)
    (h : normalize address = .ok n) : ∃ v close dot, isIP v = true ∧ n = lowerAscii v ∧
      (close = [] ∨ close = [93]) ∧ (dot = [] ∨ dot = [46]) ∧ rest = v ++ close ++ dot := by
  have hascii : IsAscii (text address) := by
    by_contra hascii
    exact not_hostName_of_bracket htext (hostName_of_normalize hascii h)
  rcases normalize_eq_ok.mp h with ⟨v, hip, hbrackets, rfl⟩ | ⟨hname, -⟩
  · obtain ⟨dot, hdot, hcore⟩ := text_eq address
    rw [folded_eq_core hascii] at hbrackets
    rw [htext] at hcore
    have hv := noBrackets_of_isIP hip
    have hne := (ipText_of_isIP hip).2
    obtain ⟨b, v', rfl⟩ := List.exists_cons_of_ne_nil hne
    rcases hbrackets with hb | hb | hb | hb
    · -- no bracket in front
      rw [hb] at hcore
      exact absurd (List.cons.inj hcore).1.symm fun heq => hv.1 (heq ▸ List.mem_cons_self)
    · rw [hb] at hcore
      exact ⟨_, [], dot, hip, rfl, Or.inl rfl, hdot, by simpa using (List.cons.inj hcore).2⟩
    · rw [hb] at hcore
      exact absurd (List.cons.inj hcore).1.symm fun heq => hv.1 (heq ▸ List.mem_cons_self)
    · rw [hb] at hcore
      exact ⟨_, [93], dot, hip, rfl, Or.inr rfl, hdot, (List.cons.inj hcore).2⟩
  · exact absurd hname (not_hostName_of_bracket htext)

/-- **A pair of brackets around a host makes no difference**, where the host
is accepted with it. -/
theorem normalize_unbracketed {u n : GoString} (hu : 91 ∉ u ∧ 93 ∉ u)
    (h : normalize (91 :: (u ++ [93])) = .ok n) : normalize u = .ok n := by
  by_cases hnul : (0 : UInt8) ∈ u
  · -- the closing bracket is behind the NUL byte
    obtain ⟨kept, cut, rfl, hnot⟩ := List.eq_append_cons_of_mem hnul
    have hcut : cutAt 0 (91 :: (kept ++ 0 :: cut ++ [93])) = 91 :: kept := by
      have hkept : (0 : UInt8) ∉ 91 :: kept := by simp [hnot]
      rw [List.append_assoc]
      exact cutAt_append_cons hkept (cut ++ [93])
    obtain ⟨rest, back, hrunes, hspace, htrim⟩ :=
      trimSpace_cons (c := 91) (by decide) (by decide) kept
    obtain ⟨v, close, dot, hip, rfl, hclose, hdot, hrest⟩ := isIP_of_bracket (by rw [text, hcut, htrim]) h
    have hopen : close = [] := by
      refine hclose.resolve_right fun heq => hu.2 ?_
      have hmem : (93 : UInt8) ∈ rest.flatMap Rune.bytes := by simp [hrest, heq]
      rw [(runes_of_back hrunes).1]
      simp [hmem]
    rw [hopen, List.append_nil] at hrest
    have hkept : runes kept = [] ++ rest ++ back := hrunes
    refine normalize_of_isIP hip hdot ?_
    rw [text, cutAt_append_cons hnot, trimSpace_of_parts hkept (by simpa using hspace), hrest,
      trimSpace_of_isIP hip hdot]
  · have htext : text (91 :: (u ++ [93])) = 91 :: (u ++ [93]) := by
      have hascii : IsAscii [93] := List.forall_mem_singleton.mpr (by decide)
      have hplain : ∀ b ∈ ([93] : GoString), isSpace b.toNat = false :=
        List.forall_mem_singleton.mpr (by decide)
      rw [text, cutAt_of_notMem (by simp [hnul])]
      exact trimSpace_enclosed (c := 91) (by decide) (by decide) (by simp) hascii hplain u
    obtain ⟨v, close, dot, hip, rfl, hclose, hdot, hrest⟩ := isIP_of_bracket htext h
    have hv := noBrackets_of_isIP hip
    have huv : u = v := by
      rcases hclose with rfl | rfl
      · have hmem : (93 : UInt8) ∈ v ++ [] ++ dot := by
          rw [← hrest]
          simp
        rcases hdot with rfl | rfl <;> simp [hv.2] at hmem
      · rcases hdot with rfl | rfl
        · rw [List.append_nil] at hrest
          exact (List.append_inj' hrest rfl).1
        · cases (List.append_inj' hrest rfl).2
    subst huv
    exact normalize_of_isIP hip (Or.inl rfl) (text_of_isIP hip)

end HostAddr

/-! ## Taking the port off -/

section NormalizeHost

open HostAddr (normalize text)

variable {value host port e : GoString}

/-- A port that `SplitHostPort` finds. -/
theorem normalizeHost_of_split (hvalue : trimSpace value ≠ [])
    (hsplit : splitHostPort (trimSpace value) = .ok (host, port)) (hhost : trimSpace host ≠ []) :
    normalizeHost value = normalize host := by
  simp only [normalizeHost, if_neg hvalue, hsplit, if_neg hhost]

/-- One that is cut off by hand, at the only colon. -/
theorem normalizeHost_of_cut (hsplit : splitHostPort (trimSpace value) = .error e)
    (hvalue : trimSpace value = host ++ [58] ++ port) (hcolon : 58 ∉ host ∧ 58 ∉ port)
    (hport : port ≠ []) (hhost : trimSpace host ≠ []) :
    normalizeHost value = normalize host := by
  have hne : trimSpace value ≠ [] := by simp [hvalue]
  have hcount : (trimSpace value).count 58 = 1 := by
    rw [hvalue, List.count_append, List.count_append, List.count_eq_zero.mpr hcolon.1,
      List.count_eq_zero.mpr hcolon.2]
    rfl
  have hcut : cutAt 58 (trimSpace value) = host := by
    rw [hvalue, List.append_assoc]
    exact cutAt_append_cons hcolon.1 port
  have hafter : ((trimSpace value).dropWhile (· != 58)).drop 1 = port := by
    have hfront : ∀ b ∈ host, (b != 58) = true := by
      intro b hb
      rw [bne_iff_ne]
      rintro rfl
      exact hcolon.1 hb
    rw [hvalue, List.append_assoc, List.dropWhile_append_of_pos hfront]
    rfl
  have hblank : host ≠ [] := by
    rintro rfl
    exact hhost rfl
  have htaken : (trimSpace value).count 58 = 1 ∧ cutAt 58 (trimSpace value) ≠ [] ∧
      ((trimSpace value).dropWhile (· != 58)).drop 1 ≠ [] := by
    rw [hcut, hafter]
    exact ⟨hcount, hblank, hport⟩
  simp only [normalizeHost, if_neg hne, hsplit, if_pos htaken]
  rw [hcut, if_neg hhost]

/-- No port. -/
theorem normalizeHost_of_whole (hvalue : trimSpace value ≠ [])
    (hsplit : splitHostPort (trimSpace value) = .error e) (hcount : value.count 58 ≠ 1) :
    normalizeHost value = normalize value := by
  rw [← count_trimSpace (by decide) (by decide)] at hcount
  simp only [normalizeHost, if_neg hvalue, hsplit, hcount, false_and, if_false, trimSpace_trimSpace]
  exact HostAddr.normalize_congr (HostAddr.text_trimSpace value)

/-- A port: digits, at least one. -/
structure IsPort (port : GoString) : Prop where
  ne_nil : port ≠ []
  digits : ∀ b ∈ port, 48 ≤ b ∧ b ≤ 57

theorem IsPort.notMem (h : IsPort port) {b : UInt8} (hb : ¬ (48 ≤ b ∧ b ≤ 57)) : b ∉ port :=
  fun hmem => hb (h.digits b hmem)

/-- A colon and a port are no white space. -/
theorem IsPort.plain (h : IsPort port) : ∀ b ∈ [58] ++ port, b < 0x80 ∧ isSpace b.toNat = false := by
  have hbyte : ∀ b : UInt8, 48 ≤ b ∧ b ≤ 57 → b < 0x80 ∧ isSpace b.toNat = false :=
    forall_byte (by decide +kernel)
  intro b hb
  rcases List.mem_append.mp hb with hb | hb
  · exact List.mem_singleton.mp hb ▸ ⟨by decide, by decide⟩
  · exact hbyte b (h.digits b hb)

theorem IsPort.trimSpace_append (h : IsPort port) (s : GoString) :
    ∃ front rest, runes s = front ++ rest ∧ (∀ r ∈ front, isSpace r.code = true) ∧
      trimSpace (s ++ [58] ++ port) = rest.flatMap Rune.bytes ++ [58] ++ port := by
  rw [List.append_assoc]
  obtain ⟨front, rest, hrunes, hspace, htrim⟩ := Unicode.trimSpace_append (q := [58] ++ port)
    (by simp) (fun b hb => (h.plain b hb).1) (fun b hb => (h.plain b hb).2) s
  exact ⟨front, rest, hrunes, hspace, by rw [htrim, List.append_assoc]⟩

/-- **The port of a host without colons does not matter.** -/
theorem normalizeHost_port {s n : GoString} (hs : 58 ∉ s) (h : normalize s = .ok n)
    (hport : IsPort port) : normalizeHost (s ++ [58] ++ port) = .ok n := by
  obtain ⟨front, rest, hrunes, hspace, htrim⟩ := hport.trimSpace_append s
  -- what is left of `s` once the white space in front is off
  set t := rest.flatMap Rune.bytes with ht
  have hbytes := (runes_of_back hrunes).1
  have hparts : runes s = front ++ rest ++ [] := by rw [hrunes, List.append_nil]
  have htext : text t = text s := HostAddr.text_of_parts hparts (by simpa using hspace)
  have hnorm : normalize t = .ok n := by rw [HostAddr.normalize_congr htext, h]
  have hcolon : 58 ∉ t := fun hmem => hs (by rw [hbytes]; exact List.mem_append_right _ hmem)
  have hportColon : 58 ∉ port := hport.notMem (by decide)
  have hhost := HostAddr.trimSpace_ne_nil hnorm
  cases hsplit : splitHostPort (t ++ [58] ++ port) with
  | error e => rw [normalizeHost_of_cut (htrim ▸ hsplit) htrim ⟨hcolon, hportColon⟩ hport.ne_nil hhost, hnorm]
  | ok p =>
    obtain ⟨host, port'⟩ := p
    have hvalue : trimSpace (s ++ [58] ++ port) ≠ [] := by
      rw [htrim]
      simp
    have hboth : normalize host = .ok n := by
      rcases host_of_splitHostPort hcolon hportColon hsplit with rfl | ⟨heq, hbrackets⟩
      · exact hnorm
      · rw [heq] at hnorm
        exact HostAddr.normalize_unbracketed hbrackets hnorm
    rw [normalizeHost_of_split hvalue (htrim ▸ hsplit) (HostAddr.trimSpace_ne_nil hboth), hboth]

/-- A host without colons has no port to take off. -/
theorem normalizeHost_of_notMem {s : GoString} (hs : 58 ∉ s) (hne : trimSpace s ≠ []) :
    normalizeHost s = normalize s := by
  obtain ⟨e, hsplit⟩ := splitHostPort_of_notMem fun hmem => hs (mem_of_mem_trimSpace hmem)
  refine normalizeHost_of_whole hne hsplit ?_
  rw [List.count_eq_zero.mpr hs]
  decide

section Colons

variable {x : GoString}

theorem trimSpace_ne_nil_of_colons (h : 2 ≤ x.count 58) : trimSpace x ≠ [] := by
  intro hnil
  rw [← count_trimSpace (by decide) (by decide), hnil] at h
  exact absurd h (by decide)

/-- Nor has one with two colons and no brackets. -/
theorem normalizeHost_of_colons (hx : 91 ∉ x) (h : 2 ≤ x.count 58) :
    normalizeHost x = normalize x := by
  have hhead : (trimSpace x).head? ≠ some 91 :=
    fun hhead => hx (mem_of_mem_trimSpace (List.mem_of_mem_head? hhead))
  obtain ⟨e, hsplit⟩ := splitHostPort_of_colons hhead
    (by rwa [count_trimSpace (by decide) (by decide)])
  exact normalizeHost_of_whole (trimSpace_ne_nil_of_colons h) hsplit (by omega)

/-- **In brackets it has**, and that does not matter either. -/
theorem normalizeHost_bracketed (hx : 91 ∉ x ∧ 93 ∉ x) (h : 2 ≤ x.count 58) (hport : IsPort port) :
    normalizeHost (91 :: x ++ [93] ++ [58] ++ port) = normalize x := by
  have htrim : trimSpace (91 :: x ++ [93] ++ [58] ++ port) = 91 :: x ++ [93] ++ [58] ++ port := by
    have hascii : IsAscii ([58] ++ port) := fun b hb => (hport.plain b hb).1
    have henclosed := trimSpace_enclosed (c := 91) (by decide) (by decide) (q := [58] ++ port)
      (by simp) hascii (fun b hb => (hport.plain b hb).2) (x ++ [93])
    rw [List.append_assoc, List.cons_append]
    exact henclosed
  have hsplit := splitHostPort_bracketed hx
    ⟨hport.notMem (by decide), hport.notMem (by decide), hport.notMem (by decide)⟩
  refine normalizeHost_of_split ?_ (htrim ▸ hsplit) (trimSpace_ne_nil_of_colons h)
  rw [htrim]
  simp

end Colons

end NormalizeHost

end McRouter
