import McRouter.HostAddr

/-!
# Host syntax

Which texts `Normalize` accepts, and what it makes of them
(`normalize_eq_ok`). It is meant to accept host names and addresses, an
address perhaps in brackets. It lower-cases before it looks at the
characters, and two characters past ASCII have a lower case in ASCII; and
it strips a bracket at either end without a look at the other. So **a text
is read as host syntax exactly when it is not one of these two**
(`meetsSyntax_iff`).
-/

namespace McRouter

namespace HostAddr

open Strings Unicode Netip

/-! ## The syntax -/

/-- What `Normalize` looks at of an address: the part before the first NUL,
without the white space around it. -/
def text (address : GoString) : GoString := trimSpace (cutAt 0 address)

/-- The same without a final dot. -/
def core (address : GoString) : GoString := trimSuffix (text address) [46]

/-- An ASCII letter, a digit or the hyphen. -/
def isHostByte (c : UInt8) : Bool :=
  (97 ≤ c && c ≤ 122) || (65 ≤ c && c ≤ 90) || (48 ≤ c && c ≤ 57) || c == 45

/-- A label in either letter case. -/
structure HostLabel (label : GoString) : Prop where
  pos : 1 ≤ label.length
  short : label.length ≤ 63
  bytes : ∀ b ∈ label, isHostByte b = true
  first : label.head? ≠ some 45
  last : label.getLast? ≠ some 45

/-- At most 253 bytes of labels with dots in between. -/
structure HostName (t : GoString) : Prop where
  short : t.length ≤ 253
  labels : ∀ label ∈ split 46 t, HostLabel label

/-- **Host syntax**: an address, an address in brackets, or a name. -/
inductive HostSyntax : GoString → Prop
  | address {t : GoString} (h : isIP t = true) : HostSyntax t
  | bracketed {t : GoString} (h : isIP t = true) : HostSyntax (91 :: (t ++ [93]))
  | name {t : GoString} (h : HostName t) : HostSyntax t

/-- A text without its brackets. -/
def stripBrackets (s : GoString) : GoString := s.filter fun b => b != 91 && b != 93

/-- Every bracket has its partner, with `depth` of them open. -/
def balanced : (depth : ℕ) → GoString → Bool
  | depth, [] => depth == 0
  | depth, b :: s =>
    if b = 91 then balanced (depth + 1) s
    else if b = 93 then depth != 0 && balanced (depth - 1) s
    else balanced depth s

/-- `Normalize` treats the address as host syntax: it accepts the syntax and
returns it in lower case without brackets, and it accepts nothing that is
not ASCII or has a bracket without a partner. -/
structure MeetsSyntax (address : GoString) : Prop where
  accepts : (∃ host, normalize address = .ok host) ↔ HostSyntax (core address)
  result : ∀ host, normalize address = .ok host → host = stripBrackets (lowerAscii (core address))
  refuses : ¬ IsAscii (text address) ∨ balanced 0 (text address) = false →
    ∀ host, normalize address ≠ .ok host

/-! ## Lower case, byte by byte -/

theorem isAscii_lowerAscii {s : GoString} : IsAscii (lowerAscii s) ↔ IsAscii s := by
  have hbyte : ∀ b : UInt8, lowerByte b < 0x80 ↔ b < 0x80 := forall_byte (by decide +kernel)
  simp only [IsAscii, lowerAscii, List.forall_mem_map, hbyte]

theorem isLabel_lowerAscii {label : GoString} : IsLabel (lowerAscii label) ↔ HostLabel label := by
  have hbyte : ∀ b : UInt8, isLabelByte (lowerByte b) = isHostByte b :=
    forall_byte (by decide +kernel)
  have hlen : (lowerAscii label).length = label.length := List.length_map _
  have hbytes : (∀ b ∈ lowerAscii label, isLabelByte b = true) ↔ ∀ b ∈ label, isHostByte b = true := by
    simp only [lowerAscii, List.forall_mem_map, hbyte]
  have hfirst : (lowerAscii label).head? = some 45 ↔ label.head? = some 45 :=
    head_lowerAscii (by decide)
  have hlast : (lowerAscii label).getLast? = some 45 ↔ label.getLast? = some 45 :=
    getLast_lowerAscii (by decide)
  constructor
  · intro h
    exact ⟨hlen ▸ h.pos, hlen ▸ h.short, hbytes.mp h.bytes, mt hfirst.mpr h.first, mt hlast.mpr h.last⟩
  · intro h
    exact ⟨hlen.symm ▸ h.pos, hlen.symm ▸ h.short, hbytes.mpr h.bytes, mt hfirst.mp h.first,
      mt hlast.mp h.last⟩

theorem split_lowerAscii (s : GoString) : split 46 (lowerAscii s) = (split 46 s).map lowerAscii := by
  unfold split
  induction s with
  | nil => rfl
  | cons c t ih =>
    show (lowerByte c :: lowerAscii t).splitOn 46 = _
    rw [List.splitOn_cons_eq_if_modifyHead, List.splitOn_cons_eq_if_modifyHead, ih]
    obtain ⟨p, ps, hps⟩ := List.exists_cons_of_ne_nil (List.splitOn_ne_nil 46 t)
    have hdot : lowerByte c = 46 ↔ c = 46 := lowerByte_eq (by decide)
    rw [hps]
    by_cases hc : c = 46
    · rw [if_pos (beq_iff_eq.mpr hc), if_pos (beq_iff_eq.mpr (hdot.mpr hc))]
      rfl
    · rw [if_neg (mt beq_iff_eq.mp hc), if_neg (mt beq_iff_eq.mp (mt hdot.mp hc))]
      rfl

theorem trimSuffix_concat (s : GoString) (c : UInt8) : trimSuffix (s ++ [c]) [c] = s := by
  simp [trimSuffix]

theorem trimSuffix_lowerAscii {c : UInt8} (hc : NoLetter c) (s : GoString) :
    trimSuffix (lowerAscii s) [c] = lowerAscii (trimSuffix s [c]) := by
  by_cases hs : s.getLast? = some c
  · obtain ⟨t, rfl⟩ := List.getLast?_eq_some_iff.mp hs
    have hconcat : lowerAscii (t ++ [c]) = lowerAscii t ++ [c] := by
      rw [lowerAscii, List.map_append, List.map_singleton, (lowerByte_eq hc).mpr rfl]
      rfl
    rw [hconcat, trimSuffix_concat, trimSuffix_concat]
  · rw [trimSuffix_singleton_of_getLast_ne hs,
      trimSuffix_singleton_of_getLast_ne (mt (getLast_lowerAscii hc).mp hs)]

theorem trimPrefix_cons (s : GoString) (c : UInt8) : trimPrefix (c :: s) [c] = s := by
  simp [trimPrefix, hasPrefix]

theorem trimPrefix_lowerAscii {c : UInt8} (hc : NoLetter c) (s : GoString) :
    trimPrefix (lowerAscii s) [c] = lowerAscii (trimPrefix s [c]) := by
  by_cases hs : s.head? = some c
  · obtain ⟨t, rfl⟩ := List.head?_eq_some_iff.mp hs
    have hcons : lowerAscii (c :: t) = c :: lowerAscii t := by
      rw [lowerAscii, List.map_cons, (lowerByte_eq hc).mpr rfl]
      rfl
    rw [hcons, trimPrefix_cons, trimPrefix_cons]
  · rw [trimPrefix_singleton_of_head_ne hs,
      trimPrefix_singleton_of_head_ne (mt (head_lowerAscii hc).mp hs)]

/-! ## Characters with a lower case in ASCII -/

/-- A rune with `U+0130` and `U+212A` replaced by the letters they
lower-case to. -/
def foldRune (r : Rune) : GoString :=
  if r.code = 0x130 then [105] else if r.code = 0x212A then [107] else r.bytes

/-- A text with `U+0130` and `U+212A` replaced. -/
def fold (s : GoString) : GoString := (runes s).flatMap foldRune

theorem foldRune_ofByte {b : UInt8} (hb : b < 0x80) : foldRune (ofByte b) = [b] := by
  have hlt : b.toNat < 0x80 := hb
  have h130 : (ofByte b).code ≠ 0x130 := by show b.toNat ≠ 0x130; omega
  have h212A : (ofByte b).code ≠ 0x212A := by show b.toNat ≠ 0x212A; omega
  rw [foldRune, if_neg h130, if_neg h212A]
  rfl

/-- Lower-cased or replaced, a rune is ASCII or not; where it is, the two
are the same but for letter case. -/
theorem foldRune_cases {s : GoString} {r : Rune} (hr : r ∈ runes s) :
    IsAscii (foldRune r) ∧ encodeRune (lowerRune r.code) = lowerAscii (foldRune r) ∨
      (∃ b ∈ encodeRune (lowerRune r.code), 0x80 ≤ b) ∧ ∃ b ∈ foldRune r, 0x80 ≤ b := by
  rcases rune_cases hr with ⟨b, hb, rfl⟩ | ⟨hcode, hbytes⟩
  · rw [foldRune_ofByte hb]
    exact Or.inl ⟨by simpa [IsAscii] using hb, encodeRune_lowerRune b hb⟩
  · by_cases hlow : lowerRune r.code < 0x80
    · rcases (lowerRune_lt hcode).mp hlow with h | h
      · rw [foldRune, h, if_pos rfl]
        exact Or.inl ⟨by simp [IsAscii], by decide +kernel⟩
      · rw [foldRune, h, if_neg (by decide), if_pos rfl]
        exact Or.inl ⟨by simp [IsAscii], by decide +kernel⟩
    · have hother := mt (lowerRune_lt hcode).mpr hlow
      obtain ⟨h130, h212A⟩ := not_or.mp hother
      refine Or.inr ⟨?_, by rwa [foldRune, if_neg h130, if_neg h212A]⟩
      obtain ⟨b, hb⟩ := List.exists_mem_of_ne_nil _ (encodeRune_ne_nil (lowerRune r.code))
      exact ⟨b, hb, le_of_mem_encodeRune (by omega) b hb⟩

theorem isAscii_flatMap {α : Type} {l : List α} {f : α → GoString} :
    IsAscii (l.flatMap f) ↔ ∀ a ∈ l, IsAscii (f a) := by
  constructor
  · exact fun h a ha b hb => h b (List.mem_flatMap.mpr ⟨a, ha, hb⟩)
  · intro h b hb
    obtain ⟨a, ha, hba⟩ := List.mem_flatMap.mp hb
    exact h a ha b hba

theorem not_isAscii {s : GoString} (h : ∃ b ∈ s, 0x80 ≤ b) : ¬ IsAscii s := by
  obtain ⟨b, hb, hle⟩ := h
  exact fun hascii => absurd (hascii b hb) (UInt8.not_lt.mpr hle)

/-- **A text that lower-cases into ASCII** is ASCII once the two characters
are replaced, and lower-cases to that. -/
theorem toLower_eq_fold {s : GoString} (h : IsAscii (toLower s) ∨ IsAscii (fold s)) :
    IsAscii (fold s) ∧ toLower s = lowerAscii (fold s) := by
  have hrune : ∀ r ∈ runes s, IsAscii (foldRune r) ∧
      encodeRune (lowerRune r.code) = lowerAscii (foldRune r) := by
    intro r hr
    rcases foldRune_cases hr with hboth | ⟨hlower, hfold⟩
    · exact hboth
    · rcases h with h | h
      · exact absurd (isAscii_flatMap.mp h r hr) (not_isAscii hlower)
      · exact absurd (isAscii_flatMap.mp h r hr) (not_isAscii hfold)
  refine ⟨isAscii_flatMap.mpr fun r hr => (hrune r hr).1, ?_⟩
  rw [toLower, fold, lowerAscii, List.map_flatMap]
  exact List.flatMap_congr fun r hr => (hrune r hr).2

/-- An ASCII text has neither of the two. -/
theorem fold_of_isAscii {s : GoString} (h : IsAscii s) : fold s = s := by
  have hbytes : ∀ b ∈ s, foldRune (ofByte b) = [b] := fun b hb => foldRune_ofByte (h b hb)
  rw [fold, runes_eq_map h, List.flatMap_map, List.flatMap_congr hbytes]
  exact List.flatMap_singleton' s

/-- One that is ASCII only once they are replaced has an `i` or a `k`
there. -/
theorem letter_of_fold {s : GoString} (h : ¬ IsAscii s) (hfold : IsAscii (fold s)) :
    105 ∈ fold s ∨ 107 ∈ fold s := by
  by_contra hno
  obtain ⟨hi, hk⟩ := not_or.mp hno
  refine h ?_
  rw [← flatMap_bytes_runes s]
  refine isAscii_flatMap.mpr fun r hr => ?_
  have hr' := isAscii_flatMap.mp hfold r hr
  rw [foldRune] at hr'
  split at hr'
  · rename_i hcode
    exact absurd (List.mem_flatMap.mpr ⟨r, hr, by rw [foldRune, if_pos hcode]; simp⟩) hi
  split at hr'
  · rename_i hcode' hcode
    exact absurd (List.mem_flatMap.mpr ⟨r, hr, by rw [foldRune, if_neg hcode', if_pos hcode]; simp⟩) hk
  · exact hr'

/-! ## Brackets -/

/-- `t` is `u` with a bracket in front, behind, at both ends or at none. -/
def Bracketing (u t : GoString) : Prop :=
  t = u ∨ t = 91 :: u ∨ t = u ++ [93] ∨ t = 91 :: (u ++ [93])

/-- What `Normalize` strips. -/
theorem bracketing_ipCandidate (t : GoString) :
    Bracketing (trimPrefix (trimSuffix t [93]) [91]) t := by
  by_cases hlast : t.getLast? = some 93
  · obtain ⟨s, rfl⟩ := List.getLast?_eq_some_iff.mp hlast
    rw [trimSuffix_concat]
    by_cases hhead : s.head? = some 91
    · obtain ⟨u, rfl⟩ := List.head?_eq_some_iff.mp hhead
      rw [trimPrefix_cons]
      exact Or.inr (Or.inr (Or.inr rfl))
    · rw [trimPrefix_singleton_of_head_ne hhead]
      exact Or.inr (Or.inr (Or.inl rfl))
  · rw [trimSuffix_singleton_of_getLast_ne hlast]
    by_cases hhead : t.head? = some 91
    · obtain ⟨u, rfl⟩ := List.head?_eq_some_iff.mp hhead
      rw [trimPrefix_cons]
      exact Or.inr (Or.inl rfl)
    · rw [trimPrefix_singleton_of_head_ne hhead]
      exact Or.inl rfl

/-- A text without brackets is found again. -/
theorem ipCandidate_of_bracketing {u t : GoString} (h : Bracketing u t) (hu : 91 ∉ u ∧ 93 ∉ u) :
    trimPrefix (trimSuffix t [93]) [91] = u := by
  have hhead : u.head? ≠ some 91 := fun hu91 => hu.1 (List.mem_of_mem_head? hu91)
  have hlast : u.getLast? ≠ some 93 := fun hu93 => hu.2 (List.mem_of_getLast? hu93)
  have hlast' : (91 :: u).getLast? ≠ some 93 := by
    intro h93
    rcases List.mem_cons.mp (List.mem_of_getLast? h93) with h93 | h93
    · cases h93
    · exact hu.2 h93
  rcases h with rfl | rfl | rfl | rfl
  · rw [trimSuffix_singleton_of_getLast_ne hlast, trimPrefix_singleton_of_head_ne hhead]
  · rw [trimSuffix_singleton_of_getLast_ne hlast', trimPrefix_cons]
  · rw [trimSuffix_concat, trimPrefix_singleton_of_head_ne hhead]
  · rw [← List.cons_append, trimSuffix_concat, trimPrefix_cons]

theorem mem_of_bracketing {u t : GoString} (h : Bracketing u t) {b : UInt8} (hb : b ∈ t) :
    b = 91 ∨ b = 93 ∨ b ∈ u := by
  rcases h with rfl | rfl | rfl | rfl
  · exact Or.inr (Or.inr hb)
  · rcases List.mem_cons.mp hb with hb | hb
    · exact Or.inl hb
    · exact Or.inr (Or.inr hb)
  · rcases List.mem_append.mp hb with hb | hb
    · exact Or.inr (Or.inr hb)
    · exact Or.inr (Or.inl (List.mem_singleton.mp hb))
  · rcases List.mem_cons.mp hb with hb | hb
    · exact Or.inl hb
    rcases List.mem_append.mp hb with hb | hb
    · exact Or.inr (Or.inr hb)
    · exact Or.inr (Or.inl (List.mem_singleton.mp hb))

theorem notMem_of_isIP {u : GoString} (h : isIP u = true) {b : UInt8} (hb : isIPByte b = false) :
    b ∉ u := by
  intro hmem
  have hbyte := (ipText_of_isIP h).1.1 b hmem
  rw [hb] at hbyte
  cases hbyte

theorem isAscii_of_isIP {u : GoString} (h : isIP u = true) : IsAscii u := by
  have hbyte : ∀ b : UInt8, isIPByte b = true → b < 0x80 := forall_byte (by decide +kernel)
  exact fun b hb => hbyte b ((ipText_of_isIP h).1.1 b hb)

theorem isAscii_of_bracketing {u t : GoString} (h : Bracketing u t) (hu : IsAscii u) : IsAscii t := by
  intro b hb
  rcases mem_of_bracketing h hb with rfl | rfl | hb
  · decide
  · decide
  · exact hu b hb

theorem length_of_bracketing {u t : GoString} (h : Bracketing u t) :
    u.length ≤ t.length ∧ t.length ≤ u.length + 2 := by
  rcases h with rfl | rfl | rfl | rfl
  · omega
  · rw [List.length_cons]
    omega
  · rw [List.length_append, List.length_singleton]
    omega
  · rw [List.length_cons, List.length_append, List.length_singleton]
    omega

/-! ## What is accepted -/

theorem HostName.byte {t : GoString} (h : HostName t) {b : UInt8} (hb : b ∈ t) :
    b = 46 ∨ isHostByte b = true := by
  rcases mem_of_mem_split 46 hb with hdot | ⟨label, hlabel, hb⟩
  · exact Or.inl hdot
  · exact Or.inr ((h.labels label hlabel).bytes b hb)

theorem HostName.isAscii {t : GoString} (h : HostName t) : IsAscii t := by
  have hbyte : ∀ b : UInt8, isHostByte b = true → b < 0x80 := forall_byte (by decide +kernel)
  intro b hb
  rcases h.byte hb with rfl | hb
  · decide
  · exact hbyte b hb

theorem HostName.notMem {t : GoString} (h : HostName t) {b : UInt8} (hdot : b ≠ 46)
    (hb : isHostByte b = false) : b ∉ t := by
  intro hmem
  rcases h.byte hmem with heq | hbyte
  · exact hdot heq
  · rw [hb] at hbyte
    cases hbyte

theorem HostName.ne_nil {t : GoString} (h : HostName t) : t ≠ [] := by
  rintro rfl
  have hpos := (h.labels [] (by simp [split])).pos
  rw [List.length_nil] at hpos
  omega

theorem hostName_iff {t : GoString} : HostName t ↔
    t.length ≤ maxHostBytes ∧ (split 46 (lowerAscii t)).findSome? labelError = none := by
  rw [labels_pass, split_lowerAscii]
  simp only [List.forall_mem_map, isLabel_lowerAscii]
  exact ⟨fun h => ⟨h.short, h.labels⟩, fun h => ⟨h.1, h.2⟩⟩

/-- The first steps of `Normalize`, as the other steps see them. -/
theorem normalize_eq {address t : GoString}
    (ht : trimSuffix (toLower (text address)) [46] = lowerAscii t) (hascii : IsAscii t) :
    normalize address =
      if t = [] then .error (invalid (go "empty"))
      else if maxHostBytes < t.length then
        .error (invalid (go "length " ++ itoa t.length ++ go " exceeds " ++ itoa maxHostBytes))
      else if isIP (trimPrefix (trimSuffix t [93]) [91]) then
        .ok (lowerAscii (trimPrefix (trimSuffix t [93]) [91]))
      else match (split 46 (lowerAscii t)).findSome? labelError with
        | some err => .error err
        | none => .ok (lowerAscii t) := by
  have hlen : (lowerAscii t).length = t.length := List.length_map _
  have hvalid := validString_of_isAscii (isAscii_lowerAscii.mpr hascii)
  have hcandidate : trimPrefix (trimSuffix (lowerAscii t) [93]) [91] =
      lowerAscii (trimPrefix (trimSuffix t [93]) [91]) := by
    rw [trimSuffix_lowerAscii (by decide), trimPrefix_lowerAscii (by decide)]
  unfold normalize
  dsimp only
  rw [text] at ht
  rw [ht]
  refine if_congr lowerAscii_eq_nil rfl ?_
  rw [hlen, hvalid, hcandidate, isIP_lowerAscii]
  rfl

/-- The text that is read: the two characters replaced, without a final
dot. -/
def folded (address : GoString) : GoString := trimSuffix (fold (text address)) [46]

theorem isAscii_trimSuffix_dot {s : GoString} : IsAscii (trimSuffix s [46]) ↔ IsAscii s := by
  by_cases hs : s.getLast? = some 46
  · obtain ⟨t, rfl⟩ := List.getLast?_eq_some_iff.mp hs
    rw [trimSuffix_concat]
    have hdot : (46 : UInt8) < 0x80 := by decide
    simp only [IsAscii, List.mem_append, List.mem_singleton, or_imp, forall_and, forall_eq, hdot,
      and_true]
  · rw [trimSuffix_singleton_of_getLast_ne hs]

theorem mem_trimSuffix_dot {s : GoString} {b : UInt8} (hb : b ≠ 46) :
    b ∈ trimSuffix s [46] ↔ b ∈ s := by
  by_cases hs : s.getLast? = some 46
  · obtain ⟨t, rfl⟩ := List.getLast?_eq_some_iff.mp hs
    rw [trimSuffix_concat, List.mem_append, List.mem_singleton, or_iff_left hb]
  · rw [trimSuffix_singleton_of_getLast_ne hs]

/-- What is accepted lower-cases into ASCII. -/
theorem isAscii_of_normalize {address host : GoString} (h : normalize address = .ok host) :
    IsAscii (toLower (text address)) := by
  refine isAscii_trimSuffix_dot.mp ?_
  unfold normalize at h
  rw [text]
  dsimp only at h
  generalize trimSuffix (toLower (trimSpace (cutAt 0 address))) [46] = t at h ⊢
  split at h
  · cases h
  split at h
  · cases h
  split at h
  · cases h
  split at h
  · rename_i hip
    exact isAscii_of_bracketing (bracketing_ipCandidate t) (isAscii_of_isIP hip)
  · split at h
    · cases h
    · rename_i hlabels
      have hbyte : ∀ b : UInt8, isNameByte b = true → b < 0x80 := forall_byte (by decide +kernel)
      exact fun b hb => hbyte b ((nameBytes_of_labels hlabels).1 b hb)

/-- **What `Normalize` accepts and returns**: an address with or without
brackets at its ends, without them; or a name. -/
theorem normalize_eq_ok {address host : GoString} : normalize address = .ok host ↔
    (∃ u, isIP u = true ∧ Bracketing u (folded address) ∧ host = lowerAscii u) ∨
      HostName (folded address) ∧ host = lowerAscii (folded address) := by
  -- on either side the text is ASCII once it is lower-cased, and `normalize_eq` applies
  have hsteps : IsAscii (toLower (text address)) ∨ IsAscii (fold (text address)) →
      IsAscii (folded address) ∧
        trimSuffix (toLower (text address)) [46] = lowerAscii (folded address) := by
    intro h
    obtain ⟨hascii, hlower⟩ := toLower_eq_fold h
    exact ⟨isAscii_trimSuffix_dot.mpr hascii, by rw [hlower, trimSuffix_lowerAscii (by decide)]; rfl⟩
  constructor
  · intro h
    obtain ⟨hascii, ht⟩ := hsteps (Or.inl (isAscii_of_normalize h))
    rw [normalize_eq ht hascii] at h
    split at h
    · cases h
    split at h
    · cases h
    rename_i hlong
    split at h
    · rename_i hip
      obtain rfl := Except.ok.inj h
      exact Or.inl ⟨_, hip, bracketing_ipCandidate _, rfl⟩
    · split at h
      · cases h
      · rename_i hlabels
        obtain rfl := Except.ok.inj h
        exact Or.inr ⟨hostName_iff.mpr ⟨by omega, hlabels⟩, rfl⟩
  · rintro (⟨u, hip, hbrackets, rfl⟩ | ⟨hname, rfl⟩)
    · have hu := isAscii_of_isIP hip
      obtain ⟨hascii, ht⟩ := hsteps (Or.inr (isAscii_trimSuffix_dot.mp
        (isAscii_of_bracketing hbrackets hu)))
      obtain ⟨hmin, hmax⟩ := length_of_bracketing hbrackets
      have hlen := length_of_isIP hip
      have hpos := List.length_pos_iff.mpr (ipText_of_isIP hip).2
      have hbytes : maxHostBytes = 253 := rfl
      have hcandidate := ipCandidate_of_bracketing hbrackets
        ⟨notMem_of_isIP hip (by decide), notMem_of_isIP hip (by decide)⟩
      rw [normalize_eq ht hascii, if_neg (List.length_pos_iff.mp (by omega)), if_neg (by omega),
        hcandidate, if_pos hip]
    · obtain ⟨hascii, ht⟩ := hsteps (Or.inr (isAscii_trimSuffix_dot.mp hname.isAscii))
      obtain ⟨hlen, hlabels⟩ := hostName_iff.mp hname
      have hcandidate := ipCandidate_of_bracketing (Or.inl rfl : Bracketing _ (folded address))
        ⟨hname.notMem (by decide) (by decide), hname.notMem (by decide) (by decide)⟩
      rw [normalize_eq ht hascii, if_neg hname.ne_nil, if_neg (by omega), hcandidate, hlabels]
      split
      · rfl
      · rfl

/-! ## Which texts are read as host syntax -/

/-- An address with a bracket at one end only. -/
def HalfBracketed (t : GoString) : Prop := ∃ u, isIP u = true ∧ (t = 91 :: u ∨ t = u ++ [93])

/-- A name only once `U+0130` and `U+212A` are replaced by `i` and `k`. -/
def FoldsToName (address : GoString) : Prop :=
  ¬ IsAscii (text address) ∧ HostName (folded address)

theorem folded_eq_core {address : GoString} (h : IsAscii (text address)) :
    folded address = core address := by
  rw [folded, fold_of_isAscii h, core]

theorem text_eq (address : GoString) :
    ∃ dot, (dot = [] ∨ dot = [46]) ∧ text address = core address ++ dot := by
  by_cases h : (text address).getLast? = some 46
  · obtain ⟨t, ht⟩ := List.getLast?_eq_some_iff.mp h
    exact ⟨[46], Or.inr rfl, by rw [core, ht, trimSuffix_concat]⟩
  · exact ⟨[], Or.inl rfl, by rw [core, trimSuffix_singleton_of_getLast_ne h, List.append_nil]⟩

theorem mem_lowerAscii {s : GoString} {c : UInt8} (hc : NoLetter c) : c ∈ lowerAscii s ↔ c ∈ s := by
  simp only [lowerAscii, List.mem_map, lowerByte_eq hc, exists_eq_right]

theorem stripBrackets_of_notMem {s : GoString} (h : 91 ∉ s ∧ 93 ∉ s) : stripBrackets s = s := by
  refine List.filter_eq_self.mpr fun b hb => ?_
  rw [Bool.and_eq_true, bne_iff_ne, bne_iff_ne]
  exact ⟨fun heq => h.1 (heq ▸ hb), fun heq => h.2 (heq ▸ hb)⟩

/-- A text without brackets does not count. -/
theorem balanced_append {s : GoString} (h : 91 ∉ s ∧ 93 ∉ s) (depth : ℕ) (t : GoString) :
    balanced depth (s ++ t) = balanced depth t := by
  induction s with
  | nil => rfl
  | cons b s ih =>
    obtain ⟨h91, h93⟩ := h
    rw [List.mem_cons, not_or] at h91 h93
    rw [List.cons_append, balanced, if_neg (Ne.symm h91.1), if_neg (Ne.symm h93.1)]
    exact ih ⟨h91.2, h93.2⟩

/-- An address has no brackets of its own. -/
theorem noBrackets_of_isIP {u : GoString} (h : isIP u = true) : 91 ∉ u ∧ 93 ∉ u :=
  ⟨notMem_of_isIP h (by decide), notMem_of_isIP h (by decide)⟩

theorem HostName.noBrackets {t : GoString} (h : HostName t) : 91 ∉ t ∧ 93 ∉ t :=
  ⟨h.notMem (by decide) (by decide), h.notMem (by decide) (by decide)⟩

theorem noBrackets_lowerAscii {s : GoString} (h : 91 ∉ s ∧ 93 ∉ s) :
    91 ∉ lowerAscii s ∧ 93 ∉ lowerAscii s :=
  ⟨mt (mem_lowerAscii (by decide)).mp h.1, mt (mem_lowerAscii (by decide)).mp h.2⟩

theorem HostSyntax.isAscii {t : GoString} (h : HostSyntax t) : IsAscii t := by
  cases h with
  | address h => exact isAscii_of_isIP h
  | bracketed h => exact isAscii_of_bracketing (Or.inr (Or.inr (Or.inr rfl))) (isAscii_of_isIP h)
  | name h => exact h.isAscii

/-- Host syntax has its brackets in pairs, and so has the text. -/
theorem HostSyntax.isBalanced {t : GoString} (h : HostSyntax t) {dot : GoString}
    (hdot : dot = [] ∨ dot = [46]) : balanced 0 (t ++ dot) = true := by
  have hend : ∀ depth, balanced depth dot = (depth == 0) := by
    intro depth
    rcases hdot with rfl | rfl <;> rfl
  cases h with
  | address h => rw [balanced_append (noBrackets_of_isIP h), hend]; rfl
  | @bracketed u h =>
    show balanced 1 ((u ++ [93]) ++ dot) = true
    rw [List.append_assoc, balanced_append (noBrackets_of_isIP h)]
    show balanced 0 dot = true
    rw [hend]
    rfl
  | name h => rw [balanced_append h.noBrackets, hend]; rfl

/-- An address with one bracket does not. -/
theorem HalfBracketed.unbalanced {t : GoString} (h : HalfBracketed t) {dot : GoString}
    (hdot : dot = [] ∨ dot = [46]) : balanced 0 (t ++ dot) = false := by
  obtain ⟨u, hip, rfl | rfl⟩ := h
  · show balanced 1 (u ++ dot) = false
    rw [balanced_append (noBrackets_of_isIP hip)]
    rcases hdot with rfl | rfl <;> rfl
  · rw [List.append_assoc, balanced_append (noBrackets_of_isIP hip)]
    rfl

/-- On ASCII, where no bracket stands alone, what is accepted is host syntax
and the result is that without its brackets. -/
theorem hostSyntax_of_normalize {address host : GoString} (hascii : IsAscii (text address))
    (hhalf : ¬ HalfBracketed (core address)) (h : normalize address = .ok host) :
    HostSyntax (core address) ∧ host = stripBrackets (lowerAscii (core address)) := by
  rw [normalize_eq_ok, folded_eq_core hascii] at h
  rcases h with ⟨u, hip, hcore, rfl⟩ | ⟨hname, rfl⟩
  · have hlower := noBrackets_lowerAscii (noBrackets_of_isIP hip)
    rcases hcore with hcore | hcore | hcore | hcore
    · rw [hcore, stripBrackets_of_notMem hlower]
      exact ⟨.address hip, rfl⟩
    · exact absurd ⟨u, hip, Or.inl hcore⟩ hhalf
    · exact absurd ⟨u, hip, Or.inr hcore⟩ hhalf
    · refine ⟨hcore ▸ .bracketed hip, ?_⟩
      have hbrackets : lowerAscii (91 :: (u ++ [93])) = [91] ++ lowerAscii u ++ [93] := by
        rw [lowerAscii, List.map_cons, List.map_append]
        rfl
      rw [hcore, hbrackets, stripBrackets, List.filter_append, List.filter_append]
      show lowerAscii u = [] ++ stripBrackets (lowerAscii u) ++ []
      rw [stripBrackets_of_notMem hlower, List.nil_append, List.append_nil]
  · rw [stripBrackets_of_notMem (noBrackets_lowerAscii hname.noBrackets)]
    exact ⟨.name hname, rfl⟩

/-- Host syntax is accepted. -/
theorem normalize_of_hostSyntax {address : GoString} (h : HostSyntax (core address)) :
    ∃ host, normalize address = .ok host := by
  have hascii : IsAscii (text address) := isAscii_trimSuffix_dot.mp h.isAscii
  simp only [normalize_eq_ok, folded_eq_core hascii]
  generalize core address = t at h
  cases h with
  | address h => exact ⟨_, Or.inl ⟨t, h, Or.inl rfl, rfl⟩⟩
  | bracketed h => exact ⟨_, Or.inl ⟨_, h, Or.inr (Or.inr (Or.inr rfl)), rfl⟩⟩
  | name h => exact ⟨_, Or.inr ⟨h, rfl⟩⟩

/-- Past ASCII a name is all that can be accepted: the letters that come in
are none of an address. -/
theorem hostName_of_normalize {address host : GoString} (hascii : ¬ IsAscii (text address))
    (h : normalize address = .ok host) : HostName (folded address) := by
  rcases normalize_eq_ok.mp h with ⟨u, hip, hfolded, -⟩ | ⟨hname, -⟩
  · have hfold : IsAscii (fold (text address)) :=
      isAscii_trimSuffix_dot.mp (isAscii_of_bracketing hfolded (isAscii_of_isIP hip))
    have habsent : ∀ b : UInt8, b ≠ 46 → b ≠ 91 → b ≠ 93 → isIPByte b = false →
        b ∉ fold (text address) := by
      intro b hdot h91 h93 hbyte hmem
      rcases mem_of_bracketing hfolded ((mem_trimSuffix_dot hdot).mpr hmem) with heq | heq | hu
      · exact h91 heq
      · exact h93 heq
      · exact notMem_of_isIP hip hbyte hu
    rcases letter_of_fold hascii hfold with hi | hk
    · exact absurd hi (habsent 105 (by decide) (by decide) (by decide) (by decide))
    · exact absurd hk (habsent 107 (by decide) (by decide) (by decide) (by decide))
  · exact hname

/-- **Which addresses are read as host syntax**: all but the addresses with
one bracket and the texts that become a name by lower-casing a character
past ASCII. -/
theorem meetsSyntax_iff (address : GoString) : MeetsSyntax address ↔
    ¬ HalfBracketed (core address) ∧ ¬ FoldsToName address := by
  obtain ⟨dot, hdot, htext⟩ := text_eq address
  constructor
  · intro h
    refine ⟨fun hhalf => ?_, fun ⟨hascii, hname⟩ => ?_⟩
    · -- the bracket is stripped and the address accepted
      obtain ⟨u, hip, hform⟩ := hhalf
      have hbrackets : Bracketing u (core address) := by
        rcases hform with hform | hform
        · exact Or.inr (Or.inl hform)
        · exact Or.inr (Or.inr (Or.inl hform))
      have hascii : IsAscii (text address) :=
        isAscii_trimSuffix_dot.mp (isAscii_of_bracketing hbrackets (isAscii_of_isIP hip))
      have hunbalanced := HalfBracketed.unbalanced ⟨u, hip, hform⟩ hdot
      rw [← htext] at hunbalanced
      refine h.refuses (Or.inr hunbalanced) (lowerAscii u) (normalize_eq_ok.mpr ?_)
      rw [folded_eq_core hascii]
      exact Or.inl ⟨u, hip, hbrackets, rfl⟩
    · exact h.refuses (Or.inl hascii) _ (normalize_eq_ok.mpr (Or.inr ⟨hname, rfl⟩))
  · rintro ⟨hhalf, hfolds⟩
    by_cases hascii : IsAscii (text address)
    · refine ⟨⟨fun ⟨host, hok⟩ => (hostSyntax_of_normalize hascii hhalf hok).1, normalize_of_hostSyntax⟩,
        fun host hok => (hostSyntax_of_normalize hascii hhalf hok).2, ?_⟩
      rintro (hno | hunbalanced) host hok
      · exact hno hascii
      · rw [htext, (hostSyntax_of_normalize hascii hhalf hok).1.isBalanced hdot] at hunbalanced
        cases hunbalanced
    · have hrefused : ∀ host, normalize address ≠ .ok host :=
        fun host hok => hfolds ⟨hascii, hostName_of_normalize hascii hok⟩
      refine ⟨iff_of_false (fun ⟨host, hok⟩ => hrefused host hok) fun h => hascii ?_,
        fun host hok => absurd hok (hrefused host), fun _ => hrefused⟩
      exact isAscii_trimSuffix_dot.mp h.isAscii

/-- **An address with one bracket is accepted, and so is a name with the
Kelvin sign.** -/
theorem half_bracket_accepted :
    normalize (go "[127.0.0.1") = .ok (go "127.0.0.1") ∧
    normalize (go "loc\u212Aer.example") = .ok (go "locker.example") ∧
    ¬ MeetsSyntax (go "[127.0.0.1") ∧ ¬ MeetsSyntax (go "loc\u212Aer.example") := by
  have hbracket : normalize (go "[127.0.0.1") = .ok (go "127.0.0.1") := by decide +kernel
  have hkelvin : normalize (go "loc\u212Aer.example") = .ok (go "locker.example") := by decide +kernel
  refine ⟨hbracket, hkelvin, fun h => ?_, fun h => ?_⟩
  · exact h.refuses (Or.inr (by decide +kernel)) _ hbracket
  · exact h.refuses (Or.inl (by decide +kernel)) _ hkelvin

end HostAddr

end McRouter
