import McRouter.Errors
import McRouter.Common.NetText

/-!
# Host names

`hostaddr.Normalize`, the one reading of a host name that the handshake,
the configuration, discovery and the router share. What they need of it is
that reading a normalised name again changes nothing (`normalize_idem`).
-/

namespace McRouter

namespace HostAddr

open Strings Unicode Netip

/-- `MaxHostBytes`. -/
def maxHostBytes : ℕ := 253

/-- `ErrInvalid`. -/
def errInvalid : Err := ⟨go "invalid server address", [.invalidHost]⟩

/-- `fmt.Errorf("%w: ...", ErrInvalid)`. -/
def invalid (why : GoString) : Err := errorf (errInvalid.text ++ go ": " ++ why) [errInvalid]

/-- A byte a label may hold. -/
def isLabelByte (c : UInt8) : Bool := (97 ≤ c && c ≤ 122) || (48 ≤ c && c ≤ 57) || c == 45

/-- What the label loop of `Normalize` reports of one label. -/
def labelError (label : GoString) : Option Err :=
  if label = [] then some (invalid (go "empty label"))
  else if 63 < label.length then
    some (invalid (go "label length " ++ itoa label.length ++ go " exceeds 63"))
  else if label.head? = some 45 ∨ label.getLast? = some 45 then
    some (invalid (go "label starts or ends with hyphen"))
  else (label.find? fun c => !isLabelByte c).map fun c =>
    invalid (go "unsupported character " ++ quoteRune c.toNat)

/-- `Normalize`. -/
def normalize (address : GoString) : Except Err GoString :=
  let first := cutAt 0 address
  let normalized := trimSuffix (toLower (trimSpace first)) [46]
  if normalized = [] then .error (invalid (go "empty"))
  else if maxHostBytes < normalized.length then
    .error (invalid (go "length " ++ itoa normalized.length ++ go " exceeds " ++ itoa maxHostBytes))
  else if !validString normalized then .error (invalid (go "not valid utf-8"))
  else
    let ipCandidate := trimPrefix (trimSuffix normalized [93]) [91]
    if isIP ipCandidate then .ok ipCandidate
    else match (split 46 normalized).findSome? labelError with
      | some err => .error err
      | none => .ok normalized

/-! ## What a normalised name is made of -/

/-- No byte of a lower-cased string is an upper-case letter: no mapping of
the table lands in `A` to `Z`. -/
theorem toLower_noUpper {s : GoString} {b : UInt8} (hb : b ∈ toLower s) : ¬ (65 ≤ b ∧ b ≤ 90) := by
  have htable : ∀ c ∈ caseRanges, (90 : ℤ) < c.lo + c.delta := by decide +kernel
  have hlow : ∀ r, ¬ (65 ≤ lowerRune r ∧ lowerRune r ≤ 90) := by
    intro r
    unfold lowerRune
    split
    · split <;> omega
    · cases hf : caseRanges.find? (·.covers r) with
      | none => simp only; omega
      | some c =>
        have hc := htable c (List.mem_of_find?_eq_some hf)
        have hcov := List.find?_some hf
        simp only [CaseRange.covers, Bool.and_eq_true, decide_eq_true_eq] at hcov
        simp only
        omega
  obtain ⟨r, -, hr⟩ := List.mem_flatMap.mp hb
  have hl := hlow r.code
  generalize lowerRune r.code = n at hr hl
  rintro ⟨h1, h2⟩
  have h1' : 65 ≤ b.toNat := h1
  have h2' : b.toNat ≤ 90 := h2
  by_cases hn : n < 0x80
  · rw [encodeRune, if_pos hn, List.mem_singleton] at hr
    rw [hr, UInt8.toNat_ofNat'] at h1' h2'
    omega
  · have hle : 0x80 ≤ b.toNat := le_of_mem_encodeRune (by omega) b hr
    omega

/-- **A label**: 1 to 63 of the letters `a` to `z`, the digits and the
hyphen, with no hyphen at either end. -/
structure IsLabel (label : GoString) : Prop where
  pos : 1 ≤ label.length
  short : label.length ≤ 63
  bytes : ∀ b ∈ label, isLabelByte b = true
  first : label.head? ≠ some 45
  last : label.getLast? ≠ some 45

/-- The loop accepts labels. -/
theorem labelError_eq_none {label : GoString} : labelError label = none ↔ IsLabel label := by
  unfold labelError
  by_cases hne : label = []
  · rw [if_pos hne]
    refine iff_of_false (Option.some_ne_none _) fun h => ?_
    have hpos := h.pos
    rw [hne, List.length_nil] at hpos
    omega
  have hpos := List.length_pos_iff.mpr hne
  rw [if_neg hne]
  by_cases hlong : 63 < label.length
  · rw [if_pos hlong]
    refine iff_of_false (Option.some_ne_none _) fun h => ?_
    have hshort := h.short
    omega
  rw [if_neg hlong]
  by_cases hhyphen : label.head? = some 45 ∨ label.getLast? = some 45
  · rw [if_pos hhyphen]
    exact iff_of_false (Option.some_ne_none _) fun h => not_or.mpr ⟨h.first, h.last⟩ hhyphen
  rw [if_neg hhyphen, Option.map_eq_none_iff, List.find?_eq_none]
  obtain ⟨hfirst, hlast⟩ := not_or.mp hhyphen
  constructor
  · intro h
    exact ⟨hpos, by omega, fun b hb => by simpa using h b hb, hfirst, hlast⟩
  · intro h b hb
    simp [h.bytes b hb]

/-- The label loop of `Normalize` accepts names made of labels. -/
theorem labels_pass {s : GoString} :
    (split 46 s).findSome? labelError = none ↔ ∀ label ∈ split 46 s, IsLabel label := by
  rw [List.findSome?_eq_none_iff]
  exact forall₂_congr fun label _ => labelError_eq_none

/-- A byte of a name: of a label, or the dot between two. -/
def isNameByte (c : UInt8) : Bool := isLabelByte c || c == 46

/-- **Names are made of name bytes and do not end in a dot.** -/
theorem nameBytes_of_labels {s : GoString} (h : (split 46 s).findSome? labelError = none) :
    (∀ b ∈ s, isNameByte b = true) ∧ s.getLast? ≠ some 46 := by
  have hlabel := labels_pass.mp h
  refine ⟨fun b hb => ?_, fun hl => ?_⟩
  · rcases mem_of_mem_split 46 hb with rfl | ⟨l, hl, hbl⟩
    · decide
    · simp [isNameByte, (hlabel l hl).bytes b hbl]
  · -- a trailing dot leaves an empty last label
    obtain ⟨t, rfl⟩ := List.getLast?_eq_some_iff.mp hl
    have hempty : IsLabel [] := by
      refine hlabel [] ?_
      rw [split, List.splitOn_append_cons_self]
      simp
    exact absurd hempty.pos (by decide)

/-- What a byte of a normalised name can be, as far as reading the name
again is concerned. -/
def IsPlain (b : UInt8) : Prop :=
  b ≠ 0 ∧ b < 0x80 ∧ isSpace b.toNat = false ∧ ¬ (65 ≤ b ∧ b ≤ 90) ∧ b ≠ 91 ∧ b ≠ 93

instance (b : UInt8) : Decidable (IsPlain b) := by unfold IsPlain; infer_instance

theorem isPlain_of_isNameByte : ∀ b : UInt8, isNameByte b = true → IsPlain b :=
  forall_byte (by decide +kernel)

theorem isPlain_of_isIPByte : ∀ b : UInt8, isIPByte b = true → ¬ (65 ≤ b ∧ b ≤ 90) → IsPlain b :=
  forall_byte (by decide +kernel)

/-- The first steps of `Normalize` leave a plain text without a final dot
as it is. -/
theorem clean_eq_self {s : GoString} (hplain : ∀ b ∈ s, IsPlain b) (hdot : s.getLast? ≠ some 46) :
    trimSuffix (toLower (trimSpace (cutAt 0 s))) [46] = s := by
  have hascii : IsAscii s := fun b hb => (hplain b hb).2.1
  rw [cutAt_of_notMem fun h0 => (hplain 0 h0).1 rfl,
    trimSpace_eq_self hascii fun b hb => (hplain b hb).2.2.1,
    toLower_eq_self hascii fun b hb => (hplain b hb).2.2.2.1,
    trimSuffix_singleton_of_getLast_ne hdot]

/-- A plain text has no brackets to strip. -/
theorem ipCandidate_eq_self {s : GoString} (hplain : ∀ b ∈ s, IsPlain b) :
    trimPrefix (trimSuffix s [93]) [91] = s := by
  rw [trimSuffix_singleton_of_getLast_ne fun h =>
      (hplain 93 (List.mem_of_getLast? h)).2.2.2.2.2 rfl,
    trimPrefix_singleton_of_head_ne fun h =>
      (hplain 91 (List.mem_of_mem_head? h)).2.2.2.2.1 rfl]

/-- **What `Normalize` returns**: a plain text of at most 253 bytes without
a final dot that is an address or whose labels all pass. -/
theorem normalize_ok {address n : GoString} (h : normalize address = .ok n) :
    n ≠ [] ∧ n.length ≤ maxHostBytes ∧ (∀ b ∈ n, IsPlain b) ∧ n.getLast? ≠ some 46 ∧
      (isIP n = true ∨ isIP n = false ∧ (split 46 n).findSome? labelError = none) := by
  unfold normalize at h
  simp only at h
  generalize hs : trimSuffix (toLower (trimSpace (cutAt 0 address))) [46] = s at h
  split at h
  · cases h
  rename_i hne
  split at h
  · cases h
  rename_i hlen
  split at h
  · cases h
  split at h
  · -- an address, with its brackets off
    rename_i hip
    cases h
    obtain ⟨htext, hne'⟩ := ipText_of_isIP hip
    have hsub : trimPrefix (trimSuffix s [93]) [91] <:+: toLower (trimSpace (cutAt 0 address)) :=
      (trimPrefix_suffix _ _).isInfix.trans
        ((trimSuffix_isPrefix _ _).isInfix.trans (hs ▸ (trimSuffix_isPrefix _ _).isInfix))
    refine ⟨hne', ?_, fun b hb => ?_, htext.2, Or.inl hip⟩
    · have h1 := (trimPrefix_suffix (trimSuffix s [93]) [91]).length_le
      have h2 := (trimSuffix_isPrefix s [93]).length_le
      omega
    · exact isPlain_of_isIPByte b (htext.1 b hb) (toLower_noUpper (hsub.subset hb))
  · rename_i hip
    split at h
    · cases h
    · rename_i hlab
      simp only [Except.ok.injEq] at h
      subst h
      obtain ⟨hbytes, hdot⟩ := nameBytes_of_labels hlab
      have hplain : ∀ b ∈ s, IsPlain b := fun b hb => isPlain_of_isNameByte b (hbytes b hb)
      rw [ipCandidate_eq_self hplain, Bool.not_eq_true] at hip
      exact ⟨hne, by omega, hplain, hdot, Or.inr ⟨hip, hlab⟩⟩

/-- What normalises is not blank. -/
theorem trimSpace_ne_nil {address n : GoString} (h : normalize address = .ok n) :
    trimSpace address ≠ [] := by
  intro hblank
  obtain ⟨front, core, back, hrunes, hspace, hcore⟩ := runes_trimSpace address
  -- a blank text has no NUL byte to be cut at
  have hnul : (0 : UInt8) ∉ address := by
    intro hmem
    rw [← flatMap_bytes_runes address, hrunes, List.flatMap_append, List.flatMap_append, hcore,
      hblank, List.append_nil, ← List.flatMap_append] at hmem
    obtain ⟨r, hr, hzero⟩ := List.mem_flatMap.mp hmem
    have hr' : r ∈ runes address := by
      rw [hrunes]
      rcases List.mem_append.mp hr with hr | hr <;> simp [hr]
    have hsp := hspace r hr
    rw [eq_ofByte_of_mem hr' hzero (by decide)] at hsp
    exact absurd hsp (by decide)
  unfold normalize at h
  simp only [cutAt_of_notMem hnul, hblank] at h
  cases h

/-- **Normalising is idempotent.** -/
theorem normalize_idem {address n : GoString} (h : normalize address = .ok n) :
    normalize n = .ok n := by
  obtain ⟨hne, hlen, hplain, hdot, hkind⟩ := normalize_ok h
  have hascii : IsAscii n := fun b hb => (hplain b hb).2.1
  unfold normalize
  simp only [clean_eq_self hplain hdot, ipCandidate_eq_self hplain]
  rw [if_neg hne, if_neg (by omega), if_neg (by simp [validString_of_isAscii hascii])]
  rcases hkind with hip | ⟨hip, hlab⟩
  · rw [if_pos hip]
  · simp [hip, hlab]

example : normalize (go " Play.Example.COM.\x00FML\x00 ") = .ok (go "play.example.com") := by
  decide +kernel

end HostAddr

end McRouter
