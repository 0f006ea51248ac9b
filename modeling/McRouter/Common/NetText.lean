import McRouter.Common.Net

/-!
# The texts the address parsers accept

An accepted address is made of hexadecimal digits in either letter case,
dots and colons, has 65 bytes at most and does not end in a dot; and
joining a host and a port splits back. This is what lets a text that was
normalised once be read again.
-/

namespace McRouter

namespace Netip

open Strings Unicode

/-- A byte an address without a zone may hold. -/
def isIPByte (b : UInt8) : Bool := (hexVal? b).isSome || b == 46 || b == 58

/-- What every accepted address text is like. -/
def IPText (s : GoString) : Prop := (∀ b ∈ s, isIPByte b = true) ∧ s.getLast? ≠ some 46

theorem isIPByte_of_hexVal {b : UInt8} (h : (hexVal? b).isSome) : isIPByte b = true := by
  simp [isIPByte, h]

/-- A digit is a hexadecimal digit. -/
theorem hexVal_of_digit {b : UInt8} {d : ℕ} (h : digit? b = some d) : (hexVal? b).isSome := by
  unfold digit? at h
  split at h
  · rename_i hb
    simp [hexVal?, hb]
  · cases h

/-- No digit is a dot. -/
theorem ne_dot_of_hexVal {b : UInt8} (h : (hexVal? b).isSome) : b ≠ 46 := by
  rintro rfl
  revert h
  decide

theorem IPText.nil : IPText [] := ⟨by simp, by simp⟩

theorem IPText.ellipsis : IPText [58, 58] := ⟨List.all_eq_true.mp rfl, by decide⟩

/-- Accepted bytes in front of an accepted text. -/
theorem IPText.append (pre : GoString) {t : GoString} (hpre : pre.all isIPByte = true)
    (ht : IPText t) (hne : t ≠ [] ∨ pre.getLast? ≠ some 46) : IPText (pre ++ t) := by
  refine ⟨fun b hb => ?_, ?_⟩
  · rcases List.mem_append.mp hb with h | h
    · exact List.all_eq_true.mp hpre b h
    · exact ht.1 b h
  · rw [List.getLast?_append]
    cases t with
    | nil =>
      rcases hne with h | h
      · exact absurd rfl h
      · simpa using h
    | cons c t =>
      have h := ht.2
      rw [List.getLast?_eq_some_getLast (List.cons_ne_nil c t)] at h ⊢
      simpa using h

/-- A run of hexadecimal digits is an accepted text. -/
theorem IPText.of_hex {pre : GoString} (h : ∀ b ∈ pre, (hexVal? b).isSome) : IPText pre := by
  refine ⟨fun b hb => isIPByte_of_hexVal (h b hb), fun hl => ?_⟩
  exact ne_dot_of_hexVal (h 46 (List.mem_of_getLast? hl)) rfl

/-- **A byte of four octets** is a digit that keeps the octet below 256, or
a dot after an octet and before another. -/
theorem parseIPv4Fields_cons {c : UInt8} {t : GoString} {val digLen : ℕ} {fields r : List UInt8}
    (h : parseIPv4Fields val digLen fields (c :: t) = .ok r) :
    (∃ d, digit? c = some d ∧ ¬ (digLen = 1 ∧ val = 0) ∧ val * 10 + d ≤ 255 ∧
      parseIPv4Fields (val * 10 + d) (digLen + 1) fields t = .ok r) ∨
    c = 46 ∧ t ≠ [] ∧ fields.length ≠ 3 ∧
      parseIPv4Fields 0 0 (fields ++ [UInt8.ofNat val]) t = .ok r := by
  rw [parseIPv4Fields] at h
  cases hd : digit? c with
  | some d =>
    rw [hd] at h
    simp only at h
    split at h
    · cases h
    rename_i hzero
    split at h
    · cases h
    exact Or.inl ⟨d, rfl, hzero, by omega, h⟩
  | none =>
    rw [hd] at h
    simp only at h
    split at h
    · rename_i hdot
      split at h
      · cases h
      rename_i hempty
      split at h
      · cases h
      rename_i hthree
      exact Or.inr ⟨hdot, (not_or.mp hempty).2, hthree, h⟩
    · cases h

/-- **Octets are digits and dots, and the last is a digit.** -/
theorem ipText_of_parseIPv4Fields {s : GoString} : ∀ {val digLen : ℕ} {fields r : List UInt8},
    parseIPv4Fields val digLen fields s = .ok r → IPText s := by
  induction s with
  | nil => intro _ _ _ _ _; exact IPText.nil
  | cons c t ih =>
    intro val digLen fields r h
    rcases parseIPv4Fields_cons h with ⟨d, hd, -, -, h⟩ | ⟨rfl, hne, -, h⟩
    · have hc := hexVal_of_digit hd
      refine IPText.append [c] ?_ (ih h) (Or.inr ?_)
      · simpa using isIPByte_of_hexVal hc
      · simpa using ne_dot_of_hexVal hc
    · exact IPText.append [46] rfl (ih h) (Or.inl hne)

/-- `hexField` reads a digit, the fifth never, or stops. -/
theorem hexField_cons {s₀ t after : GoString} {c : UInt8} {off acc off' acc' : ℕ}
    (h : hexField s₀ off acc (c :: t) = .ok (off', acc', after)) :
    (∃ d, hexVal? c = some d ∧ off ≤ 3 ∧
      hexField s₀ (off + 1) (acc * 16 + d) t = .ok (off', acc', after)) ∨ after = c :: t := by
  rw [hexField] at h
  cases hd : hexVal? c with
  | some d =>
    rw [hd] at h
    simp only at h
    split at h
    · cases h
    rename_i hoff
    split at h
    · cases h
    exact Or.inl ⟨d, rfl, by omega, h⟩
  | none =>
    rw [hd] at h
    simp only [Except.ok.injEq, Prod.mk.injEq] at h
    exact Or.inr h.2.2.symm

/-- It reads hexadecimal digits. -/
theorem hexField_spec {s₀ s after : GoString} : ∀ {off acc off' acc' : ℕ},
    hexField s₀ off acc s = .ok (off', acc', after) →
      ∃ pre, s = pre ++ after ∧ ∀ b ∈ pre, (hexVal? b).isSome := by
  induction s with
  | nil =>
    intro off acc off' acc' h
    simp only [hexField, Except.ok.injEq, Prod.mk.injEq] at h
    exact ⟨[], by simp [← h.2.2], by simp⟩
  | cons c t ih =>
    intro off acc off' acc' h
    rcases hexField_cons h with ⟨d, hd, -, h⟩ | rfl
    · obtain ⟨pre, rfl, hpre⟩ := ih h
      exact ⟨c :: pre, rfl, List.forall_mem_cons.mpr ⟨by rw [hd]; rfl, hpre⟩⟩
    · exact ⟨[], rfl, by simp⟩

/-- **A round of the loop** reads an embedded IPv4 address or a group. What
follows the group is nothing, the ellipsis, or one or two colons and the
text of the next round. Without an ellipsis the IPv4 address is in the last
four bytes, and each group before it adds two. -/
theorem parseIPv6Loop_ok {fuel : ℕ} {st st' : V6State} (h : parseIPv6Loop (fuel + 1) st = .ok st') :
    (∃ octets, parseIPv4Fields 0 0 [] st.rest = .ok octets ∧
      (st.ellipsis = none → st.ip.length = 12)) ∨
    ∃ off acc after, hexField st.rest 0 0 st.rest = .ok (off, acc, after) ∧
      (after = [] ∧ st'.ip.length = st.ip.length + 2 ∧ st'.ellipsis = st.ellipsis ∨
      after = [58, 58] ∨ ∃ colons st₁, (colons = [58] ∧ st₁.ip.length = st.ip.length + 2 ∧
          st₁.ellipsis = st.ellipsis ∨ colons = [58, 58]) ∧
        after = colons ++ st₁.rest ∧ parseIPv6Loop fuel st₁ = .ok st') := by
  rw [parseIPv6Loop] at h
  cases hf : hexField st.rest 0 0 st.rest with
  | error e => simp [hf, bind, Except.bind] at h
  | ok p =>
    obtain ⟨off, acc, after⟩ := p
    simp only [hf, bind, Except.bind] at h
    split at h
    · cases h
    split at h
    · -- an embedded IPv4 address takes the rest of the text
      split at h
      · cases h
      rename_i htwelve
      split at h
      · cases h
      cases ho : parseIPv4Fields 0 0 [] st.rest with
      | error e => simp [ho] at h
      | ok octets =>
        exact Or.inl ⟨octets, rfl, fun hnone => not_not.mp (not_and.mp htwelve hnone)⟩
    refine Or.inr ⟨off, acc, after, rfl, ?_⟩
    split at h
    · obtain rfl := Except.ok.inj h
      exact Or.inl ⟨rfl, by simp, rfl⟩
    · cases h
    · split at h
      · cases h
      split at h
      · rename_i ht
        exact Or.inr (Or.inl (by rw [ht]))
      · exact Or.inr (Or.inr ⟨[58, 58], _, Or.inr rfl, rfl, h⟩)
    · refine Or.inr (Or.inr ⟨[58], _, Or.inl ⟨rfl, ?_, ?_⟩, rfl, h⟩)
      · exact List.length_append
      · rfl
    · cases h

/-- **A loop that used its whole text read an accepted one.** -/
theorem ipText_of_parseIPv6Loop : ∀ {fuel : ℕ} {st st' : V6State},
    parseIPv6Loop fuel st = .ok st' → st'.rest = [] → IPText st.rest := by
  intro fuel
  induction fuel with
  | zero =>
    intro st st' h hr
    simp only [parseIPv6Loop, Except.ok.injEq] at h
    subst h
    rw [hr]
    exact IPText.nil
  | succ fuel ih =>
    intro st st' h hr
    rcases parseIPv6Loop_ok h with ⟨octets, ho, -⟩ | ⟨off, acc, after, hf, hafter⟩
    · exact ipText_of_parseIPv4Fields ho
    obtain ⟨pre, hs, hpre⟩ := hexField_spec hf
    have hbytes : pre.all isIPByte = true :=
      List.all_eq_true.mpr fun b hb => isIPByte_of_hexVal (hpre b hb)
    rw [hs]
    rcases hafter with ⟨rfl, -⟩ | rfl | ⟨colons, st₁, hcolons, rfl, hrest⟩
    · rw [List.append_nil]
      exact IPText.of_hex hpre
    · exact IPText.append _ hbytes IPText.ellipsis (Or.inl (by simp))
    · refine IPText.append _ hbytes ?_ (Or.inl ?_)
      · rcases hcolons with ⟨rfl, -⟩ | rfl
        · exact IPText.append _ rfl (ih hrest hr) (Or.inr (by decide))
        · exact IPText.append _ rfl (ih hrest hr) (Or.inr (by decide))
      · rcases hcolons with ⟨rfl, -⟩ | rfl <;> simp

theorem rest_nil_of_expandEllipsis {st : V6State} {bs : List UInt8}
    (h : expandEllipsis st = .ok bs) : st.rest = [] := by
  by_contra hne
  simp [expandEllipsis, hne] at h

theorem ipText_of_parseIPv6Bytes {s : GoString} {bs : List UInt8}
    (h : parseIPv6Bytes s = .ok bs) : IPText s := by
  unfold parseIPv6Bytes at h
  split at h
  · exact IPText.ellipsis
  · rename_i t _
    cases hl : parseIPv6Loop 8 ⟨[], some 0, t⟩ with
    | error e => simp [hl, bind, Except.bind] at h
    | ok st =>
      simp only [hl, bind, Except.bind] at h
      exact IPText.append [58, 58] rfl
        (ipText_of_parseIPv6Loop hl (rest_nil_of_expandEllipsis h)) (Or.inr (by decide))
  · cases hl : parseIPv6Loop 8 ⟨[], none, s⟩ with
    | error e => simp [hl, bind, Except.bind] at h
    | ok st =>
      simp only [hl, bind, Except.bind] at h
      exact ipText_of_parseIPv6Loop hl (rest_nil_of_expandEllipsis h)

/-- What `net.ParseIP` accepts is four octets or the sixteen bytes of an
IPv6 text, without a zone. -/
theorem parse_of_isIP {s : GoString} (h : isIP s = true) : s ≠ [] ∧
    ((∃ octets, parseIPv4Fields 0 0 [] s = .ok octets) ∨ ∃ bytes, parseIPv6Bytes s = .ok bytes) := by
  unfold isIP at h
  cases hp : parseAddr s with
  | error e => simp [hp] at h
  | ok a =>
    simp only [hp, beq_iff_eq] at h
    unfold parseAddr at hp
    cases hf : s.find? (fun c => c == 46 || c == 58 || c == 37) with
    | none => simp [hf] at hp
    | some c =>
      refine ⟨by rintro rfl; simp at hf, ?_⟩
      rw [hf] at hp
      split at hp
      · cases ho : parseIPv4Fields 0 0 [] s with
        | error e => simp [ho, bind, Except.bind] at hp
        | ok octets => exact Or.inl ⟨octets, rfl⟩
      · -- the zone is empty, so there is no `%` and the whole text was read
        unfold parseIPv6 at hp
        simp only at hp
        split at hp
        · cases hp
        · rename_i hz
          cases hb : parseIPv6Bytes (cutAt 37 s) with
          | error e => simp [hb, bind, Except.bind] at hp
          | ok bs =>
            simp only [hb, bind, Except.bind, Except.ok.injEq] at hp
            subst hp
            have hnot : (37 : UInt8) ∉ s := fun hm => hz ⟨hm, h⟩
            rw [cutAt_of_notMem hnot] at hb
            exact Or.inr ⟨bs, hb⟩
      · cases hp
      · cases hp

/-- **The texts `net.ParseIP` accepts**: hexadecimal digits, dots and
colons, not empty, not ending in a dot. -/
theorem ipText_of_isIP {s : GoString} (h : isIP s = true) : IPText s ∧ s ≠ [] := by
  obtain ⟨hne, ⟨octets, ho⟩ | ⟨bytes, hb⟩⟩ := parse_of_isIP h
  · exact ⟨ipText_of_parseIPv4Fields ho, hne⟩
  · exact ⟨ipText_of_parseIPv6Bytes hb, hne⟩

/-! ## How long an address is -/

/-- Octets have three digits at most: the value of three is 100 or more. -/
theorem length_of_parseIPv4Fields {s : GoString} : ∀ {val digLen : ℕ} {fields r : List UInt8},
    digLen ≤ 1 ∨ digLen = 2 ∧ 10 ≤ val ∨ digLen = 3 ∧ 100 ≤ val → fields.length ≤ 3 →
    parseIPv4Fields val digLen fields s = .ok r → s.length + digLen ≤ 3 + 4 * (3 - fields.length) := by
  induction s with
  | nil =>
    intro val digLen fields r hval _ _
    rw [List.length_nil]
    omega
  | cons c t ih =>
    intro val digLen fields r hval hfields h
    rw [List.length_cons]
    rcases parseIPv4Fields_cons h with ⟨d, -, hzero, hsmall, h⟩ | ⟨-, -, hthree, h⟩
    · have hlen := ih (by omega) hfields h
      omega
    · have hlen := ih (by omega) (by rw [List.length_append, List.length_singleton]; omega) h
      rw [List.length_append, List.length_singleton] at hlen
      omega

/-- Groups have four digits at most. -/
theorem length_of_hexField {s₀ s after : GoString} : ∀ {off acc off' acc' : ℕ}, off ≤ 4 →
    hexField s₀ off acc s = .ok (off', acc', after) → s.length + off ≤ after.length + 4 := by
  induction s with
  | nil =>
    intro off acc off' acc' hoff h
    rw [List.length_nil]
    omega
  | cons c t ih =>
    intro off acc off' acc' hoff h
    rcases hexField_cons h with ⟨d, -, hfour, h⟩ | rfl
    · have hlen := ih (by omega) h
      rw [List.length_cons]
      omega
    · omega

/-- A round takes a group and one or two colons, the last one perhaps an
IPv4 address. -/
theorem length_of_parseIPv6Loop : ∀ {fuel : ℕ} {st st' : V6State},
    parseIPv6Loop fuel st = .ok st' → st'.rest = [] → st.rest.length ≤ 6 * fuel + 15 := by
  intro fuel
  induction fuel with
  | zero =>
    intro st st' h hr
    simp only [parseIPv6Loop, Except.ok.injEq] at h
    subst h
    rw [hr, List.length_nil]
    omega
  | succ fuel ih =>
    intro st st' h hr
    rcases parseIPv6Loop_ok h with ⟨octets, ho, -⟩ | ⟨off, acc, after, hf, hafter⟩
    · have hlen := length_of_parseIPv4Fields (by omega) (by simp) ho
      rw [List.length_nil] at hlen
      omega
    have hlen := length_of_hexField (by omega) hf
    rcases hafter with ⟨rfl, -⟩ | rfl | ⟨colons, st₁, hcolons, rfl, hrest⟩
    · rw [List.length_nil] at hlen
      omega
    · rw [List.length_cons, List.length_singleton] at hlen
      omega
    · have hnext := ih hrest hr
      have htwo : colons.length ≤ 2 := by rcases hcolons with ⟨rfl, -⟩ | rfl <;> simp
      rw [List.length_append] at hlen
      omega

theorem length_of_parseIPv6Bytes {s : GoString} {bs : List UInt8}
    (h : parseIPv6Bytes s = .ok bs) : s.length ≤ 65 := by
  unfold parseIPv6Bytes at h
  split at h
  · decide
  · rename_i t _
    cases hl : parseIPv6Loop 8 ⟨[], some 0, t⟩ with
    | error e => simp [hl, bind, Except.bind] at h
    | ok st =>
      simp only [hl, bind, Except.bind] at h
      have hlen : t.length ≤ 6 * 8 + 15 := length_of_parseIPv6Loop hl (rest_nil_of_expandEllipsis h)
      rw [List.length_cons, List.length_cons]
      omega
  · cases hl : parseIPv6Loop 8 ⟨[], none, s⟩ with
    | error e => simp [hl, bind, Except.bind] at h
    | ok st =>
      simp only [hl, bind, Except.bind] at h
      have hlen : s.length ≤ 6 * 8 + 15 := length_of_parseIPv6Loop hl (rest_nil_of_expandEllipsis h)
      omega

/-- **They have 65 bytes at most.** -/
theorem length_of_isIP {s : GoString} (h : isIP s = true) : s.length ≤ 65 := by
  obtain ⟨-, ⟨octets, ho⟩ | ⟨bytes, hb⟩⟩ := parse_of_isIP h
  · have hlen := length_of_parseIPv4Fields (by omega) (by simp) ho
    rw [List.length_nil] at hlen
    omega
  · exact length_of_parseIPv6Bytes hb

/-! ## How many colons it has -/

/-- Without an ellipsis all sixteen bytes have been read. -/
theorem length_of_expandEllipsis {st : V6State} {bs : List UInt8} (h : expandEllipsis st = .ok bs)
    (hnone : st.ellipsis = none) : 16 ≤ st.ip.length := by
  by_contra hshort
  rw [expandEllipsis, if_neg (not_not.mpr (rest_nil_of_expandEllipsis h)), if_pos (by omega),
    hnone] at h
  cases h

/-- A loop that has seen no ellipsis makes up for the bytes still missing
with colons. -/
theorem colons_of_parseIPv6Loop : ∀ {fuel : ℕ} {st st' : V6State} {bs : List UInt8},
    parseIPv6Loop fuel st = .ok st' → expandEllipsis st' = .ok bs → st.ellipsis = none →
      4 ≤ st.ip.length + 2 * st.rest.count 58 := by
  intro fuel
  induction fuel with
  | zero =>
    intro st st' bs h hexpand hnone
    obtain rfl := Except.ok.inj h
    have hlen := length_of_expandEllipsis hexpand hnone
    omega
  | succ fuel ih =>
    intro st st' bs h hexpand hnone
    rcases parseIPv6Loop_ok h with ⟨octets, -, htwelve⟩ | ⟨off, acc, after, hf, hafter⟩
    · rw [htwelve hnone]
      omega
    obtain ⟨pre, hs, -⟩ := hexField_spec hf
    rw [hs, List.count_append]
    rcases hafter with ⟨rfl, hip, hell⟩ | rfl | ⟨colons, st₁, ⟨rfl, hip, hell⟩ | rfl, rfl, hrest⟩
    · have hlen := length_of_expandEllipsis hexpand (hell.trans hnone)
      omega
    · have htwo : [58, 58].count (58 : UInt8) = 2 := rfl
      omega
    · have hlen := ih hrest hexpand (hell.trans hnone)
      have hone : [58].count (58 : UInt8) = 1 := rfl
      rw [List.count_append]
      omega
    · have htwo : [58, 58].count (58 : UInt8) = 2 := rfl
      rw [List.count_append]
      omega

theorem colons_of_parseIPv6Bytes {s : GoString} {bs : List UInt8}
    (h : parseIPv6Bytes s = .ok bs) : 2 ≤ s.count 58 := by
  unfold parseIPv6Bytes at h
  split at h
  · decide
  · simp
  · cases hl : parseIPv6Loop 8 ⟨[], none, s⟩ with
    | error e => simp [hl, bind, Except.bind] at h
    | ok st =>
      simp only [hl, bind, Except.bind] at h
      have hcolons : 4 ≤ 0 + 2 * s.count 58 := colons_of_parseIPv6Loop hl h rfl
      omega

/-- Octets have none. -/
theorem colon_notMem_of_parseIPv4Fields {s : GoString} : ∀ {val digLen : ℕ} {fields r : List UInt8},
    parseIPv4Fields val digLen fields s = .ok r → 58 ∉ s := by
  induction s with
  | nil => intro _ _ _ _ _; simp
  | cons c t ih =>
    intro val digLen fields r h
    rw [List.mem_cons, not_or]
    rcases parseIPv4Fields_cons h with ⟨d, hd, -, -, h⟩ | ⟨rfl, -, -, h⟩
    · refine ⟨?_, ih h⟩
      rintro rfl
      cases hd
    · exact ⟨by decide, ih h⟩

/-- **An address with a colon has two.** -/
theorem colons_of_isIP {s : GoString} (h : isIP s = true) (hcolon : 58 ∈ s) : 2 ≤ s.count 58 := by
  obtain ⟨-, ⟨octets, ho⟩ | ⟨bytes, hb⟩⟩ := parse_of_isIP h
  · exact absurd hcolon (colon_notMem_of_parseIPv4Fields ho)
  · exact colons_of_parseIPv6Bytes hb

/-! ## Letter case -/

/-- Both fail, or both succeed with results that correspond. What a failure
reports may differ. -/
inductive Agrees {ε α β : Type} (f : α → β) : Except ε α → Except ε β → Prop
  | ok (a : α) : Agrees f (.ok a) (.ok (f a))
  | error (e e' : ε) : Agrees f (.error e) (.error e')

namespace Agrees

variable {ε α β γ δ : Type} {f : α → β} {g : γ → δ}

theorem ite {c c' : Prop} [Decidable c] [Decidable c'] (hc : c' ↔ c) {x y : Except ε α}
    {x' y' : Except ε β} (hx : Agrees f x x') (hy : Agrees f y y') :
    Agrees f (if c then x else y) (if c' then x' else y') := by
  by_cases h : c
  · rwa [if_pos h, if_pos (hc.mpr h)]
  · rwa [if_neg h, if_neg (mt hc.mp h)]

theorem bind {x : Except ε α} {x' : Except ε β} {k : α → Except ε γ} {k' : β → Except ε δ}
    (hx : Agrees f x x') (hk : ∀ a, Agrees g (k a) (k' (f a))) : Agrees g (x >>= k) (x' >>= k') := by
  cases hx with
  | ok a => exact hk a
  | error e e' => exact .error e e'

end Agrees

theorem digit_lowerByte : ∀ b : UInt8, digit? (lowerByte b) = digit? b :=
  forall_byte (by decide +kernel)

theorem hexVal_lowerByte : ∀ b : UInt8, hexVal? (lowerByte b) = hexVal? b :=
  forall_byte (by decide +kernel)

theorem parseIPv4Fields_lower (s : GoString) : ∀ (val digLen : ℕ) (fields : List UInt8),
    Agrees id (parseIPv4Fields val digLen fields s)
      (parseIPv4Fields val digLen fields (lowerAscii s)) := by
  induction s with
  | nil =>
    intro val digLen fields
    exact .ite Iff.rfl (.error _ _) (.ok _)
  | cons c t ih =>
    intro val digLen fields
    show Agrees id _ (parseIPv4Fields val digLen fields (lowerByte c :: lowerAscii t))
    rw [parseIPv4Fields, parseIPv4Fields, digit_lowerByte]
    cases digit? c with
    | some d => exact .ite Iff.rfl (.error _ _) (.ite Iff.rfl (.error _ _) (ih _ _ _))
    | none =>
      refine .ite (lowerByte_eq (by decide)) ?_ (.error _ _)
      exact .ite (or_congr_right lowerAscii_eq_nil) (.error _ _) (.ite Iff.rfl (.error _ _) (ih _ _ _))

theorem hexField_lower (s₀ s₁ s : GoString) : ∀ (off acc : ℕ),
    Agrees (fun p : ℕ × ℕ × GoString => (p.1, p.2.1, lowerAscii p.2.2)) (hexField s₀ off acc s)
      (hexField s₁ off acc (lowerAscii s)) := by
  induction s with
  | nil =>
    intro off acc
    exact .ok _
  | cons c t ih =>
    intro off acc
    show Agrees _ _ (hexField s₁ off acc (lowerByte c :: lowerAscii t))
    rw [hexField, hexField, hexVal_lowerByte]
    cases hexVal? c with
    | some d => exact .ite Iff.rfl (.error _ _) (.ite Iff.rfl (.error _ _) (ih _ _))
    | none => exact .ok (off, acc, c :: t)

/-- The state with its text in lower case. -/
def V6State.lower (st : V6State) : V6State := { st with rest := lowerAscii st.rest }

theorem parseIPv6Loop_lower : ∀ (fuel : ℕ) (ip : List UInt8) (ellipsis : Option ℕ) (s : GoString),
    Agrees V6State.lower (parseIPv6Loop fuel ⟨ip, ellipsis, s⟩)
      (parseIPv6Loop fuel ⟨ip, ellipsis, lowerAscii s⟩) := by
  intro fuel
  induction fuel with
  | zero => intro ip ellipsis s; exact .ok _
  | succ fuel ih =>
    intro ip ellipsis s
    refine .bind (hexField_lower s (lowerAscii s) s 0 0) fun p => ?_
    obtain ⟨off, acc, after⟩ := p
    refine .ite Iff.rfl (.error _ _) (.ite (head_lowerAscii (by decide)) ?_ ?_)
    · refine .ite Iff.rfl (.error _ _) (.ite Iff.rfl (.error _ _) ?_)
      exact .bind (parseIPv4Fields_lower s 0 0 []) fun octets => .ok _
    · dsimp only
      split
      · exact .ok _
      · exact .error _ _
      · exact .ite Iff.rfl (.error _ _) (.ite lowerAscii_eq_nil (.ok _) (ih _ _ _))
      · rename_i t hne hcolon
        have hcons : lowerAscii (58 :: t) = 58 :: lowerAscii t := rfl
        rw [hcons]
        split
        · rename_i heq
          cases heq
        · rename_i heq
          exact absurd (lowerAscii_eq_nil.mp (List.cons.inj heq).2) hne
        · rename_i t' heq
          obtain ⟨rest, hrest, -⟩ := cons_of_lowerAscii (by decide) (List.cons.inj heq).2
          exact absurd hrest (hcolon rest)
        · rename_i t' _ _ heq
          rw [← (List.cons.inj heq).2]
          exact ih _ _ _
        · rename_i hother
          exact absurd rfl (hother (lowerAscii t))
      · rename_i hnil _ _ hother
        have hother' : ∀ t, lowerAscii after ≠ 58 :: t := by
          intro t heq
          obtain ⟨rest, rfl, -⟩ := cons_of_lowerAscii (by decide) heq
          exact hother rest rfl
        split
        · rename_i heq
          exact absurd (lowerAscii_eq_nil.mp heq) hnil
        · rename_i heq
          exact absurd heq (hother' _)
        · rename_i heq
          exact absurd heq (hother' _)
        · rename_i heq
          exact absurd heq (hother' _)
        · exact .error _ _

theorem expandEllipsis_lower (st : V6State) :
    Agrees id (expandEllipsis st) (expandEllipsis st.lower) := by
  refine .ite (not_congr lowerAscii_eq_nil) (.error _ _) (.ite Iff.rfl ?_ ?_)
  · have hsame : st.lower.ellipsis = st.ellipsis := rfl
    rw [hsame]
    cases st.ellipsis with
    | none => exact .error _ _
    | some e => exact .ok _
  · exact .ite Iff.rfl (.error _ _) (.ok _)

theorem parseIPv6Bytes_lower (s : GoString) :
    Agrees id (parseIPv6Bytes s) (parseIPv6Bytes (lowerAscii s)) := by
  unfold parseIPv6Bytes
  split
  · exact .ok _
  · rename_i t hne
    have hcons : lowerAscii (58 :: 58 :: t) = 58 :: 58 :: lowerAscii t := rfl
    rw [hcons]
    split
    · rename_i heq
      exact absurd (lowerAscii_eq_nil.mp (List.cons.inj (List.cons.inj heq).2).2) hne
    · rename_i t' _ heq
      rw [← (List.cons.inj (List.cons.inj heq).2).2]
      exact .bind (parseIPv6Loop_lower _ _ _ _) fun st => expandEllipsis_lower st
    · rename_i hother
      exact absurd rfl (hother (lowerAscii t))
  · rename_i hother
    have hother' : ∀ t, lowerAscii s ≠ 58 :: 58 :: t := by
      intro t heq
      obtain ⟨rest, rfl, hrest⟩ := cons_of_lowerAscii (by decide) heq
      obtain ⟨rest', rfl, -⟩ := cons_of_lowerAscii (by decide) hrest
      exact hother rest' rfl
    split
    · rename_i heq
      exact absurd heq (hother' _)
    · rename_i heq
      exact absurd heq (hother' _)
    · exact .bind (parseIPv6Loop_lower _ _ _ _) fun st => expandEllipsis_lower st

/-- An address with its zone in lower case. -/
def Addr.lower : Addr → Addr
  | .v6 a z => .v6 a (lowerAscii z)
  | a => a

theorem parseIPv6_lower (s : GoString) : Agrees Addr.lower (parseIPv6 s) (parseIPv6 (lowerAscii s)) := by
  have hpercent : ((· != 37) ∘ lowerByte : UInt8 → Bool) = (· != 37) :=
    funext (forall_byte (by decide +kernel))
  have hmem : 37 ∈ lowerAscii s ↔ 37 ∈ s := by
    simp only [lowerAscii, List.mem_map, lowerByte_eq (c := 37) (by decide), exists_eq_right]
  have hzone : ((lowerAscii s).dropWhile (· != 37)).drop 1 =
      lowerAscii ((s.dropWhile (· != 37)).drop 1) := by
    rw [lowerAscii, List.dropWhile_map, hpercent, lowerAscii, List.map_drop]
  have hcut : cutAt 37 (lowerAscii s) = lowerAscii (cutAt 37 s) := by
    rw [cutAt, lowerAscii, List.takeWhile_map, hpercent]
    rfl
  unfold parseIPv6
  dsimp only
  rw [hzone, hcut]
  refine .ite (and_congr hmem lowerAscii_eq_nil) (.error _ _) ?_
  exact .bind (parseIPv6Bytes_lower _) fun bytes => .ok _

theorem parseAddr_lower (s : GoString) : Agrees Addr.lower (parseAddr s) (parseAddr (lowerAscii s)) := by
  let family : UInt8 → Bool := fun c => c == 46 || c == 58 || c == 37
  have hsame : family ∘ lowerByte = family := funext (forall_byte (by decide +kernel))
  have hfind : (lowerAscii s).find? family = (s.find? family).map lowerByte := by
    rw [lowerAscii, List.find?_map, hsame]
  unfold parseAddr
  rw [hfind]
  cases hf : s.find? family with
  | none => exact .error _ _
  | some c =>
    have hc := List.find?_some hf
    simp only [family, Bool.or_eq_true, beq_iff_eq] at hc
    obtain (rfl | rfl) | rfl := hc
    · exact .bind (parseIPv4Fields_lower s 0 0 []) fun octets => .ok _
    · exact parseIPv6_lower s
    · exact .error _ _

/-- **`net.ParseIP` does not see letter case.** -/
theorem isIP_lowerAscii (s : GoString) : isIP (lowerAscii s) = isIP s := by
  have h := parseAddr_lower s
  unfold isIP
  generalize parseAddr s = x at h ⊢
  generalize parseAddr (lowerAscii s) = y at h ⊢
  cases h with
  | error e e' => rfl
  | ok a =>
    cases a with
    | zero => rfl
    | v4 a => rfl
    | v6 a z =>
      show (lowerAscii z == []) = (z == [])
      cases z with
      | nil => rfl
      | cons c z => rfl

/-! ## Host and port -/

/-- The index of the first of the bytes of a kind. -/
theorem idxOf?_eq_some {b : UInt8} : ∀ {s : GoString} {i : ℕ}, s.idxOf? b = some i ↔
    ∃ front back, s = front ++ b :: back ∧ b ∉ front ∧ front.length = i := by
  intro s i
  constructor
  · intro h
    obtain ⟨hi, hb, hfirst⟩ := List.idxOf?_eq_some_iff.mp h
    refine ⟨s.take i, s.drop (i + 1), ?_, ?_, by simpa using hi.le⟩
    · rw [← hb, List.cons_getElem_drop_succ, List.take_append_drop]
    · intro hmem
      obtain ⟨j, hj, hjb⟩ := List.mem_take_iff_getElem.mp hmem
      exact hfirst j (by omega) hjb
  · rintro ⟨front, back, rfl, hfront, rfl⟩
    refine List.idxOf?_eq_some_iff.mpr ⟨by simp, by simp, fun j hj hb => hfront ?_⟩
    rw [List.getElem_append_left hj] at hb
    exact hb ▸ List.getElem_mem hj

/-- The last of the bytes of a kind. -/
theorem exists_last {b : UInt8} {s : GoString} (h : b ∈ s) :
    ∃ front back, s = front ++ [b] ++ back ∧ b ∉ back := by
  obtain ⟨back, front, hs, hback⟩ := List.eq_append_cons_of_mem (List.mem_reverse.mpr h)
  refine ⟨front.reverse, back.reverse, ?_, by simpa using hback⟩
  rw [← List.reverse_reverse s, hs]
  simp

/-- The last colon of `host:port` is the one in the middle. -/
theorem lastIndexByte_append {b : UInt8} {s t : GoString} (h : b ∉ t) :
    lastIndexByte b (s ++ [b] ++ t) = some s.length := by
  have hidx : (s ++ [b] ++ t).reverse.idxOf? b = some t.length :=
    idxOf?_eq_some.mpr ⟨t.reverse, s.reverse, by simp, by simpa using h, by simp⟩
  rw [lastIndexByte, hidx]
  simp

theorem lastIndexByte_of_notMem {b : UInt8} {s : GoString} (h : b ∉ s) : lastIndexByte b s = none := by
  have hidx : s.reverse.idxOf? b = none := by
    rw [List.idxOf?_eq_none_iff]
    simpa using h
  rw [lastIndexByte, hidx, Option.map_none]

/-- **Splitting undoes joining**, for a host and a port without colons and
brackets. -/
theorem splitHostPort_joinHostPort {host port : GoString}
    (hh : ∀ b ∈ host, b ≠ 58 ∧ b ≠ 91 ∧ b ≠ 93) (hp : ∀ b ∈ port, b ≠ 58 ∧ b ≠ 91 ∧ b ≠ 93) :
    splitHostPort (joinHostPort host port) = .ok (host, port) := by
  have hcolon : (58 : UInt8) ∉ host := fun h => (hh 58 h).1 rfl
  have hport : (58 : UInt8) ∉ port := fun h => (hp 58 h).1 rfl
  have hnot : ∀ c : UInt8, (c = 91 ∨ c = 93) → c ∉ host ++ [58] ++ port := by
    intro c hc hm
    simp only [List.mem_append, List.mem_singleton] at hm
    rcases hm with (hm | hm) | hm
    · have := hh c hm; rcases hc with rfl | rfl <;> simp at this
    · rcases hc with rfl | rfl <;> simp at hm
    · have := hp c hm; rcases hc with rfl | rfl <;> simp at this
  rw [joinHostPort, if_neg hcolon, splitHostPort, lastIndexByte_append hport]
  have hhead : (host ++ [58] ++ port).head? ≠ some 91 := fun h =>
    hnot 91 (Or.inl rfl) (List.mem_of_mem_head? h)
  simp only [if_neg hhead, if_neg (hnot 91 (Or.inl rfl)), if_neg (hnot 93 (Or.inr rfl))]
  simp [hcolon]

theorem splitHostPort_of_notMem {s : GoString} (h : 58 ∉ s) : ∃ e, splitHostPort s = .error e := by
  rw [splitHostPort, lastIndexByte_of_notMem h]
  exact ⟨_, rfl⟩

/-- A text with two colons and no bracket in front has no port. -/
theorem splitHostPort_of_colons {s : GoString} (hhead : s.head? ≠ some 91) (h : 2 ≤ s.count 58) :
    ∃ e, splitHostPort s = .error e := by
  obtain ⟨front, back, rfl, hback⟩ := exists_last (List.count_pos_iff.mp (by omega : 0 < s.count 58))
  have hfront : 58 ∈ (front ++ [58] ++ back).take front.length := by
    rw [List.append_assoc, List.take_left]
    rw [List.count_append, List.count_append, List.count_eq_zero.mpr hback,
      List.count_singleton_self] at h
    exact List.count_pos_iff.mp (by omega)
  rw [splitHostPort, lastIndexByte_append hback]
  dsimp only
  rw [if_neg hhead, if_pos hfront]
  exact ⟨_, rfl⟩

/-- **A host in brackets and a port.** -/
theorem splitHostPort_bracketed {host port : GoString} (hhost : 91 ∉ host ∧ 93 ∉ host)
    (hport : 58 ∉ port ∧ 91 ∉ port ∧ 93 ∉ port) :
    splitHostPort (91 :: host ++ [93] ++ [58] ++ port) = .ok (host, port) := by
  have hlast := lastIndexByte_append (s := 91 :: host ++ [93]) hport.1
  have hidx : (91 :: host ++ [93] ++ [58] ++ port).idxOf? 93 = some (host.length + 1) :=
    idxOf?_eq_some.mpr ⟨91 :: host, 58 :: port, by simp, by simp [hhost.2], rfl⟩
  rw [splitHostPort, hlast]
  dsimp only
  rw [hidx]
  dsimp only
  rw [if_pos (by simp), if_neg (by simp), if_neg (by simp), if_neg, if_neg]
  · simp
  · simp [hport]
  · simp [hhost, hport]

/-- **What is split off a colon-free text with a port behind it**: the
whole text, or what stands between its brackets. -/
theorem host_of_splitHostPort {s port host port' : GoString} (hs : 58 ∉ s) (hport : 58 ∉ port)
    (h : splitHostPort (s ++ [58] ++ port) = .ok (host, port')) :
    host = s ∨ s = 91 :: (host ++ [93]) ∧ 91 ∉ host ∧ 93 ∉ host := by
  rw [splitHostPort, lastIndexByte_append hport] at h
  dsimp only at h
  split at h
  · rename_i hhead
    split at h
    · cases h
    rename_i e hidx
    split at h
    · cases h
    split at h
    · split at h <;> cases h
    rename_i he
    split at h
    · cases h
    rename_i hopen
    split at h
    · cases h
    obtain ⟨rfl, -⟩ := Prod.mk.inj (Except.ok.inj h)
    -- the first closing bracket is the last byte of `s`
    obtain ⟨front, back, hsplit, hfront, rfl⟩ := idxOf?_eq_some.mp hidx
    obtain ⟨rfl, -⟩ : s = front ++ [93] ∧ [58] ++ port = back := by
      refine List.append_inj ?_ ?_
      · rw [← List.append_assoc, hsplit, List.append_assoc]
        rfl
      · simpa using (not_not.mp he).symm
    cases front with
    | nil => cases hhead
    | cons b inner =>
      obtain rfl : b = 91 := Option.some.inj hhead
      have hinner : ((91 :: inner ++ [93] ++ [58] ++ port).take (91 :: inner).length).drop 1 = inner := by
        simp
      rw [hinner]
      refine Or.inr ⟨rfl, fun hmem => hopen ?_, fun hmem => hfront (List.mem_cons_of_mem _ hmem)⟩
      simp [hmem]
  · have htake : (s ++ [58] ++ port).take s.length = s := by simp
    rw [htake, if_neg hs] at h
    split at h
    · cases h
    split at h
    · cases h
    exact Or.inl (Prod.mk.inj (Except.ok.inj h)).1.symm

end Netip

end McRouter
