import Mathlib.Data.List.TakeWhile
import Mathlib.Data.List.Lex
import Mathlib.Data.List.Infix
import Mathlib.Algebra.Group.Int.Defs
import Mathlib.Algebra.Group.Nat.Defs

/-!
# Go strings

A Go string is a sequence of bytes, valid UTF-8 or not, and Go compares
strings byte by byte. This file has the operations of the `strings` and
`strconv` packages that work on bytes; the ones that look at runes are in
`Common/Unicode.lean`. Nothing here is about the router.
-/

namespace McRouter

/-- A Go string: its bytes. -/
abbrev GoString := List UInt8

/-- The bytes of a literal. -/
def go (s : String) : GoString := s.toUTF8.data.toList

instance : Coe String GoString := ⟨go⟩

/-- Whether a string is one of a list. -/
instance decidableMemGoString (s : GoString) (l : List GoString) : Decidable (s ∈ l) :=
  List.instDecidableMemOfLawfulBEq s l

namespace Strings

/-- A property of bytes is one of the numbers below 256. -/
theorem forall_byte {P : UInt8 → Prop} (h : ∀ n < 256, P (UInt8.ofNat n)) (b : UInt8) : P b := by
  have hb := h b.toNat b.toNat_lt
  rwa [UInt8.ofNat_toNat] at hb

/-! ## Prefixes and suffixes -/

/-- `strings.HasPrefix`. -/
def hasPrefix (s pre : GoString) : Bool := pre.isPrefixOf s

/-- `strings.TrimPrefix`. -/
def trimPrefix (s pre : GoString) : GoString :=
  if hasPrefix s pre then s.drop pre.length else s

/-- `strings.TrimSuffix`. -/
def trimSuffix (s suf : GoString) : GoString :=
  if suf.isSuffixOf s then s.take (s.length - suf.length) else s

/-- `s[:idx]` with `idx` the first index of `b`, and `s` where there is
none. -/
def cutAt (b : UInt8) (s : GoString) : GoString := s.takeWhile (· != b)

/-- `strings.Split` at a one-byte separator. -/
def split (sep : UInt8) (s : GoString) : List GoString := s.splitOn sep

/-- `strings.ReplaceAll(s, b, "")` at a one-byte pattern. -/
def removeAll (b : UInt8) (s : GoString) : GoString := s.filter (· != b)

theorem hasPrefix_append (pre s : GoString) : hasPrefix (pre ++ s) pre = true :=
  List.isPrefixOf_iff_prefix.mpr (List.prefix_append pre s)

theorem trimPrefix_append (pre s : GoString) : trimPrefix (pre ++ s) pre = s := by
  have hpre := hasPrefix_append pre s
  rw [trimPrefix, if_pos hpre, List.drop_left]

theorem trimPrefix_suffix (s pre : GoString) : trimPrefix s pre <:+ s := by
  unfold trimPrefix
  split
  · exact List.drop_suffix _ _
  · exact List.suffix_rfl

theorem trimSuffix_isPrefix (s suf : GoString) : trimSuffix s suf <+: s := by
  unfold trimSuffix
  split
  · exact List.take_prefix _ _
  · exact List.prefix_rfl

/-- Nothing to trim where the last byte is another one. -/
theorem trimSuffix_singleton_of_getLast_ne {s : GoString} {b : UInt8}
    (h : s.getLast? ≠ some b) : trimSuffix s [b] = s := by
  rw [trimSuffix, if_neg]
  rw [List.isSuffixOf_iff_suffix]
  rintro ⟨t, rfl⟩
  exact h (by simp)

/-- Nothing to trim where the first byte is another one. -/
theorem trimPrefix_singleton_of_head_ne {s : GoString} {b : UInt8}
    (h : s.head? ≠ some b) : trimPrefix s [b] = s := by
  rw [trimPrefix, if_neg]
  rw [hasPrefix, List.isPrefixOf_iff_prefix]
  rintro ⟨t, rfl⟩
  exact h (by simp)

/-- A byte that does not occur cuts nothing. -/
theorem cutAt_of_notMem {s : GoString} {b : UInt8} (h : b ∉ s) : cutAt b s = s := by
  rw [cutAt, List.takeWhile_eq_self_iff]
  intro c hc
  simp only [bne_iff_ne, ne_eq]
  rintro rfl
  exact h hc

/-- What is in front of the first occurrence. -/
theorem cutAt_append_cons {b : UInt8} {s : GoString} (h : b ∉ s) (t : GoString) :
    cutAt b (s ++ b :: t) = s := by
  have hs : ∀ c ∈ s, (c != b) = true := by
    intro c hc
    rw [bne_iff_ne]
    rintro rfl
    exact h hc
  rw [cutAt, List.takeWhile_append_of_pos hs, List.takeWhile_cons_of_neg (by simp), List.append_nil]

/-- A byte of a string is the separator or in one of the pieces. -/
theorem mem_of_mem_split (sep : UInt8) {b : UInt8} {s : GoString} (hb : b ∈ s) :
    b = sep ∨ ∃ piece ∈ split sep s, b ∈ piece := by
  unfold split
  induction s with
  | nil => cases hb
  | cons c t ih =>
    rw [List.splitOn_cons_eq_if_modifyHead]
    obtain ⟨p, ps, hps⟩ := List.exists_cons_of_ne_nil (List.splitOn_ne_nil sep t)
    rw [hps] at ih ⊢
    by_cases hc : c = sep
    · rcases List.mem_cons.mp hb with rfl | hb
      · exact Or.inl hc
      · rcases ih hb with h | ⟨piece, hp, h⟩
        · exact Or.inl h
        · exact Or.inr ⟨piece, by simp [hc, hp], h⟩
    · simp only [beq_iff_eq, hc, if_false, List.modifyHead_cons]
      rcases List.mem_cons.mp hb with rfl | hb
      · exact Or.inr ⟨b :: p, by simp, by simp⟩
      · rcases ih hb with h | ⟨piece, hp, h⟩
        · exact Or.inl h
        · rcases List.mem_cons.mp hp with rfl | hp
          · exact Or.inr ⟨c :: piece, by simp, by simp [h]⟩
          · exact Or.inr ⟨piece, by simp [hp], h⟩

/-- What follows a string changes only the last of its pieces. -/
theorem split_append_getElem? (sep : UInt8) (s t : GoString) : ∀ {i : ℕ},
    i + 1 < (split sep s).length → (split sep (s ++ t))[i]? = (split sep s)[i]? := by
  unfold split
  induction s with
  | nil =>
    intro i hi
    simp at hi
  | cons c s ih =>
    intro i hi
    rw [List.cons_append, List.splitOn_cons_eq_if_modifyHead, List.splitOn_cons_eq_if_modifyHead]
    rw [List.splitOn_cons_eq_if_modifyHead] at hi
    by_cases hc : (c == sep) = true
    · -- the piece before the separator is complete
      rw [if_pos hc] at hi
      rw [if_pos hc, if_pos hc]
      cases i with
      | zero => rfl
      | succ i => exact ih (by simpa using hi)
    · rw [if_neg hc, List.length_modifyHead] at hi
      have hpiece := ih hi
      rw [if_neg hc, if_neg hc, List.getElem?_modifyHead, List.getElem?_modifyHead, hpiece]

/-- The pieces around a separator. -/
theorem split_append_sep (sep : UInt8) (s t : GoString) :
    split sep (s ++ sep :: t) = split sep s ++ split sep t := by
  unfold split
  induction s with
  | nil => simp [List.splitOn_cons_eq_if_modifyHead]
  | cons c s ih =>
    rw [List.cons_append, List.splitOn_cons_eq_if_modifyHead, List.splitOn_cons_eq_if_modifyHead, ih]
    split
    · rfl
    · obtain ⟨p, ps, hps⟩ := List.exists_cons_of_ne_nil (List.splitOn_ne_nil sep s)
      rw [hps]
      rfl

/-- A text without the separator is one piece. -/
theorem split_of_notMem {sep : UInt8} {s : GoString} (h : sep ∉ s) : split sep s = [s] := by
  have hsplit : split sep ([sep].intercalate [s]) = [s] :=
    List.splitOn_intercalate sep (by simpa using h) (by simp)
  rwa [List.intercalate_singleton] at hsplit

theorem notMem_of_mem_split {sep : UInt8} {s piece : GoString} (h : piece ∈ split sep s) :
    sep ∉ piece := by
  unfold split at h
  induction s generalizing piece with
  | nil =>
    rw [List.splitOn_nil, List.mem_singleton] at h
    rw [h]
    exact List.not_mem_nil
  | cons c s ih =>
    rw [List.splitOn_cons_eq_if_modifyHead] at h
    split at h
    · rcases List.mem_cons.mp h with rfl | h
      · exact List.not_mem_nil
      · exact ih h
    · rename_i hc
      obtain ⟨p, ps, hps⟩ := List.exists_cons_of_ne_nil (List.splitOn_ne_nil sep s)
      rw [hps] at h ih
      rcases List.mem_cons.mp h with rfl | h
      · intro hmem
        rcases List.mem_cons.mp hmem with heq | hmem
        · exact hc (beq_iff_eq.mpr heq.symm)
        · exact ih List.mem_cons_self hmem
      · exact ih (List.mem_cons_of_mem p h)

/-- **The pieces of a text** are what has no separator and gives the text
when joined with it. -/
theorem split_eq_iff {sep : UInt8} {s : GoString} {pieces : List GoString} :
    split sep s = pieces ↔
      pieces ≠ [] ∧ (∀ piece ∈ pieces, sep ∉ piece) ∧ [sep].intercalate pieces = s := by
  constructor
  · rintro rfl
    exact ⟨List.splitOn_ne_nil sep s, fun piece => notMem_of_mem_split, List.intercalate_splitOn sep⟩
  · rintro ⟨hne, hno, rfl⟩
    exact List.splitOn_intercalate sep hno hne

/-- The first separator of a text is found again. -/
theorem append_sep_inj {sep : UInt8} {a a' b b' : GoString} (ha : sep ∉ a) (ha' : sep ∉ a')
    (h : a ++ sep :: b = a' ++ sep :: b') : a = a' ∧ b = b' := by
  have hcut : ∀ x y : GoString, sep ∉ x → cutAt sep (x ++ sep :: y) = x := by
    intro x y hx
    rw [cutAt, List.takeWhile_append_of_pos (by
      intro c hc
      simpa using fun hc' : c = sep => hx (hc' ▸ hc))]
    simp
  have haa : a = a' := by rw [← hcut a b ha, ← hcut a' b' ha', h]
  subst haa
  exact ⟨rfl, (List.cons.inj (List.append_cancel_left h)).2⟩

/-- And so is the last one. -/
theorem append_last_sep_inj {sep : UInt8} {a a' b b' : GoString} (hb : sep ∉ b) (hb' : sep ∉ b')
    (h : a ++ sep :: b = a' ++ sep :: b') : a = a' ∧ b = b' := by
  have hrev := congrArg List.reverse h
  simp only [List.reverse_append, List.reverse_cons, List.append_assoc, List.singleton_append]
    at hrev
  obtain ⟨h₁, h₂⟩ := append_sep_inj (by simpa using hb) (by simpa using hb') hrev
  exact ⟨List.reverse_injective h₂, List.reverse_injective h₁⟩

/-- Texts joined with a separator that none of them holds are found again. -/
theorem intercalate_inj {sep : UInt8} {ls ls' : List GoString} (hls : ls ≠ []) (hls' : ls' ≠ [])
    (h₁ : ∀ l ∈ ls, sep ∉ l) (h₂ : ∀ l ∈ ls', sep ∉ l)
    (h : [sep].intercalate ls = [sep].intercalate ls') : ls = ls' := by
  rw [← List.splitOn_intercalate sep h₁ hls, h, List.splitOn_intercalate sep h₂ hls']

/-! ## Order -/

/-- The bytes as numbers: Go's string order is the lexicographic order of
these. -/
def key (s : GoString) : List ℕ := s.map UInt8.toNat

/-- `left < right` on strings. -/
def less (left right : GoString) : Bool := decide (key left < key right)

theorem key_injective : Function.Injective key :=
  List.map_injective_iff.mpr fun _ _ h => UInt8.toNat_inj.mp h

/-! ## Numbers -/

/-- The value of a decimal digit. -/
def digit? (b : UInt8) : Option ℕ := if 48 ≤ b ∧ b ≤ 57 then some (b.toNat - 48) else none

/-- An unsigned decimal number: one digit or more and nothing else. -/
def decimal? (s : GoString) : Option ℕ :=
  if s = [] then none
  else s.foldl (fun acc b => do return (← acc) * 10 + (← digit? b)) (some 0)

/-- A decimal number with an optional sign. -/
def signed? : GoString → Option ℤ
  | 43 :: t => (decimal? t).map Int.ofNat
  | 45 :: t => (decimal? t).map fun n => -Int.ofNat n
  | t => (decimal? t).map Int.ofNat

/-- `strconv.Atoi`: an optional sign, decimal digits, and a value that
fits an `int`. -/
def atoi (s : GoString) : Option ℤ :=
  (signed? s).filter fun n => -(2 ^ 63) ≤ n ∧ n < 2 ^ 63

/-- `strconv.ErrSyntax` and `strconv.ErrRange`. -/
inductive NumError where
  | malformed
  | outOfRange
deriving DecidableEq, Repr

def NumError.text : NumError → GoString
  | .malformed => go "invalid syntax"
  | .outOfRange => go "value out of range"

/-- The loop of `strconv.ParseUint` in base ten, for values up to `max`. -/
def parseUintLoop (max : ℕ) : (n : ℕ) → GoString → Except NumError ℕ
  | n, [] => .ok n
  | n, c :: s =>
    match digit? c with
    | none => .error .malformed
    | some d => if max < n * 10 + d then .error .outOfRange else parseUintLoop max (n * 10 + d) s

/-- `strconv.ParseUint` in base ten. -/
def parseUint (max : ℕ) (s : GoString) : Except NumError ℕ :=
  if s = [] then .error .malformed else parseUintLoop max 0 s

/-- A number is written in digits. -/
theorem digits_of_decimal {s : GoString} {n : ℕ} (h : decimal? s = some n) :
    ∀ b ∈ s, (digit? b).isSome = true := by
  have hfold : ∀ (t : GoString) (acc : Option ℕ) (m : ℕ),
      t.foldl (fun acc b => do return (← acc) * 10 + (← digit? b)) acc = some m →
        ∀ b ∈ t, (digit? b).isSome = true := by
    intro t
    induction t using List.reverseRecOn with
    | nil => intro acc m _ b hb; cases hb
    | append_singleton t c ih =>
      intro acc m hm b hb
      rw [List.foldl_concat] at hm
      obtain ⟨v, hv, hm⟩ := Option.bind_eq_some_iff.mp hm
      obtain ⟨d, hd, -⟩ := Option.bind_eq_some_iff.mp hm
      rcases List.mem_append.mp hb with hb | hb
      · exact ih acc v hv b hb
      · rw [List.mem_singleton] at hb
        rw [hb, hd]
        rfl
  unfold decimal? at h
  split at h
  · cases h
  · exact hfold s (some 0) n h

/-- Digits that are in range are parsed. -/
theorem parseUint_of_decimal {max n : ℕ} {s : GoString} (h : decimal? s = some n) (hn : n ≤ max) :
    parseUint max s = .ok n := by
  have hnone : ∀ t : GoString,
      t.foldl (fun acc b => do return (← acc) * 10 + (← digit? b)) none = none := by
    intro t
    induction t with
    | nil => rfl
    | cons c t ih => exact ih
  -- what is still to come only adds to the number
  have hloop : ∀ (t : GoString) (k : ℕ),
      t.foldl (fun acc b => do return (← acc) * 10 + (← digit? b)) (some k) = some n →
        k ≤ n ∧ parseUintLoop max k t = .ok n := by
    intro t
    induction t with
    | nil =>
      intro k hk
      cases hk
      exact ⟨le_rfl, rfl⟩
    | cons c t ih =>
      intro k hk
      rw [List.foldl_cons] at hk
      cases hd : digit? c with
      | none =>
        rw [hd] at hk
        cases (hnone t).symm.trans hk
      | some d =>
        simp only [hd, Option.bind_eq_bind, Option.bind_some, Option.pure_def] at hk
        obtain ⟨hle, hparse⟩ := ih (k * 10 + d) hk
        refine ⟨by omega, ?_⟩
        simp only [parseUintLoop, hd]
        rw [if_neg (by omega), hparse]
  unfold decimal? at h
  split at h
  · cases h
  · rename_i hne
    rw [parseUint, if_neg hne]
    exact (hloop s 0 h).2

/-- What `Atoi` accepts is digits and a sign. -/
theorem bytes_of_atoi {s : GoString} {n : ℤ} (h : atoi s = some n) :
    ∀ b ∈ s, (digit? b).isSome = true ∨ b = 43 ∨ b = 45 := by
  have hm : signed? s = some n := (Option.filter_eq_some_iff.mp h).1
  have hdigits : ∀ {t : GoString} {f : ℕ → ℤ}, (decimal? t).map f = some n →
      ∀ b ∈ t, (digit? b).isSome = true := by
    intro t f ht
    obtain ⟨k, hk, -⟩ := Option.map_eq_some_iff.mp ht
    exact digits_of_decimal hk
  intro b hb
  unfold signed? at hm
  split at hm
  · rcases List.mem_cons.mp hb with rfl | hb
    · exact Or.inr (Or.inl rfl)
    · exact Or.inl (hdigits hm b hb)
  · rcases List.mem_cons.mp hb with rfl | hb
    · exact Or.inr (Or.inr rfl)
    · exact Or.inl (hdigits hm b hb)
  · exact Or.inl (hdigits hm b hb)

/-- `strconv.Itoa` of a number that is not negative. -/
def itoa (n : ℕ) : GoString := (Nat.toDigits 10 n).map fun c => UInt8.ofNat c.toNat

theorem toNat_of_mem_toDigits {n : ℕ} {c : Char} (h : c ∈ Nat.toDigits 10 n) :
    48 ≤ c.toNat ∧ c.toNat ≤ 57 := by
  have hd := Nat.isDigit_of_mem_toDigits (by omega) (by omega) h
  simp only [Char.isDigit, Bool.and_eq_true, decide_eq_true_eq, UInt32.le_iff_toNat_le] at hd
  exact hd

/-- The text of a number is made of digits. -/
theorem isDigit_of_mem_itoa {n : ℕ} {b : UInt8} (h : b ∈ itoa n) : 48 ≤ b ∧ b ≤ 57 := by
  obtain ⟨c, hc, rfl⟩ := List.mem_map.mp h
  have hc := toNat_of_mem_toDigits hc
  simp only [UInt8.le_iff_toNat_le, UInt8.toNat_ofNat']
  constructor
  · exact le_of_le_of_eq hc.1 (by omega)
  · exact le_of_eq_of_le (by omega) hc.2

/-- The text of a number determines it. -/
theorem itoa_injective : Function.Injective itoa := by
  have hback : ∀ n, (itoa n).map (fun b => Char.ofNat b.toNat) = Nat.toDigits 10 n := by
    intro n
    rw [itoa, List.map_map]
    conv_rhs => rw [← List.map_id (Nat.toDigits 10 n)]
    refine List.map_congr_left fun c hc => ?_
    have hc := toNat_of_mem_toDigits hc
    have hb : (UInt8.ofNat c.toNat).toNat = c.toNat := by
      rw [UInt8.toNat_ofNat']
      omega
    simp only [Function.comp_apply, hb, Char.ofNat_toNat, id_eq]
  intro n m h
  rw [← Nat.ofDigitChars_ten_toDigits (n := n), ← hback n, h, hback,
    Nat.ofDigitChars_ten_toDigits]

/-- **Reading a number's text gives it back.** -/
theorem decimal?_itoa (n : ℕ) : decimal? (itoa n) = some n := by
  -- the fold over the bytes is the one over the digits
  have hfold : ∀ (l : List Char) (acc : ℕ), (∀ c ∈ l, 48 ≤ c.toNat ∧ c.toNat ≤ 57) →
      (l.map fun c => UInt8.ofNat c.toNat).foldl
        (fun acc b => do return (← acc) * 10 + (← digit? b)) (some acc) =
        some (Nat.ofDigitChars 10 l acc) := by
    intro l
    induction l with
    | nil => intro acc _; rfl
    | cons c l ih =>
      intro acc hl
      obtain ⟨hlo, hhi⟩ := hl c (by simp)
      have hbyte : (UInt8.ofNat c.toNat).toNat = c.toNat := by
        rw [UInt8.toNat_ofNat']
        omega
      have hdigit : digit? (UInt8.ofNat c.toNat) = some (c.toNat - 48) := by
        have h48 : (48 : UInt8) ≤ UInt8.ofNat c.toNat := by
          rw [UInt8.le_iff_toNat_le, hbyte]
          exact hlo
        have h57 : UInt8.ofNat c.toNat ≤ 57 := by
          rw [UInt8.le_iff_toNat_le, hbyte]
          exact hhi
        rw [digit?, if_pos ⟨h48, h57⟩, hbyte]
      have hstep : (do return (← some acc) * 10 + (← digit? (UInt8.ofNat c.toNat)) : Option ℕ) =
          some (10 * acc + (c.toNat - 48)) := by
        rw [hdigit, Nat.mul_comm]
        rfl
      rw [List.map_cons, List.foldl_cons, hstep, ih _ fun d hd => hl d (by simp [hd])]
      rfl
  have hne : itoa n ≠ [] := by
    simp [itoa, Nat.toDigits_ne_nil]
  rw [decimal?, if_neg hne, itoa, hfold _ 0 fun c hc => toNat_of_mem_toDigits hc,
    Nat.ofDigitChars_ten_toDigits]

/-- And so does `Atoi`, for a number that fits. -/
theorem atoi_itoa {n : ℕ} (h : n < 2 ^ 63) : atoi (itoa n) = some (n : ℤ) := by
  have hsigned : signed? (itoa n) = some (n : ℤ) := by
    have hdec := decimal?_itoa n
    have hdigits := @isDigit_of_mem_itoa n
    unfold signed?
    split
    · rename_i t heq
      exact absurd (hdigits (heq ▸ List.mem_cons_self)) (by decide)
    · rename_i t heq
      exact absurd (hdigits (heq ▸ List.mem_cons_self)) (by decide)
    · rw [hdec]
      rfl
  rw [atoi, hsigned, Option.filter_some, if_pos]
  simp only [decide_eq_true_eq]
  omega

/-- `strconv.Itoa`. -/
def itoaInt : ℤ → GoString
  | .ofNat n => itoa n
  | .negSucc n => go "-" ++ itoa (n + 1)

end Strings

end McRouter
