import McRouter.Common.Unicode

/-!
# Runes of strings put together

A string is read rune by rune, and where one rune ends does not depend on
what follows it (`decodeRune_append`). So a part of a string that is made of
whole runes reads the same alone (`runes_of_parts`), and an ASCII byte always
begins a rune (`runes_append_cons`). From that follows what
`strings.TrimSpace` does to a string with other text around it. Nothing here
is about the router.
-/

namespace McRouter

namespace Unicode

open Strings

/-! ## Where a rune ends -/

/-- A choice whose first alternative is too wide. -/
theorem eq_of_short {c : Prop} [Decidable c] {x y : ℕ × ℕ} {n : ℕ}
    (h : (if c then x else y).2 ≤ n) (hx : n < x.2) : (if c then x else y) = y := by
  by_cases hc : c
  · rw [if_pos hc] at h
    omega
  · rw [if_neg hc]

/-- **A rune that ends within a text** is the one read from the text
alone. -/
theorem decodeRune_append (b0 : UInt8) (t r : GoString)
    (h : (decodeRune (b0 :: (t ++ r))).2 ≤ t.length + 1) :
    decodeRune (b0 :: (t ++ r)) = decodeRune (b0 :: t) := by
  by_cases hascii : b0 < 0x80
  · simp only [decodeRune, if_pos hascii]
  simp only [decodeRune, if_neg hascii] at h ⊢
  by_cases htwo : 0xC2 ≤ b0 ∧ b0 ≤ 0xDF
  · simp only [if_pos htwo] at h ⊢
    rcases t with _ | ⟨b1, t⟩
    · rcases r with _ | ⟨c1, r⟩
      · rfl
      · exact eq_of_short h (by simp)
    · rfl
  by_cases hthree : 0xE0 ≤ b0 ∧ b0 ≤ 0xEF
  · simp only [if_neg htwo, if_pos hthree] at h ⊢
    rcases t with _ | ⟨b1, _ | ⟨b2, t⟩⟩
    · rcases r with _ | ⟨c1, _ | ⟨c2, r⟩⟩
      · rfl
      · rfl
      · exact eq_of_short h (by simp)
    · rcases r with _ | ⟨c1, r⟩
      · rfl
      · exact eq_of_short h (by simp)
    · rfl
  by_cases hfour : 0xF0 ≤ b0 ∧ b0 ≤ 0xF4
  · simp only [if_neg htwo, if_neg hthree, if_pos hfour] at h ⊢
    rcases t with _ | ⟨b1, _ | ⟨b2, _ | ⟨b3, t⟩⟩⟩
    · rcases r with _ | ⟨c1, _ | ⟨c2, _ | ⟨c3, r⟩⟩⟩
      · rfl
      · rfl
      · rfl
      · exact eq_of_short h (by simp)
    · rcases r with _ | ⟨c1, _ | ⟨c2, r⟩⟩
      · rfl
      · rfl
      · exact eq_of_short h (by simp)
    · rcases r with _ | ⟨c1, r⟩
      · rfl
      · exact eq_of_short h (by simp)
    · rfl
  · simp only [if_neg htwo, if_neg hthree, if_neg hfour]

/-- A rune is no longer than the text. -/
theorem width_le (b0 : UInt8) (t : GoString) : (decodeRune (b0 :: t)).2 ≤ t.length + 1 := by
  simp only [decodeRune]
  repeat' split
  all_goals simp only [List.length_cons, List.length_nil]; omega

/-- An ASCII byte ends the rune before it. -/
theorem width_le_of_ascii (b0 : UInt8) (t : GoString) {c : UInt8} (hc : c < 0x80) (r : GoString) :
    (decodeRune (b0 :: (t ++ c :: r))).2 ≤ t.length + 1 := by
  by_cases h : b0 < 0x80
  · simp [decodeRune, if_pos h]
  by_contra hlong
  -- the rune would take the ASCII byte in
  have hmem : c ∈ (b0 :: (t ++ c :: r)).take (decodeRune (b0 :: (t ++ c :: r))).2 := by
    refine List.mem_take_iff_getElem.mpr ⟨t.length + 1, ?_, ?_⟩
    · simp
      omega
    · simp
  exact absurd hc (UInt8.not_lt.mpr (le_of_mem_take h c hmem))

/-! ## Reading on -/

/-- Passing over bytes is reading what is behind them. -/
theorem runesFrom_eq_drop : ∀ (s : GoString) (skip : ℕ), runesFrom skip s = runes (s.drop skip) := by
  intro s
  induction s with
  | nil =>
    intro skip
    simp [runes, runesFrom]
  | cons b t ih =>
    intro skip
    cases skip with
    | zero => rfl
    | succ skip => exact ih skip

/-- The first rune and the others. -/
theorem runes_cons (b : UInt8) (t : GoString) :
    runes (b :: t) = ⟨(decodeRune (b :: t)).1, (b :: t).take (decodeRune (b :: t)).2⟩ ::
      runes ((b :: t).drop (decodeRune (b :: t)).2) := by
  have hpos := width_pos b t
  have hwidth : (b :: t).drop (decodeRune (b :: t)).2 = t.drop ((decodeRune (b :: t)).2 - 1) := by
    obtain ⟨width, hwidth⟩ := Nat.exists_eq_succ_of_ne_zero (Nat.ne_of_gt hpos)
    rw [hwidth]
    rfl
  rw [hwidth, ← runesFrom_eq_drop]
  rfl

/-- **The text behind whole runes reads the same alone.** -/
theorem runes_of_back : ∀ {front back : List Rune} {s : GoString}, runes s = front ++ back →
    s = front.flatMap Rune.bytes ++ back.flatMap Rune.bytes ∧
      runes (back.flatMap Rune.bytes) = back := by
  intro front back s h
  have hbytes : s = front.flatMap Rune.bytes ++ back.flatMap Rune.bytes := by
    rw [← List.flatMap_append, ← h, flatMap_bytes_runes]
  refine ⟨hbytes, ?_⟩
  clear hbytes
  induction front generalizing s with
  | nil => rw [← List.nil_append back, ← h, flatMap_bytes_runes]
  | cons r front ih =>
    cases s with
    | nil => cases h
    | cons b t =>
      rw [runes_cons, List.cons_append] at h
      exact ih (List.cons.inj h).2

/-- **The text of whole runes at the front reads the same alone.** -/
theorem runes_of_front : ∀ {front back : List Rune} {s : GoString}, runes s = front ++ back →
    runes (front.flatMap Rune.bytes) = front := by
  intro front
  induction front with
  | nil =>
    intro back s _
    rfl
  | cons r front ih =>
    intro back s h
    cases s with
    | nil => cases h
    | cons b t =>
      rw [runes_cons, List.cons_append] at h
      obtain ⟨rfl, hrest⟩ := List.cons.inj h
      have hfront := ih hrest
      obtain ⟨hbytes, -⟩ := runes_of_back hrest
      -- the text up to the end of `front` is `b :: t'`
      set first := decodeRune (b :: t) with hfirst
      set rest := front.flatMap Rune.bytes
      obtain ⟨width, hwidth⟩ := Nat.exists_eq_succ_of_ne_zero (Nat.ne_of_gt (width_pos b t))
      rw [← hfirst] at hwidth
      have hle : first.2 ≤ t.length + 1 := width_le b t
      rw [hwidth, List.drop_succ_cons] at hbytes hrest
      rw [List.flatMap_cons, hwidth, List.take_succ_cons, List.cons_append]
      have ht : t = t.take width ++ rest ++ back.flatMap Rune.bytes := by
        rw [List.append_assoc, ← hbytes, List.take_append_drop]
      have hsame : decodeRune (b :: (t.take width ++ rest)) = first := by
        rw [hfirst]
        conv_rhs => rw [ht]
        refine (decodeRune_append b _ _ ?_).symm
        rw [← ht, ← hfirst, hwidth, List.length_append, List.length_take]
        omega
      have hlen : (t.take width).length = width := by
        rw [List.length_take]
        omega
      rw [runes_cons, hsame, hwidth, List.take_succ_cons, List.drop_succ_cons,
        List.take_left' hlen, List.drop_left' hlen, hfront]

/-- **The text of whole runes within a string reads the same alone.** -/
theorem runes_of_parts {front part back : List Rune} {s : GoString}
    (h : runes s = front ++ part ++ back) :
    runes (part.flatMap Rune.bytes) = part ∧
      s = front.flatMap Rune.bytes ++ part.flatMap Rune.bytes ++ back.flatMap Rune.bytes := by
  obtain ⟨hbytes, -⟩ := runes_of_back h
  obtain ⟨-, hpart⟩ := runes_of_back (runes_of_front h)
  exact ⟨hpart, by rw [hbytes, List.flatMap_append]⟩

/-- **An ASCII byte begins a rune.** -/
theorem runes_append_cons {c : UInt8} (hc : c < 0x80) (r : GoString) : ∀ s : GoString,
    runes (s ++ c :: r) = runes s ++ runes (c :: r) := by
  -- by induction on the length: the first rune is cut off, however long it is
  suffices h : ∀ (n : ℕ) (s : GoString), s.length ≤ n →
      runes (s ++ c :: r) = runes s ++ runes (c :: r) from fun s => h s.length s le_rfl
  intro n
  induction n with
  | zero =>
    intro s hs
    rw [List.length_eq_zero_iff.mp (Nat.le_zero.mp hs)]
    rfl
  | succ n ih =>
    intro s hs
    cases s with
    | nil => rfl
    | cons b s =>
      have hsame := decodeRune_append b s (c :: r) (width_le_of_ascii b s hc r)
      have hle := width_le b s
      have hpos := width_pos b s
      rw [List.length_cons] at hs
      rw [List.cons_append, runes_cons, hsame, runes_cons b s, List.cons_append, ← List.cons_append,
        List.take_append_of_le_length (by rwa [List.length_cons]),
        List.drop_append_of_le_length (by rwa [List.length_cons]), ih]
      rw [List.length_drop, List.length_cons]
      omega

theorem runes_append_ascii {q : GoString} (hq : IsAscii q) (s : GoString) :
    runes (s ++ q) = runes s ++ q.map ofByte := by
  cases q with
  | nil => simp
  | cons c r => rw [runes_append_cons (hq c List.mem_cons_self), runes_eq_map hq]

theorem runes_cons_ascii {c : UInt8} (hc : c < 0x80) (r : GoString) :
    runes (c :: r) = ofByte c :: runes r := by
  have hdecode : decodeRune (c :: r) = (c.toNat, 1) := by simp only [decodeRune, if_pos hc]
  rw [runes_cons, hdecode]
  rfl

/-! ## Trimming -/

section Trim

variable {α : Type} {p : α → Bool}

/-- What is trimmed away can stand there or not. -/
theorem trim_append {front back : List α} (hfront : ∀ a ∈ front, p a = true)
    (hback : ∀ a ∈ back, p a = true) (l : List α) :
    ((front ++ l ++ back).dropWhile p).rdropWhile p = (l.dropWhile p).rdropWhile p := by
  have hdrop : ∀ l : List α, (l ++ back).rdropWhile p = l.rdropWhile p := by
    intro l
    rw [List.rdropWhile, List.rdropWhile, List.reverse_append,
      List.dropWhile_append_of_pos fun a ha => hback a (List.mem_reverse.mp ha)]
  rw [List.append_assoc, List.dropWhile_append_of_pos hfront, List.dropWhile_append]
  split
  · rename_i hempty
    rw [List.isEmpty_iff.mp hempty, List.dropWhile_eq_nil_iff.mpr hback]
  · exact hdrop _

/-- Nothing is trimmed where something else stands at both ends. -/
theorem trim_eq_self {l : List α} (hhead : ∀ a ∈ l.head?, p a = false)
    (hlast : ∀ a ∈ l.getLast?, p a = false) : (l.dropWhile p).rdropWhile p = l := by
  have hdrop : l.dropWhile p = l := by
    cases l with
    | nil => rfl
    | cons a l => rw [List.dropWhile_cons_of_neg (by simp [hhead a rfl])]
  rw [hdrop, List.rdropWhile_eq_self_iff]
  intro hne
  simp [hlast _ (List.getLast?_eq_some_getLast hne)]

theorem rdropWhile_cons {a : α} (ha : p a = false) (l : List α) :
    (a :: l).rdropWhile p = a :: l.rdropWhile p := by
  rw [List.rdropWhile, List.rdropWhile, List.reverse_cons, List.dropWhile_append]
  split
  · rename_i hempty
    rw [List.isEmpty_iff.mp hempty, List.dropWhile_cons_of_neg (by simp [ha])]
    rfl
  · rw [List.reverse_append]
    rfl

end Trim

/-- **White space around whole runes does not matter.** -/
theorem trimSpace_of_parts {front part back : List Rune} {s : GoString}
    (h : runes s = front ++ part ++ back) (hspace : ∀ r ∈ front ++ back, isSpace r.code = true) :
    trimSpace s = trimSpace (part.flatMap Rune.bytes) := by
  rw [trimSpace, trimSpace, (runes_of_parts h).1, h,
    trim_append (p := fun r : Rune => isSpace r.code)
      (fun r hr => hspace r (List.mem_append_left _ hr))
      fun r hr => hspace r (List.mem_append_right _ hr)]

theorem trimSpace_trimSpace (s : GoString) : trimSpace (trimSpace s) = trimSpace s := by
  obtain ⟨front, core, back, hrunes, hspace, hcore⟩ := runes_trimSpace s
  rw [← hcore, ← trimSpace_of_parts hrunes hspace, hcore]

/-- White space has no other ASCII byte. -/
theorem notMem_of_spaces {s : GoString} {part : List Rune} (hmem : ∀ r ∈ part, r ∈ runes s)
    (hspace : ∀ r ∈ part, isSpace r.code = true) {c : UInt8} (hc : c < 0x80)
    (hsp : isSpace c.toNat = false) : c ∉ part.flatMap Rune.bytes := by
  intro h
  obtain ⟨r, hr, hcr⟩ := List.mem_flatMap.mp h
  have hcode := hspace r hr
  rw [eq_ofByte_of_mem (hmem r hr) hcr hc, ofByte, hsp] at hcode
  cases hcode

/-- Nor has white space around a text. -/
theorem notMem_of_parts {front part back : List Rune} {s : GoString}
    (h : runes s = front ++ part ++ back) (hspace : ∀ r ∈ front ++ back, isSpace r.code = true)
    {c : UInt8} (hc : c < 0x80) (hsp : isSpace c.toNat = false) :
    c ∉ front.flatMap Rune.bytes ∧ c ∉ back.flatMap Rune.bytes := by
  have hmem : ∀ r, r ∈ front ∨ r ∈ back → r ∈ runes s := by
    intro r hr
    rw [h, List.mem_append, List.mem_append]
    exact hr.imp_left Or.inl
  constructor
  · exact notMem_of_spaces (fun r hr => hmem r (Or.inl hr))
      (fun r hr => hspace r (List.mem_append_left _ hr)) hc hsp
  · exact notMem_of_spaces (fun r hr => hmem r (Or.inr hr))
      (fun r hr => hspace r (List.mem_append_right _ hr)) hc hsp

/-- **Trimming keeps every ASCII byte that is no white space.** -/
theorem count_trimSpace {c : UInt8} (hc : c < 0x80) (hsp : isSpace c.toNat = false) (s : GoString) :
    (trimSpace s).count c = s.count c := by
  obtain ⟨front, core, back, hrunes, hspace, hcore⟩ := runes_trimSpace s
  have hbytes := (runes_of_parts hrunes).2
  obtain ⟨hfront, hback⟩ := notMem_of_parts hrunes hspace hc hsp
  conv_rhs => rw [hbytes]
  rw [List.count_append, List.count_append, List.count_eq_zero.mpr hfront,
    List.count_eq_zero.mpr hback, hcore]
  omega

theorem mem_of_mem_trimSpace {c : UInt8} {s : GoString} (h : c ∈ trimSpace s) : c ∈ s := by
  obtain ⟨front, core, back, hrunes, -, hcore⟩ := runes_trimSpace s
  rw [(runes_of_parts hrunes).2, hcore]
  simp [h]

/-- After a byte that is no white space only the back is trimmed. -/
theorem trimSpace_cons {c : UInt8} (hc : c < 0x80) (hsp : isSpace c.toNat = false) (s : GoString) :
    ∃ rest back, runes s = rest ++ back ∧ (∀ r ∈ back, isSpace r.code = true) ∧
      trimSpace (c :: s) = c :: rest.flatMap Rune.bytes := by
  let space : Rune → Bool := fun r => isSpace r.code
  refine ⟨(runes s).rdropWhile space, (runes s).rtakeWhile space,
    List.rdropWhile_append_rtakeWhile.symm,
    fun r hr => List.mem_rtakeWhile_imp (p := space) hr, ?_⟩
  have hbyte : space (ofByte c) = false := hsp
  rw [trimSpace, runes_cons_ascii hc, List.dropWhile_cons_of_neg (by simp [hsp, ofByte]),
    rdropWhile_cons hbyte, List.flatMap_cons]
  rfl

/-- Before a text without white space only the front is trimmed. -/
theorem trimSpace_append {q : GoString} (hne : q ≠ []) (hq : IsAscii q)
    (hsp : ∀ b ∈ q, isSpace b.toNat = false) (s : GoString) :
    ∃ front rest, runes s = front ++ rest ∧ (∀ r ∈ front, isSpace r.code = true) ∧
      trimSpace (s ++ q) = rest.flatMap Rune.bytes ++ q := by
  let space : Rune → Bool := fun r => isSpace r.code
  refine ⟨(runes s).takeWhile space, (runes s).dropWhile space,
    List.takeWhile_append_dropWhile.symm, fun r hr => List.mem_takeWhile_imp (p := space) hr, ?_⟩
  have hqspace : ∀ r ∈ q.map ofByte, space r = false := by
    intro r hr
    obtain ⟨b, hb, rfl⟩ := List.mem_map.mp hr
    exact hsp b hb
  have hrunes : runes (s ++ q) = (runes s).takeWhile space ++
      ((runes s).dropWhile space ++ q.map ofByte) ++ [] := by
    rw [runes_append_ascii hq, List.append_nil, ← List.append_assoc, List.takeWhile_append_dropWhile]
  rw [trimSpace, hrunes, trim_append (p := space)
    (fun r hr => List.mem_takeWhile_imp (p := space) hr) (by simp), trim_eq_self]
  · rw [List.flatMap_append, flatMap_ofByte]
  · intro r hr
    cases hrest : (runes s).dropWhile space with
    | nil =>
      rw [hrest, List.nil_append] at hr
      exact hqspace r (List.mem_of_mem_head? hr)
    | cons r' rest =>
      rw [hrest, List.cons_append, List.head?_cons, Option.mem_some_iff] at hr
      subst hr
      have hnot := List.head_dropWhile_not space (l := runes s) (by rw [hrest]; simp)
      simpa [hrest] using hnot
  · intro r hr
    rw [List.getLast?_append_of_ne_nil _ (by simpa using hne)] at hr
    exact hqspace r (List.mem_of_getLast? hr)

/-- Nothing is trimmed between a byte and a text that are no white space. -/
theorem trimSpace_enclosed {c : UInt8} (hc : c < 0x80) (hcsp : isSpace c.toNat = false) {q : GoString}
    (hne : q ≠ []) (hq : IsAscii q) (hsp : ∀ b ∈ q, isSpace b.toNat = false) (s : GoString) :
    trimSpace (c :: s ++ q) = c :: s ++ q := by
  obtain ⟨front, rest, hrunes, hspace, htrim⟩ := trimSpace_append hne hq hsp (c :: s)
  have hfront : front = [] := by
    cases front with
    | nil => rfl
    | cons r front =>
      rw [runes_cons_ascii hc, List.cons_append] at hrunes
      have hcode := hspace r List.mem_cons_self
      rw [← (List.cons.inj hrunes).1, ofByte, hcsp] at hcode
      cases hcode
  rw [hfront, List.nil_append] at hrunes
  rw [htrim, ← hrunes, flatMap_bytes_runes]

end Unicode

end McRouter
