import McRouter.Common.Reader

/-!
# Formats

A format says which byte strings are words and what each of them stands
for. A reader reads a format (`Reads`) when it succeeds exactly on the
inputs that begin with a word, returns what the word stands for and leaves
what comes after it. What a sequence of actions reads is put together from
what its parts read (`Reads.bind`), so the two directions, that what is
accepted is well formed and that what is well formed is accepted, are one
argument.
-/

namespace McRouter

/-- The words of a format, each with what it stands for. -/
def Format (α : Type) : Type := GoString → α → Prop

namespace Bytes

open ReadM

variable {ε ε' ε'' α β : Type}

/-- `x` succeeds exactly on what begins with a word of `L`, returns what it
stands for and leaves the rest. -/
def Reads (x : ReadM (Bytes ε) ε' α) (L : Format α) : Prop :=
  ∀ s a s', x s = (.ok a, s') ↔ ∃ word, L word a ∧ s = ⟨word ++ s'.rest, s'.atEnd⟩

namespace Reads

/-- What is left after a word is not looked at. -/
theorem append {x : ReadM (Bytes ε) ε' α} {L : Format α} (h : Reads x L) {word : GoString} {a : α}
    (hw : L word a) (rest : GoString) (e : ε) : x ⟨word ++ rest, e⟩ = (.ok a, ⟨rest, e⟩) :=
  (h _ a ⟨rest, e⟩).mpr ⟨word, hw, rfl⟩

theorem congr {x : ReadM (Bytes ε) ε' α} {L L' : Format α} (h : Reads x L)
    (hL : ∀ word a, L word a ↔ L' word a) : Reads x L' := by
  intro s a s'
  rw [h s a s']
  exact exists_congr fun word => and_congr_left fun _ => hL word a

theorem pure (a : α) :
    Reads (Pure.pure a : ReadM (Bytes ε) ε' α) fun word b => word = [] ∧ a = b := by
  intro s b s'
  constructor
  · intro h
    cases h
    exact ⟨[], ⟨rfl, rfl⟩, rfl⟩
  · rintro ⟨_, ⟨rfl, rfl⟩, rfl⟩
    rfl

theorem fail (e : ε') : Reads (ReadM.fail e : ReadM (Bytes ε) ε' α) fun _ _ => False := by
  intro s a s'
  constructor
  · intro h
    cases h
  · rintro ⟨_, h, _⟩
    exact h.elim

theorem ofExcept (x : Except ε' α) :
    Reads (ReadM.ofExcept x : ReadM (Bytes ε) ε' α) fun word a => word = [] ∧ x = .ok a := by
  intro s a s'
  rw [ofExcept_eq_ok]
  constructor
  · rintro ⟨hx, rfl⟩
    exact ⟨[], ⟨rfl, hx⟩, rfl⟩
  · rintro ⟨_, ⟨rfl, hx⟩, rfl⟩
    exact ⟨hx, rfl⟩

theorem mapErr {x : ReadM (Bytes ε) ε' α} {L : Format α} (f : ε' → ε'') (h : Reads x L) :
    Reads (ReadM.mapErr f x) L := by
  intro s a s'
  rw [mapErr_eq_ok, h s a s']

/-- A sequence reads a word of its first part and then one of its second. -/
theorem bind {x : ReadM (Bytes ε) ε' α} {f : α → ReadM (Bytes ε) ε' β} {L : Format α}
    {M : α → Format β} (hx : Reads x L) (hf : ∀ a, Reads (f a) (M a)) :
    Reads (x >>= f) fun word b => ∃ u v a, word = u ++ v ∧ L u a ∧ M a v b := by
  intro s b s''
  rw [bind_eq_ok]
  constructor
  · rintro ⟨a, s', hxa, hfa⟩
    obtain ⟨u, hu, rfl⟩ := (hx _ _ _).mp hxa
    obtain ⟨v, hv, rfl⟩ := (hf a _ _ _).mp hfa
    exact ⟨u ++ v, ⟨u, v, a, rfl, hu, hv⟩, by rw [List.append_assoc]⟩
  · rintro ⟨_, ⟨u, v, a, rfl, hu, hv⟩, rfl⟩
    refine ⟨a, ⟨v ++ s''.rest, s''.atEnd⟩, ?_, (hf a).append hv s''.rest s''.atEnd⟩
    rw [List.append_assoc]
    exact hx.append hu (v ++ s''.rest) s''.atEnd

theorem ite {c : Prop} [Decidable c] {x y : ReadM (Bytes ε) ε' α} {L M : Format α}
    (hx : Reads x L) (hy : Reads y M) :
    Reads (if c then x else y) fun word a => c ∧ L word a ∨ ¬ c ∧ M word a := by
  by_cases hc : c
  · rw [if_pos hc]
    exact hx.congr fun _ _ => by simp [hc]
  · rw [if_neg hc]
    exact hy.congr fun _ _ => by simp [hc]

/-- A check that fails before anything else is read. -/
theorem guard {c : Prop} [Decidable c] {x : ReadM (Bytes ε) ε' α} {L : Format α} (e : ε')
    (hx : Reads x L) :
    Reads (if c then ReadM.fail e else x) fun word a => ¬ c ∧ L word a := by
  by_cases hc : c
  · rw [if_pos hc]
    exact (fail e).congr fun _ _ => ⟨False.elim, fun h => h.1 hc⟩
  · rw [if_neg hc]
    exact hx.congr fun _ _ => ⟨fun h => ⟨hc, h⟩, fun h => h.2⟩

/-- A check of what was read. -/
theorem check {c : Prop} [Decidable c] (a : α) (e : ε') :
    Reads (if c then Pure.pure a else ReadM.fail e : ReadM (Bytes ε) ε' α)
      fun word b => c ∧ word = [] ∧ a = b := by
  by_cases hc : c
  · rw [if_pos hc]
    exact (pure a).congr fun _ _ => ⟨fun h => ⟨hc, h⟩, fun h => h.2⟩
  · rw [if_neg hc]
    exact (fail e).congr fun _ _ => ⟨False.elim, fun h => hc h.1⟩

theorem readFull (short : ε → ε) (k : ℕ) :
    Reads (Bytes.readFull short k) fun word bs => word = bs ∧ bs.length = k := by
  intro s bs s'
  constructor
  · intro h
    obtain ⟨hrest, hlen, hend⟩ := readFull_eq_ok h
    exact ⟨bs, ⟨rfl, hlen⟩, by rw [← hrest, hend]⟩
  · rintro ⟨_, ⟨rfl, rfl⟩, rfl⟩
    exact readFull_append short _ s'.rest s'.atEnd

/-! A reader that hands the bytes over in pieces reads the same format. -/

variable {σ : Type} {view : σ → Bytes ε} {x : ReadM σ ε' α} {y : ReadM (Bytes ε) ε' α} {L : Format α}

theorem of_sim (hsim : Sim view x y) (h : Reads y L) {s s' : σ} {a : α}
    (hx : x s = (.ok a, s')) :
    ∃ word, L word a ∧ view s = ⟨word ++ (view s').rest, (view s').atEnd⟩ := by
  refine (h (view s) a (view s')).mp ?_
  rw [hsim s, hx]

theorem sim_append (hsim : Sim view x y) (h : Reads y L) {s : σ} {word rest : GoString} {a : α}
    {e : ε} (hw : L word a) (hs : view s = ⟨word ++ rest, e⟩) :
    ∃ s', x s = (.ok a, s') ∧ view s' = ⟨rest, e⟩ := by
  have hy := hsim s
  rw [hs, h.append hw rest e, Prod.mk.injEq] at hy
  exact ⟨(x s).2, Prod.ext hy.1.symm rfl, hy.2.symm⟩

end Reads

/-- `x` takes at most `n` bytes, whether it succeeds or not. -/
def Takes (n : ℕ) (x : ReadM (Bytes ε) ε' α) : Prop :=
  ∀ s, ∃ taken, s.rest = taken ++ (x s).2.rest ∧ taken.length ≤ n

namespace Takes

theorem pure (a : α) : Takes 0 (Pure.pure a : ReadM (Bytes ε) ε' α) := fun _ => ⟨[], rfl, le_rfl⟩

theorem ofExcept (x : Except ε' α) : Takes 0 (ReadM.ofExcept x : ReadM (Bytes ε) ε' α) :=
  fun _ => ⟨[], rfl, le_rfl⟩

theorem mono {m n : ℕ} {x : ReadM (Bytes ε) ε' α} (h : Takes m x) (hmn : m ≤ n) : Takes n x := by
  intro s
  obtain ⟨taken, hrest, hlen⟩ := h s
  exact ⟨taken, hrest, by omega⟩

theorem mapErr {n : ℕ} {x : ReadM (Bytes ε) ε' α} (f : ε' → ε'') (h : Takes n x) :
    Takes n (ReadM.mapErr f x) := h

/-- What comes second matters only after the first has succeeded. -/
theorem bind {m n : ℕ} {x : ReadM (Bytes ε) ε' α} {f : α → ReadM (Bytes ε) ε' β} (hx : Takes m x)
    (hf : ∀ s a s', x s = (.ok a, s') → Takes n (f a)) : Takes (m + n) (x >>= f) := by
  intro s
  obtain ⟨taken, hrest, hlen⟩ := hx s
  rcases hxs : x s with ⟨e | a, s'⟩
  · rw [hxs] at hrest
    refine ⟨taken, ?_, by omega⟩
    rw [bind_of_error hxs]
    exact hrest
  · obtain ⟨taken', hrest', hlen'⟩ := hf s a s' hxs s'
    rw [hxs] at hrest
    refine ⟨taken ++ taken', ?_, by rw [List.length_append]; omega⟩
    rw [bind_of_ok hxs, List.append_assoc, ← hrest']
    exact hrest

theorem ite {c : Prop} [Decidable c] {n : ℕ} {x y : ReadM (Bytes ε) ε' α} (hx : Takes n x)
    (hy : Takes n y) : Takes n (if c then x else y) := by
  split
  · exact hx
  · exact hy

theorem readFull (short : ε → ε) (k : ℕ) : Takes k (Bytes.readFull short k) := by
  intro s
  unfold Bytes.readFull
  split
  · exact ⟨s.rest.take k, (List.take_append_drop k s.rest).symm, List.length_take_le k s.rest⟩
  · exact ⟨s.rest, (List.append_nil _).symm, by omega⟩

end Takes

/-- `x` succeeds exactly on the words of `L`: it looks at the whole input. -/
def ReadsAll (x : ReadM (Bytes ε) ε' α) (L : Format α) : Prop :=
  ∀ s a, (x s).1 = .ok a ↔ L s.rest a

namespace ReadsAll

theorem congr {x : ReadM (Bytes ε) ε' α} {L L' : Format α} (h : ReadsAll x L)
    (hL : ∀ word a, L word a ↔ L' word a) : ReadsAll x L' :=
  fun s a => (h s a).trans (hL s.rest a)

theorem bind {x : ReadM (Bytes ε) ε' α} {f : α → ReadM (Bytes ε) ε' β} {L : Format α}
    {M : α → Format β} (hx : Reads x L) (hf : ∀ a, ReadsAll (f a) (M a)) :
    ReadsAll (x >>= f) fun word b => ∃ u v a, word = u ++ v ∧ L u a ∧ M a v b := by
  intro s b
  constructor
  · intro h
    obtain ⟨a, s', hxa, hfa⟩ := bind_eq_ok.mp (Prod.ext h rfl : (x >>= f) s = (.ok b, _))
    obtain ⟨u, hu, rfl⟩ := (hx _ _ _).mp hxa
    exact ⟨u, s'.rest, a, rfl, hu, (hf a s' b).mp (congrArg Prod.fst hfa)⟩
  · rintro ⟨u, v, a, hs, hu, hv⟩
    obtain ⟨_, e⟩ := s
    obtain rfl := hs
    rw [bind_of_ok (hx.append hu v e)]
    exact (hf a ⟨v, e⟩ b).mpr hv

theorem guard {c : Prop} [Decidable c] {x : ReadM (Bytes ε) ε' α} {L : Format α} (e : ε')
    (hx : ReadsAll x L) :
    ReadsAll (if c then ReadM.fail e else x) fun word a => ¬ c ∧ L word a := by
  intro s a
  by_cases hc : c
  · rw [if_pos hc]
    exact ⟨nofun, fun h => absurd hc h.1⟩
  · rw [if_neg hc, hx s a]
    exact ⟨fun h => ⟨hc, h⟩, fun h => h.2⟩

/-- A check that nothing is left. -/
theorem atEnd (a : α) (e : ε') :
    ReadsAll (fun s : Bytes ε => if s.rest ≠ [] then (.error e, s) else (.ok a, s))
      fun word b => word = [] ∧ a = b := by
  intro s b
  by_cases h : s.rest = []
  · simp [h]
  · simp [h]

end ReadsAll

end Bytes

end McRouter
