import McRouter.Access.RateLimit
import McRouter.Common.TokenBucket
import Mathlib.Data.Rat.Cast.Order
import Mathlib.Algebra.Order.Field.Rat
import Mathlib.Tactic.Positivity
import Mathlib.Tactic.Ring

/-!
# The limiter's buckets

What one call of the limiter does to its table. An entry is a bucket of
`Common/TokenBucket.lean` with the time it was last asked for, and a call is
one attempt on one bucket: the client's own if it is still remembered, a
full one otherwise, for which the entry that was asked for least recently
may have to go (`rememberAt_cases`). Go visits a map in any order, so the
table may stand in another order at each call (`Asked`).
-/

namespace McRouter

namespace RateLimit

open Netip TokenBucket
open Arithmetic (float64 mulAdd counts)

/-! ## Times -/

theorem sub_mono {t t' : ℤ} (u : ℤ) (h : t ≤ t') : sub t u ≤ sub t' u := by
  unfold sub
  omega

theorem sub_pos_iff {t u : ℤ} : 0 < sub t u ↔ u < t := by
  unfold sub
  omega

theorem sub_le {t u : ℤ} (h : u ≤ t) : sub t u ≤ t - u := by
  unfold sub
  omega

theorem seconds_mono {d d' : ℤ} (h : d ≤ d') : seconds d ≤ seconds d' := by
  have hd : (d : ℚ) ≤ d' := by exact_mod_cast h
  unfold seconds
  linarith

theorem seconds_sub (t u : ℤ) : seconds (t - u) = seconds t - seconds u := by
  unfold seconds
  push_cast
  ring

/-! ## An entry is a bucket -/

/-- The bucket of an entry. -/
def Entry.bucket (e : Entry) : Bucket ℤ ℚ := ⟨e.tokens, e.lastRefill⟩

section Rounded

variable [Arithmetic]

/-- What the configuration says of a bucket. -/
def meter (cfg : Config) : Meter ℤ ℚ where
  capacity := float64 cfg.burst
  gain tokens t u := mulAdd (Arithmetic.seconds (sub u t)) cfg.connectionsPerSecond tokens
  less tokens := float64 (tokens - 1)

/-- The entry of a client that is not remembered. -/
def fresh (cfg : Config) (now : ℤ) : Entry := ⟨float64 cfg.burst, now, now⟩

/-- An attempt on an entry. -/
def serve (cfg : Config) (e : Entry) (now : ℤ) : Bool × Entry :=
  let answer := (meter cfg).attempt e.bucket now
  (answer.1, ⟨answer.2.tokens, answer.2.refilled, now⟩)

theorem refill_bucket (cfg : Config) (e : Entry) (now : ℤ) :
    (refill cfg e now).bucket = (meter cfg).refill e.bucket now := by
  unfold refill Meter.refill
  by_cases h : e.lastRefill < now
  · have hpos : 0 < Arithmetic.seconds (sub now e.lastRefill) :=
      Arithmetic.seconds_pos.mpr (sub_pos_iff.mpr h)
    simp [hpos, h, Entry.bucket, meter]
  · have hpos : ¬ 0 < Arithmetic.seconds (sub now e.lastRefill) := by
      rwa [Arithmetic.seconds_pos, sub_pos_iff]
    simp [hpos, h, Entry.bucket]

end Rounded

/-- What a bucket gains exactly. -/
theorem gain_exact (cfg : Config) (tokens : ℚ) (t u : ℤ) :
    (meter cfg).gain tokens t u = tokens + seconds (sub u t) * cfg.connectionsPerSecond := by
  simp only [meter, Arithmetic.mulAdd_exact, Arithmetic.seconds_exact, seconds]

/-! ## Who has to go -/

/-- The loop of `deleteOldest` keeps an entry that was asked for no later
than any it has seen. -/
theorem olderOf_fold : ∀ (es : List (Σ _ : Addr, Entry)) (a : Addr) (seen : ℤ),
    a.isValid → (∀ p ∈ es, p.1.isValid) →
    ∃ a' seen', es.foldl (fun o p => olderOf o p.1 p.2) (some (a, seen)) = some (a', seen') ∧
      ((a' = a ∧ seen' = seen) ∨ ∃ e, ⟨a', e⟩ ∈ es ∧ e.lastSeen = seen') ∧
      seen' ≤ seen ∧ ∀ p ∈ es, seen' ≤ p.2.lastSeen := by
  intro es
  induction es with
  | nil =>
    intro a seen _ _
    exact ⟨a, seen, rfl, Or.inl ⟨rfl, rfl⟩, le_refl _, by simp⟩
  | cons p es ih =>
    intro a seen ha hvalid
    have hrest : ∀ q ∈ es, q.1.isValid := fun q hq => hvalid q (List.mem_cons_of_mem _ hq)
    rw [List.foldl_cons]
    by_cases hkeep : seen ≤ p.2.lastSeen
    · rw [show olderOf (some (a, seen)) p.1 p.2 = some (a, seen) from if_pos ⟨ha, hkeep⟩]
      obtain ⟨a', seen', hfold, hwho, hle, hall⟩ := ih a seen ha hrest
      refine ⟨a', seen', hfold, ?_, hle, ?_⟩
      · rcases hwho with hwho | ⟨e, he, hseen⟩
        · exact Or.inl hwho
        · exact Or.inr ⟨e, List.mem_cons_of_mem _ he, hseen⟩
      · intro q hq
        rcases List.mem_cons.mp hq with rfl | hq
        · omega
        · exact hall q hq
    · rw [show olderOf (some (a, seen)) p.1 p.2 = some (p.1, p.2.lastSeen) from
        if_neg fun h => hkeep h.2]
      obtain ⟨a', seen', hfold, hwho, hle, hall⟩ :=
        ih p.1 p.2.lastSeen (hvalid p List.mem_cons_self) hrest
      refine ⟨a', seen', hfold, ?_, by omega, ?_⟩
      · rcases hwho with ⟨rfl, rfl⟩ | ⟨e, he, hseen⟩
        · exact Or.inr ⟨p.2, List.mem_cons_self, rfl⟩
        · exact Or.inr ⟨e, List.mem_cons_of_mem _ he, hseen⟩
      · intro q hq
        rcases List.mem_cons.mp hq with rfl | hq
        · exact hle
        · exact hall q hq

/-- The keys are the addresses `Allow` looks up: valid ones. -/
def Limiter.Keyed (l : Limiter) : Prop := ∀ a e, l.entries.lookup a = some e → a.isValid

/-- Nobody was asked for less recently. -/
def Oldest (entries : GoMap Addr Entry) (a : Addr) : Prop :=
  ∃ e, entries.lookup a = some e ∧ ∀ b e', entries.lookup b = some e' → e.lastSeen ≤ e'.lastSeen

theorem deleteOldest_oldest {l : Limiter} (hkeyed : l.Keyed) (hne : l.entries.len ≠ 0) :
    ∃ a, Oldest l.entries a ∧ deleteOldest l = { l with entries := l.entries.erase a } := by
  have hvalid : ∀ p ∈ l.entries.entries, p.1.isValid := fun p hp =>
    hkeyed p.1 p.2 (GoMap.mem_entries.mp hp)
  have hfold : ∃ a e, ⟨a, e⟩ ∈ l.entries.entries ∧
      (∀ p ∈ l.entries.entries, e.lastSeen ≤ p.2.lastSeen) ∧
      l.entries.foldl olderOf none = some (a, e.lastSeen) := by
    unfold AList.foldl
    unfold GoMap.len at hne
    cases hes : l.entries.entries with
    | nil => simp [hes] at hne
    | cons p es =>
      rw [hes] at hvalid
      have hrest : ∀ q ∈ es, q.1.isValid := fun q hq => hvalid q (List.mem_cons_of_mem _ hq)
      obtain ⟨a, seen, hfold, hwho, hle, hall⟩ :=
        olderOf_fold es p.1 p.2.lastSeen (hvalid p List.mem_cons_self) hrest
      rw [List.foldl_cons]
      rcases hwho with ⟨rfl, rfl⟩ | ⟨e, he, rfl⟩
      · refine ⟨p.1, p.2, List.mem_cons_self, ?_, hfold⟩
        intro q hq
        rcases List.mem_cons.mp hq with rfl | hq
        · exact le_refl _
        · exact hall q hq
      · refine ⟨a, e, List.mem_cons_of_mem _ he, ?_, hfold⟩
        intro q hq
        rcases List.mem_cons.mp hq with rfl | hq
        · exact hle
        · exact hall q hq
  obtain ⟨a, e, hmem, holdest, hfold⟩ := hfold
  refine ⟨a, ⟨e, GoMap.mem_entries.mp hmem, ?_⟩, ?_⟩
  · intro b e' hb
    exact holdest ⟨b, e'⟩ (GoMap.mem_entries.mpr hb)
  · rw [deleteOldest, hfold]
    exact if_pos (hvalid _ hmem)

/-! ## One call -/

section Calls

variable [Arithmetic]

/-- `allowAt` after its first line, which deletes the idle entries. -/
def rememberAt (l : Limiter) (addr : Addr) (now : ℤ) : Bool × Limiter :=
  let (current, l) := match l.entries.lookup addr with
    | some current => (current, l)
    | none =>
      (⟨float64 l.cfg.burst, now, now⟩,
        if l.cfg.maxEntries ≤ l.entries.len then deleteOldest l else l)
  let current := { refill l.cfg current now with lastSeen := now }
  if current.tokens < 1 then (false, { l with entries := l.entries.insert addr current })
  else (true, { l with
    entries := l.entries.insert addr { current with tokens := float64 (current.tokens - 1) } })

theorem allowAt_eq (l : Limiter) (addr : Addr) (now : ℤ) :
    allowAt l addr now = rememberAt (deleteExpired l now) addr now := rfl

/-- The entry to work on, in a table with room for it. -/
def find (l : Limiter) (addr : Addr) (now : ℤ) : Entry × Limiter :=
  match l.entries.lookup addr with
  | some current => (current, l)
  | none => (fresh l.cfg now, if l.cfg.maxEntries ≤ l.entries.len then deleteOldest l else l)

theorem cfg_find (l : Limiter) (addr : Addr) (now : ℤ) : (find l addr now).2.cfg = l.cfg := by
  unfold find
  split
  · rfl
  · dsimp only
    split_ifs
    · unfold deleteOldest
      split
      · split_ifs <;> rfl
      · rfl
    · rfl

/-- The entry is served and put back. -/
theorem rememberAt_of_find {l l' : Limiter} {addr : Addr} {now : ℤ} {e : Entry}
    (h : find l addr now = (e, l')) :
    rememberAt l addr now = ((serve l'.cfg e now).1,
      { l' with entries := l'.entries.insert addr (serve l'.cfg e now).2 }) := by
  have hremember : rememberAt l addr now =
      let (e, l') := find l addr now
      let current := { refill l'.cfg e now with lastSeen := now }
      if current.tokens < 1 then (false, { l' with entries := l'.entries.insert addr current })
      else (true, { l' with
        entries := l'.entries.insert addr
          { current with tokens := float64 (current.tokens - 1) } }) := rfl
  rw [hremember, h, serve, Meter.attempt, ← refill_bucket, Meter.take]
  by_cases hlt : (refill l'.cfg e now).tokens < 1
  · simp only [Entry.bucket, hlt, if_true]
  · simp only [Entry.bucket, hlt, if_false, meter]

/-- The entry a call works on, and the table it is put back into: the
client's own, a new one for which there is room, or a new one in the place
of the oldest. -/
inductive Found (l : Limiter) (addr : Addr) (now : ℤ) : Entry → GoMap Addr Entry → Prop
  | known {e : Entry} (h : l.entries.lookup addr = some e) : Found l addr now e l.entries
  | room (h : l.entries.lookup addr = none) (hroom : l.entries.len < l.cfg.maxEntries) :
      Found l addr now (fresh l.cfg now) l.entries
  | evict (victim : Addr) (h : l.entries.lookup addr = none)
      (hfull : l.cfg.maxEntries ≤ l.entries.len) (holdest : Oldest l.entries victim) :
      Found l addr now (fresh l.cfg now) (l.entries.erase victim)

/-- **What a call does**, once the idle entries are gone. -/
theorem rememberAt_cases {l : Limiter} (hkeyed : l.Keyed) (hmax : 1 ≤ l.cfg.maxEntries) (addr : Addr)
    (now : ℤ) :
    ∃ e table, Found l addr now e table ∧ rememberAt l addr now = ((serve l.cfg e now).1,
      { l with entries := table.insert addr (serve l.cfg e now).2 }) := by
  cases hlookup : l.entries.lookup addr with
  | some e =>
    have hfind : find l addr now = (e, l) := by simp only [find, hlookup]
    exact ⟨e, _, .known hlookup, rememberAt_of_find hfind⟩
  | none =>
    by_cases hfull : l.cfg.maxEntries ≤ l.entries.len
    · obtain ⟨victim, holdest, hdelete⟩ := deleteOldest_oldest hkeyed (by omega)
      have hfind : find l addr now =
          (fresh l.cfg now, { l with entries := l.entries.erase victim }) := by
        simp only [find, hlookup, if_pos hfull, hdelete]
      exact ⟨_, _, .evict victim hlookup hfull holdest, rememberAt_of_find hfind⟩
    · have hfind : find l addr now = (fresh l.cfg now, l) := by
        simp only [find, hlookup, if_neg hfull]
      exact ⟨_, _, .room hlookup (by omega), rememberAt_of_find hfind⟩

/-- What is in the table was there before. -/
theorem Found.lookup {l : Limiter} {addr : Addr} {now : ℤ} {e : Entry} {table : GoMap Addr Entry}
    (hfound : Found l addr now e table) {a : Addr} {e' : Entry} (h : table.lookup a = some e') :
    l.entries.lookup a = some e' := by
  cases hfound with
  | known => exact h
  | room => exact h
  | evict => exact GoMap.lookup_of_erase h

end Calls

/-! ## The entries that are left -/

/-- Not idle for too long. -/
def alive (cfg : Config) (now : ℤ) (e : Entry) : Bool := sub now e.lastSeen < cfg.idleTimeout

theorem lookup_kept (l : Limiter) (now : ℤ) (a : Addr) :
    (deleteExpired l now).entries.lookup a = (l.entries.lookup a).filter (alive l.cfg now) :=
  GoMap.lookup_filter _ _ _

/-- What is left was there before. -/
theorem lookup_of_kept {l : Limiter} {now : ℤ} {a : Addr} {e : Entry}
    (h : (deleteExpired l now).entries.lookup a = some e) : l.entries.lookup a = some e := by
  rw [lookup_kept] at h
  exact (Option.filter_eq_some_iff.mp h).1

/-! ## Calls in any order of the map -/

/-- The same table, in the order of another iteration. -/
structure Reordered (l l' : Limiter) : Prop where
  cfg : l'.cfg = l.cfg
  perm : l'.entries.entries.Perm l.entries.entries

theorem Reordered.refl (l : Limiter) : Reordered l l := ⟨rfl, .refl _⟩

theorem Reordered.symm {l l' : Limiter} (h : Reordered l l') : Reordered l' l :=
  ⟨h.cfg.symm, h.perm.symm⟩

theorem Reordered.trans {l l' l'' : Limiter} (h : Reordered l l') (h' : Reordered l' l'') :
    Reordered l l'' :=
  ⟨h'.cfg.trans h.cfg, h'.perm.trans h.perm⟩

theorem Reordered.lookup {l l' : Limiter} (h : Reordered l l') (a : Addr) :
    l'.entries.lookup a = l.entries.lookup a :=
  AList.perm_lookup h.perm

theorem Reordered.len {l l' : Limiter} (h : Reordered l l') : l'.entries.len = l.entries.len :=
  h.perm.length_eq

theorem Reordered.deleteExpired {l l' : Limiter} (h : Reordered l l') (now : ℤ) :
    Reordered (deleteExpired l now) (deleteExpired l' now) where
  cfg := h.cfg
  perm := by
    unfold RateLimit.deleteExpired
    rw [h.cfg]
    exact h.perm.filter _

/-- Whatever order the entries that are left stand in, the table may have
stood in one that leaves it. -/
theorem Reordered.of_kept {l kept : Limiter} {now : ℤ}
    (h : Reordered (RateLimit.deleteExpired l now) kept) :
    ∃ l₀, Reordered l l₀ ∧ RateLimit.deleteExpired l₀ now = kept := by
  have hkept : kept.entries.entries.Perm
      (l.entries.entries.filter fun p => alive l.cfg now p.2) := h.perm
  have hperm : (kept.entries.entries ++ l.entries.entries.filter fun p => !alive l.cfg now p.2).Perm
      l.entries.entries :=
    (hkept.append_right _).trans (List.filter_append_perm _ _)
  refine ⟨⟨l.cfg, ⟨_, (List.perm_nodupKeys hperm).mpr l.entries.nodupKeys⟩⟩, ⟨rfl, hperm⟩, ?_⟩
  have hall : ∀ p ∈ kept.entries.entries, alive l.cfg now p.2 = true := fun p hp =>
    (List.mem_filter.mp (hkept.mem_iff.mp hp)).2
  have hentries : (kept.entries.entries ++ l.entries.entries.filter fun p => !alive l.cfg now p.2).filter
      (fun p => alive l.cfg now p.2) = kept.entries.entries := by
    rw [List.filter_append, List.filter_eq_self.mpr hall, List.filter_filter]
    simp
  have hcfg : kept.cfg = l.cfg := h.cfg
  obtain ⟨cfg, entries⟩ := kept
  obtain rfl := hcfg
  exact congrArg (Limiter.mk l.cfg) (AList.ext hentries)

/-- A call may answer so, and leave the limiter so. -/
def Asked (ask : Limiter → Addr → ℤ → Bool × Limiter) (l : Limiter) (addr : Addr) (now : ℤ)
    (answer : Bool) (l' : Limiter) : Prop :=
  ∃ l₀, Reordered l l₀ ∧ ask l₀ addr now = (answer, l')

/-- An attempt of a client. -/
structure Attempt where
  addr : Addr
  now : ℤ
deriving DecidableEq

/-- The answers that a sequence of attempts may get. -/
inductive Answers (ask : Limiter → Addr → ℤ → Bool × Limiter) :
    Limiter → List Attempt → List Bool → Prop
  | nil (l : Limiter) : Answers ask l [] []
  | cons {l l' : Limiter} {a : Attempt} {attempts : List Attempt} {answer : Bool}
      {answers : List Bool} (h : Asked ask l a.addr a.now answer l')
      (hrest : Answers ask l' attempts answers) : Answers ask l (a :: attempts) (answer :: answers)

theorem Limiter.Keyed.reordered {l l' : Limiter} (h : l.Keyed) (hre : Reordered l l') : l'.Keyed :=
  fun a e ha => h a e (hre.lookup a ▸ ha)

theorem Limiter.Keyed.deleteExpired {l : Limiter} (h : l.Keyed) (now : ℤ) :
    (deleteExpired l now).Keyed :=
  fun a e he => h a e (lookup_of_kept he)

section Asked

variable [Arithmetic]

/-- A call that the table has no part in. -/
theorem allow_of_not {l : Limiter} {addr : Addr} (now : ℤ)
    (h : ¬ (l.cfg.enabled = true ∧ addr.isValid = true)) : allow l addr now = (!l.cfg.enabled, l) := by
  rw [allow, if_pos]
  cases hen : l.cfg.enabled <;> cases hva : addr.isValid <;> simp_all

theorem allow_of {l : Limiter} {addr : Addr} (now : ℤ)
    (h : l.cfg.enabled = true ∧ addr.isValid = true) :
    allow l addr now = allowAt l addr.unmap now := by
  rw [allow, if_neg]
  simp [h.1, h.2]

variable {l l' : Limiter} {addr : Addr} {now : ℤ} {answer : Bool}

theorem asked_iff_of_not (h : ¬ (l.cfg.enabled = true ∧ addr.isValid = true)) :
    Asked allow l addr now answer l' ↔ answer = !l.cfg.enabled ∧ Reordered l l' := by
  constructor
  · rintro ⟨l₀, hre, hallow⟩
    rw [allow_of_not now (hre.cfg ▸ h), hre.cfg] at hallow
    obtain ⟨rfl, rfl⟩ := Prod.mk.inj hallow
    exact ⟨rfl, hre⟩
  · rintro ⟨rfl, hre⟩
    refine ⟨l', hre, ?_⟩
    rw [allow_of_not now (hre.cfg ▸ h), hre.cfg]

/-- A call works on what is left, in any order. -/
theorem asked_iff (h : l.cfg.enabled = true ∧ addr.isValid = true) :
    Asked allow l addr now answer l' ↔ ∃ kept, Reordered (deleteExpired l now) kept ∧
      rememberAt kept addr.unmap now = (answer, l') := by
  constructor
  · rintro ⟨l₀, hre, hallow⟩
    rw [allow_of now (hre.cfg ▸ h), allowAt_eq] at hallow
    exact ⟨_, hre.deleteExpired now, hallow⟩
  · rintro ⟨kept, hkept, hcall⟩
    obtain ⟨l₀, hre, rfl⟩ := hkept.of_kept
    exact ⟨l₀, hre, by rwa [allow_of now (hre.cfg ▸ h), allowAt_eq]⟩

/-- **What a call may do**, to a table in any order. -/
theorem Asked.cases (h : Asked allow l addr now answer l') (hkeyed : l.Keyed)
    (hmax : l.cfg.enabled = true → 1 ≤ l.cfg.maxEntries) :
    (¬ (l.cfg.enabled = true ∧ addr.isValid = true) ∧ answer = !l.cfg.enabled ∧ Reordered l l') ∨
      ((l.cfg.enabled = true ∧ addr.isValid = true) ∧ ∃ kept e table,
        Reordered (deleteExpired l now) kept ∧ Found kept addr.unmap now e table ∧
        answer = (serve l.cfg e now).1 ∧
        l' = { l with entries := table.insert addr.unmap (serve l.cfg e now).2 }) := by
  by_cases htable : l.cfg.enabled = true ∧ addr.isValid = true
  · refine Or.inr ⟨htable, ?_⟩
    obtain ⟨kept, hre, hcall⟩ := (asked_iff htable).mp h
    have hcfg : kept.cfg = l.cfg := hre.cfg
    obtain ⟨e, table, hfound, hcases⟩ := rememberAt_cases ((hkeyed.deleteExpired now).reordered hre)
      (by rw [hcfg]; exact hmax htable.1) addr.unmap now
    obtain ⟨rfl, rfl⟩ := Prod.mk.inj (hcall.symm.trans hcases)
    rw [hcfg]
    exact ⟨kept, e, table, hre, hfound, rfl, rfl⟩
  · exact Or.inl ⟨htable, (asked_iff_of_not htable).mp h⟩

/-- A call leaves the configuration. -/
theorem Asked.cfg (h : Asked allow l addr now answer l') : l'.cfg = l.cfg := by
  by_cases htable : l.cfg.enabled = true ∧ addr.isValid = true
  · obtain ⟨kept, hre, hcall⟩ := (asked_iff htable).mp h
    rw [rememberAt_of_find (Prod.mk.eta (p := find kept addr.unmap now)).symm] at hcall
    rw [← (Prod.mk.inj hcall).2]
    exact (cfg_find kept addr.unmap now).trans hre.cfg
  · exact ((asked_iff_of_not htable).mp h).2.cfg

end Asked

/-! ## What every table has -/

/-- What the validator asks of a limiter that is enabled, and a burst that
the arithmetic counts exactly. -/
structure Config.Valid [Arithmetic] (cfg : Config) : Prop where
  rate : 0 < cfg.connectionsPerSecond
  burst : 1 ≤ cfg.burst
  idle : 0 < cfg.idleTimeout
  entries : 1 ≤ cfg.maxEntries
  counts : counts cfg.burst

/-- An entry between two attempts: its bucket is neither overdrawn nor full,
and refilled up to the last attempt at least. -/
structure Entry.Sound [Arithmetic] (cfg : Config) (e : Entry) : Prop where
  nonneg : 0 ≤ e.tokens
  lt_burst : e.tokens < cfg.burst
  rounded : float64 e.tokens = e.tokens
  seen_le : e.lastSeen ≤ e.lastRefill

/-- A table between two calls. -/
structure Limiter.Sound [Arithmetic] (l : Limiter) : Prop where
  keyed : l.Keyed
  len_le : (l.entries.len : ℤ) ≤ l.cfg.maxEntries
  entry : ∀ a e, l.entries.lookup a = some e → e.Sound l.cfg

section Sound

variable [Arithmetic] {cfg : Config} {l l' : Limiter} {e : Entry} {table : GoMap Addr Entry}
  {addr : Addr} {now : ℤ}

theorem Config.Valid.float64_burst (hv : cfg.Valid) : float64 (cfg.burst : ℚ) = cfg.burst :=
  Arithmetic.whole _ _ hv.counts (zero_le_one.trans hv.burst) le_rfl

theorem Config.Valid.capacity (hv : cfg.Valid) : (meter cfg).capacity = cfg.burst := hv.float64_burst

/-- The buckets stay between nothing and full. -/
theorem Config.Valid.fair (hv : cfg.Valid) : (meter cfg).Fair where
  one_le := by
    rw [hv.capacity]
    exact_mod_cast hv.burst
  gain_nonneg x t u hx htu := by
    have hsub : 0 < sub u t := sub_pos_iff.mpr htu
    exact Arithmetic.mulAdd_nonneg (Arithmetic.seconds_pos.mpr hsub).le hv.rate.le hx
  less_nonneg x hx := Arithmetic.float64_nonneg (sub_nonneg.mpr hx)
  less_lt x hx hle := by
    rw [hv.capacity] at hle ⊢
    have hburst := hv.burst
    -- the last of the burst is taken from a whole number
    have hpred : float64 ((cfg.burst - 1 : ℤ) : ℚ) = (cfg.burst - 1 : ℤ) :=
      Arithmetic.whole _ _ hv.counts (by omega) (by omega)
    have hround : float64 (x - 1) ≤ float64 ((cfg.burst - 1 : ℤ) : ℚ) :=
      Arithmetic.mono (by push_cast; linarith)
    rw [hpred] at hround
    push_cast at hround
    exact lt_of_le_of_lt hround (sub_one_lt _)

/-- What a bucket holds is a rounded number, refilled or not. -/
theorem float64_refill {b : Bucket ℤ ℚ} (h : float64 b.tokens = b.tokens) :
    float64 ((meter cfg).refill b now).tokens = ((meter cfg).refill b now).tokens := by
  unfold Meter.refill
  split_ifs
  · rcases min_choice (meter cfg).capacity ((meter cfg).gain b.tokens b.refilled now) with hmin | hmin
    · simp only [hmin]
      exact Arithmetic.idem _
    · simp only [hmin]
      exact Arithmetic.float64_mulAdd
  · exact h

theorem float64_attempt {b : Bucket ℤ ℚ} (h : float64 b.tokens = b.tokens) :
    float64 ((meter cfg).attempt b now).2.tokens = ((meter cfg).attempt b now).2.tokens := by
  unfold Meter.attempt Meter.take
  split_ifs
  · exact float64_refill h
  · exact Arithmetic.idem _

/-- An attempt on a bucket within its bounds leaves a sound entry. -/
theorem serve_sound (hv : cfg.Valid) (hnonneg : 0 ≤ e.tokens) (hle : e.tokens ≤ cfg.burst)
    (hround : float64 e.tokens = e.tokens) : (serve cfg e now).2.Sound cfg where
  nonneg := hv.fair.tokens_attempt hnonneg
  rounded := float64_attempt hround
  lt_burst := by
    rw [← hv.capacity] at hle ⊢
    exact hv.fair.tokens_attempt_lt hle
  seen_le := by
    have hrefilled : (serve cfg e now).2.lastRefill = max e.lastRefill now := refilled_attempt
    rw [hrefilled]
    exact le_max_right _ _

/-- A new bucket is within its bounds. -/
theorem fresh_bounds (hv : cfg.Valid) (now : ℤ) :
    0 ≤ (fresh cfg now).tokens ∧ (fresh cfg now).tokens ≤ cfg.burst ∧
      float64 (fresh cfg now).tokens = (fresh cfg now).tokens :=
  ⟨zero_le_one.trans hv.fair.one_le, hv.float64_burst.le, Arithmetic.idem _⟩

/-- The bucket a call works on is within its bounds. -/
theorem Limiter.Sound.found (h : l.Sound) (hv : l.cfg.Valid) (hfound : Found l addr now e table) :
    0 ≤ e.tokens ∧ e.tokens ≤ l.cfg.burst ∧ float64 e.tokens = e.tokens := by
  cases hfound with
  | known hlookup =>
    have he := h.entry addr e hlookup
    exact ⟨he.nonneg, he.lt_burst.le, he.rounded⟩
  | room => exact fresh_bounds hv now
  | evict => exact fresh_bounds hv now

/-- There is room for the entry. -/
theorem Limiter.Sound.len_insert (h : l.Sound) (hfound : Found l addr now e table) (e' : Entry) :
    (GoMap.len (table.insert addr e') : ℤ) ≤ l.cfg.maxEntries := by
  have hlen := h.len_le
  cases hfound with
  | known hlookup =>
    rw [GoMap.len_insert_of_present e' hlookup]
    exact hlen
  | room hlookup hroom =>
    rw [GoMap.len_insert_of_absent e' hlookup]
    omega
  | evict victim hlookup hfull holdest =>
    obtain ⟨gone, hgone, -⟩ := holdest
    have herase := GoMap.len_erase_of_present hgone
    have habsent : (l.entries.erase victim).lookup addr = none := by
      rw [GoMap.lookup_erase, hlookup, ite_self]
    rw [GoMap.len_insert_of_absent e' habsent]
    omega

/-- **A call keeps the table sound.** -/
theorem Limiter.Sound.put (h : l.Sound) (hv : l.cfg.Valid) (hvalid : addr.isValid)
    (hfound : Found l addr now e table) :
    Limiter.Sound { l with entries := table.insert addr (serve l.cfg e now).2 } where
  keyed a e' ha := by
    rcases GoMap.lookup_insert_cases ha with ha | ⟨rfl, -⟩
    · exact h.keyed a e' (hfound.lookup ha)
    · exact hvalid
  len_le := h.len_insert hfound _
  entry a e' ha := by
    rcases GoMap.lookup_insert_cases ha with ha | ⟨-, rfl⟩
    · exact h.entry a e' (hfound.lookup ha)
    · obtain ⟨hnonneg, hle, hround⟩ := h.found hv hfound
      exact serve_sound hv hnonneg hle hround

theorem Limiter.Sound.reordered (h : l.Sound) (hre : Reordered l l') : l'.Sound where
  keyed := h.keyed.reordered hre
  len_le := by
    rw [hre.len, hre.cfg]
    exact h.len_le
  entry a e ha := by
    rw [hre.cfg]
    exact h.entry a e (hre.lookup a ▸ ha)

theorem Limiter.Sound.deleteExpired (h : l.Sound) (now : ℤ) : (deleteExpired l now).Sound where
  keyed := h.keyed.deleteExpired now
  len_le := by
    have hlen := h.len_le
    have hkept : (RateLimit.deleteExpired l now).entries.len ≤ l.entries.len :=
      GoMap.len_filter_le _ _
    change ((RateLimit.deleteExpired l now).entries.len : ℤ) ≤ l.cfg.maxEntries
    omega
  entry a e ha := h.entry a e (lookup_of_kept ha)

theorem Limiter.Sound.asked (h : l.Sound) (hv : l.cfg.Valid) {answer : Bool}
    (hasked : Asked allow l addr now answer l') : l'.Sound ∧ l'.cfg = l.cfg := by
  rcases hasked.cases h.keyed fun _ => hv.entries with
    ⟨-, -, hre⟩ | ⟨htable, kept, e, table, hre, hfound, -, rfl⟩
  · exact ⟨h.reordered hre, hre.cfg⟩
  · have hcfg : kept.cfg = l.cfg := hre.cfg
    have hkey : addr.unmap.isValid := by
      rw [Addr.isValid_unmap]
      exact htable.2
    have hput := ((h.deleteExpired now).reordered hre).put (hcfg ▸ hv) hkey hfound
    rw [hcfg] at hput
    exact ⟨hput, rfl⟩

end Sound

end RateLimit

end McRouter
