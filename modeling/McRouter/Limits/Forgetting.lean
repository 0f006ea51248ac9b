import McRouter.Limits.Memory
import McRouter.Limits.Lifetime

/-!
# Forgetting idle clients

Two things about the limiter's memory, in runs where it has room for
everybody and time does not step back.

Clients do not get into each other's way: the answers to a client depend on
nobody else's attempts (`clients_independent`). A client is what its address
unmaps to, so that the two forms of an IPv4 address are one client
(`mapped_form_counts`).

Forgetting an idle client gives it a full bucket. **Nobody can tell exactly
if an idle bucket is full anyway**, that is if the burst accrues within the
idle timeout (`forgetting_invisible_iff`). Validation does not ask for this,
and a client that waits for the timeout gets the burst again
(`forgetting_refills`).
-/

namespace McRouter

namespace RateLimit

open Netip TokenBucket Proxy

/-! ## Clients are independent -/

/-- The clients of a sequence of attempts. -/
def clientsOf (attempts : List Attempt) : Finset Addr :=
  (attempts.map fun a => a.addr.unmap).toFinset

theorem card_clientsOf_le (attempts : List Attempt) :
    (clientsOf attempts).card ≤ (attempts.map Attempt.addr).toFinset.card := by
  have himage : clientsOf attempts = (attempts.map Attempt.addr).toFinset.image Addr.unmap := by
    ext a
    simp [clientsOf]
  rw [himage]
  exact Finset.card_image_le

/-- The answers of a new limiter with room for everybody are those of the
empty memory. -/
theorem answers_new [Arithmetic] {cfg : Config} {attempts : List Attempt} {answers : List Bool}
    (hsorted : attempts.Pairwise fun a b => a.now ≤ b.now)
    (hcard : ((attempts.map Attempt.addr).toFinset.card : ℤ) ≤ cfg.maxEntries) :
    Answers allow (new cfg) attempts answers ↔ answers = memo cfg (fun _ => none) attempts := by
  have hnone : ∀ a, (new cfg).entries.lookup a = none := fun a => AList.lookup_empty a
  have hroom : Room (clientsOf attempts) (new cfg) := by
    refine ⟨fun a e ha => ?_, fun a e ha => ?_, ?_⟩
    · rw [hnone] at ha
      cases ha
    · rw [hnone] at ha
      cases ha
    · have hle := card_clientsOf_le attempts
      change ((clientsOf attempts).card : ℤ) ≤ cfg.maxEntries
      omega
  have hmem : ∀ a ∈ attempts, a.addr.unmap ∈ clientsOf attempts := by
    intro a ha
    exact List.mem_toFinset.mpr (List.mem_map.mpr ⟨a, ha, rfl⟩)
  cases attempts with
  | nil =>
    exact answers_iff_memo [] (new cfg) _ 0 answers ⟨fun a _ _ => by rw [hnone]⟩ hroom (by simp)
      hsorted hmem
  | cons a attempts =>
    refine answers_iff_memo _ (new cfg) _ a.now answers ⟨fun a _ _ => by rw [hnone]⟩ hroom ?_
      hsorted hmem
    intro b hb
    rcases List.mem_cons.mp hb with rfl | hb
    · exact le_refl _
    · exact (List.pairwise_cons.mp hsorted).1 b hb

/-- **Clients do not affect each other's limit.** In two sequences of
attempts that have room for everybody, the same attempts of a client get the
same answers, whatever attempts the others make, and however tokens are
rounded. -/
theorem clients_independent [Arithmetic] (cfg : Config) (addr : Addr) (attempts₁ attempts₂ : List Attempt)
    (hsorted₁ : attempts₁.Pairwise fun a b => a.now ≤ b.now)
    (hsorted₂ : attempts₂.Pairwise fun a b => a.now ≤ b.now)
    (hcard₁ : ((attempts₁.map Attempt.addr).toFinset.card : ℤ) ≤ cfg.maxEntries)
    (hcard₂ : ((attempts₂.map Attempt.addr).toFinset.card : ℤ) ≤ cfg.maxEntries)
    (hsame : (attemptsOf (client addr) attempts₁).map Attempt.now =
      (attemptsOf (client addr) attempts₂).map Attempt.now)
    (answers₁ answers₂ : List Bool) (h₁ : Answers allow (new cfg) attempts₁ answers₁)
    (h₂ : Answers allow (new cfg) attempts₂ answers₂) :
    answersOf (client addr) attempts₁ answers₁ = answersOf (client addr) attempts₂ answers₂ := by
  obtain rfl := (answers_new hsorted₁ hcard₁).mp h₁
  obtain rfl := (answers_new hsorted₂ hcard₂).mp h₂
  by_cases htable : cfg.enabled = true ∧ addr.isValid = true
  · rw [answersOf_memo htable.1 htable.2, answersOf_memo htable.1 htable.2, hsame]
  · have hlength := congrArg List.length hsame
    rw [answersOf_memo_not htable, answersOf_memo_not htable, List.map_const', List.map_const']
    rw [List.length_map, List.length_map] at hlength
    rw [hlength]

/-- The two forms of an IPv4 address share a bucket: an attempt under the one
uses up what the other has. -/
theorem mapped_form_counts :
    ¬ ∀ (cfg : Config) (addr : Addr) (attempts₁ attempts₂ : List Attempt), 1 ≤ cfg.maxEntries →
      (attempts₁.Pairwise fun a b => a.now ≤ b.now) →
      (attempts₂.Pairwise fun a b => a.now ≤ b.now) →
      ((attempts₁.map Attempt.addr).toFinset.card : ℤ) ≤ cfg.maxEntries →
      ((attempts₂.map Attempt.addr).toFinset.card : ℤ) ≤ cfg.maxEntries →
      attemptsOf (fun a => a.addr = addr) attempts₁ = attemptsOf (fun a => a.addr = addr) attempts₂ →
      ∀ answers₁ answers₂ : List Bool, Answers allow (new cfg) attempts₁ answers₁ →
        Answers allow (new cfg) attempts₂ answers₂ →
        answersOf (fun a => a.addr = addr) attempts₁ answers₁ =
          answersOf (fun a => a.addr = addr) attempts₂ answers₂ := by
  intro h
  have hanswers := h ⟨true, 1, 1, minute, 2⟩ (.v4 7) [⟨.v4 7, 0⟩]
    [⟨.v6 0xFFFF00000007 [], 0⟩, ⟨.v4 7, 0⟩] (by decide) (by decide) (by decide) (by decide)
    (by decide) (by decide) _ _ ((answers_new (by decide) (by decide)).mpr rfl)
    ((answers_new (by decide) (by decide)).mpr rfl)
  revert hanswers
  decide +kernel

/-- A client alone, and the same client beside another one. -/
theorem clients_independent_two :
    answersOf (client (.v4 7)) [⟨.v4 7, 0⟩, ⟨.v4 7, 0⟩]
        (memo ⟨true, 1, 1, minute, 2⟩ (fun _ => none) [⟨.v4 7, 0⟩, ⟨.v4 7, 0⟩]) =
      answersOf (client (.v4 7)) [⟨.v4 7, 0⟩, ⟨.v4 8, 0⟩, ⟨.v4 7, 0⟩]
        (memo ⟨true, 1, 1, minute, 2⟩ (fun _ => none) [⟨.v4 7, 0⟩, ⟨.v4 8, 0⟩, ⟨.v4 7, 0⟩]) :=
  clients_independent ⟨true, 1, 1, minute, 2⟩ (.v4 7) [⟨.v4 7, 0⟩, ⟨.v4 7, 0⟩]
    [⟨.v4 7, 0⟩, ⟨.v4 8, 0⟩, ⟨.v4 7, 0⟩] (by decide) (by decide) (by decide) (by decide)
    (by decide) _ _ ((answers_new (by decide) (by decide)).mpr rfl)
    ((answers_new (by decide) (by decide)).mpr rfl)

/-! ## A limiter that remembers everybody -/

/-- `Allow` of a limiter that never deletes an idle entry. -/
def remember (l : Limiter) (addr : Addr) (now : ℤ) : Bool × Limiter :=
  if !l.cfg.enabled || !addr.isValid then (!l.cfg.enabled, l) else rememberAt l addr.unmap now

/-- An idle timeout that no two times are apart: `Sub` stays below it. -/
def Config.forever (cfg : Config) : Config := { cfg with idleTimeout := 9223372036854775808 }

/-- The same limiter with such a timeout. -/
def Limiter.forever (l : Limiter) : Limiter := { l with cfg := l.cfg.forever }

theorem alive_forever (cfg : Config) (now : ℤ) (e : Entry) : alive cfg.forever now e = true := by
  have hsub : sub now e.lastSeen ≤ 9223372036854775807 := by
    unfold sub
    omega
  refine decide_eq_true (lt_of_le_of_lt hsub ?_)
  norm_num [Config.forever]

theorem deleteExpired_forever (l : Limiter) (now : ℤ) :
    deleteExpired l.forever now = l.forever := by
  have hentries : l.entries.filter (fun _ e => alive l.cfg.forever now e) = l.entries := by
    refine AList.ext (List.filter_eq_self.mpr ?_)
    intro p _
    exact alive_forever l.cfg now p.2
  exact congrArg (Limiter.mk l.cfg.forever) hentries

theorem deleteOldest_forever (l : Limiter) : deleteOldest l.forever = (deleteOldest l).forever := by
  have hentries : l.forever.entries = l.entries := rfl
  unfold deleteOldest
  rw [hentries]
  split
  · split_ifs <;> rfl
  · rfl

theorem find_forever (l : Limiter) (addr : Addr) (now : ℤ) :
    find l.forever addr now = ((find l addr now).1, (find l addr now).2.forever) := by
  have hentries : l.forever.entries = l.entries := rfl
  have hmax : l.forever.cfg.maxEntries = l.cfg.maxEntries := rfl
  unfold find
  rw [hentries, hmax, deleteOldest_forever]
  split
  · rfl
  · split_ifs <;> rfl

/-- A limiter that never deletes is one with no end to its idle timeout. -/
theorem allow_forever (l : Limiter) (addr : Addr) (now : ℤ) :
    allow l.forever addr now = ((remember l addr now).1, (remember l addr now).2.forever) := by
  have hat : allowAt l.forever addr.unmap now =
      ((rememberAt l addr.unmap now).1, (rememberAt l addr.unmap now).2.forever) := by
    rw [allowAt_eq, deleteExpired_forever, rememberAt_of_find (find_forever l addr.unmap now),
      rememberAt_of_find (Prod.mk.eta (p := find l addr.unmap now)).symm]
    rfl
  unfold allow remember
  rw [hat]
  have henabled : l.forever.cfg.enabled = l.cfg.enabled := rfl
  rw [henabled]
  split_ifs <;> rfl

/-- What a limiter that never deletes may answer. -/
theorem answers_remember_iff : ∀ (attempts : List Attempt) (l : Limiter) (answers : List Bool),
    Answers remember l attempts answers ↔ Answers allow l.forever attempts answers := by
  intro attempts
  induction attempts with
  | nil =>
    intro l answers
    constructor
    · rintro ⟨⟩
      exact .nil _
    · rintro ⟨⟩
      exact .nil _
  | cons a attempts ih =>
    intro l answers
    constructor
    · rintro ⟨⟩
      rename_i l' answer answers hasked hrest
      obtain ⟨l₀, hre, hremember⟩ := hasked
      have hre' : Reordered l.forever l₀.forever := ⟨congrArg Config.forever hre.cfg, hre.perm⟩
      have hallow : allow l₀.forever a.addr a.now = (answer, l'.forever) := by
        rw [allow_forever, hremember]
      exact .cons ⟨_, hre', hallow⟩ ((ih _ _).mp hrest)
    · rintro ⟨⟩
      rename_i l' answer answers hasked hrest
      obtain ⟨l₁, hre, hallow⟩ := hasked
      have hl₁ : l₁ = (⟨l.cfg, l₁.entries⟩ : Limiter).forever :=
        congrArg (Limiter.mk · l₁.entries) hre.cfg
      rw [hl₁, allow_forever] at hallow
      obtain ⟨hanswer, rfl⟩ := Prod.mk.inj hallow
      exact .cons ⟨⟨l.cfg, l₁.entries⟩, ⟨rfl, hre.perm⟩, Prod.ext hanswer rfl⟩
        ((ih _ _).mpr hrest)

/-! ## Where it cannot be told -/

section Rounded

variable [Arithmetic]

theorem refill_fresh (cfg : Config) (now : ℤ) :
    (meter cfg).refill (fresh cfg now).bucket now = (fresh cfg now).bucket :=
  refill_of_le (le_refl _)

/-- A bucket that is full by now serves like a new one. -/
theorem serve_of_full {cfg : Config} {e : Entry} {now : ℤ} (hlt : e.lastRefill < now)
    (hfull : (meter cfg).capacity ≤ (meter cfg).gain e.tokens e.lastRefill now) :
    serve cfg e now = serve cfg (fresh cfg now) now := by
  have hrefill : (meter cfg).refill e.bucket now = (fresh cfg now).bucket := refill_of_full hlt hfull
  unfold serve Meter.attempt
  rw [hrefill, refill_fresh]

theorem recalled_cases (cfg : Config) (o : Option Entry) (now : ℤ) :
    recalled cfg o now = fresh cfg now ∨ o = some (recalled cfg o now) := by
  cases o with
  | none => exact Or.inl rfl
  | some e =>
    cases halive : alive cfg now e with
    | false => exact Or.inl (recalled_of_idle halive)
    | true => exact Or.inr (by rw [recalled_of_alive halive])

end Rounded

/-- What a memory holds while time does not step back. -/
def Memory.Timely (t : ℤ) (m : Memory) : Prop :=
  ∀ a e, m a = some e → 0 ≤ e.tokens ∧ e.lastRefill = e.lastSeen ∧ e.lastSeen ≤ t

section Full

variable {cfg : Config} (hv : cfg.Valid)

include hv

/-- An entry that is served stays as it has to be. -/
theorem serve_timely {e : Entry} {now : ℤ} (htokens : 0 ≤ e.tokens) (hrefill : e.lastRefill ≤ now) :
    0 ≤ (serve cfg e now).2.tokens ∧ (serve cfg e now).2.lastRefill = (serve cfg e now).2.lastSeen ∧
      (serve cfg e now).2.lastSeen ≤ now := by
  have hrefilled : (serve cfg e now).2.lastRefill = max e.lastRefill now := refilled_attempt
  refine ⟨?_, hrefilled.trans (max_eq_right hrefill), le_refl _⟩
  exact hv.fair.tokens_attempt htokens

/-- An attempt keeps the memory so. -/
theorem Memory.Timely.ask {m : Memory} {t : ℤ} (hm : m.Timely t) {a : Attempt} (ht : t ≤ a.now) :
    (ask cfg m a).2.Timely a.now := by
  unfold RateLimit.ask
  split_ifs
  · intro b e hb
    change Function.update m a.addr.unmap _ b = some e at hb
    by_cases hkey : b = a.addr.unmap
    · subst hkey
      rw [Function.update_self] at hb
      obtain rfl := Option.some.inj hb
      rcases recalled_cases cfg (m a.addr.unmap) a.now with hfresh | hold
      · rw [hfresh]
        exact serve_timely hv (zero_le_one.trans hv.fair.one_le) (le_refl _)
      · obtain ⟨htokens, hseen, hle⟩ := hm _ _ hold
        exact serve_timely hv htokens (by omega)
    · rw [Function.update_of_ne hkey] at hb
      obtain ⟨htokens, hseen, hle⟩ := hm _ _ hb
      exact ⟨htokens, hseen, le_trans hle ht⟩
  · intro b e hb
    obtain ⟨htokens, hseen, hle⟩ := hm _ _ hb
    exact ⟨htokens, hseen, le_trans hle ht⟩

variable (hfull : (cfg.burst : ℚ) ≤ cfg.connectionsPerSecond * seconds cfg.idleTimeout)

include hfull

/-- Whoever is forgotten has a full bucket. -/
theorem serve_recalled (o : Option Entry) (now : ℤ)
    (ho : ∀ e, o = some e → 0 ≤ e.tokens ∧ e.lastRefill = e.lastSeen) :
    serve cfg (recalled cfg o now) now = serve cfg (recalled cfg.forever o now) now := by
  cases o with
  | none => rfl
  | some e =>
    obtain ⟨htokens, hseen⟩ := ho e rfl
    rw [recalled_of_alive (alive_forever cfg now e)]
    cases halive : alive cfg now e with
    | true => rw [recalled_of_alive halive]
    | false =>
      rw [recalled_of_idle halive]
      have hidle : cfg.idleTimeout ≤ sub now e.lastRefill := by
        rw [hseen]
        simpa [alive] using halive
      have hlt : e.lastRefill < now := sub_pos_iff.mp (lt_of_lt_of_le hv.idle hidle)
      have hsupply := mul_le_mul_of_nonneg_left (seconds_mono hidle) hv.rate.le
      refine (serve_of_full hlt ?_).symm
      rw [hv.capacity, gain_exact]
      linarith

theorem memo_forever : ∀ (attempts : List Attempt) (m : Memory) (t : ℤ), m.Timely t →
    (∀ a ∈ attempts, t ≤ a.now) → attempts.Pairwise (fun a b => a.now ≤ b.now) →
    memo cfg m attempts = memo cfg.forever m attempts := by
  intro attempts
  induction attempts with
  | nil =>
    intro m t _ _ _
    rfl
  | cons a attempts ih =>
    intro m t hm ht hsorted
    obtain ⟨hle, hsorted⟩ := List.pairwise_cons.mp hsorted
    have hnow := (List.forall_mem_cons.mp ht).1
    have hserve := serve_recalled hv hfull (m a.addr.unmap) a.now fun e he =>
      ⟨(hm _ _ he).1, (hm _ _ he).2.1⟩
    have hask : ask cfg m a = ask cfg.forever m a := by
      have hsame : ∀ e, serve cfg.forever e a.now = serve cfg e a.now := fun _ => rfl
      have henabled : cfg.forever.enabled = cfg.enabled := rfl
      unfold ask
      rw [hserve, hsame, henabled]
    rw [memo, memo, ← hask, ih _ _ (hm.ask hv hnow) hle hsorted]

end Full

/-! ## Where it can -/

section Rounded

variable [Arithmetic]

theorem solo_append (cfg : Config) : ∀ (times later : List ℤ) (o : Option Entry),
    (solo cfg o (times ++ later)).1 = (solo cfg o times).1 ++ (solo cfg (solo cfg o times).2 later).1 := by
  intro times later
  induction times with
  | nil =>
    intro o
    rfl
  | cons now times ih =>
    intro o
    rw [List.cons_append, solo, solo, List.cons_append, ih]

/-- Attempts of one client at one time are attempts on one bucket. -/
theorem solo_same_time {cfg : Config} (hidle : 0 < cfg.idleTimeout) (now : ℤ) :
    ∀ (n : ℕ) (o : Option Entry), (solo cfg o (List.replicate n now)).1 =
      ((meter cfg).run (recalled cfg o now).bucket (List.replicate n now)).1 ∧
    ((solo cfg o (List.replicate (n + 1) now)).2 = some
      ⟨((meter cfg).run (recalled cfg o now).bucket (List.replicate (n + 1) now)).2.tokens,
        ((meter cfg).run (recalled cfg o now).bucket (List.replicate (n + 1) now)).2.refilled, now⟩) := by
  intro n
  induction n with
  | zero =>
    intro o
    exact ⟨rfl, rfl⟩
  | succ n ih =>
    intro o
    have hrecall : recalled cfg (some (serve cfg (recalled cfg o now) now).2) now =
        (serve cfg (recalled cfg o now) now).2 := by
      have halive : alive cfg now (serve cfg (recalled cfg o now) now).2 = true := by
        have hsub : sub now now = 0 := by simp [sub]
        have hseen : (serve cfg (recalled cfg o now) now).2.lastSeen = now := rfl
        rw [alive, hseen, hsub]
        exact decide_eq_true hidle
      exact recalled_of_alive halive
    obtain ⟨hanswers, hleft⟩ := ih (some (serve cfg (recalled cfg o now) now).2)
    rw [hrecall] at hanswers hleft
    constructor
    · rw [List.replicate_succ, solo, Meter.run]
      exact congrArg _ hanswers
    · rw [List.replicate_succ, solo, Meter.run]
      exact hleft

theorem burst_toNat {cfg : Config} (hv : cfg.Valid) : ((cfg.burst.toNat : ℕ) : ℚ) = cfg.burst := by
  have hcast : ((cfg.burst.toNat : ℕ) : ℤ) = cfg.burst := by
    have hburst := hv.burst
    omega
  exact_mod_cast congrArg (fun z : ℤ => (z : ℚ)) hcast

/-- Ones are taken exactly from what a bucket holds. -/
theorem less_exact {cfg : Config} (hv : cfg.Valid) (x : ℚ)
    (hx : Arithmetic.float64 x = x ∧ x ≤ cfg.burst) (h : 1 ≤ x) :
    (meter cfg).less x = x - 1 ∧ Arithmetic.float64 (x - 1) = x - 1 ∧ x - 1 ≤ cfg.burst := by
  have hpred := Arithmetic.pred _ x hv.counts hx.1 h hx.2
  exact ⟨hpred, hpred, (sub_le_self x zero_le_one).trans hx.2⟩

/-- The burst is there exactly if the bucket is full. -/
theorem solo_full {cfg : Config} (hv : cfg.Valid) {o : Option Entry} {now : ℤ}
    (ho : 0 ≤ (recalled cfg o now).tokens) (hle : (recalled cfg o now).tokens ≤ cfg.burst)
    (hround : Arithmetic.float64 (recalled cfg o now).tokens = (recalled cfg o now).tokens) :
    (solo cfg o (List.replicate cfg.burst.toNat now)).1 = List.replicate cfg.burst.toNat true ↔
      (cfg.burst : ℚ) ≤ ((meter cfg).refill (recalled cfg o now).bucket now).tokens := by
  have htokens : 0 ≤ (recalled cfg o now).bucket.tokens := ho
  have hcap : (recalled cfg o now).bucket.tokens ≤ (meter cfg).capacity := by
    rw [hv.capacity]
    exact hle
  have hexact : Arithmetic.float64 ((meter cfg).refill (recalled cfg o now).bucket now).tokens =
      ((meter cfg).refill (recalled cfg o now).bucket now).tokens ∧
      ((meter cfg).refill (recalled cfg o now).bucket now).tokens ≤ cfg.burst :=
    ⟨float64_refill hround, hv.capacity ▸ tokens_refill_le hcap⟩
  have hsolo := (solo_same_time hv.idle now cfg.burst.toNat o).1
  rw [hsolo, run_same_time (less_exact hv) cfg.burst.toNat (hv.fair.tokens_refill htokens) hexact,
    burst_toNat hv]

/-- A new bucket is full. -/
theorem solo_fresh {cfg : Config} (hv : cfg.Valid) (now : ℤ) :
    (solo cfg none (List.replicate cfg.burst.toNat now)).1 = List.replicate cfg.burst.toNat true := by
  obtain ⟨hpos, hle, hround⟩ := fresh_bounds hv now
  have hrecall : recalled cfg none now = fresh cfg now := rfl
  rw [solo_full hv (hrecall ▸ hpos) (hrecall ▸ hle) (hrecall ▸ hround), hrecall, refill_fresh]
  exact hv.float64_burst.ge

end Rounded

/-- The burst leaves an empty bucket. -/
theorem solo_burst {cfg : Config} (hv : cfg.Valid) (now : ℤ) :
    (solo cfg none (List.replicate cfg.burst.toNat now)).2 = some ⟨0, now, now⟩ := by
  have hburst := burst_toNat hv
  have hpos := hv.burst
  obtain ⟨n, hn⟩ : ∃ n, cfg.burst.toNat = n + 1 := ⟨cfg.burst.toNat - 1, by omega⟩
  obtain ⟨hnonneg, hle, hround⟩ := fresh_bounds hv now
  have hrun := (run_of_refilled (less_exact hv) now cfg.burst.toNat (fresh cfg now).bucket
    (le_refl _) hnonneg ⟨hround, hle⟩).2 hburst.le
  rw [hn] at hrun ⊢
  rw [(solo_same_time hv.idle now n none).2]
  have hrecall : recalled cfg none now = fresh cfg now := rfl
  rw [hrecall, hrun, ← hn, hburst]
  simp [fresh, Entry.bucket, Arithmetic.float64]

/-- A client that uses up its burst and comes back later. -/
def comeBack (cfg : Config) (later : ℤ) : List ℤ :=
  List.replicate cfg.burst.toNat 0 ++ List.replicate cfg.burst.toNat later

/-- It finds the burst again exactly if its bucket is forgotten, or full by
then. -/
theorem solo_comeBack {cfg : Config} (hv : cfg.Valid) {later : ℤ} (hlater : 0 < later) :
    (solo cfg none (comeBack cfg later)).1 =
        List.replicate cfg.burst.toNat true ++ List.replicate cfg.burst.toNat true ↔
      (alive cfg later ⟨0, 0, 0⟩ = true → (cfg.burst : ℚ) ≤ (meter cfg).gain 0 0 later) := by
  have hcap : (0 : ℚ) ≤ cfg.burst := by exact_mod_cast zero_le_one.trans hv.burst
  rw [comeBack, solo_append, solo_fresh hv, List.append_cancel_left_eq, solo_burst hv]
  cases halive : alive cfg later ⟨0, 0, 0⟩ with
  | false =>
    have hrecall := recalled_of_idle halive
    rw [solo_full hv (by rw [hrecall]; exact hcap) (by rw [hrecall]; exact le_refl _) rfl, hrecall,
      refill_fresh]
    simp [fresh, Entry.bucket, Arithmetic.float64]
  | true =>
    have hrecall := recalled_of_alive halive
    rw [solo_full hv (by rw [hrecall]) (by rw [hrecall]; exact hcap) rfl, hrecall, Meter.refill]
    simp [Entry.bucket, hlater, hv.capacity]

/-- The attempts of one client, at the times given. -/
def visits (addr : Addr) (times : List ℤ) : List Attempt := times.map (Attempt.mk addr)

theorem answersOf_visits [Arithmetic] {cfg : Config} (hen : cfg.enabled = true) {addr : Addr}
    (haddr : addr.isValid = true) (m : Memory) (times : List ℤ) :
    answersOf (client addr) (visits addr times) (memo cfg m (visits addr times)) =
      (solo cfg (m addr.unmap) times).1 := by
  have hall : attemptsOf (client addr) (visits addr times) = visits addr times := by
    refine List.filter_eq_self.mpr ?_
    intro a ha
    obtain ⟨now, -, rfl⟩ := List.mem_map.mp ha
    exact decide_eq_true rfl
  have htimes : (visits addr times).map Attempt.now = times := by
    simp [visits, Function.comp_def]
  rw [answersOf_memo hen haddr, hall, htimes]

theorem card_visits_le (addr : Addr) (times : List ℤ) :
    ((visits addr times).map Attempt.addr).toFinset.card ≤ 1 := by
  rw [← Finset.card_singleton addr]
  refine Finset.card_le_card ?_
  intro a ha
  simp only [visits, List.map_map, List.mem_toFinset, List.mem_map] at ha
  obtain ⟨now, -, rfl⟩ := ha
  exact Finset.mem_singleton_self _

theorem sorted_comeBack (cfg : Config) {later : ℤ} (hlater : 0 < later) (addr : Addr) :
    (visits addr (comeBack cfg later)).Pairwise fun a b => a.now ≤ b.now := by
  rw [visits, List.pairwise_map, comeBack, List.pairwise_append]
  refine ⟨List.pairwise_replicate.mpr (Or.inr (le_refl _)),
    List.pairwise_replicate.mpr (Or.inr (le_refl _)), ?_⟩
  intro t ht u hu
  rw [List.eq_of_mem_replicate ht, List.eq_of_mem_replicate hu]
  exact hlater.le

/-- If a client that comes back when it is forgotten cannot tell, its bucket
is full by then. -/
theorem full_of_comeBack {cfg : Config} (hv : cfg.Valid) (hen : cfg.enabled = true)
    (hmax : cfg.idleTimeout ≤ 86400000000000) {addr : Addr} (haddr : addr.isValid = true)
    (h : memo cfg (fun _ => none) (visits addr (comeBack cfg cfg.idleTimeout)) =
      memo cfg.forever (fun _ => none) (visits addr (comeBack cfg cfg.idleTimeout))) :
    (cfg.burst : ℚ) ≤ cfg.connectionsPerSecond * seconds cfg.idleTimeout := by
  have hidle := hv.idle
  have hsub : sub cfg.idleTimeout 0 = cfg.idleTimeout := by
    unfold sub
    omega
  have hforever : cfg.forever.Valid :=
    ⟨hv.rate, hv.burst, by norm_num [Config.forever], hv.entries, hv.counts⟩
  have hsolo := congrArg (answersOf (client addr) (visits addr (comeBack cfg cfg.idleTimeout))) h
  have hen' : cfg.forever.enabled = true := hen
  rw [answersOf_visits hen haddr, answersOf_visits hen' haddr] at hsolo
  have hgone : alive cfg cfg.idleTimeout ⟨0, 0, 0⟩ = false := by simp [alive, hsub]
  have hburst := (solo_comeBack hv hidle).mpr (by simp [hgone])
  rw [hsolo] at hburst
  have hfull := (solo_comeBack hforever hidle).mp hburst (alive_forever cfg _ _)
  rw [gain_exact, hsub, zero_add, mul_comm] at hfull
  exact hfull

theorem memo_disabled (cfg : Config) (hen : cfg.enabled = false) : ∀ (attempts : List Attempt)
    (m : Memory), memo cfg m attempts = attempts.map fun _ => true := by
  intro attempts
  induction attempts with
  | nil =>
    intro m
    rfl
  | cons a attempts ih =>
    intro m
    simp [memo, ask, hen, ih]

/-- The answers with and without forgetting are those of two memories. -/
theorem invisible_iff (cfg : Config) {attempts : List Attempt}
    (hsorted : attempts.Pairwise fun a b => a.now ≤ b.now)
    (hcard : ((attempts.map Attempt.addr).toFinset.card : ℤ) ≤ cfg.maxEntries) :
    (∀ answers, Answers allow (new cfg) attempts answers ↔ Answers remember (new cfg) attempts answers) ↔
      memo cfg (fun _ => none) attempts = memo cfg.forever (fun _ => none) attempts := by
  have hforever : ∀ answers, Answers remember (new cfg) attempts answers ↔
      answers = memo cfg.forever (fun _ => none) attempts := by
    intro answers
    have hnew := @answers_new _ cfg.forever attempts answers hsorted hcard
    exact (answers_remember_iff attempts (new cfg) answers).trans hnew
  constructor
  · intro h
    exact (hforever _).mp ((h _).mp ((answers_new hsorted hcard).mpr rfl))
  · intro h answers
    rw [answers_new hsorted hcard, hforever, h]

/-- **When forgetting cannot be told**: for every section that validation
accepts, the limiter answers like one that never deletes an idle entry
exactly if the burst accrues within the idle timeout. -/
theorem forgetting_invisible_iff (limit : Config.ClientRateLimit)
    (hvalid : Config.validateClientRateLimit limit = none) :
    (∀ attempts : List Attempt, (attempts.Pairwise fun a b => a.now ≤ b.now) →
      ((attempts.map Attempt.addr).toFinset.card : ℤ) ≤ limit.maxEntries →
      ∀ answers, Answers allow (new (rateLimitConfig limit)) attempts answers ↔
        Answers remember (new (rateLimitConfig limit)) attempts answers) ↔
    (limit.enabled = true → (limit.burst : ℚ) ≤
      limit.connectionsPerSecond.toRat * seconds limit.idleTimeout) := by
  constructor
  · intro h hen
    have hv := valid_of_validate hvalid hen trivial
    obtain ⟨hidle, hmax⟩ := (bounds_of_validate hvalid hen).2.2.1
    -- one client uses up its burst, and comes back as soon as it is forgotten
    have hlater : 0 < (rateLimitConfig limit).idleTimeout := hidle
    have hsorted := sorted_comeBack (rateLimitConfig limit) hlater (.v4 0)
    have hcard := card_visits_le (.v4 0)
      (comeBack (rateLimitConfig limit) (rateLimitConfig limit).idleTimeout)
    have hentries : (1 : ℤ) ≤ limit.maxEntries := hv.entries
    have hroom : (((visits (.v4 0) (comeBack (rateLimitConfig limit)
        (rateLimitConfig limit).idleTimeout)).map Attempt.addr).toFinset.card : ℤ) ≤
        limit.maxEntries := by omega
    have hsame := (invisible_iff (rateLimitConfig limit) hsorted hroom).mp (h _ hsorted hroom)
    have hfull := full_of_comeBack hv hen hmax rfl hsame
    exact hfull
  · intro h attempts hsorted hcard
    refine (invisible_iff (rateLimitConfig limit) hsorted hcard).mpr ?_
    cases hen : limit.enabled with
    | false =>
      rw [memo_disabled (rateLimitConfig limit) hen,
        memo_disabled (rateLimitConfig limit).forever hen]
    | true =>
      cases attempts with
      | nil => rfl
      | cons a attempts =>
        refine memo_forever (valid_of_validate hvalid hen trivial) (h hen) _ _ a.now nofun ?_ hsorted
        intro b hb
        rcases List.mem_cons.mp hb with rfl | hb
        · exact le_refl _
        · exact (List.pairwise_cons.mp hsorted).1 b hb

/-- A section that validation accepts: one connection at a time, one every
thousand seconds, and nobody is remembered for longer than a second. -/
def hasty : Config.ClientRateLimit :=
  { enabled := true, connectionsPerSecond := .finite (1 / 1000), burst := 1, idleTimeout := second,
    maxEntries := 1 }

/-- A client that is forgotten is admitted where the bucket would have
refused it. -/
theorem forgetting_refills :
    ¬ ∀ limit : Config.ClientRateLimit, Config.validateClientRateLimit limit = none →
      ∀ attempts : List Attempt, (attempts.Pairwise fun a b => a.now ≤ b.now) →
        ((attempts.map Attempt.addr).toFinset.card : ℤ) ≤ limit.maxEntries →
        ∀ answers, Answers allow (new (rateLimitConfig limit)) attempts answers ↔
          Answers remember (new (rateLimitConfig limit)) attempts answers := by
  intro h
  have hsorted : [(⟨.v4 7, 0⟩ : Attempt), ⟨.v4 7, second⟩].Pairwise fun a b => a.now ≤ b.now := by
    decide
  have hsame := (invisible_iff (rateLimitConfig hasty) hsorted (by decide)).mp
    (h hasty (by decide +kernel) _ hsorted (by decide))
  revert hsame
  decide +kernel

/-- The defaults: the burst accrues in three seconds, and a client is
remembered for ten minutes. -/
theorem forgetting_invisible_default :
    Config.validateClientRateLimit { enabled := true } = none ∧
    ∀ attempts : List Attempt, (attempts.Pairwise fun a b => a.now ≤ b.now) →
      ((attempts.map Attempt.addr).toFinset.card : ℤ) ≤ 4096 →
      ∀ answers, Answers allow (new (rateLimitConfig { enabled := true })) attempts answers ↔
        Answers remember (new (rateLimitConfig { enabled := true })) attempts answers :=
  ⟨by decide, (forgetting_invisible_iff { enabled := true } (by decide)).mpr fun _ => by decide +kernel⟩

end RateLimit

end McRouter
