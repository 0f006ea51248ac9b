import McRouter.Limits.Buckets
import McRouter.Proxy.Server
import Mathlib.Logic.Relation
import Mathlib.Logic.Function.Basic

/-!
# The life of a bucket

What a limiter hands out to one client while it remembers it. Beside the
table we keep books: for each address the life of its entry, from the
insertion on, with the latest time an attempt was made at and the number of
attempts admitted. Expiry and eviction end a life, and the next attempt
begins another one.

**Over a life no more is admitted than the burst and what accrued**, in
whatever order the calls come to the lock (`token_bucket_sound`): an entry
never loses the latest time it was refilled at, so a clock that steps back
accrues nothing.
-/

namespace McRouter

namespace RateLimit

open Netip TokenBucket Proxy

/-- What validation asks of the section of an enabled limiter. -/
theorem bounds_of_validate {limit : Config.ClientRateLimit}
    (h : Config.validateClientRateLimit limit = none) (hen : limit.enabled = true) :
    limit.connectionsPerSecond.isPositive = true ∧ 1 ≤ limit.burst ∧
      (0 < limit.idleTimeout ∧ limit.idleTimeout ≤ 86400000000000) ∧ 1 ≤ limit.maxEntries := by
  rw [Config.validateClientRateLimit, if_neg (by simp [hen]), errorsJoin_eq_none] at h
  simp only [List.flatten_cons, List.flatten_nil, List.append_nil, List.append_eq_nil_iff] at h
  obtain ⟨hrate, hburst, hidle, hentries⟩ := h
  have hburst : ¬ limit.burst < 1 := Config.failIf_eq_nil.mp hburst
  refine ⟨by simpa using Config.failIf_eq_nil.mp hrate, not_lt.mp hburst, ?_, ?_⟩
  · split_ifs at hidle with hle
    have hmax := Config.failIf_eq_nil.mp hidle
    norm_num [Config.maxClientRateLimitIdleTimeout, hour, minute, second] at hmax
    exact ⟨not_le.mp hle, hmax⟩
  · split_ifs at hentries with hlt
    omega

/-- An enabled limiter that validation accepts. -/
theorem valid_of_validate [Arithmetic] {limit : Config.ClientRateLimit}
    (h : Config.validateClientRateLimit limit = none) (hen : limit.enabled = true)
    (hcounts : Arithmetic.counts limit.burst) : (rateLimitConfig limit).Valid := by
  obtain ⟨hrate, hburst, ⟨hidle, -⟩, hentries⟩ := bounds_of_validate h hen
  refine ⟨?_, hburst, hidle, hentries, hcounts⟩
  cases hfloat : limit.connectionsPerSecond with
  | finite q => simpa [hfloat, GoFloat.isPositive, rateLimitConfig, GoFloat.toRat] using hrate
  | inf negative => simp [hfloat, GoFloat.isPositive] at hrate
  | nan => simp [hfloat, GoFloat.isPositive] at hrate

/-- The life of an entry. -/
structure Life where
  inserted : ℤ
  latest : ℤ
  admitted : ℕ
deriving DecidableEq

/-- An attempt on an entry that lives. -/
def Life.extend (life : Life) (now : ℤ) (answer : Bool) : Life :=
  { life with latest := max life.latest now, admitted := life.admitted + charge answer }

/-- The attempt that an entry is inserted for. -/
def Life.begin (now : ℤ) (answer : Bool) : Life := ⟨now, now, charge answer⟩

/-- A limiter with its books. -/
structure Books where
  limiter : Limiter
  lives : Addr → Option Life

/-- Where the books begin. -/
def Books.start (cfg : Config) : Books := ⟨new cfg, fun _ => none⟩

/-- The life of the entry that a call leaves: its old one, if the entry was
still there. -/
def Books.lifeAfter (b : Books) (key : Addr) (now : ℤ) (answer : Bool) : Life :=
  match (deleteExpired b.limiter now).entries.lookup key, b.lives key with
  | some _, some life => life.extend now answer
  | _, _ => .begin now answer

/-- A call of `Allow`, by any address at any time. -/
inductive Books.Step (b : Books) : Books → Prop
  | call {addr : Addr} {now : ℤ} {answer : Bool} {l' : Limiter}
      (h : Asked allow b.limiter addr now answer l') :
      Step b ⟨l', if b.limiter.cfg.enabled = true ∧ addr.isValid = true then
        Function.update b.lives addr.unmap (some (b.lifeAfter addr.unmap now answer)) else b.lives⟩

/-- What would have accrued by now in a bucket without a bottom. -/
def pace (cfg : Config) (t : ℤ) : ℚ := seconds t * cfg.connectionsPerSecond

theorem Config.Valid.gain_le {cfg : Config} (hv : cfg.Valid) : ∀ x t u, t < u →
    (meter cfg).gain x t u ≤ x + (pace cfg u - pace cfg t) := by
  intro x t u htu
  have hsub : seconds (sub u t) ≤ seconds u - seconds t := by
    rw [← seconds_sub]
    exact seconds_mono (sub_le htu.le)
  have hmul := mul_le_mul_of_nonneg_right hsub hv.rate.le
  rw [sub_mul] at hmul
  rw [gain_exact]
  exact add_le_add_right hmul x

/-- The bound on a life. -/
def Life.Bounded (cfg : Config) (life : Life) : Prop :=
  (life.admitted : ℚ) ≤ cfg.burst + cfg.connectionsPerSecond * seconds (life.latest - life.inserted)

/-- **The books balance**: what an entry has handed out and still holds is
paid for by the burst and the pace since its insertion. -/
structure Life.Balances (cfg : Config) (e : Entry) (life : Life) : Prop where
  latest : e.lastRefill = life.latest
  paid : (life.admitted : ℚ) + e.tokens - pace cfg life.latest ≤
    cfg.burst - pace cfg life.inserted

section Steps

variable {cfg : Config} {e : Entry} {life : Life}

theorem Life.Balances.bounded (h : life.Balances cfg e) (hnonneg : 0 ≤ e.tokens) :
    life.Bounded cfg := by
  have hpaid := h.paid
  unfold Life.Bounded
  rw [seconds_sub]
  unfold pace at hpaid
  linarith

/-- An attempt on an entry keeps its books. -/
theorem Life.Balances.extend (h : life.Balances cfg e) (hv : cfg.Valid) (now : ℤ) :
    (life.extend now (serve cfg e now).1).Balances cfg (serve cfg e now).2 where
  latest := by
    have hrefilled : (serve cfg e now).2.lastRefill = max e.lastRefill now := refilled_attempt
    rw [hrefilled, h.latest]
    rfl
  paid := by
    have hpays := attempt_pays e.bucket now hv.gain_le fun _ _ => le_refl _
    have hpaid := h.paid
    rw [refilled_attempt] at hpays
    simp only [Entry.bucket, h.latest] at hpays
    simp only [Life.extend, serve, Entry.bucket, h.latest]
    push_cast
    linarith

/-- The attempt that inserts an entry opens its books. -/
theorem balances_begin (hv : cfg.Valid) (now : ℤ) :
    (Life.begin now (serve cfg (fresh cfg now) now).1).Balances cfg
      (serve cfg (fresh cfg now) now).2 := by
  have hopen : (⟨now, now, 0⟩ : Life).Balances cfg (fresh cfg now) := ⟨rfl, by
    simp [fresh, Arithmetic.float64]⟩
  have hnext := hopen.extend hv now
  simpa [Life.extend, Life.begin] using hnext

end Steps

/-- What holds of the books at all times. -/
structure Books.Sound (b : Books) : Prop where
  table : b.limiter.Sound
  balances : ∀ a e, b.limiter.entries.lookup a = some e →
    ∃ life, b.lives a = some life ∧ life.Balances b.limiter.cfg e
  bounded : ∀ a life, b.lives a = some life → life.Bounded b.limiter.cfg

/-- The entry that a call leaves, with its life. -/
theorem Books.Sound.lifeAfter {b : Books} (h : b.Sound) (hv : b.limiter.cfg.Valid) {kept : Limiter}
    {key : Addr} {now : ℤ} {e : Entry} {table : GoMap Addr Entry}
    (hre : Reordered (deleteExpired b.limiter now) kept) (hfound : Found kept key now e table) :
    (b.lifeAfter key now (serve b.limiter.cfg e now).1).Balances b.limiter.cfg
      (serve b.limiter.cfg e now).2 := by
  have hcfg : kept.cfg = b.limiter.cfg := hre.cfg
  unfold Books.lifeAfter
  rw [← hre.lookup]
  cases hfound with
  | known hlookup =>
    have hold := lookup_of_kept (hre.lookup key ▸ hlookup)
    obtain ⟨life, hlife, hbal⟩ := h.balances key e hold
    rw [hlookup, hlife]
    exact hbal.extend hv now
  | room hlookup _ =>
    rw [hlookup, hcfg]
    exact balances_begin hv now
  | evict victim hlookup _ _ =>
    rw [hlookup, hcfg]
    exact balances_begin hv now

/-- An attempt that is served keeps the books. -/
theorem Books.Sound.serve {b : Books} (h : b.Sound) (hv : b.limiter.cfg.Valid) {kept : Limiter}
    {key : Addr} {now : ℤ} {e : Entry} {table : GoMap Addr Entry}
    (hre : Reordered (deleteExpired b.limiter now) kept) (hfound : Found kept key now e table)
    (hsound : Limiter.Sound
      { b.limiter with entries := table.insert key (RateLimit.serve b.limiter.cfg e now).2 }) :
    Books.Sound ⟨{ b.limiter with entries := table.insert key (serve b.limiter.cfg e now).2 },
      Function.update b.lives key (some (b.lifeAfter key now (serve b.limiter.cfg e now).1))⟩ := by
  have hlife := h.lifeAfter hv hre hfound
  refine ⟨hsound, fun a e' ha => ?_, fun a life ha => ?_⟩
  · by_cases hak : a = key
    · subst hak
      obtain rfl := Option.some.inj ((AList.lookup_insert table).symm.trans ha)
      exact ⟨_, Function.update_self .., hlife⟩
    · have htable : table.lookup a = some e' := (AList.lookup_insert_ne hak).symm.trans ha
      have hold := lookup_of_kept (hre.lookup a ▸ hfound.lookup htable)
      obtain ⟨life, hlife', hbal⟩ := h.balances a e' hold
      exact ⟨life, (Function.update_of_ne hak _ _).trans hlife', hbal⟩
  · change Function.update b.lives key _ a = some life at ha
    by_cases hak : a = key
    · subst hak
      rw [Function.update_self] at ha
      obtain rfl := Option.some.inj ha
      exact hlife.bounded (hsound.entry _ _ (AList.lookup_insert table)).nonneg
    · rw [Function.update_of_ne hak] at ha
      exact h.bounded a life ha

/-- **A call keeps the books.** -/
theorem Books.Sound.step {b b' : Books} (h : b.Sound) (hv : b.limiter.cfg.Valid)
    (hstep : b.Step b') : b'.Sound ∧ b'.limiter.cfg = b.limiter.cfg := by
  obtain @⟨addr, now, answer, l', hasked⟩ := hstep
  rcases hasked.cases h.table.keyed fun _ => hv.entries with
    ⟨hnot, -, hre⟩ | ⟨htable, kept, e, table, hre, hfound, rfl, rfl⟩
  · rw [if_neg hnot]
    refine ⟨⟨h.table.reordered hre, fun a e ha => ?_, fun a life ha => ?_⟩, hre.cfg⟩
    · rw [hre.cfg]
      exact h.balances a e (hre.lookup a ▸ ha)
    · rw [hre.cfg]
      exact h.bounded a life ha
  · rw [if_pos htable]
    exact ⟨h.serve hv hre hfound (h.table.asked hv hasked).1, rfl⟩

/-- The books of an enabled limiter, after any calls. -/
theorem sound_of_reachable {cfg : Config} (hv : cfg.Valid) {b : Books}
    (hreach : Relation.ReflTransGen Books.Step (.start cfg) b) : b.Sound ∧ b.limiter.cfg = cfg := by
  induction hreach with
  | refl =>
    have hnone : ∀ a, (new cfg).entries.lookup a = none := fun a => AList.lookup_empty a
    have hmax := hv.entries
    refine ⟨⟨⟨fun a e ha => ?_, ?_, fun a e ha => ?_⟩, fun a e ha => ?_, nofun⟩, rfl⟩
    · exact absurd ((hnone a).symm.trans ha) nofun
    · exact zero_le_one.trans hmax
    · exact absurd ((hnone a).symm.trans ha) nofun
    · exact absurd ((hnone a).symm.trans ha) nofun
  | tail _ hstep ih =>
    obtain ⟨hsound, hcfg⟩ := ih
    obtain ⟨hsound', hcfg'⟩ := hsound.step (hcfg ▸ hv) hstep
    exact ⟨hsound', hcfg'.trans hcfg⟩

/-- A limiter that is not enabled never remembers anybody. -/
theorem empty_of_disabled {cfg : Config} (hen : cfg.enabled = false) {b : Books}
    (hreach : Relation.ReflTransGen Books.Step (.start cfg) b) :
    b.limiter.entries.len = 0 ∧ b.limiter.cfg = cfg ∧ b.lives = fun _ => none := by
  induction hreach with
  | refl => exact ⟨rfl, rfl, rfl⟩
  | tail _ hstep ih =>
    obtain ⟨hlen, hcfg, hlives⟩ := ih
    obtain @⟨addr, now, answer, l', l₀, hre, hallow⟩ := hstep
    have hnot : ¬ (l₀.cfg.enabled = true ∧ addr.isValid = true) := by simp [hre.cfg, hcfg, hen]
    rw [allow_of_not now hnot] at hallow
    obtain ⟨-, rfl⟩ := Prod.mk.inj hallow
    rw [if_neg (hre.cfg ▸ hnot)]
    exact ⟨hre.len.trans hlen, hre.cfg.trans hcfg, hlives⟩

/-- **The buckets are sound**: for every section that validation accepts and
every sequence of calls, by any addresses at any times and in any order. An
enabled limiter remembers `MaxEntries` clients at most, and one that is not
enabled nobody; no bucket is overdrawn or holds more than the burst; and over
the life of an entry no more attempts are admitted than the burst and what
accrued between its insertion and the latest time it saw. -/
theorem token_bucket_sound (limit : Config.ClientRateLimit)
    (hvalid : Config.validateClientRateLimit limit = none) (b : Books)
    (hreach : Relation.ReflTransGen Books.Step (.start (rateLimitConfig limit)) b) :
    (if limit.enabled then (b.limiter.entries.len : ℤ) ≤ limit.maxEntries
      else b.limiter.entries.len = 0) ∧
    (∀ a e, b.limiter.entries.lookup a = some e →
      0 ≤ e.tokens ∧ e.tokens ≤ limit.burst ∧ ∃ life, b.lives a = some life) ∧
    ∀ a life, b.lives a = some life → (life.admitted : ℚ) ≤ limit.burst +
      limit.connectionsPerSecond.toRat * seconds (life.latest - life.inserted) := by
  cases hen : limit.enabled with
  | false =>
    have hdisabled : (rateLimitConfig limit).enabled = false := hen
    obtain ⟨hlen, -, hlives⟩ := empty_of_disabled hdisabled hreach
    refine ⟨hlen, fun a e ha => ?_, fun a life ha => ?_⟩
    · have hmem := GoMap.mem_entries.mpr ha
      rw [List.length_eq_zero_iff.mp hlen] at hmem
      cases hmem
    · rw [hlives] at ha
      cases ha
  | true =>
    obtain ⟨hsound, hcfg⟩ := sound_of_reachable (valid_of_validate hvalid hen trivial) hreach
    refine ⟨?_, fun a e ha => ?_, fun a life ha => ?_⟩
    · have hlen := hsound.table.len_le
      rw [hcfg] at hlen
      exact hlen
    · have he := hsound.table.entry a e ha
      rw [hcfg] at he
      obtain ⟨life, hlife, -⟩ := hsound.balances a e ha
      exact ⟨he.nonneg, he.lt_burst.le, life, hlife⟩
    · have hbounded := hsound.bounded a life ha
      rw [hcfg] at hbounded
      exact hbounded

/-- Validation does not look at the section of a limiter that is not enabled,
and its empty table is then no smaller than `MaxEntries`. -/
theorem disabled_maxEntries_negative :
    ¬ ∀ limit : Config.ClientRateLimit, Config.validateClientRateLimit limit = none → ∀ b : Books,
      Relation.ReflTransGen Books.Step (.start (rateLimitConfig limit)) b →
        (b.limiter.entries.len : ℤ) ≤ limit.maxEntries := by
  intro h
  have hlen := h { enabled := false, maxEntries := -1 } (by decide) _ .refl
  revert hlen
  decide

/-- A call, to a table in the order it stands in. -/
def Books.call (b : Books) (a : Attempt) : Books :=
  let out := allow b.limiter a.addr a.now
  ⟨out.2, if b.limiter.cfg.enabled = true ∧ a.addr.isValid = true then
    Function.update b.lives a.addr.unmap (some (b.lifeAfter a.addr.unmap a.now out.1)) else b.lives⟩

theorem reachable_calls (attempts : List Attempt) :
    ∀ b : Books, Relation.ReflTransGen Books.Step b (attempts.foldl Books.call b) := by
  induction attempts with
  | nil =>
    intro b
    exact .refl
  | cons a attempts ih =>
    intro b
    exact .head (.call ⟨_, .refl _, rfl⟩) (ih (b.call a))

/-- One connection a second, and one client is remembered. -/
def throttled : Config.ClientRateLimit :=
  { enabled := true, connectionsPerSecond := .finite 1, burst := 1, maxEntries := 1 }

/-- A client is admitted, refused at once, admitted a second later, and then
forgotten for another one. -/
def evicted : Books :=
  [⟨.v4 7, 0⟩, ⟨.v4 7, 0⟩, ⟨.v4 7, second⟩, ⟨.v4 8, second⟩].foldl Books.call
    (.start (rateLimitConfig throttled))

theorem token_bucket_sound_evicted :
    evicted.lives (.v4 7) = some ⟨0, second, 2⟩ ∧ evicted.limiter.entries.lookup (.v4 7) = none ∧
      (evicted.limiter.entries.len : ℤ) ≤ 1 ∧
      ((2 : ℕ) : ℚ) ≤ throttled.burst + throttled.connectionsPerSecond.toRat * seconds (second - 0) := by
  have hlife : evicted.lives (.v4 7) = some ⟨0, second, 2⟩ := by decide +kernel
  have hreach : Relation.ReflTransGen Books.Step (.start (rateLimitConfig throttled)) evicted := by
    unfold evicted
    exact reachable_calls _ _
  obtain ⟨hlen, -, hbounded⟩ := token_bucket_sound throttled (by decide) evicted hreach
  exact ⟨hlife, by decide +kernel, hlen, hbounded (.v4 7) ⟨0, second, 2⟩ hlife⟩

end RateLimit

end McRouter
