import McRouter.Limits.Forgetting
import McRouter.Proxy.Coherence
import McRouter.Proxy.Conn

/-!
# Updates and the limiter

The limiter is part of the server's state, and an update of the routes
stores a new state: every client starts over with a full bucket. **Nobody
can tell exactly if whoever was remembered had a full bucket anyway**, or
was about to be forgotten (`updates_invisible_iff`); right after a client
has used up its burst it can, and gets the burst again (`update_refills`).
All of this is so however tokens are rounded.

The two tables are related by what the old one has left over
(`Leftover`): entries of before the update, each of which is full or idle by
then. They are the oldest, so that they go first, and they take nobody's
place.
-/

namespace McRouter

namespace RateLimit

open Netip TokenBucket Proxy
open Arithmetic (float64 counts)

section Rounded

variable [Arithmetic]

/-! ## What the old table has left over -/

/-- From `t` on it makes no difference whether the entry is remembered. -/
structure Entry.Stale (cfg : Config) (t : ℤ) (e : Entry) : Prop where
  seen : e.lastSeen < t
  idle_or_full : alive cfg t e = false ∨
    (e.lastRefill < t ∧ (meter cfg).capacity ≤ (meter cfg).gain e.tokens e.lastRefill t)

/-- The old table has what the new one has, all of it asked for since `t`,
and beside it only what makes no difference. -/
structure Leftover (t : ℤ) (old new : Limiter) : Prop where
  cfg : new.cfg = old.cfg
  kept : ∀ a e, new.entries.lookup a = some e → old.entries.lookup a = some e ∧ t ≤ e.lastSeen
  stale : ∀ a e, new.entries.lookup a = none → old.entries.lookup a = some e → e.Stale old.cfg t

section Tables

variable {t now : ℤ} {old new old' new' : Limiter} {cfg : Config} {e : Entry} {key : Addr}

/-- What is left over serves like a new entry. -/
theorem Entry.Stale.serve (h : e.Stale cfg t) (hv : cfg.Valid) (ht : t ≤ now)
    (halive : alive cfg now e = true) : serve cfg e now = serve cfg (fresh cfg now) now := by
  rcases h.idle_or_full with hidle | ⟨hrefill, hfull⟩
  · rw [alive_of_le ht halive] at hidle
    cases hidle
  · have hsub : 0 < sub t e.lastRefill := sub_pos_iff.mpr hrefill
    have hgain : (meter cfg).gain e.tokens e.lastRefill t ≤ (meter cfg).gain e.tokens e.lastRefill now :=
      Arithmetic.mulAdd_mono hv.rate.le (Arithmetic.seconds_mono hsub.le (sub_mono _ ht))
    exact serve_of_full (lt_of_lt_of_le hrefill ht) (hfull.trans hgain)

theorem Leftover.reordered (h : Leftover t old new) (hold : Reordered old old')
    (hnew : Reordered new new') : Leftover t old' new' where
  cfg := by rw [hold.cfg, hnew.cfg, h.cfg]
  kept a e ha := by
    rw [hnew.lookup] at ha
    rw [hold.lookup]
    exact h.kept a e ha
  stale a e hnone ha := by
    rw [hnew.lookup] at hnone
    rw [hold.lookup] at ha
    rw [hold.cfg]
    exact h.stale a e hnone ha

theorem Leftover.deleteExpired (h : Leftover t old new) (now : ℤ) :
    Leftover t (deleteExpired old now) (deleteExpired new now) where
  cfg := h.cfg
  kept a e ha := by
    rw [lookup_kept, h.cfg, Option.filter_eq_some_iff] at ha
    obtain ⟨hold, hseen⟩ := h.kept a e ha.1
    rw [lookup_kept, Option.filter_eq_some_iff]
    exact ⟨⟨hold, ha.2⟩, hseen⟩
  stale a e hnone ha := by
    rw [lookup_kept, Option.filter_eq_some_iff] at ha
    refine h.stale a e ?_ ha.1
    cases hnew : new.entries.lookup a with
    | none => rfl
    | some e' =>
      -- an entry of both tables is kept in both or in none
      obtain rfl := Option.some.inj ((h.kept a e' hnew).1.symm.trans ha.1)
      rw [lookup_kept, h.cfg, hnew, Option.filter_eq_none_iff] at hnone
      exact absurd ha.2 (hnone e' rfl)

/-- The same entry put into both tables. -/
theorem Leftover.insert (h : Leftover t old new) (hseen : t ≤ e.lastSeen) :
    Leftover t { old with entries := old.entries.insert key e }
      { old with entries := new.entries.insert key e } where
  cfg := rfl
  kept a e' ha := by
    rw [GoMap.lookup_insert] at ha ⊢
    split_ifs at ha ⊢ with hkey
    · obtain rfl := Option.some.inj ha
      exact ⟨rfl, hseen⟩
    · exact h.kept a e' ha
  stale a e' hnone ha := by
    rw [GoMap.lookup_insert] at hnone ha
    split_ifs at hnone ha with hkey
    exact h.stale a e' hnone ha

/-- An entry that is left over may go. -/
theorem Leftover.erase (h : Leftover t old new) (hnone : new.entries.lookup key = none) :
    Leftover t { old with entries := old.entries.erase key } new where
  cfg := h.cfg
  kept a e ha := by
    have hne : a ≠ key := by
      rintro rfl
      rw [hnone] at ha
      cases ha
    rw [GoMap.lookup_erase, if_neg hne]
    exact h.kept a e ha
  stale a e hnone' ha := h.stale a e hnone' (GoMap.lookup_of_erase ha)

/-- With something left over the old table is the larger one. -/
theorem Leftover.len_lt (h : Leftover t old new) (hnone : new.entries.lookup key = none)
    (hold : old.entries.lookup key = some e) : new.entries.len < old.entries.len := by
  have hsub : new.entries.keys ⊆ (old.entries.erase key).keys := by
    intro a ha
    obtain ⟨e', he'⟩ := GoMap.mem_keys_iff.mp ha
    exact GoMap.mem_keys_iff.mpr ⟨e', ((h.erase hnone).kept a e' he').1⟩
  have hle := ((AList.keys_nodup new.entries).subperm hsub).length_le
  have herase := GoMap.len_erase_of_present hold
  rw [← GoMap.len_eq_length_keys, ← GoMap.len_eq_length_keys] at hle
  omega

/-- The two tables, when nothing is left over. -/
theorem Leftover.perm (h : Leftover t old new)
    (hnone : ∀ a e, old.entries.lookup a = some e → new.entries.lookup a ≠ none) : Reordered old new where
  cfg := h.cfg
  perm := by
    refine GoMap.perm_of_lookup_eq fun a => ?_
    cases hnew : new.entries.lookup a with
    | some e => exact (h.kept a e hnew).1.symm
    | none =>
      cases hold : old.entries.lookup a with
      | none => rfl
      | some e => exact absurd hnew (hnone a e hold)

theorem Leftover.keyed (h : Leftover t old new) (hkeyed : old.Keyed) : new.Keyed :=
  fun a e ha => hkeyed a e (h.kept a e ha).1

/-- **A call while something is left over**: the answers are the same, and an
entry that has to go is one that is left over. -/
theorem Leftover.rememberAt (h : Leftover t old new) (hsound : old.Sound) (hv : old.cfg.Valid)
    (ht : t ≤ now) (halive : ∀ a e, old.entries.lookup a = some e → alive old.cfg now e = true)
    {a₀ : Addr} {e₀ : Entry} (hnone : new.entries.lookup a₀ = none)
    (hold : old.entries.lookup a₀ = some e₀) (key : Addr) :
    (rememberAt old key now).1 = (rememberAt new key now).1 ∧
      Leftover t (rememberAt old key now).2 (rememberAt new key now).2 := by
  have hlen := h.len_lt hnone hold
  have hlen_le := hsound.len_le
  have hcfg : new.cfg = old.cfg := h.cfg
  obtain ⟨e, table, hfound, hcall⟩ := rememberAt_cases hsound.keyed hv.entries key now
  obtain ⟨e', table', hfound', hcall'⟩ :=
    rememberAt_cases (h.keyed hsound.keyed) (by rw [hcfg]; exact hv.entries) key now
  rw [hcall, hcall', hcfg]
  cases hfound' with
  | known hnew =>
    -- the client is in both tables
    have hboth := (h.kept key e' hnew).1
    cases hfound with
    | known hlookup =>
      obtain rfl := Option.some.inj (hboth.symm.trans hlookup)
      exact ⟨rfl, h.insert ht⟩
    | room hlookup => exact absurd (hboth.symm.trans hlookup) nofun
    | evict _ hlookup => exact absurd (hboth.symm.trans hlookup) nofun
  | room hnew _ =>
    rw [hcfg]
    cases hfound with
    | known hlookup =>
      rw [(h.stale key e hnew hlookup).serve hv ht (halive key e hlookup)]
      exact ⟨rfl, h.insert ht⟩
    | room => exact ⟨rfl, h.insert ht⟩
    | evict victim _ _ holdest =>
      refine ⟨rfl, (h.erase ?_).insert ht⟩
      cases hvictim : new.entries.lookup victim with
      | none => rfl
      | some gone =>
        -- what is left over was asked for before anything the new table has
        obtain ⟨gone', hgone', hle⟩ := holdest
        obtain ⟨hgone, hseen⟩ := h.kept victim gone hvictim
        obtain rfl := Option.some.inj (hgone.symm.trans hgone')
        have hbefore := (h.stale a₀ e₀ hnone hold).seen
        have hfirst := hle a₀ e₀ hold
        omega
  | evict _ _ hfull =>
    rw [hcfg] at hfull
    omega

/-- A call when nothing is left over. -/
theorem Leftover.rememberAt_self {l : Limiter} (hkeyed : l.Keyed) (hmax : 1 ≤ l.cfg.maxEntries)
    (ht : t ≤ now) (hseen : ∀ a e, l.entries.lookup a = some e → t ≤ e.lastSeen) (key : Addr) :
    Leftover t (RateLimit.rememberAt l key now).2 (RateLimit.rememberAt l key now).2 := by
  obtain ⟨e, table, hfound, hcall⟩ := rememberAt_cases hkeyed hmax key now
  rw [hcall]
  refine ⟨rfl, fun a e' ha => ⟨ha, ?_⟩, fun a e' hnone ha => absurd (hnone.symm.trans ha) nofun⟩
  rcases GoMap.lookup_insert_cases ha with ha | ⟨-, rfl⟩
  · exact hseen a e' (hfound.lookup ha)
  · exact ht

/-- A call when what is kept is the same in both tables, whatever the order. -/
theorem Leftover.rememberAt_same (h : Leftover t old new) (hkeyed : old.Keyed)
    (hmax : 1 ≤ old.cfg.maxEntries) (ht : t ≤ now) (hsame : Reordered old new) {kept : Limiter}
    (hre : Reordered old kept) (key : Addr) :
    Leftover t (RateLimit.rememberAt kept key now).2 (RateLimit.rememberAt kept key now).2 := by
  have hcfg : kept.cfg = old.cfg := hre.cfg
  refine Leftover.rememberAt_self (hkeyed.reordered hre) (by rw [hcfg]; exact hmax) ht ?_ key
  intro a e ha
  rw [hre.lookup, ← hsame.lookup] at ha
  exact (h.kept a e ha).2

/-- A call while something is left over of what is kept, whatever the order. -/
theorem Leftover.rememberAt_apart (h : Leftover t old new) (hsound : old.Sound) (hv : old.cfg.Valid)
    (ht : t ≤ now) {a₀ : Addr} {e₀ : Entry}
    (hnone : (RateLimit.deleteExpired new now).entries.lookup a₀ = none)
    (hold : (RateLimit.deleteExpired old now).entries.lookup a₀ = some e₀) {kept kept' : Limiter}
    (hre : Reordered (RateLimit.deleteExpired old now) kept)
    (hre' : Reordered (RateLimit.deleteExpired new now) kept') (key : Addr) :
    (RateLimit.rememberAt kept key now).1 = (RateLimit.rememberAt kept' key now).1 ∧
      Leftover t (RateLimit.rememberAt kept key now).2 (RateLimit.rememberAt kept' key now).2 := by
  have hcfg : kept.cfg = old.cfg := hre.cfg
  refine ((h.deleteExpired now).reordered hre hre').rememberAt
    ((hsound.deleteExpired now).reordered hre) (hcfg ▸ hv) ht ?_
    (hre'.lookup a₀ ▸ hnone) (hre.lookup a₀ ▸ hold) key
  intro a e ha
  rw [hre.lookup, lookup_kept, Option.filter_eq_some_iff] at ha
  rw [hcfg]
  exact ha.2

/-- **A call on the two tables**: whatever the one may answer the other may,
and what they then have is related again. -/
theorem Leftover.asked (h : Leftover t old new) (hsound : old.Sound) (hv : old.cfg.Valid) {addr : Addr}
    (ht : t ≤ now) {answer : Bool} :
    (∀ old', Asked allow old addr now answer old' →
      ∃ new', Asked allow new addr now answer new' ∧ Leftover t old' new') ∧
    ∀ new', Asked allow new addr now answer new' →
      ∃ old', Asked allow old addr now answer old' ∧ Leftover t old' new' := by
  by_cases htable : old.cfg.enabled = true ∧ addr.isValid = true
  · have htable' : new.cfg.enabled = true ∧ addr.isValid = true := by rwa [h.cfg]
    simp only [asked_iff htable, asked_iff htable']
    have hkept := h.deleteExpired now
    have hkeyed := (hsound.deleteExpired now).keyed
    by_cases hleft : ∀ a e, (RateLimit.deleteExpired old now).entries.lookup a = some e →
        (RateLimit.deleteExpired new now).entries.lookup a ≠ none
    · -- the tables are the same, up to their order
      have hsame := hkept.perm hleft
      constructor
      · rintro old' ⟨kept, hre, hcall⟩
        have hnext := hkept.rememberAt_same hkeyed hv.entries ht hsame hre addr.unmap
        rw [hcall] at hnext
        exact ⟨old', ⟨kept, hsame.symm.trans hre, hcall⟩, hnext⟩
      · rintro new' ⟨kept, hre, hcall⟩
        have hnext := hkept.rememberAt_same hkeyed hv.entries ht hsame (hsame.trans hre) addr.unmap
        rw [hcall] at hnext
        exact ⟨new', ⟨kept, hsame.trans hre, hcall⟩, hnext⟩
    · push Not at hleft
      obtain ⟨a₀, e₀, hold, hnone⟩ := hleft
      constructor
      · rintro old' ⟨kept, hre, hcall⟩
        obtain ⟨hanswer, hnext⟩ := h.rememberAt_apart hsound hv ht hnone hold hre (.refl _) addr.unmap
        rw [hcall] at hanswer hnext
        refine ⟨(RateLimit.rememberAt (RateLimit.deleteExpired new now) addr.unmap now).2,
          ⟨_, .refl _, ?_⟩, hnext⟩
        exact Prod.ext hanswer.symm rfl
      · rintro new' ⟨kept, hre, hcall⟩
        obtain ⟨hanswer, hnext⟩ := h.rememberAt_apart hsound hv ht hnone hold (.refl _) hre addr.unmap
        rw [hcall] at hanswer hnext
        refine ⟨(RateLimit.rememberAt (RateLimit.deleteExpired old now) addr.unmap now).2,
          ⟨_, .refl _, ?_⟩, hnext⟩
        exact Prod.ext hanswer rfl
  · have htable' : ¬ (new.cfg.enabled = true ∧ addr.isValid = true) := by rwa [h.cfg]
    simp only [asked_iff_of_not htable, asked_iff_of_not htable', h.cfg]
    constructor
    · rintro old' ⟨rfl, hre⟩
      exact ⟨new, ⟨rfl, .refl _⟩, h.reordered hre (.refl _)⟩
    · rintro new' ⟨rfl, hre⟩
      exact ⟨old, ⟨rfl, .refl _⟩, h.reordered (.refl _) hre⟩

/-- **The two tables answer alike** from `t` on. -/
theorem Leftover.answers : ∀ (attempts : List Attempt) (old new : Limiter) (answers : List Bool),
    Leftover t old new → old.Sound → old.cfg.Valid → (∀ a ∈ attempts, t ≤ a.now) →
    (Answers allow old attempts answers ↔ Answers allow new attempts answers) := by
  intro attempts
  induction attempts with
  | nil =>
    intro old new answers _ _ _ _
    constructor
    · rintro ⟨⟩
      exact .nil _
    · rintro ⟨⟩
      exact .nil _
  | cons a attempts ih =>
    intro old new answers h hsound hv ht
    obtain ⟨hnow, ht⟩ := List.forall_mem_cons.mp ht
    constructor
    · rintro ⟨⟩
      rename_i old' answer answers hasked hrest
      obtain ⟨new', hasked', hnext⟩ := (h.asked hsound hv hnow).1 old' hasked
      obtain ⟨hsound', hcfg⟩ := hsound.asked hv hasked
      exact .cons hasked' ((ih old' new' answers hnext hsound' (hcfg ▸ hv) ht).mp hrest)
    · rintro ⟨⟩
      rename_i new' answer answers hasked hrest
      obtain ⟨old', hasked', hnext⟩ := (h.asked hsound hv hnow).2 new' hasked
      obtain ⟨hsound', hcfg⟩ := hsound.asked hv hasked'
      exact .cons hasked' ((ih old' new' answers hnext hsound' (hcfg ▸ hv) ht).mpr hrest)

/-- What a client gets that is still remembered, and comes back as often as the
burst allows. -/
theorem answers_burst {l : Limiter} (hsound : l.Sound) (hlookup : l.entries.lookup key = some e)
    (hunmap : key.unmap = key) (n : ℕ) (answers : List Bool) :
    Answers allow l (visits key (List.replicate n t)) answers ↔
      answers = memo l.cfg l.entries.lookup (visits key (List.replicate n t)) := by
  have hmem : ∀ a ∈ visits key (List.replicate n t), a = ⟨key, t⟩ := by
    intro a ha
    obtain ⟨now, hnow, rfl⟩ := List.mem_map.mp ha
    rw [List.eq_of_mem_replicate hnow]
  have hroom : Room l.entries.keys.toFinset l := by
    refine ⟨hsound.keyed, fun a e' ha => ?_, ?_⟩
    · exact List.mem_toFinset.mpr (GoMap.mem_keys_iff.mpr ⟨e', ha⟩)
    · rw [List.toFinset_card_of_nodup (AList.keys_nodup _), ← GoMap.len_eq_length_keys]
      exact hsound.len_le
  refine answers_iff_memo _ l l.entries.lookup t answers ⟨fun _ _ _ => rfl⟩ hroom ?_ ?_ ?_
  · intro a ha
    rw [hmem a ha]
  · rw [visits, List.pairwise_map]
    exact List.pairwise_replicate.mpr (Or.inr (le_refl _))
  · intro a ha
    rw [hmem a ha, hunmap]
    exact List.mem_toFinset.mpr (GoMap.mem_keys_iff.mpr ⟨e, hlookup⟩)

/-- If a client that is remembered cannot tell its bucket from a new one, it is
full. -/
theorem full_of_burst {l : Limiter} (hsound : l.Sound) (hv : l.cfg.Valid)
    (hen : l.cfg.enabled = true) (hlookup : l.entries.lookup key = some e) (hunmap : key.unmap = key)
    (halive : alive l.cfg t e = true)
    (h : ∀ answers, Answers allow (RateLimit.new l.cfg)
        (visits key (List.replicate l.cfg.burst.toNat t)) answers ↔
      Answers allow l (visits key (List.replicate l.cfg.burst.toNat t)) answers) :
    (l.cfg.burst : ℚ) ≤ (refill l.cfg e t).tokens := by
  have he := hsound.entry key e hlookup
  have hkey : key.isValid = true := hsound.keyed key e hlookup
  have hsorted : (visits key (List.replicate l.cfg.burst.toNat t)).Pairwise
      fun a b => a.now ≤ b.now := by
    rw [visits, List.pairwise_map]
    exact List.pairwise_replicate.mpr (Or.inr (le_refl _))
  have hcard := card_visits_le key (List.replicate l.cfg.burst.toNat t)
  have hroom : (((visits key (List.replicate l.cfg.burst.toNat t)).map
      Attempt.addr).toFinset.card : ℤ) ≤ l.cfg.maxEntries := by
    have hentries := hv.entries
    omega
  have hmemo := (answers_burst hsound hlookup hunmap _ _).mp ((h _).mp ((answers_new hsorted hroom).mpr rfl))
  have hsolo := congrArg (answersOf (client key) (visits key (List.replicate l.cfg.burst.toNat t))) hmemo
  rw [answersOf_visits hen hkey, answersOf_visits hen hkey, hunmap, hlookup, solo_fresh hv] at hsolo
  have hrecall := recalled_of_alive halive
  have hfull := (solo_full hv (by rw [hrecall]; exact he.nonneg)
    (by rw [hrecall]; exact he.lt_burst.le) (by rw [hrecall]; exact he.rounded)).mp hsolo.symm
  rw [hrecall, ← refill_bucket] at hfull
  exact hfull

/-- Whoever is remembered has been asked for by `t`, under an address that is
no other form of one. -/
def Limiter.Until (t : ℤ) (l : Limiter) : Prop :=
  ∀ a e, l.entries.lookup a = some e → a.unmap = a ∧ e.lastRefill ≤ t

theorem Limiter.Until.asked {l l' : Limiter} {addr : Addr} {answer : Bool} (h : l.Until t)
    (hsound : l.Sound) (hv : l.cfg.Valid) (hnow : now ≤ t)
    (hasked : Asked allow l addr now answer l') : l'.Until t := by
  intro a e' ha
  rcases hasked.cases hsound.keyed fun _ => hv.entries with
    ⟨-, -, hre⟩ | ⟨-, kept, e, table, hre, hfound, -, rfl⟩
  · exact h a e' (hre.lookup a ▸ ha)
  · have hcfg : kept.cfg = l.cfg := hre.cfg
    have hold : ∀ b e, kept.entries.lookup b = some e → b.unmap = b ∧ e.lastRefill ≤ t :=
      fun b e hb => h b e (lookup_of_kept (hre.lookup b ▸ hb))
    rcases GoMap.lookup_insert_cases ha with ha | ⟨rfl, rfl⟩
    · exact hold a e' (hfound.lookup ha)
    · refine ⟨Addr.unmap_unmap _, ?_⟩
      have hrefilled : (serve l.cfg e now).2.lastRefill = max e.lastRefill now := refilled_attempt
      rw [hrefilled]
      cases hfound with
      | known hlookup => exact max_le (hold _ _ hlookup).2 hnow
      | room => exact max_le hnow hnow
      | evict => exact max_le hnow hnow

/-- Where everything is idle or full, all of it is left over. -/
theorem leftover_new {l : Limiter} (hv : l.cfg.Valid) (hsound : l.Sound) (huntil : l.Until t)
    (h : ∀ a e, l.entries.lookup a = some e → l.cfg.idleTimeout ≤ sub t e.lastSeen ∨
      (l.cfg.burst : ℚ) ≤ (refill l.cfg e t).tokens) :
    Leftover t l (RateLimit.new l.cfg) := by
  refine ⟨rfl, fun a e ha => absurd ((AList.lookup_empty a).symm.trans ha) nofun, ?_⟩
  intro a e _ ha
  have he := hsound.entry a e ha
  have hseen := he.seen_le
  rcases h a e ha with hidle | hfull
  · have hlt : e.lastSeen < t := sub_pos_iff.mp (lt_of_lt_of_le hv.idle hidle)
    exact ⟨hlt, Or.inl (decide_eq_false (not_lt.mpr hidle))⟩
  · have hfull : (l.cfg.burst : ℚ) ≤ ((meter l.cfg).refill e.bucket t).tokens := by
      rw [← refill_bucket]
      exact hfull
    have hlt : e.lastRefill < t := by
      refine lt_of_le_of_ne (huntil a e ha).2 fun heq => ?_
      -- a bucket that was asked for just now is not full
      rw [refill_of_le (b := e.bucket) heq.ge] at hfull
      exact absurd hfull (not_le.mpr he.lt_burst)
    rw [← hv.capacity] at hfull
    exact ⟨lt_of_le_of_lt hseen hlt, Or.inr ⟨hlt, hfull.trans (tokens_refill_le_gain hlt)⟩⟩

end Tables

end Rounded

/-! ## The server -/

/-- A server that calls and connections have come to until `t`. A connection
reads the clock before it gets to the limiter. -/
inductive Served [Arithmetic] : ServerState → ℤ → Prop
  | start {env : Env} {cfg : McRouter.Config} {discovered : List Kubernetes.DiscoveredRoute}
      {snapshot : RouteSnapshot} {s : ServerState} (t : ℤ)
      (hbuild : buildRouteSnapshot env cfg discovered = .ok snapshot)
      (hstart : newServerFromSnapshot snapshot = some s) : Served s t
  | call {s : ServerState} {t : ℤ} (h : Served s t) (env : Env) (call : Call) :
      Served (call.run env s).2 t
  | attempt {s : ServerState} {t now : ℤ} {addr : Addr} {answer : Bool} {l' : Limiter}
      (h : Served s t) (hnow : now ≤ t) (hasked : Asked allow s.clientRateLimit addr now answer l') :
      Served { s with clientRateLimit := l' } t
  | wait {s : ServerState} {t t' : ℤ} (h : Served s t) (ht : t ≤ t') : Served s t'

/-- A connection is an attempt, or does not come to the limiter: with exact
tokens, as `handleConn` has them. -/
theorem Served.conn {s : ServerState} {t : ℤ} (h : Served s t) (env : ConnEnv) (hnow : env.now ≤ t) :
    Served { s with clientRateLimit := (handleConn s env).limiter } t := by
  have hasked : ∀ addr, Asked allow s.clientRateLimit addr env.now
      (allow s.clientRateLimit addr env.now).1 (allow s.clientRateLimit addr env.now).2 :=
    fun addr => ⟨_, .refl _, rfl⟩
  unfold handleConn
  split
  · exact h
  · exact h
  · rename_i addr events client _
    by_cases hpolicy : (!s.clientPolicy.allows addr) = true
    · rw [if_pos hpolicy]
      exact h
    · rw [if_neg hpolicy]
      dsimp only
      split_ifs
      · exact .attempt h hnow (hasked _)
      · rw [Handled.after, limiter_readAndRoute]
        exact .attempt h hnow (hasked _)

/-- What holds of its limiter. -/
structure Limited [Arithmetic] (s : ServerState) (t : ℤ) : Prop where
  valid : Config.validateClientRateLimit s.staticConfig.clientRateLimit = none
  cfg : s.clientRateLimit.cfg = rateLimitConfig s.staticConfig.clientRateLimit
  table : s.clientRateLimit.cfg.enabled = true → counts s.clientRateLimit.cfg.burst →
    s.clientRateLimit.Sound ∧ s.clientRateLimit.Until t

theorem Limited.cfg_valid [Arithmetic] {s : ServerState} {t : ℤ} (h : Limited s t)
    (hen : s.clientRateLimit.cfg.enabled = true) (hcounts : counts s.clientRateLimit.cfg.burst) :
    s.clientRateLimit.cfg.Valid := by
  rw [h.cfg] at hen hcounts ⊢
  exact valid_of_validate h.valid hen hcounts

/-- A limiter that is new. -/
theorem limited_new [Arithmetic] {s : ServerState} (t : ℤ)
    (hnew : s.clientRateLimit = new (rateLimitConfig s.staticConfig.clientRateLimit))
    (hvalid : Config.validateClientRateLimit s.staticConfig.clientRateLimit = none) : Limited s t := by
  have hnone : ∀ a e, s.clientRateLimit.entries.lookup a ≠ some e := by
    intro a e ha
    rw [hnew] at ha
    exact absurd ((AList.lookup_empty a).symm.trans ha) nofun
  refine ⟨hvalid, by rw [hnew]; rfl, fun hen hcounts => ⟨⟨?_, ?_, ?_⟩, ?_⟩⟩
  · exact fun a e ha => absurd ha (hnone a e)
  · rw [hnew] at hen hcounts ⊢
    exact zero_le_one.trans (valid_of_validate hvalid hen hcounts).entries
  · exact fun a e ha => absurd ha (hnone a e)
  · exact fun a e ha => absurd ha (hnone a e)

/-- What is stored for a snapshot has a new limiter. -/
theorem limiter_of_coherent {s : ServerState} {gen : Int64} {static : McRouter.Config}
    {discovered : List Kubernetes.DiscoveredRoute} (h : Coherent s gen static discovered) :
    s.staticConfig = static ∧ s.clientRateLimit = new (rateLimitConfig static.clientRateLimit) ∧
      Config.validateClientRateLimit static.clientRateLimit = none := by
  obtain ⟨⟨env, hvalid⟩, -, -, hnew⟩ := h.access
  have hsec := List.flatten_eq_nil_iff.mp (Config.validate_eq_none.mp hvalid).1
    (Config.validateClientRateLimit static.clientRateLimit).toList
    (by iterate 4 apply List.mem_cons_of_mem
        exact List.mem_cons_self)
  exact ⟨h.fields.2.1, hnew, Option.toList_eq_nil_iff.mp hsec⟩

/-- A call that succeeds stores what a start would. -/
theorem coherent_of_ok {env : Env} {s : ServerState} {call : Call} (hok : (call.run env s).1 = .ok) :
    ∃ gen, Coherent (call.run env s).2 gen (call.staticSet.getD s.staticConfig)
      (call.discoveredSet.getD s.discoveredRoutes) := by
  rcases run_cases env s call with ⟨err, hrun⟩ | hrun
  · rw [hrun] at hok
    cases hok
  · rw [hrun] at hok ⊢
    cases hbuild : buildRouteSnapshot env (call.staticSet.getD s.staticConfig)
      (call.discoveredSet.getD s.discoveredRoutes) with
    | error err =>
      rw [hbuild] at hok
      cases hok
    | ok snapshot =>
      obtain ⟨s', hs', hcoh⟩ := exists_coherent hbuild (s.generation + 1)
      rw [applySnapshot, updateRouteSnapshotLocked, hs']
      exact ⟨_, hcoh⟩

/-- **The limiter of a server**, whatever came to it. -/
theorem limited_of_served [Arithmetic] {s : ServerState} {t : ℤ} (h : Served s t) :
    Limited s t := by
  induction h with
  | start t hbuild hstart =>
    obtain ⟨hstatic, hnew, hvalid⟩ := limiter_of_coherent ⟨_, _, hbuild, hstart⟩
    exact limited_new t (hstatic ▸ hnew) (hstatic ▸ hvalid)
  | @call s t _ env call ih =>
    by_cases hok : (call.run env s).1 = .ok
    · obtain ⟨gen, hcoh⟩ := coherent_of_ok hok
      obtain ⟨hstatic, hnew, hvalid⟩ := limiter_of_coherent hcoh
      exact limited_new t (hstatic ▸ hnew) (hstatic ▸ hvalid)
    · rw [run_eq_of_ne_ok hok]
      exact ih
  | @attempt s t now addr answer l' _ hnow hasked ih =>
    have hcfg := hasked.cfg
    refine ⟨ih.valid, hcfg.trans ih.cfg, fun hen hcounts => ?_⟩
    rw [hcfg] at hen hcounts
    obtain ⟨hsound, huntil⟩ := ih.table hen hcounts
    have hv := ih.cfg_valid hen hcounts
    exact ⟨(hsound.asked hv hasked).1, huntil.asked hsound hv hnow hasked⟩
  | wait _ ht ih =>
    refine ⟨ih.valid, ih.cfg, fun hen hcounts => ?_⟩
    obtain ⟨hsound, huntil⟩ := ih.table hen hcounts
    exact ⟨hsound, fun a e ha => ⟨(huntil a e ha).1, (huntil a e ha).2.trans ht⟩⟩

/-- A limiter that is not enabled admits everybody. -/
theorem answers_disabled [Arithmetic] : ∀ (attempts : List Attempt) (l : Limiter) (answers : List Bool),
    l.cfg.enabled = false →
    (Answers allow l attempts answers ↔ answers = attempts.map fun _ => true) := by
  intro attempts
  induction attempts with
  | nil =>
    intro l answers _
    constructor
    · rintro ⟨⟩
      rfl
    · rintro rfl
      exact .nil l
  | cons a attempts ih =>
    intro l answers hen
    have hnot : ¬ (l.cfg.enabled = true ∧ a.addr.isValid = true) := by simp [hen]
    constructor
    · rintro ⟨⟩
      rename_i l' answer answers hasked hrest
      obtain ⟨rfl, hre⟩ := (asked_iff_of_not hnot).mp hasked
      rw [(ih l' answers (hre.cfg ▸ hen)).mp hrest, hen]
      rfl
    · rintro rfl
      refine .cons ((asked_iff_of_not hnot).mpr ⟨?_, .refl l⟩) ((ih l _ hen).mpr rfl)
      rw [hen]
      rfl

/-- **When an update cannot be told.** For every server and every call that
succeeds and keeps the section of the limiter, the attempts from then on get
the answers they would have got without it exactly if the limiter is not
enabled, or whoever it remembers has a full bucket or was idle for too
long. Tokens may be rounded, as long as the burst is a number that is
counted exactly. -/
theorem updates_invisible_iff [Arithmetic] {s : ServerState} {t : ℤ} (hserved : Served s t) (env : Env)
    (call : Call)
    (hsame : (call.staticSet.getD s.staticConfig).clientRateLimit = s.staticConfig.clientRateLimit)
    (hok : (call.run env s).1 = .ok) (hburst : s.clientRateLimit.cfg.burst ≤ 2 ^ 53) :
    (∀ attempts : List Attempt, (∀ a ∈ attempts, t ≤ a.now) → ∀ answers,
      Answers allow (call.run env s).2.clientRateLimit attempts answers ↔
        Answers allow s.clientRateLimit attempts answers) ↔
    (s.clientRateLimit.cfg.enabled = true → ∀ a e, s.clientRateLimit.entries.lookup a = some e →
      s.clientRateLimit.cfg.idleTimeout ≤ sub t e.lastSeen ∨
      (s.clientRateLimit.cfg.burst : ℚ) ≤ (refill s.clientRateLimit.cfg e t).tokens) := by
  have hlimited := limited_of_served hserved
  have hcounts := Arithmetic.counts_of_le _ hburst
  obtain ⟨gen, hcoh⟩ := coherent_of_ok hok
  have hnew : (call.run env s).2.clientRateLimit = new s.clientRateLimit.cfg := by
    rw [(limiter_of_coherent hcoh).2.1, hsame, hlimited.cfg]
  rw [hnew]
  by_cases hen : s.clientRateLimit.cfg.enabled = true
  · have hv := hlimited.cfg_valid hen hcounts
    obtain ⟨hsound, huntil⟩ := hlimited.table hen hcounts
    constructor
    · intro h _ a e ha
      refine or_iff_not_imp_left.mpr fun hidle => ?_
      have halive : alive s.clientRateLimit.cfg t e = true := decide_eq_true (not_le.mp hidle)
      refine full_of_burst hsound hv hen ha (huntil a e ha).1 halive (h _ ?_)
      intro a ha
      obtain ⟨now, hnow, rfl⟩ := List.mem_map.mp ha
      exact (List.eq_of_mem_replicate hnow).ge
    · intro h attempts hlater answers
      have hleft := leftover_new hv hsound huntil (h hen)
      exact (Leftover.answers attempts _ _ answers hleft hsound hv hlater).symm
  · have hdis : s.clientRateLimit.cfg.enabled = false := by simpa using hen
    constructor
    · exact fun _ h => absurd h hen
    · intro _ attempts _ answers
      rw [answers_disabled attempts _ answers hdis, answers_disabled attempts (new _) answers hdis]

/-- One connection a second, and no more at a time. -/
def strictConfig : McRouter.Config :=
  { playConfig with clientRateLimit := { enabled := true, burst := 1 } }

/-- A client that was just admitted. -/
def spent : Limiter := ⟨rateLimitConfig strictConfig.clientRateLimit, AList.singleton (.v4 7) ⟨0, 0, 0⟩⟩

/-- An update that finds the routes that are there already. -/
def idleUpdate : Call := .updateDiscoveredRoutes (some ⟨none, none, none⟩) (some (.ok []))

/-- The client gets its one token, however tokens are rounded. -/
theorem allow_strict [Arithmetic] :
    allow (new (rateLimitConfig strictConfig.clientRateLimit)) (.v4 7) 0 = (true, spent) := by
  have hburst : (rateLimitConfig strictConfig.clientRateLimit).burst = 1 := rfl
  have hfind : find (deleteExpired (new (rateLimitConfig strictConfig.clientRateLimit)) 0) (.v4 7) 0 =
      (fresh (rateLimitConfig strictConfig.clientRateLimit) 0,
        new (rateLimitConfig strictConfig.clientRateLimit)) := rfl
  have hserve : serve (rateLimitConfig strictConfig.clientRateLimit)
      (fresh (rateLimitConfig strictConfig.clientRateLimit) 0) 0 = (true, ⟨0, 0, 0⟩) := by
    unfold serve Meter.attempt
    rw [refill_fresh]
    simp [Meter.take, fresh, Entry.bucket, meter, hburst]
  rw [allow_of 0 ⟨rfl, rfl⟩, allowAt_eq]
  refine (rememberAt_of_find hfind).trans ?_
  rw [new, hserve]
  rfl

/-- A server with that configuration, after that client. -/
theorem strict_served [Arithmetic] : ∃ s, Served s 0 ∧ s.clientRateLimit = spent ∧
    (idleUpdate.run emptyEnv s).1 = .ok := by
  have hvalid : strictConfig.validate emptyEnv = none := by decide +kernel
  obtain ⟨snapshot, hbuild, -⟩ := select_eq_decision hvalid []
  obtain ⟨s, hs, hcoh⟩ := exists_coherent hbuild 1
  obtain ⟨hstatic, hnew, -⟩ := limiter_of_coherent hcoh
  have hasked : Asked allow s.clientRateLimit (.v4 7) 0 true spent :=
    ⟨_, .refl _, by rw [hnew, allow_strict]⟩
  refine ⟨_, .attempt (.start 0 hbuild hs) (le_refl 0) hasked, rfl, ?_⟩
  obtain ⟨s', hs', -⟩ := exists_coherent hbuild (s.generation + 1)
  simp [idleUpdate, Call.run, updateDiscoveredRoutes, discoveredRoutesFromProvider, hstatic, hbuild,
    applySnapshot, updateRouteSnapshotLocked, hs']

/-- Right after its burst a client gets it again, once the routes are
updated, however tokens are rounded. -/
theorem update_refills :
    ¬ ∃ _ : Arithmetic, ∀ (s : ServerState) (t : ℤ), Served s t → ∀ (env : Env) (call : Call),
      (call.staticSet.getD s.staticConfig).clientRateLimit = s.staticConfig.clientRateLimit →
      (call.run env s).1 = .ok → ∀ attempts : List Attempt, (∀ a ∈ attempts, t ≤ a.now) → ∀ answers,
        Answers allow (call.run env s).2.clientRateLimit attempts answers ↔
          Answers allow s.clientRateLimit attempts answers := by
  rintro ⟨arithmetic, h⟩
  obtain ⟨s, hserved, hspent, hok⟩ := strict_served
  have hlimited := limited_of_served hserved
  have hen : s.clientRateLimit.cfg.enabled = true := by rw [hspent]; rfl
  have hcounts : counts s.clientRateLimit.cfg.burst := Arithmetic.counts_of_le _ (by rw [hspent]; decide)
  obtain ⟨gen, hcoh⟩ := coherent_of_ok hok
  have hnew : (idleUpdate.run emptyEnv s).2.clientRateLimit = new s.clientRateLimit.cfg := by
    rw [(limiter_of_coherent hcoh).2.1, hlimited.cfg]
    rfl
  have hsame := h s 0 hserved emptyEnv idleUpdate rfl hok
  rw [hnew] at hsame
  have hlookup : s.clientRateLimit.entries.lookup (.v4 7) = some ⟨0, 0, 0⟩ := by
    rw [hspent]
    rfl
  have hfull : (s.clientRateLimit.cfg.burst : ℚ) ≤
      (refill s.clientRateLimit.cfg ⟨0, 0, 0⟩ 0).bucket.tokens :=
    full_of_burst (hlimited.table hen hcounts).1 (hlimited.cfg_valid hen hcounts) hen hlookup rfl
      (by rw [hspent]; decide) (hsame _ (by rw [hspent]; decide))
  have hburst : s.clientRateLimit.cfg.burst = 1 := by rw [hspent]; rfl
  have hnow : (0 : ℤ) ≤ (⟨0, 0, 0⟩ : Entry).bucket.refilled := le_refl _
  rw [refill_bucket, refill_of_le hnow, hburst] at hfull
  norm_num [Entry.bucket] at hfull

/-- A second later its bucket is full, and nobody can tell. -/
theorem updates_invisible_later : ∃ s : ServerState, s.clientRateLimit = spent ∧
    (idleUpdate.run emptyEnv s).1 = .ok ∧ ∀ attempts : List Attempt, (∀ a ∈ attempts, second ≤ a.now) →
      ∀ answers, Answers allow (idleUpdate.run emptyEnv s).2.clientRateLimit attempts answers ↔
        Answers allow s.clientRateLimit attempts answers := by
  obtain ⟨s, hserved, hspent, hok⟩ := strict_served
  have hlater : Served s second := .wait hserved (by decide)
  have hburst : s.clientRateLimit.cfg.burst ≤ 2 ^ 53 := by rw [hspent]; decide
  refine ⟨s, hspent, hok, (updates_invisible_iff hlater emptyEnv idleUpdate rfl hok hburst).mpr ?_⟩
  intro _ a e ha
  rw [hspent] at ha ⊢
  have hmem : (⟨a, e⟩ : Σ _ : Netip.Addr, Entry) ∈ [⟨.v4 7, ⟨0, 0, 0⟩⟩] := GoMap.mem_entries.mpr ha
  cases List.mem_singleton.mp hmem
  exact Or.inr (by decide +kernel)

end RateLimit

end McRouter
