import McRouter.Limits.Buckets
import Mathlib.Data.Finset.Card
import Mathlib.Logic.Function.Basic

/-!
# What the limiter remembers

What the table is for: a memory of one entry per client, where an entry is
forgotten once it was idle for too long. A memory need not delete anything.
It is enough to look at an idle entry as at none when its client comes back
(`recalled`), and so the answers to one client depend on its own attempts only
(`answersOf_memo`).

**The table is that memory**, as long as it has room for everybody and time
does not step back: what a call of somebody else deletes ahead of time would
have been idle at the next call of its own (`answers_iff_memo`).
-/

namespace McRouter

namespace RateLimit

open Netip TokenBucket

/-! ## The memory -/

section Memory

variable [Arithmetic]

/-- The entry a client finds. -/
def recalled (cfg : Config) (remembered : Option Entry) (now : ℤ) : Entry :=
  (remembered.filter (alive cfg now)).getD (fresh cfg now)

theorem recalled_of_alive {cfg : Config} {e : Entry} {now : ℤ} (h : alive cfg now e = true) :
    recalled cfg (some e) now = e := by simp [recalled, Option.filter, h]

theorem recalled_of_idle {cfg : Config} {e : Entry} {now : ℤ} (h : alive cfg now e = false) :
    recalled cfg (some e) now = fresh cfg now := by simp [recalled, Option.filter, h]

/-- One entry per client. -/
abbrev Memory := Addr → Option Entry

/-- An attempt. -/
def ask (cfg : Config) (m : Memory) (a : Attempt) : Bool × Memory :=
  if cfg.enabled = true ∧ a.addr.isValid = true then
    let served := serve cfg (recalled cfg (m a.addr.unmap) a.now) a.now
    (served.1, Function.update m a.addr.unmap (some served.2))
  else (!cfg.enabled, m)

/-- The answers to a sequence of attempts. -/
def memo (cfg : Config) : Memory → List Attempt → List Bool
  | _, [] => []
  | m, a :: attempts => (ask cfg m a).1 :: memo cfg (ask cfg m a).2 attempts

/-! ## One client -/

/-- The answers to the attempts of one client, and its entry after them. -/
def solo (cfg : Config) : Option Entry → List ℤ → List Bool × Option Entry
  | remembered, [] => ([], remembered)
  | remembered, now :: times =>
    let served := serve cfg (recalled cfg remembered now) now
    let rest := solo cfg (some served.2) times
    (served.1 :: rest.1, rest.2)

end Memory

/-- The attempts that are somebody's. -/
def attemptsOf (who : Attempt → Bool) (attempts : List Attempt) : List Attempt :=
  attempts.filter who

/-- The answers to them. -/
def answersOf (who : Attempt → Bool) (attempts : List Attempt) (answers : List Bool) : List Bool :=
  ((attempts.zip answers).filter fun p => who p.1).map Prod.snd

/-- The attempts of the client with the address. -/
def client (addr : Addr) (a : Attempt) : Bool := a.addr.unmap = addr.unmap

/-- **The answers to a client are those to its own attempts.** -/
theorem answersOf_memo [Arithmetic] {cfg : Config} (hen : cfg.enabled = true) {addr : Addr}
    (haddr : addr.isValid = true) : ∀ (attempts : List Attempt) (m : Memory),
    answersOf (client addr) attempts (memo cfg m attempts) =
      (solo cfg (m addr.unmap) ((attemptsOf (client addr) attempts).map Attempt.now)).1 := by
  intro attempts
  induction attempts with
  | nil =>
    intro m
    rfl
  | cons a attempts ih =>
    intro m
    have hrest := ih (ask cfg m a).2
    unfold answersOf attemptsOf at hrest ⊢
    rw [memo, List.zip_cons_cons, List.filter_cons, List.filter_cons]
    by_cases hkey : a.addr.unmap = addr.unmap
    · have hvalid : a.addr.isValid = true := by
        rw [← Addr.isValid_unmap, hkey, Addr.isValid_unmap, haddr]
      have hclient : client addr a = true := decide_eq_true hkey
      simp only [hclient, if_true, List.map_cons, solo]
      rw [hrest]
      simp only [ask, hen, hvalid, and_self, if_true, hkey, Function.update_self]
    · have hclient : client addr a = false := decide_eq_false hkey
      have hother : (ask cfg m a).2 addr.unmap = m addr.unmap := by
        unfold ask
        split_ifs
        · exact Function.update_of_ne (Ne.symm hkey) _ _
        · rfl
      simp only [hclient, Bool.false_eq_true, if_false]
      rw [hrest, hother]

/-- Whom the table has no part in gets one answer always. -/
theorem answersOf_memo_not [Arithmetic] {cfg : Config} {addr : Addr}
    (hnot : ¬ (cfg.enabled = true ∧ addr.isValid = true)) : ∀ (attempts : List Attempt) (m : Memory),
    answersOf (client addr) attempts (memo cfg m attempts) =
      (attemptsOf (client addr) attempts).map fun _ => !cfg.enabled := by
  intro attempts
  induction attempts with
  | nil =>
    intro m
    rfl
  | cons a attempts ih =>
    intro m
    have hrest := ih (ask cfg m a).2
    unfold answersOf attemptsOf at hrest ⊢
    rw [memo, List.zip_cons_cons, List.filter_cons, List.filter_cons]
    by_cases hkey : a.addr.unmap = addr.unmap
    · have hvalid : ¬ (cfg.enabled = true ∧ a.addr.isValid = true) := by
        rwa [← Addr.isValid_unmap, hkey, Addr.isValid_unmap]
      have hclient : client addr a = true := decide_eq_true hkey
      simp only [hclient, if_true, List.map_cons]
      rw [hrest, ask, if_neg hvalid]
    · have hclient : client addr a = false := decide_eq_false hkey
      simp only [hclient, Bool.false_eq_true, if_false]
      exact hrest

/-! ## The table -/

/-- Everybody who is in the table is among few enough. -/
structure Room (clients : Finset Addr) (l : Limiter) : Prop where
  keyed : l.Keyed
  within : ∀ a e, l.entries.lookup a = some e → a ∈ clients
  card_le : (clients.card : ℤ) ≤ l.cfg.maxEntries

/-- From `t` on the table says what the memory says, idle entries apart. -/
structure Recalls (t : ℤ) (l : Limiter) (m : Memory) : Prop where
  agree : ∀ a now, t ≤ now →
    (l.entries.lookup a).filter (alive l.cfg now) = (m a).filter (alive l.cfg now)

section Table

variable {clients : Finset Addr} {l l₀ l' : Limiter} {m : Memory} {t now : ℤ} {key : Addr} {e : Entry}
  {table : GoMap Addr Entry}

/-- What is alive later is alive now. -/
theorem alive_of_le {cfg : Config} {now' : ℤ} (h : now ≤ now') (halive : alive cfg now' e = true) :
    alive cfg now e = true := by
  have hmono := sub_mono e.lastSeen h
  simp only [alive, decide_eq_true_eq] at halive ⊢
  omega

theorem filter_alive_of_le {cfg : Config} {now' : ℤ} (h : now ≤ now') (o : Option Entry) :
    (o.filter (alive cfg now)).filter (alive cfg now') = o.filter (alive cfg now') := by
  cases o with
  | none => rfl
  | some e =>
    cases halive : alive cfg now' e with
    | false => cases hnow : alive cfg now e <;> simp [Option.filter, halive, hnow]
    | true => simp [Option.filter, halive, alive_of_le h halive]

/-- Where there is room for everybody, nobody has to go. -/
theorem Room.found [Arithmetic] (h : Room clients l) (hkey : key ∈ clients) (hfound : Found l key now e table) :
    e = (l.entries.lookup key).getD (fresh l.cfg now) ∧ table = l.entries := by
  cases hfound with
  | known hlookup => exact ⟨by rw [hlookup]; rfl, rfl⟩
  | room hlookup _ => exact ⟨by rw [hlookup]; rfl, rfl⟩
  | evict victim hlookup hfull _ =>
    -- the table has none but the other clients
    have hsub : l.entries.keys.toFinset ⊆ clients.erase key := by
      intro a ha
      obtain ⟨e, he⟩ := GoMap.mem_keys_iff.mp (List.mem_toFinset.mp ha)
      refine Finset.mem_erase.mpr ⟨?_, h.within a e he⟩
      rintro rfl
      rw [hlookup] at he
      cases he
    have hcard := Finset.card_le_card hsub
    rw [List.toFinset_card_of_nodup (AList.keys_nodup _), ← GoMap.len_eq_length_keys,
      Finset.card_erase_of_mem hkey] at hcard
    have hpos : 0 < clients.card := Finset.card_pos.mpr ⟨key, hkey⟩
    have hle := h.card_le
    omega

theorem Room.reordered (h : Room clients l) (hre : Reordered l l') : Room clients l' where
  keyed := h.keyed.reordered hre
  within a e ha := h.within a e (hre.lookup a ▸ ha)
  card_le := by
    rw [hre.cfg]
    exact h.card_le

theorem Room.deleteExpired (h : Room clients l) (now : ℤ) : Room clients (deleteExpired l now) where
  keyed := h.keyed.deleteExpired now
  within a e ha := h.within a e (lookup_of_kept ha)
  card_le := h.card_le

theorem Recalls.reordered (h : Recalls t l m) (hre : Reordered l l') : Recalls t l' m where
  agree a now hnow := by
    rw [hre.cfg, hre.lookup]
    exact h.agree a now hnow

/-- What is known to agree from `t` on agrees from later on. -/
theorem Recalls.mono (h : Recalls t l m) (ht : t ≤ now) : Recalls now l m where
  agree a now' hnow' := h.agree a now' (le_trans ht hnow')

/-- The table after a call. -/
theorem Recalls.put (h : Recalls t l m) (ht : t ≤ now) {kept : Limiter}
    (hre : Reordered (deleteExpired l now) kept) (key : Addr) (e' : Entry) :
    Recalls now { l with entries := kept.entries.insert key e' }
      (Function.update m key (some e')) where
  agree a now' hnow' := by
    by_cases hak : a = key
    · subst hak
      rw [AList.lookup_insert, Function.update_self]
    · rw [AList.lookup_insert_ne hak, Function.update_of_ne hak, hre.lookup, lookup_kept,
        filter_alive_of_le hnow']
      exact h.agree a now' (le_trans ht hnow')

theorem Room.put (h : Room clients l) (hvalid : key.isValid) (hkey : key ∈ clients) {kept : Limiter}
    (hre : Reordered (RateLimit.deleteExpired l now) kept) (e' : Entry) :
    Room clients { l with entries := kept.entries.insert key e' } := by
  have hkept := (h.deleteExpired now).reordered hre
  refine ⟨fun b e hb => ?_, fun b e hb => ?_, h.card_le⟩
  · rcases GoMap.lookup_insert_cases hb with hb | ⟨rfl, -⟩
    · exact hkept.keyed b e hb
    · exact hvalid
  · rcases GoMap.lookup_insert_cases hb with hb | ⟨rfl, -⟩
    · exact hkept.within b e hb
    · exact hkey

/-- **A call answers from the memory**, and leaves the table that the memory
then is. -/
theorem Recalls.asked [Arithmetic] (h : Recalls t l m) (hroom : Room clients l) {a : Attempt} (ht : t ≤ a.now)
    (ha : a.addr.unmap ∈ clients) {answer : Bool} (hasked : Asked allow l a.addr a.now answer l') :
    answer = (ask l.cfg m a).1 ∧ Recalls a.now l' (ask l.cfg m a).2 ∧ Room clients l' ∧
      l'.cfg = l.cfg := by
  have hmax : 1 ≤ l.cfg.maxEntries := by
    have hpos : 0 < clients.card := Finset.card_pos.mpr ⟨_, ha⟩
    have hle := hroom.card_le
    omega
  unfold ask
  rcases hasked.cases hroom.keyed fun _ => hmax with
    ⟨hnot, rfl, hre⟩ | ⟨htable, kept, e, table, hre, hfound, rfl, rfl⟩
  · rw [if_neg hnot]
    exact ⟨rfl, (h.mono ht).reordered hre, hroom.reordered hre, hre.cfg⟩
  · rw [if_pos htable]
    obtain ⟨rfl, rfl⟩ := ((hroom.deleteExpired a.now).reordered hre).found ha hfound
    have hcfg : kept.cfg = l.cfg := hre.cfg
    have hrecall : (kept.entries.lookup a.addr.unmap).getD (fresh kept.cfg a.now) =
        recalled l.cfg (m a.addr.unmap) a.now := by
      rw [recalled, hcfg, hre.lookup, lookup_kept, h.agree _ _ ht]
    have hvalid : a.addr.unmap.isValid := by
      rw [Addr.isValid_unmap]
      exact htable.2
    rw [hrecall]
    exact ⟨rfl, h.put ht hre _ _, hroom.put hvalid ha hre _, rfl⟩

end Table

/-- **The table is the memory.** -/
theorem answers_iff_memo [Arithmetic] {clients : Finset Addr} : ∀ (attempts : List Attempt) (l : Limiter)
    (m : Memory) (t : ℤ) (answers : List Bool), Recalls t l m → Room clients l →
    (∀ a ∈ attempts, t ≤ a.now) → attempts.Pairwise (fun a b => a.now ≤ b.now) →
    (∀ a ∈ attempts, a.addr.unmap ∈ clients) →
    (Answers allow l attempts answers ↔ answers = memo l.cfg m attempts) := by
  intro attempts
  induction attempts with
  | nil =>
    intro l m t answers _ _ _ _ _
    constructor
    · rintro ⟨⟩
      rfl
    · rintro rfl
      exact .nil l
  | cons a attempts ih =>
    intro l m t answers h hroom ht hsorted hclients
    obtain ⟨hle, hsorted⟩ := List.pairwise_cons.mp hsorted
    obtain ⟨ha, hclients⟩ := List.forall_mem_cons.mp hclients
    have hnow := (List.forall_mem_cons.mp ht).1
    constructor
    · intro hanswers
      cases hanswers with
      | cons hasked hrest =>
        obtain ⟨rfl, h', hroom', hcfg⟩ := h.asked hroom hnow ha hasked
        have hmemo := (ih _ _ _ _ h' hroom' hle hsorted hclients).mp hrest
        rw [hmemo, memo, hcfg]
    · rintro rfl
      have hasked : Asked allow l a.addr a.now (allow l a.addr a.now).1 (allow l a.addr a.now).2 :=
        ⟨l, .refl l, rfl⟩
      obtain ⟨hanswer, h', hroom', hcfg⟩ := h.asked hroom hnow ha hasked
      rw [hanswer] at hasked
      refine .cons hasked ?_
      exact (ih _ _ _ _ h' hroom' hle hsorted hclients).mpr (by rw [hcfg])

end RateLimit

end McRouter
