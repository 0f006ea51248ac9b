import McRouter.UDPRelay.Relay

/-!
# Who owns a session

A session is made by a call of `sessionForClient`, which alone knows it
until its last section. Then it is the table's, or it is closed at once;
and when it is taken out of the table somebody is left who closes it. So at
every moment **a socket that was opened has one owner**: the call that made
it, the table, or those who close it (`Owned`). What a step has to show for
that, whoever runs, is stated once (`Owned.change`).
-/

namespace McRouter

namespace UDPRelay

open Strings Net

/-! ## Owners -/

/-- Whose a session is. -/
inductive Owner where
  | unborn
  /-- The call that made it, by its goroutine. -/
  | call (i : ℕ)
  | table
  /-- It has left the table, or never came in. -/
  | gone
deriving DecidableEq, Repr

/-- The sessions that a goroutine going on has seen in the table. -/
def Rest.refs : Rest → List Session
  | sweep _ sessions => sessions
  | _ => []

/-- The sessions it is going to close. -/
def Rest.doomed : Rest → List ℕ
  | shut sessions => sessions.map Session.id
  | _ => []

namespace Goroutine

/-- The sessions that the goroutine has seen in the table. -/
def refs : Goroutine → List Session
  | writing _ sess => [sess]
  | reading sess => [sess]
  | checking sess _ => [sess]
  | replying sess _ => [sess]
  | sweeping _ sessions => sessions
  | removing sess _ rest => sess :: rest.refs
  | once _ _ rest => rest.refs
  | socket _ _ rest => rest.refs
  | _ => []

/-- The sessions that it is going to close. -/
def doomed : Goroutine → List ℕ
  | stopping sessions => sessions.map Session.id
  | shutting sessions => sessions.map Session.id
  | removing _ _ rest => rest.doomed
  | once sess _ rest => sess.id :: rest.doomed
  | socket sess _ rest => sess.id :: rest.doomed
  | _ => []

/-- The goroutine has a session of its own. -/
def makes : Goroutine → Bool
  | inserting _ _ => true
  | _ => false

end Goroutine

@[simp] theorem refs_goroutine (rest : Rest) : rest.goroutine.refs = rest.refs := by
  cases rest <;> rfl

@[simp] theorem doomed_goroutine (rest : Rest) : rest.goroutine.doomed = rest.doomed := by
  cases rest <;> rfl

@[simp] theorem makes_goroutine (rest : Rest) : rest.goroutine.makes = false := by
  cases rest <;> rfl

/-- Who makes no session is not about to insert one. -/
theorem ne_inserting {g : Goroutine} (h : g.makes = false) {payload : GoString} {sess : Session} :
    g ≠ .inserting payload sess := by
  rintro rfl
  cases h

theorem holds_iff {s : Shared} {sess : Session} :
    s.holds sess = true ↔ s.sessions.lookup sess.key = some sess := by
  rw [Shared.holds, beq_iff_eq]

variable {r : Relay} {owner : ℕ → Owner} {w : World}

/-- The table and its owner: each session under its own key and the
table's, and none of them under two keys. -/
structure TableOwned (r : Relay) (owner : ℕ → Owner) (s : Shared) : Prop where
  keyed : ∀ {key sess}, s.sessions.lookup key = some sess → sess.key = key ∧ owner sess.id = .table
  unique : ∀ {key key' sess sess'}, s.sessions.lookup key = some sess →
    s.sessions.lookup key' = some sess' → sess.id = sess'.id → key = key'
  listed : ∀ {id}, owner id = .table → ∃ key sess, s.sessions.lookup key = some sess ∧ sess.id = id
  empty : s.closed = true → s.sessions = ∅
  bounded : (s.sessions.len : ℤ) ≤ r.cfg.maxSessions

/-- A goroutine is accounted for: what it has seen in the table is there or
has gone, what it closes has gone, and what it made is its own. -/
structure Stands (owner : ℕ → Owner) (s : Shared) (i : ℕ) (g : Goroutine) : Prop where
  refs : ∀ sess ∈ g.refs, owner sess.id = .gone ∨ s.holds sess = true
  doomed : ∀ id ∈ g.doomed, owner id = .gone
  making : ∀ {payload sess}, g = .inserting payload sess → owner sess.id = .call i

/-- Somebody is going to close the session. -/
def World.Closing (w : World) (id : ℕ) : Prop :=
  ∃ (i : ℕ) (g : Goroutine), w.goroutines[i]? = some g ∧ id ∈ g.doomed

/-- The session is one that the goroutine made. -/
def World.Making (w : World) (i id : ℕ) : Prop :=
  ∃ payload sess, w.goroutines[i]? = some (.inserting payload sess) ∧ sess.id = id

/-- **Every socket that was opened has one owner**, and one that has gone is
closed or going to be. -/
structure Owned (r : Relay) (owner : ℕ → Owner) (w : World) : Prop where
  table : TableOwned r owner w.shared
  unborn : ∀ id, owner id = .unborn ↔ w.made ≤ id
  flagged : ∀ id ∈ w.closedSessions, owner id = .gone
  shut : ∀ id ∈ w.closedSockets, owner id = .gone
  stands : ∀ {i g}, w.goroutines[i]? = some g → Stands owner w.shared i g
  made_by : ∀ {id i}, owner id = .call i → w.Making i id
  closing : ∀ {id}, owner id = .gone → id ∈ w.closedSockets ∨ w.Closing id

/-- At the start there is nothing to own. -/
theorem owned_boot (r : Relay) (now : ℤ) : Owned r (fun _ => .unborn) (boot now) := by
  have hpos := r.maxSessions_pos
  refine ⟨⟨by simp [boot], by simp [boot], by simp, fun _ => rfl, ?_⟩, by simp [boot], by simp [boot],
    by simp [boot], ?_, by simp, by simp⟩
  · simp only [boot, GoMap.len]
    exact le_of_lt hpos
  · intro i g hg
    obtain rfl : g = .waiting := List.mem_singleton.mp (List.mem_of_getElem? hg)
    exact ⟨by simp [Goroutine.refs], by simp [Goroutine.doomed], by simp⟩

/-! ## A goroutine moves on -/

/-- **What a step has to show.** One goroutine runs, the one at `i`. Sessions
may change hands; those of the other goroutines do not, nor does one come
back that has gone. What the goroutine and those it starts now hold is
accounted for, and nothing that is to be closed is forgotten. -/
theorem Owned.change (h : Owned r owner w) (i : ℕ) {owner' : ℕ → Owner} {w' : World}
    (htable : TableOwned r owner' w'.shared)
    (hunborn : ∀ id, owner' id = .unborn ↔ w'.made ≤ id)
    (hflagged : ∀ id ∈ w'.closedSessions, owner' id = .gone)
    (hshut : ∀ id ∈ w'.closedSockets, owner' id = .gone)
    (hmono : ∀ id ∈ w.closedSockets, id ∈ w'.closedSockets)
    (hgone : ∀ id, owner id = .gone → owner' id = .gone)
    (hheld : ∀ sess, w.shared.holds sess = true →
      owner' sess.id = .gone ∨ w'.shared.holds sess = true)
    (hcall : ∀ id j, owner id = .call j → j ≠ i → owner' id = .call j)
    (hkeep : ∀ j x, j ≠ i → w.goroutines[j]? = some x → w'.goroutines[j]? = some x)
    (hstands : ∀ j x, w'.goroutines[j]? = some x →
      (j ≠ i ∧ w.goroutines[j]? = some x) ∨ Stands owner' w'.shared j x)
    (hmade : ∀ id j, owner' id = .call j → (owner id = .call j ∧ j ≠ i) ∨ w'.Making j id)
    (hnew : ∀ id, owner' id = .gone → owner id = .gone ∨ id ∈ w'.closedSockets ∨ w'.Closing id)
    (hforget : ∀ g id, w.goroutines[i]? = some g → id ∈ g.doomed →
      id ∈ w'.closedSockets ∨ w'.Closing id) : Owned r owner' w' where
  table := htable
  unborn := hunborn
  flagged := hflagged
  shut := hshut
  stands := by
    intro j x hj
    rcases hstands j x hj with ⟨hne, hold⟩ | hx
    · have hst := h.stands hold
      refine ⟨fun sess hs => ?_, fun id hid => hgone id (hst.doomed id hid), fun hx => ?_⟩
      · rcases hst.refs sess hs with hg | hheld'
        · exact .inl (hgone _ hg)
        · exact hheld sess hheld'
      · exact hcall _ j (hst.making hx) hne
    · exact hx
  made_by := by
    intro id j hid
    rcases hmade id j hid with ⟨hold, hne⟩ | hmaking
    · obtain ⟨payload, sess, hj, hsess⟩ := h.made_by hold
      exact ⟨payload, sess, hkeep j _ hne hj, hsess⟩
    · exact hmaking
  closing := by
    intro id hid
    rcases hnew id hid with hold | hnow
    · rcases h.closing hold with hin | ⟨j, x, hj, hx⟩
      · exact .inl (hmono id hin)
      · by_cases hji : j = i
        · subst hji
          exact hforget x id hj hx
        · exact .inr ⟨j, x, hkeep j x hji hj, hx⟩
    · exact hnow

/-- A goroutine that makes no session goes on without touching the table, and
no session changes hands. -/
theorem Owned.move (h : Owned r owner w) {i : ℕ} {g g' : Goroutine} {w' : World}
    (hg : w.goroutines[i]? = some g) (hset : w'.goroutines = w.goroutines.set i g')
    (hshared : w'.shared = w.shared) (hmade : w'.made = w.made)
    (hsessions : ∀ id ∈ w'.closedSessions, id ∈ w.closedSessions ∨ owner id = .gone)
    (hsockets : ∀ id ∈ w'.closedSockets, id ∈ w.closedSockets ∨ owner id = .gone)
    (hmono : ∀ id ∈ w.closedSockets, id ∈ w'.closedSockets)
    (hmakes : g.makes = false) (hstands : Stands owner w.shared i g')
    (hforget : ∀ id ∈ g.doomed, id ∈ g'.doomed ∨ id ∈ w'.closedSockets) : Owned r owner w' := by
  have hi : w'.goroutines[i]? = some g' := by rw [hset, System.getElem?_set_eq hg]
  have hother : ∀ id j, owner id = .call j → j ≠ i := by
    rintro id j hid rfl
    obtain ⟨payload, sess, hj, -⟩ := h.made_by hid
    rw [hg, Option.some.injEq] at hj
    exact ne_inserting hmakes hj
  refine h.change i (hshared ▸ h.table) (by rw [hmade]; exact h.unborn)
    (fun id hid => (hsessions id hid).elim (h.flagged id) fun hgone => hgone)
    (fun id hid => (hsockets id hid).elim (h.shut id) fun hgone => hgone) hmono
    (fun _ hid => hid) (fun sess hs => .inr (hshared ▸ hs)) (fun _ _ hid _ => hid)
    (fun j x hne hj => by rw [hset, List.getElem?_set_ne hne.symm, hj]) ?_
    (fun id j hid => .inl ⟨hid, hother id j hid⟩) (fun _ hid => .inl hid) ?_
  · intro j x hj
    rw [hset] at hj
    rcases System.getElem?_set_cases hj with ⟨rfl, rfl⟩ | hold
    · exact .inr (hshared ▸ hstands)
    · exact .inl hold
  · intro x id hx hid
    rw [hg, Option.some.injEq] at hx
    subst hx
    rcases hforget id hid with hin | hin
    · exact .inr ⟨i, g', hi, hin⟩
    · exact .inl hin

/-- Nor does anything get closed. -/
theorem Owned.goOn (h : Owned r owner w) {i : ℕ} {g g' : Goroutine} {w' : World}
    (hg : w.goroutines[i]? = some g) (hset : w'.goroutines = w.goroutines.set i g')
    (hshared : w'.shared = w.shared) (hmade : w'.made = w.made)
    (hsessions : w'.closedSessions = w.closedSessions)
    (hsockets : w'.closedSockets = w.closedSockets) (hmakes : g.makes = false)
    (hmakes' : g'.makes = false)
    (hrefs : ∀ sess ∈ g'.refs, owner sess.id = .gone ∨ w.shared.holds sess = true)
    (hdoomed : g'.doomed = g.doomed) : Owned r owner w' :=
  h.move hg hset hshared hmade (fun _ hid => .inl (hsessions ▸ hid))
    (fun _ hid => .inl (hsockets ▸ hid)) (fun _ hid => hsockets ▸ hid) hmakes
    ⟨hrefs, fun id hid => (h.stands hg).doomed id (hdoomed ▸ hid),
      fun hx => absurd hx (ne_inserting hmakes')⟩
    fun _ hid => .inl (hdoomed ▸ hid)

/-! ## The sections -/

theorem find_existing {s : Shared} {key : GoString} {sess : Session}
    (h : s.find r key = .existing sess) : s.sessions.lookup key = some sess := by
  unfold Shared.find at h
  split at h
  · cases h
  split at h
  · rename_i found hfound
    cases h
    exact hfound
  · split at h <;> cases h

theorem find_absent {s : Shared} {key : GoString} (h : s.find r key = .absent) :
    s.closed = false ∧ s.sessions.lookup key = none ∧
      (s.sessions.len : ℤ) < r.cfg.maxSessions := by
  unfold Shared.find at h
  split at h
  · cases h
  rename_i hclosed
  split at h
  · cases h
  rename_i hnone
  split at h
  · cases h
  · exact ⟨by simpa using hclosed, hnone, by omega⟩

/-- What is found in the table is held there. -/
theorem TableOwned.holds {s : Shared} (h : TableOwned r owner s) {key : GoString} {sess : Session}
    (hlook : s.sessions.lookup key = some sess) : s.holds sess = true := by
  rw [holds_iff, (h.keyed hlook).1, hlook]

/-- Somebody else's session changes hands. -/
theorem TableOwned.update {s : Shared} (h : TableOwned r owner s) {x : ℕ} {o : Owner}
    (hx : owner x ≠ .table) (ho : o ≠ .table) : TableOwned r (Function.update owner x o) s where
  keyed hlook := by
    obtain ⟨hkey, hown⟩ := h.keyed hlook
    refine ⟨hkey, ?_⟩
    rw [Function.update_of_ne, hown]
    rintro rfl
    exact hx hown
  unique := h.unique
  listed := by
    intro id hid
    have hne : id ≠ x := by
      rintro rfl
      rw [Function.update_self] at hid
      exact ho hid
    rw [Function.update_of_ne hne] at hid
    exact h.listed hid
  empty := h.empty
  bounded := h.bounded

/-- A new session comes in under a free key. -/
theorem TableOwned.insert {s : Shared} (h : TableOwned r owner s) {sess : Session}
    (hnew : owner sess.id ≠ .table) (habsent : s.find r sess.key = .absent) :
    TableOwned r (Function.update owner sess.id .table) (s.insert sess) := by
  obtain ⟨hclosed, hnone, hroom⟩ := find_absent habsent
  have hcases : ∀ {key x}, (s.insert sess).sessions.lookup key = some x →
      s.sessions.lookup key = some x ∨ (key = sess.key ∧ x = sess) :=
    fun hlook => GoMap.lookup_insert_cases hlook
  have hother : ∀ {key x}, s.sessions.lookup key = some x → x.id ≠ sess.id := by
    intro key x hlook heq
    exact hnew (heq ▸ (h.keyed hlook).2)
  constructor
  · intro key x hlook
    rcases hcases hlook with hold | ⟨rfl, rfl⟩
    · refine ⟨(h.keyed hold).1, ?_⟩
      rw [Function.update_of_ne (hother hold), (h.keyed hold).2]
    · exact ⟨rfl, Function.update_self _ _ _⟩
  · intro key key' x x' hlook hlook' heq
    rcases hcases hlook with hold | ⟨rfl, rfl⟩ <;> rcases hcases hlook' with hold' | ⟨rfl, rfl⟩
    · exact h.unique hold hold' heq
    · exact absurd heq (hother hold)
    · exact absurd heq.symm (hother hold')
    · rfl
  · intro id hid
    by_cases heq : id = sess.id
    · exact ⟨sess.key, sess, AList.lookup_insert _, heq.symm⟩
    · rw [Function.update_of_ne heq] at hid
      obtain ⟨key, x, hlook, hx⟩ := h.listed hid
      have hne : key ≠ sess.key := by
        rintro rfl
        rw [hnone] at hlook
        cases hlook
      exact ⟨key, x, (AList.lookup_insert_ne hne).trans hlook, hx⟩
  · intro hc
    rw [show (s.insert sess).closed = s.closed from rfl, hclosed] at hc
    cases hc
  · have hlen : (s.insert sess).sessions.len = s.sessions.len + 1 :=
      GoMap.len_insert_of_absent sess hnone
    omega

/-- A session leaves the table. -/
theorem TableOwned.erase {s : Shared} (h : TableOwned r owner s) {sess : Session}
    (hholds : s.holds sess = true) :
    TableOwned r (Function.update owner sess.id .gone)
      { s with sessions := s.sessions.erase sess.key } := by
  have hlook := holds_iff.mp hholds
  have hother : ∀ {key x}, (s.sessions.erase sess.key).lookup key = some x →
      s.sessions.lookup key = some x ∧ x.id ≠ sess.id := by
    intro key x hx
    rw [GoMap.lookup_erase] at hx
    split_ifs at hx with hkey
    exact ⟨hx, fun heq => hkey (h.unique hx hlook heq)⟩
  constructor
  · intro key x hx
    obtain ⟨hx, hne⟩ := hother hx
    rw [Function.update_of_ne hne]
    exact h.keyed hx
  · intro key key' x x' hx hx' heq
    exact h.unique (hother hx).1 (hother hx').1 heq
  · intro id hid
    have hne : id ≠ sess.id := by
      rintro rfl
      rw [Function.update_self] at hid
      cases hid
    rw [Function.update_of_ne hne] at hid
    obtain ⟨key, x, hx, rfl⟩ := h.listed hid
    have hkey : key ≠ sess.key := by
      rintro rfl
      rw [hlook, Option.some.injEq] at hx
      exact hne (congrArg Session.id hx.symm)
    exact ⟨key, x, by rw [GoMap.lookup_erase, if_neg hkey, hx], rfl⟩
  · intro hc
    have hempty := h.empty hc
    rw [hempty] at hlook
    cases hlook
  · have hle := GoMap.len_erase_le s.sessions sess.key
    have hbound := h.bounded
    simp only
    omega

end UDPRelay

end McRouter
