import McRouter.UDPRelay.Ownership

/-!
# The session table of the relay

Each piece of each goroutine leaves every session with an owner. So in
every state that is reached, however the goroutines interleave, the table
keeps its promises, and when nothing is under way **the open sockets are
those of the sessions in the table** (`session_table_safe`).
-/

namespace McRouter

namespace UDPRelay

open Strings Net

variable {r : Relay} {owner : ℕ → Owner} {w : World}

/-! ## The steps where a session changes hands -/

/-- **A session changes hands.** The goroutine at `i` gives the session `x`,
which has not gone and is nobody else's, to `o` and goes on, and it may
start other goroutines. -/
theorem Owned.handOver (h : Owned r owner w) {i x : ℕ} {g g' : Goroutine} {o : Owner}
    (started : List Goroutine) {w' : World} (hg : w.goroutines[i]? = some g)
    (hset : w'.goroutines = w.goroutines.set i g' ++ started)
    (hgone : owner x ≠ .gone) (hcall : ∀ j, owner x = .call j → j = i)
    (hmine : ∀ payload sess, g = .inserting payload sess → sess.id = x)
    (htable : TableOwned r (Function.update owner x o) w'.shared)
    (hunborn : ∀ id, Function.update owner x o id = .unborn ↔ w'.made ≤ id)
    (hsessions : ∀ id ∈ w'.closedSessions, id ∈ w.closedSessions ∨ id = x ∧ o = .gone)
    (hsockets : ∀ id ∈ w'.closedSockets, id ∈ w.closedSockets ∨ id = x ∧ o = .gone)
    (hmono : ∀ id ∈ w.closedSockets, id ∈ w'.closedSockets)
    (hheld : ∀ sess, w.shared.holds sess = true →
      Function.update owner x o sess.id = .gone ∨ w'.shared.holds sess = true)
    (hstands : Stands (Function.update owner x o) w'.shared i g')
    (hstarted : ∀ j, ∀ e ∈ started, Stands (Function.update owner x o) w'.shared j e)
    (hmaking : ∀ j, o = .call j → w'.Making j x)
    (hclosing : o = .gone → x ∈ w'.closedSockets ∨ x ∈ g'.doomed)
    (hforget : ∀ id ∈ g.doomed, id ∈ g'.doomed) :
    Owned r (Function.update owner x o) w' := by
  have hlt : i < w.goroutines.length := (List.getElem?_eq_some_iff.mp hg).1
  have hleft : ∀ j, j < w.goroutines.length → w'.goroutines[j]? = (w.goroutines.set i g')[j]? := by
    intro j hj
    rw [hset, List.getElem?_append_left (by simpa using hj)]
  have hi : w'.goroutines[i]? = some g' := by rw [hleft i hlt, System.getElem?_set_eq hg]
  have hkept : ∀ {id}, owner id = .gone → Function.update owner x o id = .gone := by
    intro id hid
    rw [Function.update_of_ne, hid]
    rintro rfl
    exact hgone hid
  refine h.change i htable hunborn ?_ ?_ hmono (fun id hid => hkept hid) hheld ?_ ?_ ?_ ?_ ?_ ?_
  · intro id hid
    rcases hsessions id hid with hid | ⟨rfl, ho⟩
    · exact hkept (h.flagged id hid)
    · rw [Function.update_self, ho]
  · intro id hid
    rcases hsockets id hid with hid | ⟨rfl, ho⟩
    · exact hkept (h.shut id hid)
    · rw [Function.update_self, ho]
  · intro id j hid hne
    rw [Function.update_of_ne, hid]
    rintro rfl
    exact hne (hcall j hid)
  · intro j y hne hj
    rw [hleft j (List.getElem?_eq_some_iff.mp hj).1, List.getElem?_set_ne hne.symm, hj]
  · intro j y hj
    by_cases hjlt : j < w.goroutines.length
    · rw [hleft j hjlt] at hj
      rcases System.getElem?_set_cases hj with ⟨rfl, rfl⟩ | hold
      · exact .inr hstands
      · exact .inl hold
    · rw [hset, List.getElem?_append_right (by simpa using hjlt)] at hj
      exact .inr (hstarted j y (List.mem_of_getElem? hj))
  · intro id j hid
    by_cases heq : id = x
    · subst heq
      rw [Function.update_self] at hid
      exact .inr (hmaking j hid)
    · rw [Function.update_of_ne heq] at hid
      refine .inl ⟨hid, ?_⟩
      rintro rfl
      obtain ⟨payload, sess, hj, rfl⟩ := h.made_by hid
      rw [hg, Option.some.injEq] at hj
      exact heq (hmine payload sess hj)
  · intro id hid
    by_cases heq : id = x
    · subst heq
      rw [Function.update_self] at hid
      rcases hclosing hid with hin | hin
      · exact .inr (.inl hin)
      · exact .inr (.inr ⟨i, g', hi, hin⟩)
    · rw [Function.update_of_ne heq] at hid
      exact .inl hid
  · intro y id hy hid
    rw [hg, Option.some.injEq] at hy
    subst hy
    exact .inr ⟨i, g', hi, hforget id hid⟩

/-- The next session gets an owner. -/
theorem Owned.unborn_update (h : Owned r owner w) {o : Owner} (ho : o ≠ .unborn) (id : ℕ) :
    Function.update owner w.made o id = .unborn ↔ w.made + 1 ≤ id := by
  by_cases heq : id = w.made
  · subst heq
    rw [Function.update_self]
    exact ⟨fun hu => absurd hu ho, fun hle => by omega⟩
  · rw [Function.update_of_ne heq, h.unborn id]
    omega

/-- A session that has an owner gets another. -/
theorem Owned.unborn_of_born (h : Owned r owner w) {x : ℕ} {o : Owner} (hx : owner x ≠ .unborn)
    (ho : o ≠ .unborn) (id : ℕ) : Function.update owner x o id = .unborn ↔ w.made ≤ id := by
  rw [← h.unborn id]
  by_cases heq : id = x
  · subst heq
    rw [Function.update_self]
    exact ⟨fun hu => absurd hu ho, fun hu => absurd hu hx⟩
  · rw [Function.update_of_ne heq]

/-- **The dial** makes a session that belongs to the call, or a socket that
is closed at once. -/
theorem Owned.dial (h : Owned r owner w) {i : ℕ} {clientAddr backendAddr : UDPAddr}
    {payload : GoString} (hg : w.goroutines[i]? = some (.dialing clientAddr payload backendAddr))
    (d : Dial) : ∃ owner', Owned r owner' (w.dial i clientAddr payload backendAddr d) := by
  have hunborn : owner w.made = .unborn := (h.unborn w.made).mpr le_rfl
  cases d with
  | failed =>
    exact ⟨owner, h.goOn hg rfl rfl rfl rfl rfl rfl
      rfl (by simp [Goroutine.refs]) rfl⟩
  | other =>
    refine ⟨Function.update owner w.made .gone, h.handOver [] hg
      (List.append_nil _).symm (by simp [hunborn]) (by simp [hunborn]) (by simp)
      (h.table.update (by simp [hunborn]) (by simp)) (h.unborn_update (by simp))
      (fun id hid => .inl hid) ?_ (fun id hid => List.mem_cons_of_mem _ hid)
      (fun sess hs => .inr hs) ?_ (by simp) (by simp) (fun _ => .inl List.mem_cons_self)
      (by simp [Goroutine.doomed])⟩
    · intro id hid
      rcases List.mem_cons.mp hid with rfl | hid
      · exact .inr ⟨rfl, rfl⟩
      · exact .inl hid
    · exact ⟨by simp [Goroutine.refs], by simp [Goroutine.doomed], by simp⟩
  | udp =>
    refine ⟨Function.update owner w.made (.call i), h.handOver [] hg
      (List.append_nil _).symm (by simp [hunborn]) (by simp [hunborn]) (by simp)
      (h.table.update (by simp [hunborn]) (by simp)) (h.unborn_update (by simp))
      (fun id hid => .inl hid) (fun id hid => .inl hid) (fun id hid => hid)
      (fun sess hs => .inr hs) ⟨by simp [Goroutine.refs], by simp [Goroutine.doomed], ?_⟩ (by simp) ?_
      (by simp) (by simp [Goroutine.doomed])⟩
    · intro payload' sess hx
      cases hx
      exact Function.update_self _ _ _
    · intro j hj
      cases hj
      exact ⟨payload, _, System.getElem?_set_eq hg, rfl⟩

/-- A session that is not needed is closed at once. -/
theorem Owned.discard (h : Owned r owner w) {i : ℕ} {payload : GoString} {sess : Session}
    {g' : Goroutine} (hg : w.goroutines[i]? = some (.inserting payload sess))
    (hmakes : g'.makes = false)
    (hrefs : ∀ seen ∈ g'.refs, w.shared.holds seen = true) (hdoomed : g'.doomed = []) :
    ∃ owner', Owned r owner' ((w.discard sess).set i g') := by
  have hown : owner sess.id = .call i := (h.stands hg).making rfl
  refine ⟨Function.update owner sess.id .gone, h.handOver [] hg (List.append_nil _).symm
    (by simp [hown]) ?_ ?_ (h.table.update (by simp [hown]) (by simp))
    (h.unborn_of_born (by simp [hown]) (by simp)) ?_ ?_ (fun id hid => List.mem_cons_of_mem _ hid)
    (fun seen hs => .inr hs) ⟨fun seen hs => .inr (hrefs seen hs), by simp [hdoomed], ?_⟩ (by simp)
    (by simp) (fun _ => .inl List.mem_cons_self) (by simp [Goroutine.doomed])⟩
  · intro j hj
    rw [hown] at hj
    cases hj
    rfl
  · intro payload' sess' hx
    cases hx
    rfl
  · intro id hid
    rcases List.mem_cons.mp hid with rfl | hid
    · exact .inr ⟨rfl, rfl⟩
    · exact .inl hid
  · intro id hid
    rcases List.mem_cons.mp hid with rfl | hid
    · exact .inr ⟨rfl, rfl⟩
    · exact .inl hid
  · intro payload' sess' hx
    exact absurd hx (ne_inserting hmakes)

/-- **The last section of `sessionForClient`**: the session goes to the
table, or it is closed. -/
theorem Owned.insert (h : Owned r owner w) {i : ℕ} {payload : GoString} {sess : Session}
    (hg : w.goroutines[i]? = some (.inserting payload sess)) :
    ∃ owner', Owned r owner' (w.insert r i payload sess) := by
  have hown : owner sess.id = .call i := (h.stands hg).making rfl
  unfold World.insert
  split
  · exact h.discard hg rfl (by simp [Goroutine.refs]) rfl
  · rename_i existing hfound
    refine h.discard hg rfl ?_ rfl
    intro seen hseen
    rw [List.mem_singleton.mp hseen]
    exact h.table.holds (find_existing hfound)
  · exact h.discard hg rfl (by simp [Goroutine.refs]) rfl
  · rename_i habsent
    have hnone := (find_absent habsent).2.1
    have hself : (w.shared.insert sess).holds sess = true :=
      holds_iff.mpr (AList.lookup_insert _)
    have hseen : ∀ g : Goroutine, g.refs = [sess] → g.doomed = [] → g.makes = false → ∀ j,
        Stands (Function.update owner sess.id .table) (w.shared.insert sess) j g := by
      intro g hrefs hdoomed hmakes j
      refine ⟨fun seen hs => .inr ?_, by simp [hdoomed], fun hx => absurd hx (ne_inserting hmakes)⟩
      rw [hrefs, List.mem_singleton] at hs
      rw [hs]
      exact hself
    refine ⟨Function.update owner sess.id .table, h.handOver [.reading sess] hg rfl (by simp [hown]) ?_ ?_
      (h.table.insert (by simp [hown]) habsent) (h.unborn_of_born (by simp [hown]) (by simp))
      (fun id hid => .inl hid) (fun id hid => .inl hid) (fun id hid => hid) ?_
      (hseen _ rfl rfl rfl i) ?_ (by simp) (by simp)
      (by simp [Goroutine.doomed])⟩
    · intro j hj
      rw [hown] at hj
      cases hj
      rfl
    · intro payload' sess' hx
      cases hx
      rfl
    · -- the key was free, so the others stay where they are
      intro other hother
      refine .inr (holds_iff.mpr ?_)
      have hlook := holds_iff.mp hother
      have hne : other.key ≠ sess.key := by
        intro heq
        rw [heq, hnone] at hlook
        cases hlook
      exact (AList.lookup_insert_ne hne).trans hlook
    · intro j e he
      rw [List.mem_singleton.mp he]
      exact hseen _ rfl rfl rfl j

/-- **The section of `closeSession`**: the session leaves the table, or has
gone before. -/
theorem Owned.remove (h : Owned r owner w) {i : ℕ} {sess : Session} {reason : CloseReason}
    {rest : Rest} (hg : w.goroutines[i]? = some (.removing sess reason rest))
    (reason' : Option CloseReason) :
    ∃ owner', Owned r owner'
      { w.set i (.once sess reason' rest) with shared := w.shared.remove sess } := by
  have hst := h.stands hg
  by_cases hholds : w.shared.holds sess = true
  · have hown : owner sess.id = .table := (h.table.keyed (holds_iff.mp hholds)).2
    have hshared : w.shared.remove sess =
        { w.shared with sessions := w.shared.sessions.erase sess.key } := if_pos hholds
    -- a session that was seen in the table has gone now or is another one
    have hstill : ∀ seen, w.shared.holds seen = true →
        Function.update owner sess.id .gone seen.id = .gone ∨
          (w.shared.remove sess).holds seen = true := by
      intro seen hseen
      by_cases heq : seen.id = sess.id
      · rw [heq, Function.update_self]
        exact .inl rfl
      · refine .inr (holds_iff.mpr ?_)
        have hne : seen.key ≠ sess.key := by
          intro hkey
          have hlook := holds_iff.mp hseen
          rw [hkey, holds_iff.mp hholds, Option.some.injEq] at hlook
          exact heq (congrArg Session.id hlook.symm)
        rw [hshared, GoMap.lookup_erase, if_neg hne, holds_iff.mp hseen]
    have hkept : ∀ {id}, owner id = .gone → Function.update owner sess.id .gone id = .gone := by
      intro id hid
      by_cases heq : id = sess.id
      · rw [heq, Function.update_self]
      · rw [Function.update_of_ne heq, hid]
    refine ⟨Function.update owner sess.id .gone, h.handOver [] hg
      (List.append_nil _).symm (by simp [hown]) (by simp [hown]) (by simp)
      (hshared ▸ h.table.erase hholds) (h.unborn_of_born (by simp [hown]) (by simp))
      (fun id hid => .inl hid) (fun id hid => .inl hid) (fun id hid => hid) hstill ?_ (by simp) (by simp)
      (fun _ => .inr List.mem_cons_self) (fun id hid => List.mem_cons_of_mem _ hid)⟩
    refine ⟨fun seen hs => ?_, fun id hid => ?_, by simp⟩
    · rcases hst.refs seen (List.mem_cons_of_mem _ hs) with hgone | hseen
      · exact .inl (hkept hgone)
      · exact hstill seen hseen
    · rcases List.mem_cons.mp hid with rfl | hid
      · exact Function.update_self _ _ _
      · exact hkept (hst.doomed id hid)
  · have hgone : owner sess.id = .gone := (hst.refs sess List.mem_cons_self).resolve_right hholds
    have hshared : w.shared.remove sess = w.shared := if_neg hholds
    refine ⟨owner, h.move hg rfl hshared rfl (fun id hid => .inl hid) (fun id hid => .inl hid)
      (fun id hid => hid) rfl ⟨?_, ?_, by simp⟩
      fun id hid => .inl (List.mem_cons_of_mem _ hid)⟩
    · exact fun seen hs => hst.refs seen (List.mem_cons_of_mem _ hs)
    · intro id hid
      rcases List.mem_cons.mp hid with rfl | hid
      · exact hgone
      · exact hst.doomed id hid

/-- **A goroutine starts.** Sessions may change hands, except those that
others made. -/
theorem Owned.start (h : Owned r owner w) {owner' : ℕ → Owner} {g : Goroutine} {w' : World}
    (hset : w'.goroutines = w.goroutines ++ [g]) (hmade : w'.made = w.made)
    (hsessions : w'.closedSessions = w.closedSessions)
    (hsockets : w'.closedSockets = w.closedSockets) (htable : TableOwned r owner' w'.shared)
    (hunborn : ∀ id, owner' id = .unborn ↔ owner id = .unborn)
    (hgone : ∀ id, owner id = .gone → owner' id = .gone)
    (hheld : ∀ sess, w.shared.holds sess = true →
      owner' sess.id = .gone ∨ w'.shared.holds sess = true)
    (hcall : ∀ id j, owner' id = .call j ↔ owner id = .call j)
    (hstands : ∀ j, Stands owner' w'.shared j g)
    (hnew : ∀ id, owner' id = .gone → owner id = .gone ∨ id ∈ g.doomed) : Owned r owner' w' := by
  have hnext : w'.goroutines[w.goroutines.length]? = some g := by simp [hset]
  refine h.change w.goroutines.length htable ?_ ?_ ?_ (fun id hid => hsockets ▸ hid) hgone hheld
    (fun id j hid _ => (hcall id j).mpr hid) ?_ ?_ ?_ ?_ ?_
  · intro id
    rw [hunborn, hmade, h.unborn]
  · exact fun id hid => hgone id (h.flagged id (hsessions ▸ hid))
  · exact fun id hid => hgone id (h.shut id (hsockets ▸ hid))
  · intro j x _ hj
    rw [hset, List.getElem?_append_left (List.getElem?_eq_some_iff.mp hj).1, hj]
  · intro j x hj
    rw [hset] at hj
    rcases System.getElem?_concat_cases hj with hold | ⟨rfl, rfl⟩
    · exact .inl ⟨Nat.ne_of_lt (List.getElem?_eq_some_iff.mp hold).1, hold⟩
    · exact .inr (hstands _)
  · intro id j hid
    have hold := (hcall id j).mp hid
    obtain ⟨_, _, hj, -⟩ := h.made_by hold
    exact .inl ⟨hold, Nat.ne_of_lt (List.getElem?_eq_some_iff.mp hj).1⟩
  · intro id hid
    rcases hnew id hid with hold | hin
    · exact .inl hold
    · exact .inr (.inr ⟨_, g, hnext, hin⟩)
  · intro x id hx _
    rw [List.getElem?_eq_none le_rfl] at hx
    cases hx

/-- **The section of `Close`** takes every session out and has them closed. -/
theorem Owned.close (h : Owned r owner w) {w' : World} (hclose : w.close = some w') :
    ∃ owner', Owned r owner' w' := by
  unfold World.close at hclose
  split at hclose
  · cases hclose
  cases hclose
  let owner' : ℕ → Owner := fun id => if owner id = .table then .gone else owner id
  have htable : ∀ {id}, owner id = .table → owner' id = .gone := fun hid => if_pos hid
  have hother : ∀ {id}, owner id ≠ .table → owner' id = owner id := fun hid => if_neg hid
  have hsame : ∀ {id o}, o ≠ .gone → o ≠ .table → (owner' id = o ↔ owner id = o) := by
    intro id o hgone hne
    by_cases heq : owner id = .table
    · rw [htable heq, heq]
      exact ⟨fun hid => absurd hid.symm hgone, fun hid => absurd hid.symm hne⟩
    · rw [hother heq]
  refine ⟨owner', h.start rfl rfl rfl rfl ⟨by simp, by simp, ?_, fun _ => rfl, ?_⟩
    (fun id => hsame (by simp) (by simp)) ?_
    (fun sess hs => .inl (htable (h.table.keyed (holds_iff.mp hs)).2))
    (fun id j => hsame (by simp) (by simp)) ?_ ?_⟩
  · intro id hid
    by_cases heq : owner id = .table
    · rw [htable heq] at hid
      cases hid
    · exact absurd (hother heq ▸ hid) heq
  · have hpos := r.maxSessions_pos
    simp only [GoMap.len]
    exact le_of_lt hpos
  · intro id hid
    rw [hother (by simp [hid]), hid]
  · intro j
    refine ⟨by simp [Goroutine.refs], fun id hid => ?_, by simp⟩
    obtain ⟨sess, hs, rfl⟩ := List.mem_map.mp hid
    obtain ⟨key, hlook⟩ := GoMap.mem_values.mp hs
    exact htable (h.table.keyed hlook).2
  · intro id hid
    by_cases heq : owner id = .table
    · obtain ⟨key, sess, hlook, rfl⟩ := h.table.listed heq
      exact .inr (List.mem_map.mpr ⟨sess, GoMap.mem_values.mpr ⟨key, hlook⟩, rfl⟩)
    · rw [hother heq] at hid
      exact .inl hid

/-- A call starts with nothing. -/
theorem Owned.call (h : Owned r owner w) (clientAddr : UDPAddr) (payload : GoString) :
    Owned r owner { w with goroutines := w.goroutines ++ [.finding clientAddr payload] } :=
  h.start rfl rfl rfl rfl h.table (fun _ => Iff.rfl) (fun _ hid => hid) (fun _ hs => .inr hs)
    (fun _ _ => Iff.rfl) (fun _ => ⟨by simp [Goroutine.refs], by simp [Goroutine.doomed], by simp⟩)
    fun _ hid => .inl hid

/-! ## Every step -/

/-- **Closing a session** once, and what its goroutine goes on with. -/
theorem Owned.enterOnce (h : Owned r owner w) {i : ℕ} {sess : Session}
    {reason : Option CloseReason} {rest : Rest} {w' : World}
    (hg : w.goroutines[i]? = some (.once sess reason rest))
    (hw : w.enterOnce i sess reason rest = some w') : Owned r owner w' := by
  have hst := h.stands hg
  have hmakes : (Goroutine.once sess reason rest).makes = false := rfl
  unfold World.enterOnce at hw
  split at hw
  · split at hw
    · -- the first caller is through
      rename_i hclosed
      cases hw
      refine h.move hg rfl rfl rfl (fun id hid => .inl hid) (fun id hid => .inl hid)
        (fun id hid => hid) hmakes ⟨?_, ?_, fun hx => absurd hx (ne_inserting (makes_goroutine rest))⟩ ?_
      · rw [refs_goroutine]
        exact hst.refs
      · rw [doomed_goroutine]
        exact fun id hid => hst.doomed id (List.mem_cons_of_mem _ hid)
      · intro id hid
        rw [doomed_goroutine]
        rcases List.mem_cons.mp hid with rfl | hid
        · exact .inr hclosed
        · exact .inl hid
    · cases hw
  · cases hw
    refine h.move hg rfl rfl rfl ?_ (fun id hid => .inl hid) (fun id hid => hid) hmakes
      ⟨hst.refs, hst.doomed, by simp⟩ (fun id hid => .inl hid)
    intro id hid
    rcases List.mem_cons.mp hid with rfl | hid
    · exact .inr (hst.doomed _ List.mem_cons_self)
    · exact .inl hid

/-- The socket is closed. -/
theorem Owned.closeSocket (h : Owned r owner w) {i : ℕ} {sess : Session}
    {reason : Option CloseReason} {rest : Rest} {w' : World}
    (hg : w.goroutines[i]? = some (.socket sess reason rest))
    (hset : w'.goroutines = w.goroutines.set i rest.goroutine) (hshared : w'.shared = w.shared)
    (hmade : w'.made = w.made) (hsessions : w'.closedSessions = w.closedSessions)
    (hsockets : w'.closedSockets = sess.id :: w.closedSockets) : Owned r owner w' := by
  have hst := h.stands hg
  refine h.move hg hset hshared hmade (fun id hid => .inl (hsessions ▸ hid)) ?_ ?_
    rfl
    ⟨?_, ?_, fun hx => absurd hx (ne_inserting (makes_goroutine rest))⟩ ?_
  · intro id hid
    rw [hsockets] at hid
    rcases List.mem_cons.mp hid with rfl | hid
    · exact .inr (hst.doomed _ List.mem_cons_self)
    · exact .inl hid
  · intro id hid
    rw [hsockets]
    exact List.mem_cons_of_mem _ hid
  · rw [refs_goroutine]
    exact hst.refs
  · rw [doomed_goroutine]
    exact fun id hid => hst.doomed id (List.mem_cons_of_mem _ hid)
  · intro id hid
    rw [doomed_goroutine, hsockets]
    rcases List.mem_cons.mp hid with rfl | hid
    · exact .inr List.mem_cons_self
    · exact .inl hid

/-- Most pieces go on with sessions the goroutine has seen, or sees in the table. -/
theorem Owned.goOn_seen (h : Owned r owner w) {i : ℕ} {g g' : Goroutine} {w' : World}
    (hg : w.goroutines[i]? = some g) (hset : w'.goroutines = w.goroutines.set i g')
    (hshared : w'.shared = w.shared) (hmade : w'.made = w.made)
    (hsessions : w'.closedSessions = w.closedSessions)
    (hsockets : w'.closedSockets = w.closedSockets) (hmakes : g.makes = false)
    (hmakes' : g'.makes = false)
    (hrefs : ∀ sess ∈ g'.refs, sess ∈ g.refs ∨ w.shared.holds sess = true)
    (hdoomed : g'.doomed = g.doomed) : ∃ owner', Owned r owner' w' := by
  refine ⟨owner, h.goOn hg hset hshared hmade hsessions hsockets hmakes hmakes' ?_ hdoomed⟩
  intro sess hs
  rcases hrefs sess hs with hs | hs
  · exact (h.stands hg).refs sess hs
  · exact .inr hs

/-- A read from the backend. -/
theorem Owned.read (h : Owned r owner w) {i : ℕ} {sess : Session} {data : Option GoString} {w' : World}
    (hg : w.goroutines[i]? = some (.reading sess)) (hw : w.read r i sess data = some w') :
    ∃ owner', Owned r owner' w' := by
  unfold World.read at hw
  split at hw
  · split at hw
    · cases hw
      exact h.goOn_seen hg rfl rfl rfl rfl rfl rfl rfl (by simp [Goroutine.refs]) rfl
    · cases hw
      exact h.goOn_seen hg rfl rfl rfl rfl rfl rfl rfl (by simp [Goroutine.refs, Rest.refs]) rfl
  · split at hw
    · cases hw
    split at hw
    · -- a datagram that is too large is dropped
      cases hw
      exact ⟨owner, h⟩
    · cases hw
      exact h.goOn_seen hg rfl rfl rfl rfl rfl rfl rfl (by simp [Goroutine.refs]) rfl

/-- A reply to the client. -/
theorem Owned.reply (h : Owned r owner w) {i : ℕ} {sess : Session} {payload : GoString}
    (hg : w.goroutines[i]? = some (.replying sess payload)) (fails : Bool) :
    ∃ owner', Owned r owner' (w.reply i sess fails) := by
  unfold World.reply
  split
  · split
    · exact h.goOn_seen hg rfl rfl rfl rfl rfl rfl rfl (by simp [Goroutine.refs]) rfl
    · exact h.goOn_seen hg rfl rfl rfl rfl rfl rfl rfl (by simp [Goroutine.refs, Rest.refs]) rfl
  · exact h.goOn_seen hg rfl rfl rfl rfl rfl rfl rfl (by simp [Goroutine.refs]) rfl

/-- **Every piece of every goroutine** leaves each session with an owner. -/
theorem Owned.advance (h : Owned r owner w) {i : ℕ} {g : Goroutine} {o : Outside} {w' : World}
    (hg : w.goroutines[i]? = some g) (hw : w.advance r i o g = some w') :
    ∃ owner', Owned r owner' w' := by
  cases g with
  | finding clientAddr payload =>
    cases hw
    refine h.goOn_seen hg rfl rfl rfl rfl rfl rfl ?_ ?_ ?_
    · split <;> rfl
    · split
      · simp [Goroutine.refs]
      · rename_i sess hfound
        intro seen hs
        rw [List.mem_singleton.mp hs]
        exact .inr (h.table.holds (find_existing hfound))
      · simp [Goroutine.refs]
      · simp [Goroutine.refs]
    · split <;> rfl
  | resolving clientAddr payload =>
    cases hw
    refine h.goOn_seen hg rfl rfl rfl rfl rfl rfl ?_ ?_ ?_
    · split <;> rfl
    · split <;> simp [Goroutine.refs]
    · split <;> rfl
  | dialing clientAddr payload backendAddr =>
    cases hw
    exact h.dial hg o.dialled
  | inserting payload sess =>
    cases hw
    exact h.insert hg
  | writing payload sess =>
    cases hw
    refine h.goOn_seen hg rfl rfl rfl rfl rfl rfl ?_ ?_ ?_
    · split <;> rfl
    · split <;> simp [Goroutine.refs, Rest.refs]
    · split <;> rfl
  | reading sess =>
    exact h.read hg hw
  | checking sess payload =>
    cases hw
    refine h.goOn_seen hg rfl rfl rfl rfl rfl rfl ?_ ?_ ?_
    · split <;> rfl
    · split <;> simp [Goroutine.refs]
    · split <;> rfl
  | replying sess payload =>
    cases hw
    exact h.reply hg _
  | waiting =>
    cases hw
    exact h.goOn_seen hg rfl rfl rfl rfl rfl rfl rfl (by simp [Goroutine.refs]) rfl
  | ticked now =>
    cases hw
    refine h.goOn_seen hg rfl rfl rfl rfl rfl rfl rfl ?_ rfl
    intro sess hs
    obtain ⟨key, hlook⟩ := GoMap.mem_values.mp hs
    exact .inr (h.table.holds hlook)
  | sweeping now sessions =>
    cases sessions with
    | nil =>
      cases hw
      exact h.goOn_seen hg rfl rfl rfl rfl rfl rfl rfl (by simp [Goroutine.refs]) rfl
    | cons sess sessions =>
      cases hw
      refine h.goOn_seen hg rfl rfl rfl rfl rfl rfl ?_ ?_ ?_
      · split <;> rfl
      · split
        · exact fun seen hs => .inl hs
        · exact fun seen hs => .inl (List.mem_cons_of_mem _ hs)
      · split <;> rfl
  | stopping sessions =>
    cases hw
    exact h.goOn_seen hg rfl rfl rfl rfl rfl rfl rfl (by simp [Goroutine.refs]) rfl
  | shutting sessions =>
    cases sessions with
    | nil =>
      cases hw
      exact h.goOn_seen hg rfl rfl rfl rfl rfl rfl rfl (by simp [Goroutine.refs]) rfl
    | cons sess sessions =>
      cases hw
      exact h.goOn_seen hg rfl rfl rfl rfl rfl rfl rfl (by simp [Goroutine.refs, Rest.refs]) rfl
  | removing sess reason rest =>
    cases hw
    exact h.remove hg _
  | once sess reason rest => exact ⟨owner, h.enterOnce hg hw⟩
  | socket sess reason rest =>
    cases hw
    exact ⟨owner, h.closeSocket hg rfl rfl rfl rfl rfl⟩
  | done => cases hw

/-- **What one step keeps.** -/
theorem step_owned {w' : World} {a : Action} (h : ∃ owner, Owned r owner w)
    (hstep : step r w a = some w') : ∃ owner', Owned r owner' w' := by
  obtain ⟨owner, h⟩ := h
  cases a with
  | call clientAddr payload =>
    cases hstep
    exact ⟨owner, h.call clientAddr payload⟩
  | close => exact h.close hstep
  | clock now =>
    cases hstep
    exact ⟨owner, h.table, h.unborn, h.flagged, h.shut, h.stands, h.made_by, h.closing⟩
  | run i o =>
    obtain ⟨g, hg, hw⟩ := Option.bind_eq_some_iff.mp hstep
    exact h.advance hg hw

/-- **Every socket has an owner in every state that is reached.** -/
theorem run_owned {as : List Action} {now : ℤ} {w' : World}
    (hrun : System.run (step r) (boot now) as = some w') : ∃ owner, Owned r owner w' :=
  System.run_invariant_of_step (I := fun w => ∃ owner, Owned r owner w)
    (fun _ _ _ h hstep => step_owned h hstep) ⟨_, owned_boot r now⟩ hrun

/-! ## Closed stays closed -/

theorem remove_closed (s : Shared) (sess : Session) : (s.remove sess).closed = s.closed := by
  unfold Shared.remove
  split <;> rfl

theorem insert_closed (r : Relay) (w : World) (i : ℕ) (payload : GoString) (sess : Session) :
    (w.insert r i payload sess).shared.closed = w.shared.closed := by
  unfold World.insert
  split <;> rfl

/-- Only `Close` changes whether the relay is closed. -/
theorem advance_closed {i : ℕ} {g : Goroutine} {o : Outside} {w' : World}
    (hw : w.advance r i o g = some w') : w'.shared.closed = w.shared.closed := by
  cases g with
  | dialing clientAddr payload backendAddr =>
    cases hw
    cases o.dialled <;> rfl
  | inserting payload sess =>
    cases hw
    exact insert_closed r w i payload sess
  | reading sess =>
    change w.read r i sess o.data = some w' at hw
    unfold World.read at hw
    split at hw
    · split at hw <;> cases hw <;> rfl
    · split at hw
      · cases hw
      · split at hw <;> cases hw <;> rfl
  | replying sess payload =>
    cases hw
    unfold World.reply
    split
    · split <;> rfl
    · rfl
  | sweeping now sessions =>
    cases sessions with
    | nil => cases hw; rfl
    | cons sess sessions => cases hw; rfl
  | shutting sessions =>
    cases sessions with
    | nil => cases hw; rfl
    | cons sess sessions => cases hw; rfl
  | removing sess reason rest =>
    cases hw
    exact remove_closed w.shared sess
  | once sess reason rest =>
    change w.enterOnce i sess reason rest = some w' at hw
    unfold World.enterOnce at hw
    split at hw
    · split at hw
      · cases hw; rfl
      · cases hw
    · cases hw; rfl
  | done => cases hw
  | _ => cases hw; rfl

theorem step_closed {w' : World} {a : Action} (hclosed : w.shared.closed = true)
    (hstep : step r w a = some w') : w'.shared.closed = true := by
  cases a with
  | call clientAddr payload =>
    cases hstep
    exact hclosed
  | close =>
    have hnone : w.close = none := if_pos hclosed
    rw [step, hnone] at hstep
    cases hstep
  | clock now =>
    cases hstep
    exact hclosed
  | run i o =>
    obtain ⟨g, -, hw⟩ := Option.bind_eq_some_iff.mp hstep
    rw [advance_closed hw, hclosed]

/-! ## What the relay promises -/

/-- The backend socket is open. -/
def World.Open (w : World) (id : ℕ) : Prop := id < w.made ∧ id ∉ w.closedSockets

/-- The goroutine has come to an end, waits for its ticker or is in `Read`. -/
def Goroutine.AtRest : Goroutine → Prop
  | reading _ => True
  | waiting => True
  | done => True
  | _ => False

/-- Who is at rest has no session of its own and closes none. -/
theorem Goroutine.AtRest.idle {g : Goroutine} (h : g.AtRest) : g.makes = false ∧ g.doomed = [] := by
  cases g <;> first | exact ⟨rfl, rfl⟩ | exact h.elim

/-- **The session table of the relay.** In every state that is reached, by
whatever calls, failures, expiries and `Close`, in whatever order their
pieces run: the table has at most `MaxSessions` sessions; a session stands
under the text of its client's endpoint, and under the text of an endpoint
there is a session of that endpoint only; no session in the table is closed,
nor is its socket; after `Close` the table is and stays empty; and when no
operation is in progress, the open backend sockets are those of the sessions
in the table. -/
theorem session_table_safe (r : Relay) (now : ℤ) (as : List Action) (w : World)
    (hrun : System.run (step r) (boot now) as = some w) :
    (w.shared.sessions.len : ℤ) ≤ r.cfg.maxSessions ∧
    (∀ key sess, w.shared.sessions.lookup key = some sess → key = sess.clientAddr.string) ∧
    (∀ clientAddr sess, w.shared.sessions.lookup clientAddr.string = some sess →
      sess.clientAddr = clientAddr) ∧
    (∀ key sess, w.shared.sessions.lookup key = some sess →
      sess.id ∉ w.closedSessions ∧ w.Open sess.id) ∧
    (∀ bs w₁ w', step r w .close = some w₁ → System.run (step r) w₁ bs = some w' →
      w'.shared.sessions = ∅) ∧
    ((∀ g ∈ w.goroutines, g.AtRest) → ∀ id,
      w.Open id ↔ ∃ key sess, w.shared.sessions.lookup key = some sess ∧ sess.id = id) := by
  obtain ⟨owner, h⟩ := run_owned hrun
  have hkey : ∀ key sess, w.shared.sessions.lookup key = some sess →
      key = sess.clientAddr.string := by
    intro key sess hlook
    rw [← (h.table.keyed hlook).1, sess.key_eq]
  have hopen : ∀ key sess, w.shared.sessions.lookup key = some sess →
      sess.id ∉ w.closedSessions ∧ w.Open sess.id := by
    intro key sess hlook
    have hown := (h.table.keyed hlook).2
    refine ⟨fun hin => ?_, ?_, fun hin => ?_⟩
    · rw [h.flagged _ hin] at hown
      cases hown
    · by_contra hge
      rw [(h.unborn _).mpr (Nat.le_of_not_lt hge)] at hown
      cases hown
    · rw [h.shut _ hin] at hown
      cases hown
  refine ⟨h.table.bounded, hkey, ?_, hopen, ?_, ?_⟩
  · intro clientAddr sess hlook
    exact UDPAddr.string_injective (hkey _ sess hlook).symm
  · intro bs w₁ w' hclose hrun'
    have hclosed : w₁.shared.closed = true := by
      change w.close = some w₁ at hclose
      unfold World.close at hclose
      split at hclose
      · cases hclose
      · cases hclose
        rfl
    obtain ⟨owner', h'⟩ := run_owned (System.run_append hrun (System.run_cons.mpr ⟨w₁, hclose, hrun'⟩))
    exact h'.table.empty (System.run_invariant_of_step
      (fun _ _ _ hc hstep => step_closed hc hstep) hclosed hrun')
  · intro hrest id
    constructor
    · rintro ⟨hlt, hnot⟩
      -- an open socket has an owner, and only the table can be it
      cases hown : owner id with
      | unborn =>
        have hge := (h.unborn id).mp hown
        omega
      | call i =>
        obtain ⟨payload, sess, hi, -⟩ := h.made_by hown
        exact absurd (hrest _ (List.mem_of_getElem? hi)).idle.1 (by simp [Goroutine.makes])
      | table => exact h.table.listed hown
      | gone =>
        rcases h.closing hown with hin | ⟨i, g, hi, hin⟩
        · exact absurd hin hnot
        · rw [(hrest g (List.mem_of_getElem? hi)).idle.2] at hin
          cases hin
    · rintro ⟨key, sess, hlook, rfl⟩
      exact (hopen key sess hlook).2

/-- A relay for two sessions. -/
def smallRelay : Relay := ⟨⟨60000000000, 1000000000, 2, 1500⟩, by decide⟩

/-- The endpoint `10.0.0.n:40000`. -/
def endpoint (n : UInt16) : UDPAddr := ⟨⟨[0, 0, 0, 0, 0, 0xFFFF, 0x0A00, n], rfl⟩, 40000, []⟩

/-- Two datagrams of one client are handled side by side: both calls find
the table empty and dial, and the second comes last. -/
def raceRun : List Action :=
  let resolved : Outside := { resolved := some (endpoint 9) }
  let dialled : Outside := { dialled := .udp }
  [.call (endpoint 1) [1], .call (endpoint 1) [2], .run 1 {}, .run 2 {}, .run 1 resolved,
    .run 2 resolved, .run 2 dialled, .run 1 dialled, .run 1 {}, .run 2 {}, .run 1 {}, .run 2 {}]

/-- The one that lost the race is closed. -/
theorem session_table_safe_race :
    ∃ w, System.run (step smallRelay) (boot 0) raceRun = some w ∧ w.made = 2 ∧
      ∀ id, w.Open id ↔ id = 1 := by
  have hsome : (System.run (step smallRelay) (boot 0) raceRun).isSome = true := by decide +kernel
  obtain ⟨w, hw⟩ := Option.isSome_iff_exists.mp hsome
  let sess := newSession 1 (endpoint 1) (endpoint 9)
  have hend : (System.run (step smallRelay) (boot 0) raceRun).map
      (fun w => (w.goroutines, w.made, w.shared.sessions.entries)) =
      some ([.waiting, .done, .done, .reading sess], 2, [⟨sess.key, sess⟩]) := by decide +kernel
  rw [hw, Option.map_some, Option.some.injEq, Prod.mk.injEq, Prod.mk.injEq] at hend
  obtain ⟨hgs, hmade, hentries⟩ := hend
  have hrest : ∀ g ∈ w.goroutines, g.AtRest := by
    rw [hgs]
    simp [Goroutine.AtRest]
  refine ⟨w, hw, hmade, fun id => ?_⟩
  rw [(session_table_safe smallRelay 0 raceRun w hw).2.2.2.2.2 hrest id]
  constructor
  · rintro ⟨key, found, hlook, rfl⟩
    have hmem := GoMap.mem_entries.mpr hlook
    rw [hentries, List.mem_singleton] at hmem
    cases hmem
    rfl
  · rintro rfl
    have hmem : (⟨sess.key, sess⟩ : Σ _ : GoString, Session) ∈ w.shared.sessions.entries := by
      rw [hentries]
      exact List.mem_singleton.mpr rfl
    exact ⟨sess.key, sess, GoMap.mem_entries.mp hmem, rfl⟩

end UDPRelay

end McRouter
