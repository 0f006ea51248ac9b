import McRouter.UDPRelay.Sessions

/-!
# What the session metrics count

`UDPSessionCreated` counts a session when it comes into the table and
`UDPSessionClosed` when it is closed, by whoever took it out of the table.
Others may close it as well, since they came too late to take it out, and
then do not count it: `closeOnce` lets the first of them in, whoever that
is. **If it is one that does not count, the session is never counted as
closed**, and the gauge of the active sessions keeps it for ever
(`session_uncounted`).

Otherwise the books balance: a session that was counted is in the table, or
is counted again, or somebody owes it (`Accounts`). When nobody is at work
the gauge is the number of sessions in the table (`session_accounting`).
-/

namespace McRouter

namespace UDPRelay

open Strings Net

/-! ## The books -/

/-- The session that the goroutine's next piece counts as created. -/
def Goroutine.creates (r : Relay) (s : Shared) : Goroutine → List ℕ
  | inserting _ sess => if s.find r sess.key = .absent then [sess.id] else []
  | _ => []

/-- The session that the goroutine's next piece counts as closed. -/
def Goroutine.closes : Goroutine → List ℕ
  | socket sess (some _) _ => [sess.id]
  | _ => []

/-- The session that a step counts as created. -/
def createdBy (r : Relay) (w : World) : Action → List ℕ
  | .run i _ => (w.goroutines[i]?).elim [] (Goroutine.creates r w.shared)
  | _ => []

/-- The session that a step counts as closed. -/
def closedBy (w : World) : Action → List ℕ
  | .run i _ => (w.goroutines[i]?).elim [] Goroutine.closes
  | _ => []

/-- The relay with the sessions that its metrics have counted, the newest
first. -/
structure Books where
  world : World
  created : List ℕ := []
  closed : List ℕ := []

/-- A step, entered into the books. -/
def Books.step (r : Relay) (b : Books) (a : Action) : Option Books :=
  (UDPRelay.step r b.world a).map fun w' =>
    ⟨w', createdBy r b.world a ++ b.created, closedBy b.world a ++ b.closed⟩

/-- The gauge `mc_gateway_udp_sessions`. -/
def World.activeSessions (w : World) : ℤ := w.created - w.closedReasons.length

/-- The session that the goroutine is about to close without counting it. -/
def Goroutine.closesUncounted : Goroutine → Option Session
  | once sess none _ => some sess
  | _ => none

/-- Who closes a session without counting it does not come first to
`closeOnce`. -/
def CountedFirst (w : World) : Action → Prop
  | .run i _ => ∀ sess ∈ (w.goroutines[i]?).bind Goroutine.closesUncounted,
      sess.id ∈ w.closedSessions
  | _ => True

instance decidableCountedFirst (w : World) : (a : Action) → Decidable (CountedFirst w a)
  | .run i _ => inferInstanceAs (Decidable (∀ sess ∈
      (w.goroutines[i]?).bind Goroutine.closesUncounted, sess.id ∈ w.closedSessions))
  | .call _ _ | .close | .clock _ => isTrue trivial

/-! ## Who owes what -/

namespace Goroutine

/-- The sessions that the goroutine is going to count, and for which it has
not come to `closeOnce`. -/
def toEnter : Goroutine → List ℕ
  | once _ none rest => rest.doomed
  | socket _ _ rest => rest.doomed
  | g => g.doomed

/-- The sessions that the goroutine is going to count. -/
def owes : Goroutine → List ℕ
  | once _ none rest => rest.doomed
  | socket _ none rest => rest.doomed
  | g => g.doomed

/-- What is counted is closed. -/
theorem owes_doomed {g : Goroutine} {id : ℕ} (h : id ∈ g.owes) : id ∈ g.doomed := by
  unfold owes at h
  split at h
  · exact List.mem_cons_of_mem _ h
  · exact List.mem_cons_of_mem _ h
  · exact h

theorem toEnter_owes {g : Goroutine} {id : ℕ} (h : id ∈ g.toEnter) : id ∈ g.owes := by
  cases g with
  | once sess reason rest =>
    cases reason with
    | none => exact h
    | some reason => exact h
  | socket sess reason rest =>
    cases reason with
    | none => exact h
    | some reason => exact List.mem_cons_of_mem _ h
  | _ => exact h

end Goroutine

@[simp] theorem toEnter_goroutine (rest : Rest) : rest.goroutine.toEnter = rest.doomed := by
  cases rest <;> rfl

@[simp] theorem owes_goroutine (rest : Rest) : rest.goroutine.owes = rest.doomed := by
  cases rest <;> rfl

theorem mem_toEnter_rest {rest : Rest} {id : ℕ} (h : id ∈ rest.goroutine.toEnter) :
    id ∈ rest.doomed := by
  rwa [toEnter_goroutine] at h

/-- How often a session is owed. -/
def World.owed (w : World) (id : ℕ) : ℕ := (w.goroutines.map fun g => g.owes.count id).sum

/-- How often a session is in the table. -/
def World.listed (w : World) (id : ℕ) : ℕ := (w.shared.sessions.values.map Session.id).count id

section Owed

variable {r : Relay} {owner : ℕ → Owner} {w w' : World} {i : ℕ} {g : Goroutine} {id : ℕ}

theorem owed_set (id : ℕ) (hg : w.goroutines[i]? = some g) {g' : Goroutine}
    (hset : w'.goroutines = w.goroutines.set i g') :
    w'.owed id + g.owes.count id = w.owed id + g'.owes.count id := by
  rw [World.owed, hset]
  exact System.sum_set (fun g => g.owes.count id) hg g'

theorem owed_concat {gs : List Goroutine} {g' : Goroutine} :
    ((gs ++ [g']).map fun g => g.owes.count id).sum =
      (gs.map fun g => g.owes.count id).sum + g'.owes.count id := by
  simp

/-- What is owed has gone. -/
theorem Owned.gone_of_owed (h : Owned r owner w) (howed : 0 < w.owed id) : owner id = .gone := by
  obtain ⟨n, hn, hpos⟩ : ∃ n ∈ w.goroutines.map (fun g => g.owes.count id), 0 < n := by
    by_contra hall
    push Not at hall
    have hzero := List.sum_eq_zero fun n hn => Nat.le_zero.mp (hall n hn)
    rw [World.owed, hzero] at howed
    exact Nat.lt_irrefl 0 howed
  obtain ⟨g, hg, rfl⟩ := List.mem_map.mp hn
  obtain ⟨i, hi⟩ := List.getElem?_of_mem hg
  exact (h.stands hi).doomed id (Goroutine.owes_doomed (List.count_pos_iff.mp hpos))

theorem listed_pos : 0 < w.listed id ↔
    ∃ key sess, w.shared.sessions.lookup key = some sess ∧ sess.id = id := by
  rw [World.listed, List.count_pos_iff, List.mem_map]
  constructor
  · rintro ⟨sess, hsess, rfl⟩
    obtain ⟨key, hlook⟩ := GoMap.mem_values.mp hsess
    exact ⟨key, sess, hlook, rfl⟩
  · rintro ⟨key, sess, hlook, rfl⟩
    exact ⟨sess, GoMap.mem_values.mpr ⟨key, hlook⟩, rfl⟩

/-- What is in the table is the table's, and there once. -/
theorem Owned.table_of_listed (h : Owned r owner w) (hlisted : 0 < w.listed id) :
    owner id = .table := by
  obtain ⟨key, sess, hlook, rfl⟩ := listed_pos.mp hlisted
  exact (h.table.keyed hlook).2

end Owed

/-- **The books balance.** A session that was counted is in the table, or
counted again, or owed; it was counted once. Who has not come to `closeOnce`
for a session that is to be counted finds it open. -/
structure Accounts (r : Relay) (b : Books) : Prop where
  owned : ∃ owner, Owned r owner b.world
  balance : ∀ id, b.created.count id = b.world.listed id + b.world.owed id + b.closed.count id
  once : ∀ id, b.created.count id ≤ 1
  unflagged : ∀ {i : ℕ} {g : Goroutine}, b.world.goroutines[i]? = some g →
    ∀ id ∈ g.toEnter, id ∉ b.world.closedSessions
  shut : ∀ id ∈ b.closed, id ∈ b.world.closedSockets
  created : b.created.length = b.world.created
  closed : b.closed.length = b.world.closedReasons.length

/-! ## The pieces that count nothing -/

/-- The goroutine stands before a piece that may count a session, or decides
who does. -/
def Goroutine.counts : Goroutine → Bool
  | inserting _ _ | removing _ _ _ | once _ _ _ | socket _ _ _ => true
  | _ => false

/-- A goroutine moves on, and the table, the flags and the counters stay as
they are. -/
structure Quiet (w w' : World) (i : ℕ) (g g' : Goroutine) : Prop where
  goroutines : w'.goroutines = w.goroutines.set i g'
  sessions : w'.shared.sessions = w.shared.sessions
  flagged : w'.closedSessions = w.closedSessions
  sockets : ∀ id ∈ w.closedSockets, id ∈ w'.closedSockets
  created : w'.created = w.created
  closed : w'.closedReasons = w.closedReasons
  owes : g'.owes = g.owes
  toEnter : g'.toEnter = g.toEnter

section Quiet

variable {r : Relay} {w w' : World} {i : ℕ} {g : Goroutine}

theorem quiet_set {g' : Goroutine} (howes : g'.owes = g.owes) (henter : g'.toEnter = g.toEnter) :
    Quiet w (w.set i g') i g g' :=
  ⟨rfl, rfl, rfl, fun _ hid => hid, rfl, rfl, howes, henter⟩

theorem quiet_touch {sess : Session} {g' : Goroutine} (howes : g'.owes = g.owes)
    (henter : g'.toEnter = g.toEnter) : Quiet w ((w.touch sess).set i g') i g g' :=
  ⟨rfl, rfl, rfl, fun _ hid => hid, rfl, rfl, howes, henter⟩

theorem quiet_dial {clientAddr backendAddr : UDPAddr} {payload : GoString} (dialled : Dial) :
    ∃ g', Quiet w (w.dial i clientAddr payload backendAddr dialled) i
      (.dialing clientAddr payload backendAddr) g' := by
  cases dialled with
  | failed => exact ⟨_, quiet_set rfl rfl⟩
  | other =>
    exact ⟨.done, rfl, rfl, rfl, fun _ hid => List.mem_cons_of_mem _ hid, rfl, rfl, rfl, rfl⟩
  | udp => exact ⟨_, rfl, rfl, rfl, fun _ hid => hid, rfl, rfl, rfl, rfl⟩

theorem quiet_read {sess : Session} {data : Option GoString}
    (hg : w.goroutines[i]? = some (.reading sess)) (hw : w.read r i sess data = some w') :
    ∃ g', Quiet w w' i (.reading sess) g' := by
  unfold World.read at hw
  split at hw
  · split_ifs at hw
    · exact Option.some.inj hw ▸ ⟨_, quiet_set rfl rfl⟩
    · exact Option.some.inj hw ▸ ⟨_, quiet_set rfl rfl⟩
  · split_ifs at hw
    · obtain rfl := Option.some.inj hw
      refine ⟨.reading sess, ?_, rfl, rfl, fun _ hid => hid, rfl, rfl, rfl, rfl⟩
      obtain ⟨hlt, hget⟩ := List.getElem?_eq_some_iff.mp hg
      rw [← hget, List.set_getElem_self]
    · exact Option.some.inj hw ▸ ⟨_, quiet_set rfl rfl⟩

theorem quiet_reply {sess : Session} {payload : GoString} (fails : Bool) :
    ∃ g', Quiet w (w.reply i sess fails) i (.replying sess payload) g' := by
  unfold World.reply
  split_ifs
  · exact ⟨_, quiet_set rfl rfl⟩
  · exact ⟨_, quiet_set rfl rfl⟩
  · exact ⟨_, quiet_touch rfl rfl⟩

/-- **All but four kinds of pieces are quiet.** -/
theorem advance_quiet {o : Outside} (hg : w.goroutines[i]? = some g) (hcounts : g.counts = false)
    (hw : w.advance r i o g = some w') : ∃ g', Quiet w w' i g g' := by
  cases g with
  | finding clientAddr payload =>
    obtain rfl := Option.some.inj hw
    refine ⟨_, quiet_set ?_ ?_⟩
    · split <;> rfl
    · split <;> rfl
  | resolving clientAddr payload =>
    obtain rfl := Option.some.inj hw
    refine ⟨_, quiet_set ?_ ?_⟩
    · split <;> rfl
    · split <;> rfl
  | dialing clientAddr payload backendAddr => exact Option.some.inj hw ▸ quiet_dial o.dialled
  | writing payload sess =>
    obtain rfl := Option.some.inj hw
    refine ⟨_, quiet_touch ?_ ?_⟩
    · split_ifs <;> rfl
    · split_ifs <;> rfl
  | reading sess => exact quiet_read hg hw
  | checking sess payload =>
    obtain rfl := Option.some.inj hw
    refine ⟨_, quiet_set ?_ ?_⟩
    · split_ifs <;> rfl
    · split_ifs <;> rfl
  | replying sess payload => exact Option.some.inj hw ▸ quiet_reply o.fails
  | waiting => exact Option.some.inj hw ▸ ⟨_, quiet_set rfl rfl⟩
  | ticked now => exact Option.some.inj hw ▸ ⟨_, quiet_set rfl rfl⟩
  | sweeping now sessions =>
    cases sessions with
    | nil => exact Option.some.inj hw ▸ ⟨_, quiet_set rfl rfl⟩
    | cons sess sessions =>
      obtain rfl := Option.some.inj hw
      refine ⟨_, quiet_set ?_ ?_⟩
      · split_ifs <;> rfl
      · split_ifs <;> rfl
  | stopping sessions =>
    obtain rfl := Option.some.inj hw
    exact ⟨_, rfl, rfl, rfl, fun _ hid => hid, rfl, rfl, rfl, rfl⟩
  | shutting sessions =>
    cases sessions with
    | nil => exact Option.some.inj hw ▸ ⟨_, quiet_set rfl rfl⟩
    | cons sess sessions => exact Option.some.inj hw ▸ ⟨_, quiet_set rfl rfl⟩
  | done => cases hw
  | _ => cases hcounts

end Quiet

/-! ## What a step enters -/

section Steps

variable {r : Relay} {b : Books} {w' : World} {i : ℕ} {g g' : Goroutine}

theorem accounts_start (r : Relay) (now : ℤ) : Accounts r { world := boot now } := by
  refine ⟨⟨_, owned_boot r now⟩, fun id => rfl, fun id => by simp, ?_, by simp, rfl, rfl⟩
  intro i g hg id hid
  simp [boot]

/-- The session of a call that is about to insert it was not counted. -/
theorem Accounts.uncounted (h : Accounts r b) {payload : GoString} {sess : Session}
    (hg : b.world.goroutines[i]? = some (.inserting payload sess)) :
    b.created.count sess.id = 0 ∧ ∀ {j : ℕ} {x : Goroutine}, b.world.goroutines[j]? = some x →
      sess.id ∉ x.toEnter := by
  obtain ⟨owner, ho⟩ := h.owned
  have hcall : owner sess.id = .call i := (ho.stands hg).making rfl
  have hnot : ∀ {o : Owner}, owner sess.id = o → o = .call i := fun ho => ho.symm.trans hcall
  constructor
  · rw [h.balance]
    have hlisted : b.world.listed sess.id = 0 := by
      by_contra hpos
      cases hnot (ho.table_of_listed (Nat.pos_of_ne_zero hpos))
    have howed : b.world.owed sess.id = 0 := by
      by_contra hpos
      cases hnot (ho.gone_of_owed (Nat.pos_of_ne_zero hpos))
    have hclosed : b.closed.count sess.id = 0 := by
      by_contra hpos
      have hmem := List.count_pos_iff.mp (Nat.pos_of_ne_zero hpos)
      cases hnot (ho.shut _ (h.shut _ hmem))
    omega
  · intro j x hx hid
    cases hnot ((ho.stands hx).doomed _ (Goroutine.owes_doomed (Goroutine.toEnter_owes hid)))

/-- Who moves on with the same debts leaves the books as they are. -/
theorem Accounts.move (h : Accounts r b) (howned : ∃ owner, Owned r owner w')
    (hg : b.world.goroutines[i]? = some g) (hset : w'.goroutines = b.world.goroutines.set i g')
    (hsessions : w'.shared.sessions = b.world.shared.sessions)
    (hflagged : ∀ id ∈ w'.closedSessions, id ∈ b.world.closedSessions ∨
      ∀ (j : ℕ) x, w'.goroutines[j]? = some x → id ∉ x.toEnter)
    (hsockets : ∀ id ∈ b.world.closedSockets, id ∈ w'.closedSockets)
    (hcreated : w'.created = b.world.created) (hclosed : w'.closedReasons = b.world.closedReasons)
    (howes : g'.owes = g.owes) (henter : ∀ id ∈ g'.toEnter, id ∈ g.toEnter) :
    Accounts r ⟨w', b.created, b.closed⟩ where
  owned := howned
  balance id := by
    have howed := owed_set id hg hset
    have hbalance := h.balance id
    have hlisted : w'.listed id = b.world.listed id := by rw [World.listed, hsessions]; rfl
    rw [howes] at howed
    show b.created.count id = w'.listed id + w'.owed id + b.closed.count id
    omega
  once := h.once
  unflagged := by
    intro j x hj id hid hflag
    rcases hflagged id hflag with hold | hnobody
    · have hj' : (b.world.goroutines.set i g')[j]? = some x := hset ▸ hj
      rcases System.getElem?_set_cases hj' with ⟨rfl, rfl⟩ | ⟨-, hx⟩
      · exact h.unflagged hg id (henter id hid) hold
      · exact h.unflagged hx id hid hold
    · exact hnobody j x hj hid
  shut id hid := hsockets id (h.shut id hid)
  created := h.created.trans hcreated.symm
  closed := h.closed.trans (congrArg List.length hclosed.symm)

/-- A session that is not needed is flagged, but nobody else knows it. -/
theorem Accounts.discard (h : Accounts r b) {payload : GoString} {sess : Session}
    (hg : b.world.goroutines[i]? = some (.inserting payload sess)) (howes : g'.owes = [])
    (henter : g'.toEnter = []) (howned : ∃ owner, Owned r owner ((b.world.discard sess).set i g')) :
    Accounts r ⟨(b.world.discard sess).set i g', b.created, b.closed⟩ := by
  refine h.move howned hg rfl rfl ?_ (fun id hid => List.mem_cons_of_mem _ hid) rfl rfl
    (by rw [howes]; rfl) (by simp [henter])
  intro id hid
  rcases List.mem_cons.mp hid with rfl | hid
  · refine .inr fun j x hx => ?_
    rcases System.getElem?_set_cases hx with ⟨-, rfl⟩ | ⟨-, hx⟩
    · simp [henter]
    · exact (h.uncounted hg).2 hx
  · exact .inl hid

/-- A session that comes into the table is counted, and its reader and the
call that made it owe nothing. -/
theorem Accounts.admit (h : Accounts r b) {payload : GoString} {sess : Session}
    (hg : b.world.goroutines[i]? = some (.inserting payload sess))
    (hnone : b.world.shared.sessions.lookup sess.key = none)
    (hset : w'.goroutines = b.world.goroutines.set i (.writing payload sess) ++ [.reading sess])
    (hsessions : w'.shared.sessions = b.world.shared.sessions.insert sess.key sess)
    (hflagged : w'.closedSessions = b.world.closedSessions)
    (hsockets : w'.closedSockets = b.world.closedSockets)
    (hcreated : w'.created = b.world.created + 1) (hclosed : w'.closedReasons = b.world.closedReasons)
    (howned : ∃ owner, Owned r owner w') : Accounts r ⟨w', sess.id :: b.created, b.closed⟩ where
  owned := howned
  balance id := by
    have hbalance := h.balance id
    have howed : w'.owed id = (b.world.set i (.writing payload sess)).owed id := by
      rw [World.owed, hset]
      exact owed_concat
    have hmoved : (b.world.set i (.writing payload sess)).goroutines =
        b.world.goroutines.set i (.writing payload sess) := rfl
    have hsame : (b.world.set i (.writing payload sess)).owed id = b.world.owed id :=
      owed_set id hg hmoved
    have hlisted : w'.listed id = b.world.listed id + if sess.id == id then 1 else 0 := by
      rw [World.listed, hsessions, GoMap.values_insert_of_absent sess hnone, List.map_cons,
        List.count_cons]
      rfl
    have hcount : (sess.id :: b.created).count id =
        b.created.count id + if sess.id == id then 1 else 0 := List.count_cons
    show (sess.id :: b.created).count id = w'.listed id + w'.owed id + b.closed.count id
    omega
  once id := by
    have honce := h.once id
    rw [List.count_cons]
    split
    · rename_i heq
      rw [← beq_iff_eq.mp heq, (h.uncounted hg).1]
    · exact honce
  unflagged := by
    intro j x hj
    exact hflagged ▸ System.forall_concat
      (System.forall_set (fun _ _ hx => h.unflagged hx) (by nofun)) (by nofun) j x (hset ▸ hj)
  shut id hid := hsockets ▸ h.shut id hid
  created := by
    show (sess.id :: b.created).length = w'.created
    rw [hcreated, List.length_cons, h.created]
  closed := h.closed.trans (congrArg List.length hclosed.symm)

/-- **The last section of `sessionForClient`**: a session that comes into the
table is counted. -/
theorem Accounts.insert (h : Accounts r b) {payload : GoString} {sess : Session}
    (hg : b.world.goroutines[i]? = some (.inserting payload sess))
    (howned : ∃ owner, Owned r owner (b.world.insert r i payload sess)) :
    Accounts r ⟨b.world.insert r i payload sess,
      (if b.world.shared.find r sess.key = .absent then [sess.id] else []) ++ b.created,
      b.closed⟩ := by
  unfold World.insert at howned ⊢
  split at howned
  · rename_i hfind
    simp only [hfind, reduceCtorEq, if_false, List.nil_append]
    exact h.discard hg rfl rfl howned
  · rename_i existing hfind
    simp only [hfind, reduceCtorEq, if_false, List.nil_append]
    exact h.discard hg rfl rfl howned
  · rename_i hfind
    simp only [hfind, reduceCtorEq, if_false, List.nil_append]
    exact h.discard hg rfl rfl howned
  · rename_i hfind
    simp only [hfind, if_true, List.singleton_append]
    obtain ⟨-, hnone, -⟩ := find_absent hfind
    exact h.admit hg hnone rfl rfl rfl rfl rfl rfl howned

/-- **The section of `closeSession`**: whoever takes a session out of the
table owes it. -/
theorem Accounts.remove (h : Accounts r b) {sess : Session} {reason : CloseReason} {rest : Rest}
    (hg : b.world.goroutines[i]? = some (.removing sess reason rest))
    (hset : w'.goroutines = b.world.goroutines.set i
      (.once sess (if b.world.shared.holds sess then some reason else none) rest))
    (hshared : w'.shared = b.world.shared.remove sess)
    (hflagged : w'.closedSessions = b.world.closedSessions)
    (hsockets : w'.closedSockets = b.world.closedSockets)
    (hcreated : w'.created = b.world.created) (hclosed : w'.closedReasons = b.world.closedReasons)
    (howned : ∃ owner, Owned r owner w') : Accounts r ⟨w', b.created, b.closed⟩ := by
  cases hholds : b.world.shared.holds sess with
  | false =>
    rw [hholds] at hset
    refine h.move howned hg hset ?_ (fun id hid => .inl (hflagged ▸ hid))
      (fun id hid => hsockets ▸ hid) hcreated hclosed rfl fun id hid => hid
    rw [hshared, Shared.remove, hholds]
    rfl
  | true =>
    rw [hholds] at hset
    obtain ⟨owner, ho⟩ := h.owned
    have hlook := holds_iff.mp hholds
    have htable : owner sess.id = .table := (ho.table.keyed hlook).2
    have hsessions : w'.shared.sessions = b.world.shared.sessions.erase sess.key := by
      rw [hshared, Shared.remove, hholds]
      rfl
    refine ⟨howned, fun id => ?_, h.once, ?_, fun id hid => hsockets ▸ h.shut id hid,
      h.created.trans hcreated.symm, h.closed.trans (congrArg List.length hclosed.symm)⟩
    · have hbalance := h.balance id
      have howed := owed_set id hg hset
      have howes : (Goroutine.once sess (some reason) rest).owes.count id =
          (Goroutine.removing sess reason rest).owes.count id + if sess.id == id then 1 else 0 :=
        List.count_cons
      have hlisted : b.world.listed id = w'.listed id + if sess.id == id then 1 else 0 := by
        rw [World.listed, World.listed, hsessions,
          ((GoMap.perm_erase hlook).map Session.id).count_eq, List.map_cons, List.count_cons]
      simp only [if_true] at howed
      show b.created.count id = w'.listed id + w'.owed id + b.closed.count id
      omega
    · intro j x hj
      refine hflagged ▸ System.forall_set (fun _ _ hx => h.unflagged hx)
        (fun id hid hin => ?_) j x (hset ▸ hj)
      rcases List.mem_cons.mp hid with rfl | hid
      · -- what is in the table is not flagged
        rw [ho.flagged _ hin] at htable
        cases htable
      · exact h.unflagged hg id hid hin

/-- **`closeOnce`**: under the condition the first who comes is one who
counts. -/
theorem Accounts.enterOnce (h : Accounts r b) {sess : Session} {reason : Option CloseReason}
    {rest : Rest} (hg : b.world.goroutines[i]? = some (.once sess reason rest))
    (hfirst : reason = none → sess.id ∈ b.world.closedSessions)
    (hw : b.world.enterOnce i sess reason rest = some w') (howned : ∃ owner, Owned r owner w') :
    Accounts r ⟨w', b.created, b.closed⟩ := by
  unfold World.enterOnce at hw
  cases reason with
  | none =>
    rw [if_pos (hfirst rfl)] at hw
    split_ifs at hw
    obtain rfl := Option.some.inj hw
    exact h.move howned hg rfl rfl (fun id hid => .inl hid) (fun id hid => hid) rfl rfl
      (owes_goroutine rest) fun id hid => mem_toEnter_rest hid
  | some reason =>
    rw [if_neg (h.unflagged hg _ List.mem_cons_self)] at hw
    obtain rfl := Option.some.inj hw
    refine h.move howned hg rfl rfl ?_ (fun id hid => hid) rfl rfl rfl
      fun id hid => List.mem_cons_of_mem _ hid
    intro id hid
    rcases List.mem_cons.mp hid with rfl | hid
    · refine .inr fun j x hx hin => ?_
      -- the session is owed once, and this goroutine owes it
      have hbalance := h.balance sess.id
      have honce := h.once sess.id
      have hself : (Goroutine.once sess (some reason) rest).owes.count sess.id =
          rest.doomed.count sess.id + 1 := List.count_cons_self
      rcases System.getElem?_set_cases hx with ⟨-, rfl⟩ | ⟨hne, hx⟩
      · have hpos : 0 < rest.doomed.count sess.id := List.count_pos_iff.mpr hin
        have hle := System.le_sum (fun g : Goroutine => g.owes.count sess.id) hg
        rw [World.owed] at hbalance
        omega
      · have hpos : 0 < x.owes.count sess.id :=
          List.count_pos_iff.mpr (Goroutine.toEnter_owes hin)
        have hle := System.add_le_sum (fun g : Goroutine => g.owes.count sess.id) (b := .done)
          rfl hg hne hx
        rw [World.owed] at hbalance
        omega
    · exact .inl hid

/-- **The session is closed**, and counted if somebody owes it. -/
theorem Accounts.closeSocket (h : Accounts r b) {sess : Session} {reason : Option CloseReason}
    {rest : Rest} (hg : b.world.goroutines[i]? = some (.socket sess reason rest))
    (hset : w'.goroutines = b.world.goroutines.set i rest.goroutine)
    (hsessions : w'.shared.sessions = b.world.shared.sessions)
    (hflagged : w'.closedSessions = b.world.closedSessions)
    (hsockets : w'.closedSockets = sess.id :: b.world.closedSockets)
    (hcreated : w'.created = b.world.created)
    (hclosed : w'.closedReasons = reason.toList ++ b.world.closedReasons)
    (howned : ∃ owner, Owned r owner w') :
    Accounts r ⟨w', b.created, reason.toList.map (fun _ => sess.id) ++ b.closed⟩ := by
  cases reason with
  | none =>
    refine h.move howned hg hset hsessions (fun id hid => .inl (hflagged ▸ hid)) ?_ hcreated
      hclosed (owes_goroutine rest) fun id hid => mem_toEnter_rest hid
    rw [hsockets]
    exact fun id hid => List.mem_cons_of_mem _ hid
  | some reason =>
    refine ⟨howned, fun id => ?_, h.once, ?_, ?_, h.created.trans hcreated.symm, ?_⟩
    · have hbalance := h.balance id
      have howed := owed_set id hg hset
      have howes : (Goroutine.socket sess (some reason) rest).owes.count id =
          rest.goroutine.owes.count id + if sess.id == id then 1 else 0 := by
        rw [owes_goroutine]
        exact List.count_cons
      have hcount : (sess.id :: b.closed).count id =
          b.closed.count id + if sess.id == id then 1 else 0 := List.count_cons
      have hlisted : w'.listed id = b.world.listed id := by rw [World.listed, hsessions]; rfl
      show b.created.count id = w'.listed id + w'.owed id + (sess.id :: b.closed).count id
      omega
    · intro j x hj
      exact hflagged ▸ System.forall_set (fun _ _ hx => h.unflagged hx)
        (fun id hid => h.unflagged hg id (mem_toEnter_rest hid)) j x (hset ▸ hj)
    · intro id hid
      show id ∈ w'.closedSockets
      rw [hsockets]
      rcases List.mem_cons.mp hid with rfl | hid
      · exact List.mem_cons_self
      · exact List.mem_cons_of_mem _ (h.shut id hid)
    · show (sess.id :: b.closed).length = w'.closedReasons.length
      rw [hclosed, List.length_cons, h.closed]
      rfl

/-- A goroutine that has something to count is started. -/
theorem Accounts.start (h : Accounts r b) (howned : ∃ owner, Owned r owner w')
    (hset : w'.goroutines = b.world.goroutines ++ [g])
    (howes : ∀ id, w'.listed id + g.owes.count id = b.world.listed id)
    (henter : ∀ id ∈ g.toEnter, id ∉ b.world.closedSessions)
    (hflagged : w'.closedSessions = b.world.closedSessions)
    (hsockets : w'.closedSockets = b.world.closedSockets)
    (hcreated : w'.created = b.world.created) (hclosed : w'.closedReasons = b.world.closedReasons) :
    Accounts r ⟨w', b.created, b.closed⟩ := by
  refine ⟨howned, fun id => ?_, h.once, ?_, fun id hid => hsockets ▸ h.shut id hid,
    h.created.trans hcreated.symm, h.closed.trans (congrArg List.length hclosed.symm)⟩
  · have hbalance := h.balance id
    have howed : w'.owed id = b.world.owed id + g.owes.count id := by
      rw [World.owed, hset]
      exact owed_concat
    have htable := howes id
    show b.created.count id = w'.listed id + w'.owed id + b.closed.count id
    omega
  · intro j x hj
    exact hflagged ▸ System.forall_concat (fun _ _ hx => h.unflagged hx) henter j x (hset ▸ hj)

/-- **The section of `Close`**: it owes what was in the table. -/
theorem Accounts.close (h : Accounts r b) (hw : b.world.close = some w')
    (howned : ∃ owner, Owned r owner w') : Accounts r ⟨w', b.created, b.closed⟩ := by
  unfold World.close at hw
  split_ifs at hw
  obtain rfl := Option.some.inj hw
  refine h.start howned rfl (fun id => ?_) (fun id hid hin => ?_) rfl rfl rfl rfl
  · exact Nat.zero_add _
  · obtain ⟨owner, ho⟩ := h.owned
    have htable := ho.table_of_listed (List.count_pos_iff.mpr hid)
    rw [ho.flagged id hin] at htable
    cases htable

/-- **Every piece of every goroutine** keeps the books balanced. -/
theorem Accounts.advance (h : Accounts r b) {o : Outside}
    (hg : b.world.goroutines[i]? = some g) (hfirst : CountedFirst b.world (.run i o))
    (hw : b.world.advance r i o g = some w') (howned : ∃ owner, Owned r owner w') :
    Accounts r ⟨w', g.creates r b.world.shared ++ b.created, g.closes ++ b.closed⟩ := by
  cases hcounts : g.counts with
  | false =>
    obtain ⟨g', hquiet⟩ := advance_quiet hg hcounts hw
    have hnothing : g.creates r b.world.shared = [] ∧ g.closes = [] := by
      cases g with
      | inserting payload sess => cases hcounts
      | socket sess reason rest => cases hcounts
      | _ => exact ⟨rfl, rfl⟩
    rw [hnothing.1, hnothing.2]
    exact h.move howned hg hquiet.goroutines hquiet.sessions
      (fun id hid => .inl (hquiet.flagged ▸ hid)) hquiet.sockets hquiet.created hquiet.closed
      hquiet.owes fun id hid => hquiet.toEnter ▸ hid
  | true =>
    cases g with
    | inserting payload sess =>
      obtain rfl := Option.some.inj hw
      exact h.insert hg howned
    | removing sess reason rest =>
      obtain rfl := Option.some.inj hw
      exact h.remove hg rfl rfl rfl rfl rfl rfl howned
    | once sess reason rest =>
      refine h.enterOnce hg (fun hnone => ?_) hw howned
      subst hnone
      exact hfirst sess (by rw [hg]; rfl)
    | socket sess reason rest =>
      obtain rfl := Option.some.inj hw
      cases reason with
      | none => exact h.closeSocket hg rfl rfl rfl rfl rfl rfl howned
      | some reason => exact h.closeSocket hg rfl rfl rfl rfl rfl rfl howned
    | _ => cases hcounts

/-- **The step lemma.** -/
theorem Accounts.step {b' : Books} {a : Action} (h : Accounts r b) (hfirst : CountedFirst b.world a)
    (hstep : b.step r a = some b') : Accounts r b' := by
  obtain ⟨w', hw, rfl⟩ := Option.map_eq_some_iff.mp hstep
  have howned := step_owned h.owned hw
  cases a with
  | call clientAddr payload =>
    obtain rfl := Option.some.inj hw
    exact h.start howned rfl (fun id => rfl) (by simp [Goroutine.toEnter, Goroutine.doomed]) rfl rfl
      rfl rfl
  | close => exact h.close hw howned
  | clock now =>
    obtain rfl := Option.some.inj hw
    exact ⟨howned, h.balance, h.once, h.unflagged, h.shut, h.created, h.closed⟩
  | run i o =>
    obtain ⟨g, hg, hw⟩ := Option.bind_eq_some_iff.mp hw
    simp only [createdBy, closedBy, hg, Option.elim_some]
    exact h.advance hg hfirst hw howned

end Steps

/-! ## Runs -/

section Runs

variable {r : Relay}

/-- The books are kept along every run of the relay. -/
theorem books_of_run : ∀ {as : List Action} {b : Books} {w' : World},
    System.run (step r) b.world as = some w' →
    ∃ b', System.run (Books.step r) b as = some b' ∧ b'.world = w' := by
  intro as
  induction as with
  | nil =>
    intro b w' h
    exact ⟨b, rfl, Option.some.inj h⟩
  | cons a as ih =>
    intro b w' h
    obtain ⟨w₁, hw₁, h⟩ := System.run_cons.mp h
    let b₁ : Books := ⟨w₁, createdBy r b.world a ++ b.created, closedBy b.world a ++ b.closed⟩
    have hb₁ : b.step r a = some b₁ := by
      unfold Books.step
      rw [hw₁]
      rfl
    obtain ⟨b', hb', hworld⟩ := ih (b := b₁) h
    exact ⟨b', System.run_cons.mpr ⟨b₁, hb₁, hb'⟩, hworld⟩

/-- A condition on the relay's steps is one on the steps with the books. -/
theorem meets_books {C : World → Action → Prop} : ∀ {as : List Action} {b : Books},
    System.Meets (step r) C b.world as →
    System.Meets (Books.step r) (fun b a => C b.world a) b as := by
  intro as
  induction as with
  | nil =>
    intro b _
    trivial
  | cons a as ih =>
    rintro b ⟨ha, hrest⟩
    refine ⟨ha, fun b' hb' => ?_⟩
    obtain ⟨w', hw', rfl⟩ := Option.map_eq_some_iff.mp hb'
    exact ih (hrest w' hw')

/-- **The run lemma.** -/
theorem accounts_run {now : ℤ} {as : List Action} {b : Books}
    (hmeets : System.Meets (step r) CountedFirst (boot now) as)
    (hrun : System.run (Books.step r) { world := boot now } as = some b) : Accounts r b :=
  System.run_invariant (fun _ _ _ h hfirst hstep => h.step hfirst hstep) as _ b
    (accounts_start r now) (meets_books (b := { world := boot now }) hmeets) hrun

/-- Who is at rest owes nothing. -/
theorem owed_of_atRest {w : World} (h : ∀ g ∈ w.goroutines, g.AtRest) (id : ℕ) : w.owed id = 0 := by
  refine List.sum_eq_zero fun n hn => ?_
  obtain ⟨g, hg, rfl⟩ := List.mem_map.mp hn
  refine List.count_eq_zero.mpr fun hid => ?_
  have hdoomed := Goroutine.owes_doomed hid
  rw [(h g hg).idle.2] at hdoomed
  cases hdoomed

/-- When nobody owes anything, the gauge says what the table holds. -/
theorem Accounts.activeSessions {b : Books} (h : Accounts r b)
    (hrest : ∀ g ∈ b.world.goroutines, g.AtRest) :
    b.world.activeSessions = b.world.shared.sessions.len := by
  have hperm : b.created.Perm (b.world.shared.sessions.values.map Session.id ++ b.closed) := by
    refine List.perm_iff_count.mpr fun id => ?_
    have hbalance := h.balance id
    have howed := owed_of_atRest hrest id
    rw [List.count_append]
    show b.created.count id = b.world.listed id + b.closed.count id
    omega
  have hlength := hperm.length_eq
  have hvalues : b.world.shared.sessions.values.length = b.world.shared.sessions.len :=
    List.length_map _
  rw [List.length_append, List.length_map, hvalues, h.created, h.closed] at hlength
  rw [World.activeSessions]
  omega

end Runs

/-- **The session metrics balance.** In every run in which nobody who closes
a session without counting it comes first to `closeOnce`: the sessions that
`UDPSessionCreated` and `UDPSessionClosed` have counted were counted once
each, those counted as closed were counted as created before and have left
the table; and when no operation is in progress, those not in the table have
all been counted as closed, and the gauge is the number of sessions in the
table. -/
theorem session_accounting (r : Relay) (now : ℤ) (as : List Action) (w : World)
    (hmeets : System.Meets (step r) CountedFirst (boot now) as)
    (hrun : System.run (step r) (boot now) as = some w) :
    ∃ b, System.run (Books.step r) { world := boot now } as = some b ∧ b.world = w ∧
      b.created.length = w.created ∧ b.closed.length = w.closedReasons.length ∧
      b.created.Nodup ∧ b.closed.Nodup ∧
      (∀ id ∈ b.closed, id ∈ b.created ∧ ∀ key sess, w.shared.sessions.lookup key = some sess →
        sess.id ≠ id) ∧
      ((∀ g ∈ w.goroutines, g.AtRest) →
        (∀ id ∈ b.created, (∀ key sess, w.shared.sessions.lookup key = some sess → sess.id ≠ id) →
          id ∈ b.closed) ∧
        w.activeSessions = w.shared.sessions.len) := by
  obtain ⟨b, hb, rfl⟩ := books_of_run (b := { world := boot now }) hrun
  have h := accounts_run hmeets hb
  refine ⟨b, hb, rfl, h.created, h.closed, ?_, ?_, ?_, fun hrest => ⟨?_, h.activeSessions hrest⟩⟩
  · exact List.nodup_iff_count_le_one.mpr h.once
  · refine List.nodup_iff_count_le_one.mpr fun id => ?_
    have hbalance := h.balance id
    have honce := h.once id
    omega
  · intro id hid
    have hpos : 0 < b.closed.count id := List.count_pos_iff.mpr hid
    have hbalance := h.balance id
    have honce := h.once id
    refine ⟨List.count_pos_iff.mp (by omega), fun key sess hlook heq => ?_⟩
    have hin := listed_pos.mpr ⟨key, sess, hlook, heq⟩
    omega
  · intro id hid hgone
    have hpos : 0 < b.created.count id := List.count_pos_iff.mpr hid
    have hbalance := h.balance id
    have howed := owed_of_atRest hrest id
    have hout : ¬ 0 < b.world.listed id := by
      rw [listed_pos]
      rintro ⟨key, sess, hlook, heq⟩
      exact hgone key sess hlook heq
    exact List.count_pos_iff.mp (by omega)

/-- A client has sent a datagram, and the backend is not there: the write
and the read fail. -/
def backendGone : List Action :=
  [.call (endpoint 1) [1], .run 1 {}, .run 1 { resolved := some (endpoint 9) },
    .run 1 { dialled := .udp }, .run 1 {}, .run 1 { fails := true }, .run 2 {}]

/-- **A session that is never counted as closed.** The call takes the session
out of the table, and the reader, which finds it gone, is the first to close
it. In the end nobody is at work and the table is empty, and the gauge still
says one. -/
theorem session_uncounted :
    ∃ b, System.run (Books.step smallRelay) { world := boot 0 }
        (backendGone ++ [.run 1 {}, .run 2 {}, .run 2 {}, .run 2 {}, .run 1 {}]) = some b ∧
      (∀ g ∈ b.world.goroutines, g.AtRest) ∧ b.created = [0] ∧ b.closed = [] ∧
      b.world.shared.sessions.len = 0 ∧ b.world.activeSessions = 1 := by
  have hend : (System.run (Books.step smallRelay) { world := boot 0 }
      (backendGone ++ [.run 1 {}, .run 2 {}, .run 2 {}, .run 2 {}, .run 1 {}])).map
      (fun b => (b.world.goroutines, b.created, b.closed, b.world.shared.sessions.len,
        b.world.activeSessions)) = some ([.waiting, .done, .done], [0], [], 0, 1) := by
    decide +kernel
  obtain ⟨b, hb, hend⟩ := Option.map_eq_some_iff.mp hend
  simp only [Prod.mk.injEq] at hend
  obtain ⟨hgs, hrest⟩ := hend
  refine ⟨b, hb, ?_, hrest⟩
  rw [hgs]
  simp [Goroutine.AtRest]

/-- The same failures, with the call first. -/
theorem session_accounting_backendGone :
    ∃ w, System.run (step smallRelay) (boot 0)
        (backendGone ++ [.run 1 {}, .run 2 {}, .run 1 {}, .run 1 {}, .run 2 {}]) = some w ∧
      w.created = 1 ∧ w.activeSessions = w.shared.sessions.len := by
  have hend : (System.run (step smallRelay) (boot 0)
      (backendGone ++ [.run 1 {}, .run 2 {}, .run 1 {}, .run 1 {}, .run 2 {}])).map
      (fun w => (w.goroutines, w.created)) = some ([.waiting, .done, .done], 1) := by
    decide +kernel
  obtain ⟨w, hw, hend⟩ := Option.map_eq_some_iff.mp hend
  simp only [Prod.mk.injEq] at hend
  obtain ⟨hgs, hcreated⟩ := hend
  obtain ⟨b, -, -, -, -, -, -, -, hrest⟩ :=
    session_accounting smallRelay 0 _ w (by decide +kernel) hw
  refine ⟨w, hw, hcreated, (hrest ?_).2⟩
  rw [hgs]
  simp [Goroutine.AtRest]

end UDPRelay

end McRouter
