import McRouter.Availability.Hub
import McRouter.Common.System

/-!
# The availability monitor

`availability/monitor.go`: the rounds of `checkAll`, and the Hub that is
notified. The monitor remembers the last value that the Hub acknowledged and
leaves out a notification that would repeat it. A notification whose
acknowledgement is lost may have been stored all the same, and it is not the
value that the monitor remembers: when the backend is back in that state
before the next notification gets through, the round is skipped and the Hub
is left with the wrong availability (`hub_left_offline`). This is the only
way to get there (`hub_truthful_iff`).
-/

namespace McRouter

namespace Availability

open Strings

/-- `monitor`, without what changes. -/
structure Monitor where
  cfg : Config.Availability
  token : GoString

/-- What becomes of a notification: it is handled and answered, it is handled
and the answer does not get through, or it is not handled. -/
inductive Fate where
  | answered
  | unanswered
  | lost
deriving DecidableEq, Repr

/-- What a round meets with: the time, the backends that are up, and the fate
of each notification. -/
structure Round where
  now : ℤ
  online : GoString → Bool
  fate : GoString → Fate

/-- A notification. -/
structure Entry where
  id : GoString
  online : Bool
  applied : Bool
  acknowledged : Bool
deriving DecidableEq

/-- What the monitor remembers, what the Hub has stored, and the
notifications so far, the newest first. No step looks at the notifications. -/
structure World where
  sent : GoMap GoString Bool := ∅
  store : Store := ∅
  log : List Entry := []

/-- What `checkAll` does about a backend. -/
inductive Outcome where
  | skipped
  | notified
  | failed
deriving DecidableEq, Repr

/-! ## Where a notification goes -/

/-- What follows the first `sep`. -/
def after (sep : UInt8) (s : GoString) : GoString := s.drop ((cutAt sep s).length + 1)

/-- What follows the host of a URL, without the fragment. -/
def afterHost (url : GoString) : GoString :=
  ((after 58 (cutAt 35 url)).drop 2).dropWhile fun b => b ≠ 47 ∧ b ≠ 63

/-- `URL.RequestURI` of a URL with a host. What `net/url` has to escape in a
path is not modelled. -/
def requestURI (url : GoString) : GoString :=
  if (afterHost url).head? = some 47 then afterHost url else 47 :: afterHost url

namespace Monitor

variable (m : Monitor) (hub : ControlConfig)

/-- The target of a notification. -/
def target (id : GoString) : GoString :=
  requestURI (m.cfg.controlURL.rdropWhile (· = 47) ++ availabilityPath id)

/-- A notification names its own backend or none. -/
def Names (id : GoString) : Prop := ∀ name ∈ backendId (m.target id), name = id

/-- The body of a notification. -/
def body (online : Bool) : GoString :=
  123 :: (quoted (go "availability") ++
    58 :: (quoted (if online then go "online" else go "offline") ++ [125]))

/-- The request of a notification. -/
def request (id : GoString) (online : Bool) : ControlRequest where
  method := go "PUT"
  target := m.target id
  authorization := go "Bearer " ++ m.token
  contentLength := (body online).length
  body := body online

/-- `notify`: the notification, and the store after it. Whatever is not
acknowledged is an error. -/
def notify (now : ℤ) (fate : Fate) (id : GoString) (online : Bool) (store : Store) : Entry × Store :=
  let out := handle hub now (m.request id online) store
  match fate with
  | .answered => (⟨id, online, out.1 = 204, out.1 = 204⟩, out.2)
  | .unanswered => (⟨id, online, out.1 = 204, false⟩, out.2)
  | .lost => (⟨id, online, false, false⟩, store)

/-- A round of the loop of `checkAll`. -/
def check (round : Round) (id : GoString) (w : World) : Outcome × World :=
  let online := round.online id
  if w.sent.lookup id = some online then (.skipped, w)
  else
    let out := m.notify hub round.now (round.fate id) id online w.store
    let w := { w with store := out.2, log := out.1 :: w.log }
    if out.1.acknowledged then (.notified, { w with sent := w.sent.insert id online })
    else (.failed, w)

/-- The loop of `checkAll`: what it does about each backend. -/
def checkBackends (round : Round) : List Config.AvailabilityBackend → World →
    List (GoString × Outcome) × World
  | [], w => ([], w)
  | backend :: backends, w =>
    let out := m.check hub round backend.id w
    let rest := checkBackends round backends out.2
    ((backend.id, out.1) :: rest.1, rest.2)

/-- `checkAll`. -/
def checkAll (round : Round) (w : World) : List (GoString × Outcome) × World :=
  m.checkBackends hub round m.cfg.backends w

/-- The rounds of `run`. -/
def step (w : World) (round : Round) : Option World := some (m.checkAll hub round w).2

end Monitor

/-! ## What is true of the Hub -/

/-- The last notification of a backend that the Hub has stored. -/
def World.lastApplied (w : World) (id : GoString) : Option Entry :=
  w.log.find? fun e => e.id = id ∧ e.applied = true

/-- **The Hub is right after the round** about every backend that was skipped
as unchanged or notified with success. -/
def Truthful (m : Monitor) (hub : ControlConfig) (w : World) (round : Round) : Prop :=
  ∀ id outcome, (id, outcome) ∈ (m.checkAll hub round w).1 → outcome ≠ .failed →
    (m.checkAll hub round w).2.store.availability id =
      some (BackendAvailability.ofBool (round.online id))

/-- A backend is skipped in the round only if the last notification of it
that the Hub has stored was acknowledged. -/
def Acknowledged (m : Monitor) (w : World) (round : Round) : Prop :=
  ∀ backend ∈ m.cfg.backends, w.sent.lookup backend.id = some (round.online backend.id) →
    ∀ e ∈ w.lastApplied backend.id, e.acknowledged = true

instance decidableAcknowledged (m : Monitor) (w : World) (round : Round) :
    Decidable (Acknowledged m w round) :=
  inferInstanceAs (Decidable (∀ backend ∈ m.cfg.backends,
    w.sent.lookup backend.id = some (round.online backend.id) →
      ∀ e ∈ w.lastApplied backend.id, e.acknowledged = true))

/-- What the monitor and the Hub know about a backend: the Hub has stored the
last notification it was given; the monitor remembers the same value if that
was acknowledged, and the other one if not. -/
structure Knows (w : World) (id : GoString) : Prop where
  stored : w.store.availability id =
    (w.lastApplied id).map fun e => BackendAvailability.ofBool e.online
  remembered : ∀ previous, w.sent.lookup id = some previous →
    ∃ e, w.lastApplied id = some e ∧ (e.acknowledged = true ↔ e.online = previous)

/-- Two worlds that are the same for a backend. -/
structure Agree (id : GoString) (w w' : World) : Prop where
  sent : w'.sent.lookup id = w.sent.lookup id
  store : w'.store.lookup id = w.store.lookup id
  log : w'.lastApplied id = w.lastApplied id

theorem Agree.trans {id : GoString} {w w' w'' : World} (h : Agree id w w') (h' : Agree id w' w'') :
    Agree id w w'' :=
  ⟨h'.sent.trans h.sent, h'.store.trans h.store, h'.log.trans h.log⟩

theorem Knows.of_agree {id : GoString} {w w' : World} (h : Knows w id) (hagree : Agree id w w') :
    Knows w' id where
  stored := by
    rw [Store.availability, hagree.store, hagree.log]
    exact h.stored
  remembered := by
    rw [hagree.sent, hagree.log]
    exact h.remembered

section Checks

variable {m : Monitor} {hub : ControlConfig} {round : Round} {id : GoString} {w : World}

/-- The Hub reads what the monitor writes. -/
theorem findAvailability_body (online : Bool) :
    findAvailability ((Monitor.body online).take ((Monitor.body online).length : ℤ).toNat) =
      some (BackendAvailability.ofBool online) := by
  revert online
  decide +kernel

/-- **What a notification does.** -/
theorem notify_cases (m : Monitor) (hub : ControlConfig) (hid : m.Names id) (now : ℤ)
    (fate : Fate) (online : Bool) (store : Store) :
    ∃ e store', m.notify hub now fate id online store = (e, store') ∧
      e.id = id ∧ e.online = online ∧
      ((e.applied = false ∧ e.acknowledged = false ∧ store' = store) ∨
        (e.applied = true ∧
          store' = store.insert id ⟨id, BackendAvailability.ofBool online, now⟩)) := by
  rcases handle_cases hub now (m.request id online) store with ⟨hstatus, hstore⟩ |
    ⟨name, availability, hname, hfind, hout⟩
  · have happlied : decide ((handle hub now (m.request id online) store).1 = 204) = false :=
      decide_eq_false hstatus
    cases fate with
    | answered => exact ⟨_, _, rfl, rfl, rfl, Or.inl ⟨happlied, happlied, hstore⟩⟩
    | unanswered => exact ⟨_, _, rfl, rfl, rfl, Or.inl ⟨happlied, rfl, hstore⟩⟩
    | lost => exact ⟨_, _, rfl, rfl, rfl, Or.inl ⟨rfl, rfl, rfl⟩⟩
  · obtain rfl : name = id := hid name hname
    obtain rfl := Option.some.inj (hfind.symm.trans (findAvailability_body online))
    have happlied : decide ((handle hub now (m.request name online) store).1 = 204) = true := by
      rw [hout]
      rfl
    have hstore : (handle hub now (m.request name online) store).2 =
        store.insert name ⟨name, BackendAvailability.ofBool online, now⟩ := by
      rw [hout]
    cases fate with
    | answered => exact ⟨_, _, rfl, rfl, rfl, Or.inr ⟨happlied, hstore⟩⟩
    | unanswered => exact ⟨_, _, rfl, rfl, rfl, Or.inr ⟨happlied, hstore⟩⟩
    | lost => exact ⟨_, _, rfl, rfl, rfl, Or.inl ⟨rfl, rfl, rfl⟩⟩

/-- The last notification after one more. -/
theorem lastApplied_cons (e : Entry) (store : Store) (sent : GoMap GoString Bool) (name : GoString) :
    ({ sent, store, log := e :: w.log } : World).lastApplied name =
      if e.id = name ∧ e.applied = true then some e else w.lastApplied name := by
  simp only [World.lastApplied, List.find?_cons]
  split_ifs with h
  · simp [h]
  · simp [h]

/-- A check of one backend leaves the others alone. -/
theorem check_agree (hid : m.Names id) {name : GoString} (hne : name ≠ id) :
    Agree name w (m.check hub round id w).2 := by
  obtain ⟨e, store', hout, he, -, hcases⟩ := notify_cases m hub hid round.now
    (round.fate id) (round.online id) w.store
  have hstore : store'.lookup name = w.store.lookup name := by
    rcases hcases with ⟨-, -, rfl⟩ | ⟨-, rfl⟩
    · rfl
    · exact AList.lookup_insert_ne hne
  have hlog : ∀ sent, ({ sent, store := store', log := e :: w.log } : World).lastApplied name =
      w.lastApplied name := by
    intro sent
    rw [lastApplied_cons, if_neg fun h => hne (h.1.symm.trans he)]
  simp only [Monitor.check, hout]
  split_ifs
  · exact ⟨rfl, rfl, rfl⟩
  · exact ⟨AList.lookup_insert_ne hne, hstore, hlog _⟩
  · exact ⟨rfl, hstore, hlog _⟩

/-- What is known of a backend is known after its check. -/
theorem check_knows (hid : m.Names id) (h : Knows w id) :
    Knows (m.check hub round id w).2 id := by
  obtain ⟨e, store', hout, he, honline, hcases⟩ := notify_cases m hub hid round.now
    (round.fate id) (round.online id) w.store
  simp only [Monitor.check, hout]
  split_ifs with hsent hack
  · exact h
  · -- acknowledged: both ends have the new value
    have happlied : e.applied = true ∧
        store' = w.store.insert id ⟨id, BackendAvailability.ofBool (round.online id), round.now⟩ := by
      rcases hcases with ⟨-, hnot, -⟩ | happlied
      · rw [hack] at hnot
        cases hnot
      · exact happlied
    obtain ⟨happlied, rfl⟩ := happlied
    have hlast := lastApplied_cons (w := w) e
      (w.store.insert id ⟨id, BackendAvailability.ofBool (round.online id), round.now⟩)
      (w.sent.insert id (round.online id)) id
    rw [if_pos ⟨he, happlied⟩] at hlast
    constructor
    · rw [hlast, Option.map_some, honline, Store.availability, AList.lookup_insert, Option.map_some]
    · intro previous hprevious
      rw [AList.lookup_insert] at hprevious
      obtain rfl := Option.some.inj hprevious
      exact ⟨e, hlast, by simp [hack, honline]⟩
  · rcases hcases with ⟨hnot, -, rfl⟩ | ⟨happlied, rfl⟩
    · -- not stored: nothing has changed
      refine h.of_agree ⟨rfl, rfl, ?_⟩
      rw [lastApplied_cons, if_neg fun h => by simp [hnot] at h]
    · -- stored, but not acknowledged: the monitor remembers the other value
      have hlast := lastApplied_cons (w := w) e
        (w.store.insert id ⟨id, BackendAvailability.ofBool (round.online id), round.now⟩) w.sent id
      rw [if_pos ⟨he, happlied⟩] at hlast
      constructor
      · rw [hlast, Option.map_some, honline, Store.availability, AList.lookup_insert,
          Option.map_some]
      · intro previous hprevious
        have hne : round.online id ≠ previous := fun heq => hsent (heq ▸ hprevious)
        exact ⟨e, hlast, by simp [hack, honline, hne]⟩

/-- **The Hub is right about a backend after its check**, unless the check
was skipped and the last stored notification was not acknowledged. -/
theorem check_truthful (m : Monitor) (hub : ControlConfig) (round : Round)
    (hid : m.Names id) (h : Knows w id) :
    ((m.check hub round id w).1 ≠ .failed → (m.check hub round id w).2.store.availability id =
        some (BackendAvailability.ofBool (round.online id))) ↔
      (w.sent.lookup id = some (round.online id) →
        ∀ e ∈ w.lastApplied id, e.acknowledged = true) := by
  by_cases hsent : w.sent.lookup id = some (round.online id)
  · -- skipped: the Hub has the last stored value
    obtain ⟨e, he, hack⟩ := h.remembered _ hsent
    have hcheck : m.check hub round id w = (.skipped, w) := by
      simp only [Monitor.check, hsent, if_true]
    have hstored : w.store.availability id = some (BackendAvailability.ofBool e.online) := by
      rw [h.stored, he, Option.map_some]
    simp only [hcheck, hsent, he, hstored, Option.mem_def, Option.some.injEq, forall_eq',
      forall_true_left, hack, BackendAvailability.ofBool_injective.eq_iff]
    simp
  · -- notified: the Hub has the new value, or the check has failed
    refine ⟨fun _ hsent' => absurd hsent' hsent, fun _ hok => ?_⟩
    obtain ⟨e, store', hout, he, honline, hcases⟩ := notify_cases m hub hid round.now
      (round.fate id) (round.online id) w.store
    simp only [Monitor.check, hsent, if_false, hout] at hok ⊢
    split_ifs at hok ⊢ with hack
    · rcases hcases with ⟨-, hnot, -⟩ | ⟨-, rfl⟩
      · rw [hack] at hnot
        cases hnot
      · rw [Store.availability, AList.lookup_insert, Option.map_some]
    · exact absurd rfl hok

end Checks

/-! ## Rounds -/

section Rounds

variable {m : Monitor} {hub : ControlConfig} {round : Round}

/-- What `validateAvailability` has seen to. -/
theorem validateAvailabilityBackends_none : ∀ {backends : List Config.AvailabilityBackend}
    {seen : List GoString}, Config.validateAvailabilityBackends seen backends = none →
    (∀ backend ∈ backends, Config.isDNSLabel backend.id = true ∧ backend.id ∉ seen) ∧
      (backends.map (·.id)).Nodup := by
  intro backends
  induction backends with
  | nil =>
    intro seen _
    exact ⟨nofun, List.nodup_nil⟩
  | cons backend backends ih =>
    intro seen h
    simp only [Config.validateAvailabilityBackends] at h
    split_ifs at h with hlabel hseen
    cases haddress : Config.validateBackend backend.address with
    | some err => simp [haddress] at h
    | none =>
      cases hserver : HostAddr.normalize backend.serverAddress with
      | error err => simp [haddress, hserver] at h
      | ok normalized =>
        simp only [haddress, hserver] at h
        obtain ⟨hrest, hnodup⟩ := ih h
        have hlabel : Config.isDNSLabel backend.id = true := by simpa using hlabel
        constructor
        · intro b hb
          rcases List.mem_cons.mp hb with rfl | hb
          · exact ⟨hlabel, hseen⟩
          · obtain ⟨hb', hnot⟩ := hrest b hb
            exact ⟨hb', fun hmem => hnot (List.mem_cons_of_mem _ hmem)⟩
        · refine List.nodup_cons.mpr ⟨fun hmem => ?_, hnodup⟩
          obtain ⟨b, hb, heq⟩ := List.mem_map.mp hmem
          exact (hrest b hb).2 (heq ▸ List.mem_cons_self)

/-- A round leaves other backends alone. -/
theorem checkBackends_agree : ∀ {backends : List Config.AvailabilityBackend} {w : World}
    {name : GoString}, (∀ backend ∈ backends, m.Names backend.id) →
    (∀ backend ∈ backends, name ≠ backend.id) →
    Agree name w (m.checkBackends hub round backends w).2 := by
  intro backends
  induction backends with
  | nil =>
    intro w name _ _
    exact ⟨rfl, rfl, rfl⟩
  | cons backend backends ih =>
    intro w name hnames hname
    have hfirst : Agree name w (m.check hub round backend.id w).2 :=
      check_agree (hnames backend List.mem_cons_self) (hname backend List.mem_cons_self)
    exact hfirst.trans (ih (fun b hb => hnames b (List.mem_cons_of_mem _ hb))
      fun b hb => hname b (List.mem_cons_of_mem _ hb))

/-- What is known is known after a round. -/
theorem checkBackends_knows : ∀ {backends : List Config.AvailabilityBackend} {w : World},
    (∀ backend ∈ backends, m.Names backend.id) → (∀ id, Knows w id) →
    ∀ id, Knows (m.checkBackends hub round backends w).2 id := by
  intro backends
  induction backends with
  | nil =>
    intro w _ h
    exact h
  | cons backend backends ih =>
    intro w hnames h
    have hname₁ := hnames backend List.mem_cons_self
    refine ih (fun b hb => hnames b (List.mem_cons_of_mem _ hb)) fun id => ?_
    by_cases hid : id = backend.id
    · subst hid
      exact check_knows hname₁ (h _)
    · exact (h id).of_agree (check_agree hname₁ hid)

/-- **The Hub is right after a round** if and only if no backend was skipped
whose last stored notification was not acknowledged. -/
theorem checkBackends_truthful : ∀ {backends : List Config.AvailabilityBackend} {w : World},
    (∀ backend ∈ backends, m.Names backend.id) →
    (backends.map (·.id)).Nodup → (∀ id, Knows w id) →
    ((∀ id outcome, (id, outcome) ∈ (m.checkBackends hub round backends w).1 → outcome ≠ .failed →
        (m.checkBackends hub round backends w).2.store.availability id =
          some (BackendAvailability.ofBool (round.online id))) ↔
      ∀ backend ∈ backends, w.sent.lookup backend.id = some (round.online backend.id) →
        ∀ e ∈ w.lastApplied backend.id, e.acknowledged = true) := by
  intro backends
  induction backends with
  | nil =>
    intro w _ _ _
    simp [Monitor.checkBackends]
  | cons backend backends ih =>
    intro w hnames hnodup hknows
    obtain ⟨hnot, hnodup⟩ := List.nodup_cons.mp hnodup
    have hname₁ := hnames backend List.mem_cons_self
    have hnames' := fun b hb => hnames b (List.mem_cons_of_mem backend hb)
    have hother : ∀ b ∈ backends, backend.id ≠ b.id := fun b hb heq =>
      hnot (List.mem_map.mpr ⟨b, hb, heq.symm⟩)
    let w₁ := (m.check hub round backend.id w).2
    have hknows₁ : ∀ id, Knows w₁ id := by
      intro id
      by_cases hid : id = backend.id
      · subst hid
        exact check_knows hname₁ (hknows _)
      · exact (hknows id).of_agree (check_agree hname₁ hid)
    -- the first backend is not touched again, and the others have not been touched yet
    have hlast : Agree backend.id w₁ (m.checkBackends hub round backends w₁).2 :=
      checkBackends_agree hnames' hother
    have hrest : ∀ b ∈ backends, Agree b.id w w₁ := fun b hb =>
      check_agree hname₁ (hother b hb).symm
    have hfirst := check_truthful m hub round hname₁ (hknows backend.id)
    have htail := ih (w := w₁) hnames' hnodup hknows₁
    have hstore : (m.checkBackends hub round backends w₁).2.store.availability backend.id =
        w₁.store.availability backend.id := congrArg _ hlast.store
    simp only [Monitor.checkBackends, List.mem_cons, forall_eq_or_imp]
    rw [← hfirst]
    constructor
    · intro h
      refine ⟨fun hok => hstore.symm.trans (h _ _ (Or.inl rfl) hok), fun b hb => ?_⟩
      rw [← (hrest b hb).sent, ← (hrest b hb).log]
      exact htail.mp (fun id outcome hmem => h id outcome (Or.inr hmem)) b hb
    · rintro ⟨hone, hall⟩ id outcome hmem hok
      rcases hmem with heq | hmem
      · obtain ⟨rfl, rfl⟩ := Prod.mk.inj heq
        exact hstore.trans (hone hok)
      · refine htail.mpr (fun b hb => ?_) id outcome hmem hok
        rw [(hrest b hb).sent, (hrest b hb).log]
        exact hall b hb

/-- **The Hub is right after every round of a run if and only if no round
skips a backend whose last stored notification was not acknowledged.** No
notification is taken for that of another backend: see `names_of_plain` for
the control URL. -/
theorem hub_truthful_iff (m : Monitor) (env : Env) (henabled : m.cfg.enabled = true)
    (hvalid : Config.validateAvailability env m.cfg = none)
    (hnames : ∀ backend ∈ m.cfg.backends, m.Names backend.id) (hub : ControlConfig)
    (rounds : List Round) :
    System.Meets (m.step hub) (Truthful m hub) {} rounds ↔
      System.Meets (m.step hub) (Acknowledged m) {} rounds := by
  have hbackends : Config.validateAvailabilityBackends [] m.cfg.backends = none := by
    simp only [Config.validateAvailability, henabled, Bool.not_true, Bool.false_eq_true,
      if_false] at hvalid
    split_ifs at hvalid
    exact hvalid
  have hnodup := (validateAvailabilityBackends_none hbackends).2
  refine System.meets_congr (I := fun w => ∀ id, Knows w id) ?_ ?_ rounds {} fun id => ?_
  · intro w round w' hknows hstep
    exact Option.some.inj hstep ▸ checkBackends_knows hnames hknows
  · intro w round hknows
    exact checkBackends_truthful hnames hnodup hknows
  · exact ⟨rfl, fun previous hprevious => by simp at hprevious⟩

end Rounds

/-! ## The control URL -/

/-- A URL with a host, and what follows the host. -/
structure Absolute (url rest : GoString) : Prop where
  parts : ∃ scheme host, 58 ∉ scheme ∧ 35 ∉ scheme ∧ host ≠ [] ∧
    (∀ b ∈ host, b ≠ 47 ∧ b ≠ 63 ∧ b ≠ 35) ∧ url = scheme ++ 58 :: 47 :: 47 :: (host ++ rest)
  head : ∀ b ∈ rest.head?, b = 47 ∨ b = 63

theorem after_append_cons {sep : UInt8} {s : GoString} (h : sep ∉ s) (t : GoString) :
    after sep (s ++ sep :: t) = t := by
  rw [after, cutAt_append_cons h]
  simp

theorem cutAt_append {b : UInt8} {s : GoString} (h : b ∉ s) (t : GoString) :
    cutAt b (s ++ t) = s ++ cutAt b t := by
  refine List.takeWhile_append_of_pos fun c hc => ?_
  rw [bne_iff_ne]
  rintro rfl
  exact h hc

theorem head_cutAt {b : UInt8} {s : GoString} : ∀ c ∈ (cutAt b s).head?, c ∈ s.head? := by
  intro c hc
  cases s with
  | nil => exact hc
  | cons d s =>
    rw [cutAt, List.takeWhile_cons] at hc
    split_ifs at hc
    · exact hc
    · cases hc

/-- Trimming ends where it meets another byte. -/
theorem rdropWhile_append_of_last {p : UInt8 → Bool} {s : GoString} (hs : ∀ b ∈ s.getLast?, ¬ p b)
    (t : GoString) : (s ++ t).rdropWhile p = s ++ t.rdropWhile p := by
  induction t using List.reverseRecOn with
  | nil =>
    rw [List.append_nil, List.rdropWhile_nil, List.append_nil, List.rdropWhile_eq_self_iff]
    intro hne
    exact hs _ (List.getLast?_eq_some_getLast hne)
  | append_singleton t b ih =>
    rw [← List.append_assoc]
    by_cases hb : p b = true
    · rw [List.rdropWhile_concat_pos _ _ _ hb, List.rdropWhile_concat_pos _ _ _ hb, ih]
    · rw [List.rdropWhile_concat_neg _ _ _ hb, List.rdropWhile_concat_neg _ _ _ hb,
        List.append_assoc]

section Target

variable {m : Monitor} {rest id : GoString}

/-- What is left of a control URL starts as it did. -/
theorem Absolute.head_base (h : Absolute m.cfg.controlURL rest) (id : GoString) :
    ∀ b ∈ (rest.rdropWhile (· = 47) ++ availabilityPath id).head?, b = 47 ∨ b = 63 := by
  intro b hb
  cases hbase : rest.rdropWhile (· = 47) with
  | nil =>
    rw [hbase, List.nil_append, availabilityPath_eq] at hb
    exact .inl (Option.some.inj hb).symm
  | cons c base =>
    rw [hbase] at hb
    obtain rfl : c = b := Option.some.inj hb
    obtain ⟨t, ht⟩ := List.rdropWhile_prefix (· = 47) rest
    rw [hbase] at ht
    exact h.head c (by rw [← ht]; rfl)

/-- **The target of a notification** is what follows the host in the control
URL, without slashes at its end, and the path of the backend; up to a
fragment. -/
theorem Absolute.afterHost_eq (h : Absolute m.cfg.controlURL rest) :
    afterHost (m.cfg.controlURL.rdropWhile (· = 47) ++ availabilityPath id) =
      cutAt 35 (rest.rdropWhile (· = 47) ++ availabilityPath id) := by
  obtain ⟨scheme, host, hcolon, hhash, hne, hhost, hurl⟩ := h.parts
  have hfront : m.cfg.controlURL.rdropWhile (· = 47) =
      scheme ++ 58 :: 47 :: 47 :: (host ++ rest.rdropWhile (· = 47)) := by
    have hlast : ∀ b ∈ (scheme ++ 58 :: 47 :: 47 :: host).getLast?, ¬ decide (b = 47) = true := by
      intro b hb
      rw [List.getLast?_append_of_ne_nil _ (by simp)] at hb
      have hmem : b ∈ host := by
        refine List.mem_of_getLast? ?_
        simpa [List.getLast?_cons, List.getLast?_eq_some_getLast hne] using hb
      simpa using (hhost b hmem).1
    have htrim := rdropWhile_append_of_last hlast rest
    rw [hurl]
    simpa using htrim
  have hcut : cutAt 35 (m.cfg.controlURL.rdropWhile (· = 47) ++ availabilityPath id) =
      scheme ++ 58 :: 47 :: 47 ::
        (host ++ cutAt 35 (rest.rdropWhile (· = 47) ++ availabilityPath id)) := by
    have hno : (35 : UInt8) ∉ scheme ++ 58 :: 47 :: 47 :: host := by
      simp only [List.mem_append, List.mem_cons, not_or]
      exact ⟨hhash, by decide, by decide, by decide, fun hmem => (hhost 35 hmem).2.2 rfl⟩
    have happ := cutAt_append hno (rest.rdropWhile (· = 47) ++ availabilityPath id)
    rw [hfront]
    simpa using happ
  rw [afterHost, hcut, after_append_cons hcolon, List.drop_succ_cons, List.drop_succ_cons,
    List.drop_zero, List.dropWhile_append_of_pos fun b hb => by
      simpa using ⟨(hhost b hb).1, (hhost b hb).2.1⟩]
  have hhead : ∀ b ∈ (cutAt 35 (rest.rdropWhile (· = 47) ++ availabilityPath id)).head?,
      b = 47 ∨ b = 63 := fun b hb => h.head_base id b (head_cutAt b hb)
  generalize cutAt 35 (rest.rdropWhile (· = 47) ++ availabilityPath id) = path at hhead ⊢
  cases path with
  | nil => rfl
  | cons b path =>
    refine List.dropWhile_cons_of_neg ?_
    rcases hhead b rfl with rfl | rfl
    · decide
    · decide

/-- A target without a path is no better than none. -/
theorem backendId_slash {path : GoString} (h : ∀ b ∈ path.head?, b = 47 ∨ b = 63) :
    backendId (if path.head? = some 47 then path else 47 :: path) = backendId path := by
  cases path with
  | nil => decide
  | cons b path =>
    rcases h b rfl with rfl | rfl
    · rw [List.head?_cons, if_pos rfl]
    · have hcut : cutAt 63 (47 :: 63 :: path) = [47] ∧ cutAt 63 (63 :: path) = [] := by simp [cutAt]
      rw [List.head?_cons, if_neg (by decide), backendId, backendId, hcut.1, hcut.2]
      decide

/-- **The backend that a notification names.** -/
theorem Absolute.backendId_target (h : Absolute m.cfg.controlURL rest) (id : GoString) :
    backendId (m.target id) =
      backendId (cutAt 35 (rest.rdropWhile (· = 47) ++ availabilityPath id)) := by
  rw [Monitor.target, requestURI, h.afterHost_eq]
  exact backendId_slash fun b hb => h.head_base id b (head_cutAt b hb)

/-- A control URL without a query or a fragment keeps the path of a
notification whole. -/
theorem Absolute.backendId_of_plain (h : Absolute m.cfg.controlURL rest)
    (hquery : 63 ∉ rest.rdropWhile (· = 47)) (hfragment : 35 ∉ rest.rdropWhile (· = 47))
    (hid : Config.isDNSLabel id = true) : backendId (m.target id) =
      if 47 ∈ rest.rdropWhile (· = 47) then none else some id := by
  have hno : 35 ∉ rest.rdropWhile (· = 47) ++ availabilityPath id := by
    simp [hfragment, (notMem_availabilityPath hid).2]
  rw [h.backendId_target, cutAt_of_notMem hno, backendId_path hquery hid]

/-- **Under a control URL without a query or a fragment** every notification
names its own backend or none. -/
theorem names_of_plain (h : Absolute m.cfg.controlURL rest) (hquery : 63 ∉ rest)
    (hfragment : 35 ∉ rest) (hid : Config.isDNSLabel id = true) : m.Names id := by
  have hbase : ∀ {b : UInt8}, b ∉ rest → b ∉ rest.rdropWhile (· = 47) := fun hb hmem =>
    hb ((List.rdropWhile_prefix _ _).subset hmem)
  intro name hname
  rw [h.backendId_of_plain (hbase hquery) (hbase hfragment) hid] at hname
  split_ifs at hname
  · cases hname
  · exact (Option.some.inj hname).symm

end Target

/-! ## A lost acknowledgement and a flap -/

/-- A monitor of one backend. -/
def demoMonitor : Monitor where
  cfg :=
    { enabled := true, controlURL := go "http://hub:8082", tokenEnv := go "MC_ROUTER_CONTROL_TOKEN",
      backends := [⟨go "survival", go "survival:25565", go "smp.example.com"⟩] }
  token := go "token"

/-- The Hub that it notifies. -/
def demoHub : ControlConfig where
  token := go "token"
  backendIds := [go "survival"]
  maxBodyBytes := 8192

/-- A round in which every backend is up, or none. -/
def demoRound (now : ℤ) (up : Bool) (fate : Fate) : Round := ⟨now, fun _ => up, fun _ => fate⟩

/-- The backend is up, goes down for one round and is up again; the
acknowledgement that it is down gets lost. -/
def flap : List Round :=
  [demoRound 0 true .answered, demoRound 10 false .unanswered, demoRound 20 true .answered]

/-- **The Hub is left with the wrong availability.** In the last round the
backend is up and the monitor skips it as unchanged, while the Hub has stored
that it is down. -/
theorem hub_left_offline :
    ∃ w, System.run (demoMonitor.step demoHub) {} (flap.take 2) = some w ∧
      demoMonitor.checkAll demoHub (demoRound 20 true .answered) w =
        ([(go "survival", .skipped)], w) ∧
      w.store.availability (go "survival") = some .offline ∧
      ¬ Truthful demoMonitor demoHub w (demoRound 20 true .answered) := by
  obtain ⟨w, hw⟩ : ∃ w, System.run (demoMonitor.step demoHub) {} (flap.take 2) = some w := ⟨_, rfl⟩
  have hcheck : demoMonitor.checkAll demoHub (demoRound 20 true .answered) w =
      ([(go "survival", .skipped)], w) := by
    obtain rfl := Option.some.inj hw
    rfl
  have hstored : w.store.availability (go "survival") = some .offline := by
    obtain rfl := Option.some.inj hw
    decide +kernel
  refine ⟨w, hw, hcheck, hstored, fun htruthful => ?_⟩
  have hright := htruthful (go "survival") .skipped (by rw [hcheck]; simp) nofun
  rw [hcheck, hstored] at hright
  cases hright

/-- The environment in which the monitor's configuration is valid. -/
def demoEnv : Env :=
  ⟨fun _ => [], fun _ => none, fun _ => none, fun _ => some (go "http", go "hub:8082")⟩

/-- The acknowledgement is lost, and the backend stays down until the next
one gets through. -/
theorem hub_truthful_outage :
    System.Meets (demoMonitor.step demoHub) (Truthful demoMonitor demoHub) {}
      [demoRound 0 true .answered, demoRound 10 false .unanswered, demoRound 20 false .lost,
        demoRound 30 false .answered, demoRound 40 false .answered, demoRound 50 true .answered] := by
  have hvalid : Config.validateAvailability demoEnv demoMonitor.cfg = none := by decide +kernel
  have hurl : Absolute demoMonitor.cfg.controlURL [] :=
    ⟨⟨go "http", go "hub:8082", by decide, by decide, by decide, by decide +kernel, rfl⟩, nofun⟩
  refine (hub_truthful_iff demoMonitor demoEnv rfl hvalid (fun backend hmem => ?_) demoHub _).mpr ?_
  · obtain rfl := List.mem_singleton.mp hmem
    exact names_of_plain hurl List.not_mem_nil List.not_mem_nil (by decide)
  decide +kernel

end Availability

end McRouter
