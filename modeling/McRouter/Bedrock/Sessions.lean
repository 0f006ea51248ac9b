import McRouter.Bedrock.Proxy

/-!
# The sessions of the host proxy

What a session has called and what it is bound to call is its script. A step
either performs the next call of the script or adds to it, and `Leads` says
what it may add in which phase, so what holds of the script (`Sound`) holds
from the first step to the last. Two properties in every interleaving and for
every library follow: a session talks to one backend and in order
(`session_forwards`), and a shutdown leaves nothing behind
(`shutdown_complete`).
-/

namespace McRouter

namespace Bedrock

namespace HostProxy

open Pipe

variable {P : Type} {lib : Library P} {router : Option Router}

/-! ## What the calls of a session are -/

/-- The packets `ReadPacket` has returned from a side. -/
@[simp] def received (side : Side) (calls : List (Call P)) : List P :=
  calls.filterMap fun
    | .readPacket d pk => if d = side then pk else none
    | _ => none

/-- The packets `WritePacket` was called with on a side. -/
@[simp] def written (side : Side) (calls : List (Call P)) : List P :=
  calls.filterMap fun
    | .writePacket d pk _ => if d = side then some pk else none
    | _ => none

/-- The backends that were dialled. -/
@[simp] def dialled (calls : List (Call P)) : List GoString :=
  calls.filterMap fun
    | .dial backend _ => some backend
    | _ => none

namespace Call

@[simp] def isNotice : Call P → Bool
  | disconnect _ => true
  | _ => false

@[simp] def isClose : Call P → Bool
  | close _ => true
  | _ => false

/-- The client is closed, or told to go. -/
@[simp] def parts : Call P → Bool
  | close .client | disconnect _ => true
  | _ => false

end Call

/-- What is done at the end. -/
@[simp] def Op.ending : Op P → Bool
  | call c => c.isClose || c.isNotice
  | unregister _ => true
  | _ => false

namespace Phase

/-- What the loop that reads from `side` has in its hands. -/
@[simp] def hand (side : Side) : Phase P → List P
  | bridging loop =>
    match loop side with
    | .writing pk => [pk]
    | _ => []
  | _ => []

/-- The copying from `side` is not over. -/
@[simp] def going (side : Side) : Phase P → Bool
  | bridging loop =>
    match loop side with
    | .reading | .writing _ => true
    | _ => false
  | leaving _ | ended => false
  | _ => true

/-- The backend was dialled. -/
@[simp] def dialed : Phase P → Bool
  | dialing => false
  | _ => true

/-- It may have a backend that nobody is bound to close yet. -/
@[simp] def connected : Phase P → Bool
  | registering | spawning _ | bridging _ => true
  | _ => false

/-- What is left to do, at the end. -/
@[simp] def todo : Phase P → List (Op P)
  | leaving todo => todo
  | _ => []

/-- The calls among that. -/
@[simp] def left (p : Phase P) : List (Call P) := p.todo.flatMap Op.calls

@[simp] def isOver : Phase P → Bool
  | leaving _ | ended => true
  | _ => false

/-- Connections that can be in `conns`. -/
@[simp] def holds (side : Side) : Phase P → Prop
  | ended => False
  | dialing | failed | registering => side = .client
  | spawning _ | bridging _ => True
  | leaving todo => .unregister side ∈ todo

end Phase

/-- The calls of a session, with those that are left. -/
def Session.script (s : Session P) : List (Call P) := s.calls ++ s.phase.left

/-- What holds of a session that is sent to `backend`. -/
structure Sound (backend : GoString) (s : Session P) : Prop where
  todo : ∀ op ∈ s.phase.todo, op.ending = true
  packets : ∀ side, written side.other s.script ++ s.phase.hand side = received side s.script
  lossless : ∀ side, s.phase.going side = true → ∀ pk, .writePacket side.other pk false ∉ s.calls
  dials : dialled s.script = [] ∨ s.phase.dialed = true ∧ dialled s.script = [backend]
  notices : s.script.Pairwise fun c d => c.isNotice = true → d.isClose = true
  unnoticed : s.phase.isOver = false → ∀ c ∈ s.calls, c.isNotice = false
  parted : s.phase.isOver = true → ∃ c ∈ s.script, c.parts = true
  closes : ∀ b, .dial b true ∈ s.script → s.phase.connected = true ∨ .close .backend ∈ s.script
  registered : ∀ side, s.registered side = true → s.phase.holds side

/-- What a step of a session that adds `new` to its script may do to what
its phase stands for. -/
structure Phase.Leads (backend : GoString) (closed : Bool) (p : Phase P) (op : Op P) (q : Phase P)
    (new : List (Call P)) : Prop where
  script : op.calls ++ q.left = p.left ++ new
  todo : ∀ op ∈ q.todo, op.ending = true
  packets : ∀ side, p.hand side ++ received side new = written side.other new ++ q.hand side
  lossless : ∀ side, q.going side = true → p.going side = true ∧
    ∀ pk, .writePacket side.other pk false ∉ op.calls
  dials : dialled new = [] ∧ (p.dialed = true → q.dialed = true) ∨
    p.dialed = false ∧ q.dialed = true ∧ dialled new = [backend]
  notices : new.Pairwise fun c d => c.isNotice = true → d.isClose = true
  unnoticed : (new ≠ [] ∨ q.isOver = false) → p.isOver = false
  silent : q.isOver = false → ∀ c ∈ op.calls, c.isNotice = false
  parted : q.isOver = true → p.isOver = true ∨ ∃ c ∈ new, c.parts = true
  closes : (p.connected = true ∨ ∃ b, .dial b true ∈ new) →
    q.connected = true ∨ .close .backend ∈ new
  holds : ∀ registered, (∀ side, registered side = true → p.holds side) →
    ∀ side, op.mark registered side = true → q.holds side
  shrinks : closed = true → ∀ registered side, op.mark registered side = true →
    registered side = true

namespace Phase

variable {backend : GoString} {ctxDone closed : Bool} {p q : Phase P} {m : Move P} {op : Op P}

/-- A loop that copies no more goes on. -/
theorem leads_off {loop : Side → Loop P} {side : Side} {l : Loop P}
    (hl : loop side = .leaving ∨ loop side = .closing) (hl' : l = .closing ∨ l = .ended)
    (hop : op = .pass ∨ ∃ d, op = .call (.close d)) :
    Leads backend closed (.bridging loop) op (.bridging (Function.update loop side l)) op.calls := by
  constructor
  case packets | lossless =>
    intro d
    rcases Side.eq_or_eq_other d side with rfl | rfl <;> rcases hl with hl | hl <;>
      rcases hl' with rfl | rfl <;> rcases hop with rfl | ⟨e, rfl⟩ <;> simp [hl]
  all_goals rcases hop with rfl | ⟨e, rfl⟩ <;> simp +contextual

theorem leads_of_next (hp : ∀ op ∈ p.todo, op.ending = true)
    (h : p.next backend ctxDone closed m = some (op, q)) :
    ∃ new, Leads backend closed p op q new := by
  unfold next at h
  -- one case for each line of `next`, in its order
  split at h
  · rename_i ok
    cases h
    refine ⟨[.dial backend ok], ?_⟩
    cases ok <;> constructor <;> simp +contextual
  · cases h
    refine ⟨[if ctxDone || closed then .close .client else .disconnect unavailable], ?_⟩
    split_ifs <;> constructor <;> simp +contextual
  · cases hc : closed <;> simp only [hc, Bool.false_eq_true, if_false, if_true] at h <;> cases h
    · refine ⟨[], ?_⟩
      constructor <;> simp +contextual
    · refine ⟨[.close .backend, .close .client], ?_⟩
      constructor <;> simp +contextual
  · rename_i side ok
    split_ifs at h
    cases h
    refine ⟨[.spawn side ok], ?_⟩
    constructor <;> simp +contextual
  · split at h <;> cases h
    split_ifs
    · refine ⟨[], ?_⟩
      constructor <;> simp +contextual
    · refine ⟨[.disconnect lost, .close .backend], ?_⟩
      constructor
      case holds => exact fun _ _ => Side.forall.mpr (by simp [deferred])
      all_goals simp +contextual [deferred]
  · rename_i loop side pk
    split at h <;> cases h
    rename_i hl
    refine ⟨[.readPacket side pk], ?_⟩
    constructor
    case packets | lossless =>
      intro d
      cases pk <;> rcases Side.eq_or_eq_other d side with rfl | rfl <;> simp [hl]
    all_goals simp +contextual
  · rename_i loop side ok
    split at h <;> cases h
    rename_i pk hl
    refine ⟨[.writePacket side.other pk ok], ?_⟩
    constructor
    case packets | lossless =>
      intro d
      cases ok <;> rcases Side.eq_or_eq_other d side with rfl | rfl <;> simp [hl]
    all_goals simp +contextual
  · split at h <;> cases h
    · exact ⟨_, leads_off (.inl ‹_›) (.inr rfl) (.inl rfl)⟩
    · exact ⟨_, leads_off (.inl ‹_›) (.inl rfl) (.inr ⟨_, rfl⟩)⟩
    · exact ⟨_, leads_off (.inr ‹_›) (.inr rfl) (.inr ⟨_, rfl⟩)⟩
  · rename_i loop
    split at h <;> cases h
    rename_i hc hb
    refine ⟨[.disconnect lost, .close .backend], ?_⟩
    have hl : ∀ d, loop d = .ended := Side.forall.mpr ⟨hc, hb⟩
    constructor
    case holds => exact fun _ _ => Side.forall.mpr (by simp [deferred])
    all_goals simp +contextual [deferred, hl]
  · cases h
    refine ⟨[], ?_⟩
    simp only [todo, List.forall_mem_cons] at hp
    cases op <;> simp at hp <;> constructor
    case unregister.holds | unregister.shrinks =>
      simp only [Op.mark, Function.update_apply, holds, List.mem_cons]
      grind
    all_goals simp +contextual [hp]
  · cases h
    refine ⟨[], ?_⟩
    constructor <;> simp +contextual
  · cases h

end Phase

namespace Sound

variable {backend : GoString} {s : Session P}

/-- **A session keeps to its script.** -/
theorem next {ctxDone closed : Bool} {m : Move P} {op : Op P} {phase : Phase P}
    (h : Sound backend s) (hn : s.phase.next backend ctxDone closed m = some (op, phase)) :
    Sound backend
      { s with phase, registered := op.mark s.registered, calls := s.calls ++ op.calls } := by
  obtain ⟨new, hl⟩ := Phase.leads_of_next h.todo hn
  have hscript : Session.script { s with
      phase, registered := op.mark s.registered, calls := s.calls ++ op.calls } =
      s.script ++ new := by
    rw [Session.script, List.append_assoc, hl.script, ← List.append_assoc, Session.script]
  refine ⟨hl.todo, fun side => ?_, fun side hgoing pk => ?_, ?_, ?_, fun hover c hc => ?_,
    fun hover => ?_, fun b hb => ?_, hl.holds _ h.registered⟩
  · have hnew := hl.packets side
    have hold := h.packets side
    simp only [hscript, received, written, List.filterMap_append] at hold hnew ⊢
    rw [← hold, List.append_assoc, ← hnew, List.append_assoc]
  · obtain ⟨hbefore, hadded⟩ := hl.lossless side hgoing
    simpa using ⟨h.lossless side hbefore pk, hadded pk⟩
  · have hold := h.dials
    have hnew := hl.dials
    simp only [hscript, dialled, List.filterMap_append] at hold hnew ⊢
    rcases hnew with ⟨hnone, hkeep⟩ | ⟨hp, hq, hone⟩
    · rw [hnone, List.append_nil]
      exact hold.imp_right (And.imp_left hkeep)
    · rcases hold with hnil | ⟨hd, -⟩
      · exact .inr ⟨hq, by rw [hnil, hone, List.nil_append]⟩
      · rw [hp] at hd
        cases hd
  · rw [hscript]
    refine List.pairwise_append.mpr ⟨h.notices, hl.notices, fun c hc d hd hn => ?_⟩
    -- a script that grows has no notice in it
    have hover := hl.unnoticed (.inl (List.ne_nil_of_mem hd))
    have hleft : s.phase.todo = [] := by cases hp : s.phase <;> simp_all
    rw [Session.script, Phase.left, hleft, List.flatMap_nil, List.append_nil] at hc
    rw [h.unnoticed hover c hc] at hn
    cases hn
  · rcases List.mem_append.mp hc with hc | hc
    · exact h.unnoticed (hl.unnoticed (.inr hover)) c hc
    · exact hl.silent hover c hc
  · rw [hscript]
    rcases hl.parted hover with hp | ⟨c, hc, hparts⟩
    · obtain ⟨c, hc, hparts⟩ := h.parted hp
      exact ⟨c, List.mem_append_left _ hc, hparts⟩
    · exact ⟨c, List.mem_append_right _ hc, hparts⟩
  · rw [hscript] at hb ⊢
    rcases List.mem_append.mp hb with hb | hb
    · rcases h.closes b hb with hc | hc
      · exact (hl.closes (.inl hc)).imp_right (List.mem_append_right _)
      · exact .inr (List.mem_append_left _ hc)
    · exact (hl.closes (.inr ⟨b, hb⟩)).imp_right (List.mem_append_right _)

/-- `Close` of the proxy comes between. -/
theorem close (h : Sound backend s) (side : Side) :
    Sound backend { s with calls := s.calls ++ [.close side] } := by
  have hmem : ∀ c, c ∈ Session.script { s with calls := s.calls ++ [.close side] } ↔
      c ∈ s.script ∨ c = .close side := by
    intro c
    simp only [Session.script, List.mem_append, List.mem_singleton]
    tauto
  refine ⟨h.todo, fun d => ?_, fun d hgoing pk => ?_, ?_, ?_, fun hover c hc => ?_, fun hover => ?_,
    fun b hb => ?_, h.registered⟩
  · simpa [Session.script] using h.packets d
  · simpa using h.lossless d hgoing pk
  · simpa [Session.script] using h.dials
  · obtain ⟨hcalls, hleft, hcross⟩ := List.pairwise_append.mp h.notices
    rw [Session.script, List.append_assoc]
    refine List.pairwise_append.mpr
      ⟨hcalls, List.pairwise_cons.mpr ⟨?_, hleft⟩, fun c hc d hd hn => ?_⟩
    · simp
    · rcases List.mem_cons.mp hd with rfl | hd
      · rfl
      · exact hcross c hc d hd hn
  · rcases List.mem_append.mp hc with hc | hc
    · exact h.unnoticed hover c hc
    · rw [List.mem_singleton.mp hc]
      rfl
  · obtain ⟨c, hc, hparts⟩ := h.parted hover
    exact ⟨c, (hmem c).mpr (.inl hc), hparts⟩
  · rcases (hmem _).mp hb with hb | hb
    · exact (h.closes b hb).imp_right fun hc => (hmem _).mpr (.inl hc)
    · cases hb

end Sound

/-! ## The proxy -/

/-- The wait group counts the session. -/
@[simp] def Phase.live : Phase P → ℕ
  | ended => 0
  | _ => 1

/-- What holds of the proxy. -/
structure Inv (router : Option Router) (w : World P) : Prop where
  sound : ∀ (i : ℕ) (s : Session P), w.sessions[i]? = some s →
    Sound (select router s.requestedAddress).backend s
  wg : w.wg = (w.sessions.map (·.phase.live)).sum
  returned : w.serve = .returned → w.wg = 0
  covered : w.closed = true → ∀ (i : ℕ) (s : Session P), w.sessions[i]? = some s → ∀ side,
    s.registered side = true → (i, side) ∈ w.todo ∨ .close side ∈ s.calls

namespace Inv

variable {w w' : World P} {i : ℕ} {s s' : Session P}

/-- A session goes on. -/
theorem set (h : Inv router w) (hi : w.sessions[i]? = some s)
    (hsound : Sound (select router s'.requestedAddress).backend s')
    (hsessions : w'.sessions = w.sessions.set i s')
    (hwg : w'.wg + s.phase.live = w.wg + s'.phase.live) (hlive : s'.phase.live ≤ s.phase.live)
    (hclosed : w'.closed = w.closed) (hserve : w'.serve = w.serve)
    (hcalls : ∀ c ∈ s.calls, c ∈ s'.calls)
    (htodo : ∀ t ∈ w.todo, t ∈ w'.todo ∨ t.1 = i ∧ .close t.2 ∈ s'.calls)
    (hreg : w.closed = true → ∀ side, s'.registered side = true → s.registered side = true) :
    Inv router w' := by
  have hsum := System.sum_set (fun s : Session P => s.phase.live) hi s'
  have hle := System.le_sum (fun s : Session P => s.phase.live) hi
  have hold := h.wg
  refine ⟨?_, ?_, fun hret => ?_, fun hc => ?_⟩
  · rw [hsessions]
    exact System.forall_set h.sound hsound
  · rw [hsessions]
    omega
  · have hzero := h.returned (hserve ▸ hret)
    omega
  · have hbefore := h.covered (hclosed ▸ hc)
    rw [hsessions]
    intro j t hj side ht
    rcases System.getElem?_set_cases hj with ⟨rfl, rfl⟩ | ⟨hne, hj⟩
    · rcases hbefore j s hi side (hreg (hclosed ▸ hc) side ht) with hin | hin
      · exact (htodo _ hin).imp_right And.right
      · exact .inr (hcalls _ hin)
    · exact (hbefore j t hj side ht).imp_left fun hin =>
        (htodo _ hin).resolve_right fun hji => hne hji.1

/-- A client is admitted or refused. -/
theorem concat (h : Inv router w) (hsound : Sound (select router s.requestedAddress).backend s)
    (hsessions : w'.sessions = w.sessions ++ [s]) (hwg : w'.wg = w.wg + s.phase.live)
    (hclosed : w'.closed = w.closed) (hserve : w'.serve ≠ .returned) (htodo : w'.todo = w.todo)
    (hreg : w.closed = true → ∀ side, s.registered side = false) : Inv router w' := by
  refine ⟨?_, ?_, fun hret => absurd hret hserve, fun hc => ?_⟩
  all_goals rw [hsessions]
  · exact System.forall_concat h.sound hsound
  · simp [hwg, h.wg]
  · rw [htodo]
    refine System.forall_concat (h.covered (hclosed ▸ hc)) fun side hs => ?_
    simp [hreg (hclosed ▸ hc) side] at hs

theorem mem_conns (hi : w.sessions[i]? = some s) {side : Side} (hs : s.registered side = true) :
    (i, side) ∈ w.conns := by
  refine List.mem_flatMap.mpr ⟨(s, i), List.mem_zipIdx_iff_getElem?.mpr hi, ?_⟩
  cases side <;> simp [hs]

theorem step {a : Action P} (h : Inv router w) (hs : step lib router w a = some w') :
    Inv router w' := by
  cases a with
  | cancel =>
    cases hs
    exact ⟨h.sound, h.wg, h.returned, h.covered⟩
  | accept | closeListener =>
    simp only [HostProxy.step] at hs
    split_ifs at hs
    cases hs
    exact ⟨h.sound, h.wg, by first | exact h.returned | simp, h.covered⟩
  | acceptFails errClosed =>
    simp only [HostProxy.step] at hs
    split_ifs at hs <;> cases hs <;> exact ⟨h.sound, h.wg, by simp, h.covered⟩
  | serve =>
    simp only [HostProxy.step] at hs
    split at hs
    · rename_i address _
      unfold World.admit at hs
      split_ifs at hs with hc <;> cases hs
      · refine h.concat ?_ rfl rfl rfl (by simp) rfl (by simp)
        constructor <;> simp [Session.script]
      · refine h.concat ?_ rfl rfl rfl (by simp) rfl (by simp [hc])
        constructor <;> simp [Session.script]
    · split_ifs at hs with hwg
      cases hs
      exact ⟨h.sound, h.wg, fun _ => hwg, h.covered⟩
    · cases hs
  | close =>
    simp only [HostProxy.step, Option.some.injEq] at hs
    split_ifs at hs with hc <;> cases hs
    · exact h
    · exact ⟨h.sound, h.wg, h.returned, fun _ i s hi side hs => .inl (mem_conns hi hs)⟩
  | closeConn i side =>
    simp only [HostProxy.step] at hs
    split_ifs at hs
    obtain ⟨s, hi, hs⟩ := Option.bind_eq_some_iff.mp hs
    obtain ⟨s', hp, rfl⟩ := Option.map_eq_some_iff.mp hs
    obtain ⟨-, ⟨⟩⟩ := Option.ite_none_right_eq_some.mp hp
    refine h.set hi ((h.sound i s hi).close side) rfl rfl (Nat.le_refl _) rfl rfl
      (by simp +contextual) (fun t ht => ?_) fun _ _ hr => hr
    by_cases hti : t = (i, side)
    · exact .inr ⟨by rw [hti], by simp [hti]⟩
    · exact .inl ((List.mem_erase_of_ne hti).mpr ht)
  | move i m =>
    obtain ⟨s, hi, hs⟩ := Option.bind_eq_some_iff.mp hs
    obtain ⟨⟨op, phase⟩, hn, hs⟩ := Option.bind_eq_some_iff.mp hs
    obtain ⟨s', hp, rfl⟩ := Option.map_eq_some_iff.mp hs
    obtain ⟨-, ⟨⟩⟩ := Option.ite_none_right_eq_some.mp hp
    obtain ⟨new, hl⟩ := Phase.leads_of_next (h.sound i s hi).todo hn
    have hlive : s.phase.live = 1 := by
      cases hp : s.phase <;> simp_all [Phase.next]
    have hle : s.phase.live ≤ _ := System.le_sum (fun s : Session P => s.phase.live) hi
    rw [hlive, ← h.wg] at hle
    refine h.set hi ((h.sound i s hi).next hn) rfl ?_ ?_ rfl rfl (by simp +contextual)
      (fun t ht => .inl ht) fun hc => hl.shrinks hc _
    · rw [hlive]
      cases phase <;> simp only [World.moved, Phase.live]
      omega
    · rw [hlive]
      cases phase <;> simp

end Inv

theorem run_inv {actions : List (Action P)} {w : World P}
    (hrun : System.run (step lib router) {} actions = some w) : Inv router w :=
  System.run_invariant_of_step (fun _ _ _ hI hs => hI.step hs)
    ⟨by simp, rfl, by simp, by simp⟩ hrun

/-- **A session talks to one backend, in order**, whatever the library does.
It dials at most once, and only the backend the router has for the address
its client asked for. What was passed to `WritePacket` of one side and what
its loop has in hand is what `ReadPacket` of the other has returned, packet
for packet, and the loop ends with the first write that fails. The client
is told at most once that it has to go, and nothing but `Close` follows. -/
theorem session_forwards (lib : Library P) (router : Option Router) (actions : List (Action P))
    (w : World P) (hrun : System.run (step lib router) {} actions = some w) (i : ℕ) (s : Session P)
    (hi : w.sessions[i]? = some s) :
    (dialled s.calls = [] ∨ dialled s.calls = [(select router s.requestedAddress).backend]) ∧
    (∀ side, written side.other s.calls ++ s.phase.hand side = received side s.calls) ∧
    (∀ side pk, .writePacket side.other pk false ∈ s.calls → s.phase.going side = false) ∧
    s.calls.Pairwise fun c d => c.isNotice = true → d.isClose = true := by
  have hs := (run_inv hrun).sound i s hi
  -- what is left holds neither dials nor packets
  have hends : ∀ c ∈ s.phase.left, c.isClose = true ∨ c.isNotice = true := by
    intro c hc
    obtain ⟨op, hop, hc⟩ := List.mem_flatMap.mp hc
    have hending := hs.todo op hop
    cases op <;> simp_all
  have hleft : dialled s.phase.left = [] ∧
      ∀ side, written side s.phase.left = [] ∧ received side s.phase.left = [] := by
    simp only [dialled, written, received, List.filterMap_eq_nil_iff, forall_and]
    refine ⟨fun c hc => ?_, fun _ c hc => ?_, fun _ c hc => ?_⟩ <;> have hc := hends c hc <;>
      cases c <;> simp_all
  have hpackets := hs.packets
  have hdials := hs.dials
  simp only [Session.script, dialled, written, received, List.filterMap_append]
    at hleft hpackets hdials
  simp only [hleft, List.append_nil] at hpackets hdials
  refine ⟨hdials.imp_right And.right, hpackets, fun side pk hmem => ?_,
    (List.pairwise_append.mp hs.notices).1⟩
  by_contra hgoing
  exact hs.lossless side (by simpa using hgoing) pk hmem

/-- A library that may do anything. -/
def anyLibrary : Library P := ⟨fun _ _ _ => true, fun _ _ => true⟩

/-- One client, spawned and bridged, whose first packet is across. -/
def play : List (Action ℕ) :=
  [.accept (go "play"), .serve, .move 0 (.dial true), .move 0 .own, .move 0 (.spawn .client true),
    .move 0 (.spawn .backend true), .move 0 .own, .move 0 (.read .client (some 7)),
    .move 0 (.write .client true)]

theorem session_forwards_play : ∃ w s, System.run (step anyLibrary none) {} play = some w ∧
    w.sessions[0]? = some s ∧ written .backend s.calls = [7] :=
  ⟨_, _, rfl, rfl, (session_forwards anyLibrary none play _ rfl 0 _ rfl).2.1 .client⟩

/-- **A shutdown leaves nothing behind**, whatever the library does. When
`Close` has closed what it took, it has called `Close` on every connection
that is registered. When `Serve` has returned, nothing is registered, every
client was closed or told to go, and every backend that was dialled was
closed. -/
theorem shutdown_complete (lib : Library P) (router : Option Router) (actions : List (Action P))
    (w : World P) (hrun : System.run (step lib router) {} actions = some w) (i : ℕ) (s : Session P)
    (hi : w.sessions[i]? = some s) :
    (w.closed = true → w.todo = [] → ∀ side, s.registered side = true → .close side ∈ s.calls) ∧
    (w.serve = .returned → (∀ side, s.registered side = false) ∧
      (∃ c ∈ s.calls, c.parts = true) ∧ ∀ b, .dial b true ∈ s.calls → .close .backend ∈ s.calls) := by
  have hinv := run_inv hrun
  refine ⟨fun hc htodo side hs => ?_, fun hret => ?_⟩
  · simpa [htodo] using hinv.covered hc i s hi side hs
  · have hle : s.phase.live ≤ _ := System.le_sum (fun s : Session P => s.phase.live) hi
    rw [← hinv.wg, hinv.returned hret] at hle
    have hended : s.phase = .ended := by
      cases hp : s.phase <;> simp_all
    have hsound := hinv.sound i s hi
    have hscript : s.script = s.calls := by simp [Session.script, hended]
    refine ⟨fun side => ?_, hscript ▸ hsound.parted (by simp [hended]), fun b hb => ?_⟩
    · have hholds := hsound.registered side
      simpa [hended] using hholds
    · simpa [hscript, hended] using hsound.closes b (hscript ▸ hb)

/-- The proxy is closed in the middle of the session. -/
def stop : List (Action ℕ) :=
  [.close, .closeListener, .closeConn 0 .backend, .closeConn 0 .client, .acceptFails true,
    .move 0 (.read .client none), .move 0 (.read .backend none), .move 0 (.closeBoth .client),
    .move 0 (.closeBoth .client), .move 0 (.closeBoth .backend)] ++
    List.replicate 6 (.move 0 .own) ++ [.serve]

theorem shutdown_complete_stop : ∃ w s,
    System.run (step anyLibrary none) {} (play ++ stop) = some w ∧
    w.serve = .returned ∧ w.sessions[0]? = some s ∧ .close .backend ∈ s.calls :=
  ⟨_, _, rfl, rfl, rfl,
    ((shutdown_complete anyLibrary none (play ++ stop) _ rfl 0 _ rfl).2 rfl).2.2 [] (by decide)⟩

end HostProxy

end Bedrock

end McRouter
