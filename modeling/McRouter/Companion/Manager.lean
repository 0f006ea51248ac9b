import McRouter.Companion.Client
import McRouter.Common.System

/-!
# The companion's registration manager

`VoiceChatRegistrationManager.java` and the gateway, side by side. The calls
of `registerBeforeUdp`, `unregister` and `close` each run in a thread of
their own, the refreshes and the `DELETE`s of displaced leases one after the
other in the manager's executor; each stands at one of the points between
two operations on the map of leases, the executor or the network. Requests
are handled when they arrive, in any order and whether or not the client
still waits for the answer, or are lost.
-/

namespace McRouter

namespace Companion

open Voice

/-- `TrackedLease`: the lease and the number of its refresh task. -/
structure TrackedLease where
  lease : Lease
  future : ℕ
deriving DecidableEq

/-- What has become of a request. -/
inductive Delivery where
  | sent
  | lost
  | answered (response : Response)
deriving DecidableEq

/-- A request, with the call that sends it; `none` is the executor. -/
structure Message where
  call : Option ℕ
  ask : Ask
  delivery : Delivery := .sent
deriving DecidableEq

/-- Where a call stands. -/
inductive Call where
  /-- In `retry`, before attempt number `attempt`. -/
  | register (playerUuid : UUID) (attempt : ℕ)
  /-- Waiting for the answer to request `n`. -/
  | putting (playerUuid : UUID) (attempt n : ℕ)
  /-- `retry` has returned; before `schedule`. -/
  | granted (playerUuid : UUID) (lease : Lease)
  /-- Before `leases.put`. -/
  | scheduled (playerUuid : UUID) (tracked : TrackedLease)
  /-- With the lease that `leases.put` has displaced. -/
  | displaced (playerUuid : UUID) (previous : TrackedLease)
  /-- Before `leases.remove`. -/
  | unregister (playerUuid : UUID)
  /-- Waiting for the answer to a `DELETE`. -/
  | deleting (n : ℕ)
  /-- In the loop of `close`, with the players to go. -/
  | closing (players : List UUID)
  | closingDelete (n : ℕ) (players : List UUID)
  | returned
  | threw
deriving DecidableEq

/-- What the executor is doing. -/
inductive Worker where
  | idle
  /-- `refresh`, waiting for the answer to request `n`. -/
  | refreshing (playerUuid : UUID) (tracked : TrackedLease) (n : ℕ)
  /-- `refresh`, before `leases.replace`. -/
  | refreshed (playerUuid : UUID) (tracked : TrackedLease) (lease : Lease)
  | deleting (n : ℕ)
deriving DecidableEq

/-- The manager, the gateway and the requests between them. -/
structure World where
  now : ℤ
  shared : Shared := {}
  messages : List Message := []
  leases : GoMap UUID TrackedLease := ∅
  calls : List Call := []
  /-- The refresh tasks: the player, and whether it is cancelled. -/
  futures : List (UUID × Bool) := []
  /-- The `DELETE`s waiting for the executor. -/
  tasks : List (UUID × Lease) := []
  worker : Worker := .idle
  shutdown : Bool := false

namespace World

variable (w : World)

/-- A call moves on. -/
def setCall (i : ℕ) (c : Call) : World := { w with calls := w.calls.set i c }

/-- `HttpClient.send`: the request gets the next number. -/
def send (call : Option ℕ) (ask : Ask) : World :=
  { w with messages := w.messages ++ [{ call, ask }] }

/-- `TrackedLease.cancel`. -/
def cancel (tracked : TrackedLease) : World :=
  { w with futures := w.futures.modify tracked.future fun f => (f.1, true) }

/-- The answer to request `n`, if there is one. -/
def answerTo (n : ℕ) : Option Response :=
  match w.messages[n]? with
  | some { delivery := .answered response, .. } => some response
  | _ => none

/-! ## Calls -/

/-- A round of `retry`; after the last one the exception is thrown. -/
def attempt (i : ℕ) (playerUuid : UUID) (attempt : ℕ) : World :=
  if attempt < 3 then
    (w.send (some i) (.register playerUuid)).setCall i
      (.putting playerUuid attempt w.messages.length)
  else w.setCall i .threw

/-- `schedule`; an executor that is shut down takes no task. -/
def schedule (i : ℕ) (playerUuid : UUID) (lease : Lease) : World :=
  if w.shutdown then w.setCall i .threw
  else
    { w.setCall i (.scheduled playerUuid ⟨lease, w.futures.length⟩) with
      futures := w.futures ++ [(playerUuid, false)] }

/-- `leases.put`. -/
def put (i : ℕ) (playerUuid : UUID) (tracked : TrackedLease) : World :=
  { w.setCall i (match w.leases.lookup playerUuid with
      | none => .returned
      | some previous => .displaced playerUuid previous) with
    leases := w.leases.insert playerUuid tracked }

/-- `previous.cancel` and `unregisterBestEffort`. -/
def displace (i : ℕ) (playerUuid : UUID) (previous : TrackedLease) : World :=
  if w.shutdown then (w.cancel previous).setCall i .threw
  else
    { (w.cancel previous).setCall i .returned with
      tasks := w.tasks ++ [(playerUuid, previous.lease)] }

/-- `leases.remove`, `tracked.cancel` and the `DELETE`; `rest` is where the
call waits for the answer, `done` where it goes on if there is no lease. -/
def remove (i : ℕ) (playerUuid : UUID) (rest : ℕ → Call) (done : Call) : World :=
  match w.leases.lookup playerUuid with
  | none => w.setCall i done
  | some tracked =>
    (({ w with leases := w.leases.erase playerUuid }.cancel tracked).send (some i)
      (.unregister playerUuid tracked.lease)).setCall i (rest w.messages.length)

/-- A call goes on by itself. -/
def proceed (i : ℕ) : Option World :=
  match w.calls[i]? with
  | some (.register playerUuid attempt) => some (w.attempt i playerUuid attempt)
  | some (.granted playerUuid lease) => some (w.schedule i playerUuid lease)
  | some (.scheduled playerUuid tracked) => some (w.put i playerUuid tracked)
  | some (.displaced playerUuid previous) => some (w.displace i playerUuid previous)
  | some (.unregister playerUuid) => some (w.remove i playerUuid .deleting .returned)
  | some (.closing (playerUuid :: players)) =>
    some (w.remove i playerUuid (fun n => .closingDelete n players) (.closing players))
  | some (.closing []) =>
    -- `executor.shutdownNow` drops what is waiting
    some { w.setCall i .returned with tasks := [], shutdown := true }
  | _ => none

/-- A call gets the answer it waits for. -/
def receive (i : ℕ) : Option World :=
  match w.calls[i]? with
  | some (.putting playerUuid attempt n) =>
    (w.answerTo n).map fun
      | .registration leaseID expiresAt =>
        w.setCall i (.granted playerUuid ⟨n, playerUuid, leaseID, expiresAt⟩)
      | .status _ => w.setCall i (.register playerUuid (attempt + 1))
  | some (.deleting n) => (w.answerTo n).map fun _ => w.setCall i .returned
  | some (.closingDelete n players) => (w.answerTo n).map fun _ => w.setCall i (.closing players)
  | _ => none

/-- The send a call waits for fails: a timeout, a lost connection, an answer
that is none. -/
def fail (i : ℕ) : Option World :=
  match w.calls[i]? with
  | some (.putting playerUuid attempt _) => some (w.setCall i (.register playerUuid (attempt + 1)))
  | some (.deleting _) => some (w.setCall i .returned)
  | some (.closingDelete _ players) => some (w.setCall i (.closing players))
  | _ => none

/-- The thread of a `registerBeforeUdp` is interrupted while it waits. -/
def interrupt (i : ℕ) : Option World :=
  match w.calls[i]? with
  | some (.register _ _) => some (w.setCall i .threw)
  | some (.putting _ _ _) => some (w.setCall i .threw)
  | _ => none

/-! ## The executor -/

/-- A refresh task is due: `refresh` up to its request. -/
def refresh (f : ℕ) : Option World :=
  match w.worker, w.shutdown, w.futures[f]? with
  | .idle, false, some (playerUuid, false) =>
    match w.leases.lookup playerUuid with
    | none => some w
    | some tracked => some { w.send none (.refresh playerUuid tracked.lease) with
        worker := .refreshing playerUuid tracked w.messages.length }
  | _, _, _ => none

/-- The executor takes up the `DELETE` of a displaced lease. -/
def task (j : ℕ) : Option World :=
  match w.worker, w.tasks[j]? with
  | .idle, some (playerUuid, lease) =>
    some { w.send none (.unregister playerUuid lease) with
      tasks := w.tasks.eraseIdx j, worker := .deleting w.messages.length }
  | _, _ => none

/-- The executor goes on: an answer arrives, or `leases.replace` is done,
which replaces the entry that was read and no other. -/
def work : Option World :=
  match w.worker with
  | .refreshing playerUuid tracked n =>
    (w.answerTo n).map fun
      | .registration leaseID expiresAt =>
        { w with worker := .refreshed playerUuid tracked ⟨n, playerUuid, leaseID, expiresAt⟩ }
      | .status _ => { w with worker := .idle }
  | .refreshed playerUuid tracked lease =>
    if w.leases.lookup playerUuid = some tracked then
      some { w with worker := .idle, leases := w.leases.insert playerUuid ⟨lease, tracked.future⟩ }
    else some { w with worker := .idle }
  | .deleting n => (w.answerTo n).map fun _ => { w with worker := .idle }
  | .idle => none

/-- The send the executor waits for fails, or is interrupted. -/
def workFails : Option World :=
  match w.worker with
  | .refreshing _ _ _ => some { w with worker := .idle }
  | .deleting _ => some { w with worker := .idle }
  | _ => none

/-! ## The network and the gateway -/

/-- What becomes of request `n`. -/
def settle (n : ℕ) (delivery : Delivery) : World :=
  { w with messages := w.messages.modify n fun m => { m with delivery } }

/-- Request `n` arrives and is handled. -/
def serve (r : Runtime) (ids : LeaseIDs) (config : CompanionConfig) (n : ℕ) : Option World :=
  match w.messages[n]? with
  | some { ask, delivery := .sent, .. } =>
    let out := answer r ids w.now n (config.requestFor ask) w.shared
    some { w.settle n (.answered out.1) with shared := out.2 }
  | _ => none

/-- Request `n` is lost. -/
def lose (n : ℕ) : Option World :=
  match w.messages[n]? with
  | some { delivery := .sent, .. } => some (w.settle n .lost)
  | _ => none

end World

/-- A call that starts. -/
inductive Start where
  | registerBeforeUdp (playerUuid : UUID)
  | unregister (playerUuid : UUID)
  | close
deriving DecidableEq

/-- Where a call starts; `registerBeforeUdp` has made its check. -/
def World.start (config : CompanionConfig) (w : World) : Start → Call
  | .registerBeforeUdp playerUuid =>
    if w.leases.lookup playerUuid = none ∧ config.maxTrackedPlayers ≤ w.leases.len then .threw
    else .register playerUuid 0
  | .unregister playerUuid => .unregister playerUuid
  | .close => .closing (w.leases.entries.map Sigma.fst)

/-- A step. -/
inductive Action where
  | tick (d : ℕ)
  | start (call : Start)
  | proceed (i : ℕ)
  | receive (i : ℕ)
  | fail (i : ℕ)
  | interrupt (i : ℕ)
  | refresh (f : ℕ)
  | task (j : ℕ)
  | work
  | workFails
  | serve (n : ℕ)
  | lose (n : ℕ)
  /-- Whatever else the gateway does: other clients, packets, sweeps. -/
  | elsewhere (shared : Shared)

/-- What a step does. -/
def step (r : Runtime) (ids : LeaseIDs) (config : CompanionConfig) (w : World) :
    Action → Option World
  | .tick d => some { w with now := w.now + d }
  | .start call => some { w with calls := w.calls ++ [w.start config call] }
  | .proceed i => w.proceed i
  | .receive i => w.receive i
  | .fail i => w.fail i
  | .interrupt i => w.interrupt i
  | .refresh f => w.refresh f
  | .task j => w.task j
  | .work => w.work
  | .workFails => w.workFails
  | .serve n => w.serve r ids config n
  | .lose n => w.lose n
  | .elsewhere shared => some { w with shared }

/-- A manager and a gateway that have just been started. -/
def boot (now : ℤ) : World := { now }

end Companion

end McRouter
