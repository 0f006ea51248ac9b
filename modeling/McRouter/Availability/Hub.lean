import McRouter.Config.Validate

/-!
# The Hub's control companion

`BackendAvailabilityStore.java` and `ControlHttpServer.java` of the control
companion: the availability that the Hub has stored for each backend, and
the requests that change it. A request that is answered with 204 stores the
availability it says under the backend that its path names, and any other
leaves the store as it is (`handle_cases`).

The task that `McRouterControlPaperPlugin.update` hands to the server thread
is run at once here.
-/

namespace McRouter

namespace Availability

open Strings

/-- `BackendAvailability`. -/
inductive BackendAvailability where
  | online
  | offline
deriving DecidableEq, Repr

/-- The availability of a backend that is up, or not. -/
def BackendAvailability.ofBool (up : Bool) : BackendAvailability := if up then .online else .offline

theorem BackendAvailability.ofBool_injective : Function.Injective ofBool := by decide

/-- `BackendStatus`. -/
structure BackendStatus where
  backendId : GoString
  availability : BackendAvailability
  observedAt : ℤ
deriving DecidableEq

/-- `BackendAvailabilityStore`. -/
abbrev Store := GoMap GoString BackendStatus

/-- `BackendAvailabilityStore.Change`. -/
structure Change where
  previous : BackendStatus
  current : BackendStatus
deriving DecidableEq

/-- `BackendAvailabilityStore.update`: the change, if there is one. -/
def Store.update (statuses : Store) (backendId : GoString) (availability : BackendAvailability)
    (observedAt : ℤ) : Option Change × Store :=
  let next : BackendStatus := ⟨backendId, availability, observedAt⟩
  let change : Option Change := match statuses.lookup backendId with
    | none => none
    | some previous => if previous.availability = availability then none else some ⟨previous, next⟩
  (change, statuses.insert backendId next)

/-- The availability stored for a backend. -/
def Store.availability (statuses : Store) (backendId : GoString) : Option BackendAvailability :=
  (statuses.lookup backendId).map (·.availability)

/-! ## Requests -/

/-- `ControlConfig`, as far as it is read here. -/
structure ControlConfig where
  token : GoString
  backendIds : List GoString
  maxBodyBytes : ℤ

/-- A request: the method and the target of its first line, the headers that
are read, and what follows them. -/
structure ControlRequest where
  method : GoString
  target : GoString
  authorization : GoString
  contentLength : ℤ
  body : GoString

/-- `String.split` at one character: empty pieces at the end are dropped. -/
def javaSplit (sep : UInt8) (s : GoString) : List GoString :=
  if sep ∈ s then (split sep s).rdropWhile (· = []) else [s]

/-- `backendId`. -/
def backendId (path : GoString) : Option GoString :=
  match javaSplit 47 (cutAt 63 path) with
  | [_, v1, backends, id, availability] =>
    if v1 = go "v1" ∧ backends = go "backends" ∧ availability = go "availability" then some id
    else none
  | _ => none

/-- A string in double quotes. -/
def quoted (s : GoString) : GoString := 34 :: (s ++ [34])

/-- The blanks of a regular expression. -/
def isBlank (b : UInt8) : Bool := b = 32 || (9 ≤ b && b ≤ 13)

/-- The pattern `AVAILABILITY` at the start of a text. -/
def matchAvailability (s : GoString) : Option BackendAvailability :=
  if !hasPrefix s (quoted (go "availability")) then none
  else match (trimPrefix s (quoted (go "availability"))).dropWhile isBlank with
    | 58 :: rest =>
      let value := rest.dropWhile isBlank
      if hasPrefix value (quoted (go "online")) then some .online
      else if hasPrefix value (quoted (go "offline")) then some .offline
      else none
    | _ => none

/-- `Matcher.find` with the pattern `AVAILABILITY`. -/
def findAvailability : GoString → Option BackendAvailability
  | [] => none
  | b :: rest => (matchAvailability (b :: rest)).or (findAvailability rest)

/-- `ControlHttpServer.handle`: the status, and the store after it. -/
def handle (config : ControlConfig) (now : ℤ) (req : ControlRequest) (statuses : Store) :
    ℕ × Store :=
  match backendId req.target with
  | none => (404, statuses)
  | some id =>
    if req.method ≠ go "PUT" ∨ id ∉ config.backendIds then (404, statuses)
    else if req.authorization ≠ go "Bearer " ++ config.token then (401, statuses)
    else if req.contentLength < 0 ∨ config.maxBodyBytes < req.contentLength then (400, statuses)
    else
      let body := req.body.take req.contentLength.toNat
      match findAvailability body with
      | none => (400, statuses)
      | some availability =>
        if (body.length : ℤ) ≠ req.contentLength then (400, statuses)
        else (204, (statuses.update id availability now).2)

/-- **What a request does.** -/
theorem handle_cases (config : ControlConfig) (now : ℤ) (req : ControlRequest) (statuses : Store) :
    ((handle config now req statuses).1 ≠ 204 ∧ (handle config now req statuses).2 = statuses) ∨
      ∃ id availability, backendId req.target = some id ∧
        findAvailability (req.body.take req.contentLength.toNat) = some availability ∧
        handle config now req statuses = (204, statuses.insert id ⟨id, availability, now⟩) := by
  simp only [handle]
  split
  · exact Or.inl ⟨by simp, rfl⟩
  rename_i id hid
  split
  · exact Or.inl ⟨by simp, rfl⟩
  split
  · exact Or.inl ⟨by simp, rfl⟩
  split
  · exact Or.inl ⟨by simp, rfl⟩
  split
  · exact Or.inl ⟨by simp, rfl⟩
  rename_i availability hfind
  split
  · exact Or.inl ⟨by simp, rfl⟩
  · exact Or.inr ⟨id, availability, hid, hfind, rfl⟩

/-! ## The path of a backend -/

/-- The path that `notify` appends to the control URL. -/
def availabilityPath (id : GoString) : GoString :=
  go "/v1/backends/" ++ (id ++ go "/availability")

theorem availabilityPath_eq (id : GoString) : availabilityPath id =
    47 :: (go "v1" ++ 47 :: (go "backends" ++ 47 :: (id ++ 47 :: go "availability"))) := by
  rw [availabilityPath, show go "/v1/backends/" = 47 :: (go "v1" ++ 47 :: (go "backends" ++ [47]))
    by decide, show go "/availability" = 47 :: go "availability" by decide]
  simp

theorem isLabelByte_of_mem {id : GoString} (hid : Config.isDNSLabel id = true) {b : UInt8}
    (hb : b ∈ id) : HostAddr.isLabelByte b = true := by
  simp only [Config.isDNSLabel, Bool.and_eq_true, List.all_eq_true] at hid
  exact hid.1.1.2 b hb

/-- The path has no query and no fragment. -/
theorem notMem_availabilityPath {id : GoString} (hid : Config.isDNSLabel id = true) :
    63 ∉ availabilityPath id ∧ 35 ∉ availabilityPath id := by
  have hbytes : ∀ b ∈ availabilityPath id, b ≠ 63 ∧ b ≠ 35 := by
    intro b hb
    simp only [availabilityPath, List.mem_append] at hb
    rcases hb with hb | hb | hb
    · exact List.all_eq_true.mp
        (by decide : (go "/v1/backends/").all (fun b => b ≠ 63 ∧ b ≠ 35) = true) b hb |>
        of_decide_eq_true
    · exact forall_byte (P := fun b => HostAddr.isLabelByte b = true → b ≠ 63 ∧ b ≠ 35)
        (by decide +kernel) b (isLabelByte_of_mem hid hb)
    · exact List.all_eq_true.mp
        (by decide : (go "/availability").all (fun b => b ≠ 63 ∧ b ≠ 35) = true) b hb |>
        of_decide_eq_true
  exact ⟨fun h => (hbytes 63 h).1 rfl, fun h => (hbytes 35 h).2 rfl⟩

/-- The pieces of a path: those of the base, and four more. -/
theorem javaSplit_availabilityPath {id : GoString} (hid : Config.isDNSLabel id = true)
    (base : GoString) : javaSplit 47 (base ++ availabilityPath id) =
      split 47 base ++ [go "v1", go "backends", id, go "availability"] := by
  have hslash : (47 : UInt8) ∉ id := fun hmem =>
    absurd (isLabelByte_of_mem hid hmem) (by decide)
  rw [availabilityPath_eq, javaSplit, if_pos (by simp), split_append_sep, split_append_sep,
    split_append_sep, split_append_sep, split_of_notMem (by decide : (47 : UInt8) ∉ go "v1"),
    split_of_notMem (by decide : (47 : UInt8) ∉ go "backends"), split_of_notMem hslash,
    split_of_notMem (by decide : (47 : UInt8) ∉ go "availability")]
  refine List.rdropWhile_eq_self_iff.mpr fun hne => ?_
  rw [List.getLast_append_of_ne_nil (by simp) (by simp)]
  have hlast : go "availability" ≠ [] := by decide
  simpa using hlast

/-- **A path below `base` names its backend, or none**: its own when the base
has no slash. -/
theorem backendId_path {base id : GoString} (hbase : 63 ∉ base)
    (hid : Config.isDNSLabel id = true) : backendId (base ++ availabilityPath id) =
      if 47 ∈ base then none else some id := by
  have hquery : (63 : UInt8) ∉ base ++ availabilityPath id := by
    simp [hbase, (notMem_availabilityPath hid).1]
  rw [backendId, cutAt_of_notMem hquery, javaSplit_availabilityPath hid]
  split_ifs with hslash
  · obtain ⟨p, ps, hps⟩ := List.exists_cons_of_ne_nil (List.splitOn_ne_nil (47 : UInt8) base)
    cases ps with
    | nil =>
      obtain ⟨-, hnot, hjoin⟩ := split_eq_iff.mp hps
      rw [show base = p by simpa using hjoin.symm] at hslash
      exact absurd hslash (hnot p (List.mem_singleton.mpr rfl))
    | cons p' ps =>
      rw [split, hps]
      split
      · rename_i heq
        have hlen := congrArg List.length heq
        simp at hlen
      · rfl
  · rw [split_of_notMem hslash]
    simp

end Availability

end McRouter
