import McRouter.Availability.Monitor
import McRouter.Common.Format
import McRouter.Common.Runes

/-!
# Notifications on the wire

`ControlHttpServer.java` reads a request off its socket byte by byte; here
the bytes are those of the socket, up to its end or the read timeout. Which
of them are a request is said by a grammar (`Line`, `HeaderBlock`), and the
reader reads it (`reads_readLine`, `reads_readHeaders`). So **what is
accepted is well formed and what is well formed is accepted**
(`request_accepted_iff`).

The companion takes the bytes of a header as Latin-1 characters and compares
their UTF-8 encoding with that of its token, so a token that is not ASCII
does not match itself.
-/

namespace McRouter

namespace Availability

open Strings Unicode

/-! ## Java strings -/

/-- `String.trim`. -/
def trim (s : GoString) : GoString := (s.dropWhile (· ≤ 32)).rdropWhile (· ≤ 32)

/-- `Character.toLowerCase` of a Latin-1 character. -/
def lowerLatin1 (b : UInt8) : UInt8 :=
  if (65 ≤ b ∧ b ≤ 90) ∨ (0xC0 ≤ b ∧ b ≤ 0xDE ∧ b ≠ 0xD7) then b + 32 else b

/-- `String.toLowerCase` of a string of Latin-1 characters. -/
def toLowerCase (s : GoString) : GoString := s.map lowerLatin1

/-- `getBytes(UTF_8)` of a string of Latin-1 characters. -/
def utf8 (s : GoString) : GoString := s.flatMap fun b => encodeRune b.toNat

/-- `Integer.parseInt`. -/
def parseInt (s : GoString) : Option ℤ :=
  (signed? s).filter fun n => -(2 ^ 31) ≤ n ∧ n < 2 ^ 31

/-- `String.split` at one character with a positive limit. -/
def splitLimit (sep : UInt8) : ℕ → GoString → List GoString
  | 0, s => [s]
  | 1, s => [s]
  | limit + 2, s =>
    if sep ∈ s then cutAt sep s :: splitLimit sep (limit + 1) (after sep s) else [s]

/-! ## Reading a request -/

/-- The exceptions that end a request without an answer. -/
inductive Failure where
  | unexpectedEnd
  | lineTooLong
  | malformedHeader
deriving DecidableEq, Repr

abbrev Headers := GoMap GoString GoString

/-- The loop of `readLine`, with the rounds that are left. -/
def readLineLoop : ℕ → GoString → ReadM (Bytes Failure) Failure GoString
  | 0, _ => ReadM.fail .lineTooLong
  | rounds + 1, line => do
    let next ← Bytes.readByte
    if next = 10 then pure (removeAll 13 line) else readLineLoop rounds (line ++ [next])

/-- `readLine`. -/
def readLine : ReadM (Bytes Failure) Failure GoString := readLineLoop 8193 []

/-- What `readHeaders` does with a line. -/
def putHeader (headers : Headers) (line : GoString) : Except Failure Headers :=
  if 58 ∉ line ∨ cutAt 58 line = [] then .error .malformedHeader
  else .ok (headers.insert (toLowerCase (cutAt 58 line)) (trim (after 58 line)))

/-- The loop of `readHeaders`. A round takes a byte at least, so as many
rounds as there are bytes are enough. -/
def readHeadersLoop : ℕ → Headers → ReadM (Bytes Failure) Failure Headers
  | 0, _ => ReadM.fail .unexpectedEnd
  | rounds + 1, headers => do
    let line ← readLine
    if line = [] then pure headers
    else do
      let headers ← ReadM.ofExcept (putHeader headers line)
      readHeadersLoop rounds headers

/-- `readHeaders`. -/
def readHeaders : ReadM (Bytes Failure) Failure Headers := fun s =>
  readHeadersLoop (s.rest.length + 1) ∅ s

/-- `headers.getOrDefault`. -/
def Headers.getOrDefault (headers : Headers) (name value : GoString) : GoString :=
  (headers.lookup name).getD value

/-- `authorized`. -/
def authorized (value token : GoString) : Bool := go "Bearer " ++ token = utf8 value

/-- `contentLength`. -/
def contentLength (headers : Headers) : ℤ :=
  (parseInt (headers.getOrDefault (go "content-length") (go "-1"))).getD (-1)

/-- The backend that a request line names. -/
def requestBackend : List GoString → Option GoString
  | [_, path, _] => backendId path
  | _ => none

/-- What `handle` answers to a request line and headers that were read, with
what follows them. -/
def respond (config : ControlConfig) (now : ℤ) (line : GoString) (headers : Headers)
    (input : GoString) (statuses : Store) : ℕ × Store :=
  let request := splitLimit 32 3 line
  match requestBackend request with
  | none => (404, statuses)
  | some id =>
    if request.head? ≠ some (go "PUT") ∨ id ∉ config.backendIds then (404, statuses)
    else if !authorized (headers.getOrDefault (go "authorization") []) config.token then
      (401, statuses)
    else
      let length := contentLength headers
      if length < 0 ∨ config.maxBodyBytes < length then (400, statuses)
      else
        let body := input.take length.toNat
        match findAvailability body with
        | none => (400, statuses)
        | some availability =>
          if (body.length : ℤ) ≠ length then (400, statuses)
          else (204, (statuses.update id availability now).2)

/-- `ControlHttpServer.handle` on the bytes of a socket: the status that is
answered, if any, and the store after it. -/
def handleBytes (config : ControlConfig) (now : ℤ) (input : GoString) (statuses : Store) :
    Option ℕ × Store :=
  match readLine ⟨input, .unexpectedEnd⟩ with
  | (.error _, _) => (none, statuses)
  | (.ok line, s) =>
    match readHeaders s with
    | (.error _, _) => (none, statuses)
    | (.ok headers, s') =>
      let out := respond config now line headers s'.rest statuses
      (some out.1, out.2)

/-! ## The grammar -/

/-- A line: at most 8192 bytes up to a line feed. Carriage returns do not
count. -/
def Line : Format GoString := fun word line =>
  ∃ raw, 10 ∉ raw ∧ raw.length ≤ 8192 ∧ word = raw ++ [10] ∧ line = removeAll 13 raw

/-- Header lines up to an empty one; a later field replaces an earlier one of
its name. -/
inductive HeaderBlock : Headers → GoString → Headers → Prop where
  | blank {headers : Headers} {word : GoString} (hline : Line word []) :
      HeaderBlock headers word headers
  | field {headers headers' result : Headers} {word line rest : GoString} (hline : Line word line)
      (hne : line ≠ []) (hput : putHeader headers line = .ok headers')
      (hrest : HeaderBlock headers' rest result) : HeaderBlock headers (word ++ rest) result

theorem Line.length_pos {word line : GoString} (h : Line word line) : 0 < word.length := by
  obtain ⟨raw, -, -, rfl, -⟩ := h
  simp

theorem reads_readByte : Bytes.Reads (Bytes.readByte : ReadM (Bytes Failure) Failure UInt8)
    fun word b => word = [b] := by
  intro s b s'
  constructor
  · intro h
    obtain ⟨hrest, hend⟩ := Bytes.readByte_eq_ok h
    exact ⟨[b], rfl, by rw [List.singleton_append, ← hrest, hend]⟩
  · rintro ⟨_, rfl, rfl⟩
    rfl

theorem reads_readLineLoop : ∀ (rounds : ℕ) (line : GoString),
    Bytes.Reads (readLineLoop rounds line) fun word a =>
      ∃ raw, 10 ∉ raw ∧ raw.length < rounds ∧ word = raw ++ [10] ∧
        a = removeAll 13 (line ++ raw) := by
  intro rounds
  induction rounds with
  | zero =>
    intro line
    exact (Bytes.Reads.fail _).congr fun _ _ => by simp
  | succ rounds ih =>
    intro line
    refine (reads_readByte.bind fun next =>
      (Bytes.Reads.pure (removeAll 13 line)).ite (ih (line ++ [next]))).congr ?_
    intro word a
    constructor
    · rintro ⟨_, v, next, rfl, rfl, ⟨rfl, rfl, rfl⟩ | ⟨hne, raw, hraw, hlen, rfl, rfl⟩⟩
      · exact ⟨[], by simp, by simp, rfl, by rw [List.append_nil]⟩
      · refine ⟨next :: raw, ?_, by simpa using hlen, rfl, by simp⟩
        simpa [hraw] using fun h => hne h.symm
    · rintro ⟨raw, hraw, hlen, rfl, rfl⟩
      cases raw with
      | nil => exact ⟨[10], [], 10, rfl, rfl, .inl ⟨rfl, rfl, by rw [List.append_nil]⟩⟩
      | cons next raw =>
        rw [List.mem_cons, not_or] at hraw
        refine ⟨[next], raw ++ [10], next, rfl, rfl, .inr ⟨fun h => hraw.1 h.symm, raw, hraw.2, ?_,
          rfl, by simp⟩⟩
        simpa using hlen

/-- `readLine` reads a line. -/
theorem reads_readLine : Bytes.Reads readLine Line := by
  refine (reads_readLineLoop 8193 []).congr fun word line => ?_
  simp only [Line, List.nil_append, Nat.lt_succ_iff]

/-- Rounds that are enough for the bytes are enough for the headers. -/
theorem readHeadersLoop_iff : ∀ (rounds : ℕ) (headers : Headers) (s : Bytes Failure)
    (result : Headers) (s' : Bytes Failure), s.rest.length < rounds →
    (readHeadersLoop rounds headers s = (.ok result, s') ↔
      ∃ word, HeaderBlock headers word result ∧ s = ⟨word ++ s'.rest, s'.atEnd⟩) := by
  intro rounds
  induction rounds with
  | zero =>
    intro headers s result s' hlen
    omega
  | succ rounds ih =>
    intro headers s result s' hlen
    rw [readHeadersLoop, ReadM.bind_eq_ok]
    constructor
    · rintro ⟨line, s₁, hread, hgo⟩
      obtain ⟨word, hline, rfl⟩ := (reads_readLine _ _ _).mp hread
      split_ifs at hgo with hblank
      · subst hblank
        cases hgo
        exact ⟨word, .blank hline, rfl⟩
      · obtain ⟨headers', s₂, hmake, hloop⟩ := ReadM.bind_eq_ok.mp hgo
        obtain ⟨hput, rfl⟩ := ReadM.ofExcept_eq_ok.mp hmake
        have hshort := hline.length_pos
        rw [List.length_append] at hlen
        obtain ⟨rest, hrest, rfl⟩ := (ih headers' s₁ result s' (by omega)).mp hloop
        exact ⟨word ++ rest, .field hline hblank hput hrest, by rw [List.append_assoc]⟩
    · rintro ⟨word, hblock, rfl⟩
      cases hblock with
      | blank hline =>
        refine ⟨[], s', reads_readLine.append hline s'.rest s'.atEnd, ?_⟩
        rw [if_pos rfl]
        rfl
      | @field _ headers' _ word line rest hline hne hput hrest =>
        have hshort := hline.length_pos
        rw [List.length_append, List.length_append] at hlen
        refine ⟨line, ⟨rest ++ s'.rest, s'.atEnd⟩, ?_, ?_⟩
        · rw [List.append_assoc]
          exact reads_readLine.append hline _ _
        · rw [if_neg hne, ReadM.bind_eq_ok]
          refine ⟨headers', _, ReadM.ofExcept_eq_ok.mpr ⟨hput, rfl⟩, ?_⟩
          exact (ih headers' _ result s' (by simp; omega)).mpr ⟨rest, hrest, rfl⟩

/-- `readHeaders` reads a block of headers. -/
theorem reads_readHeaders : Bytes.Reads readHeaders (HeaderBlock ∅) :=
  fun s result s' => readHeadersLoop_iff _ ∅ s result s' (Nat.lt_succ_self _)

/-! ## What is accepted -/

/-- The request that a line, headers and what follows them make. -/
def request (method target : GoString) (headers : Headers) (input : GoString) : ControlRequest where
  method := method
  target := target
  authorization := utf8 (headers.getOrDefault (go "authorization") [])
  contentLength := contentLength headers
  body := input

/-- The answer to a request line of three parts is the answer to its
request. -/
theorem respond_eq_handle (config : ControlConfig) (now : ℤ) {line method target version : GoString}
    (hline : splitLimit 32 3 line = [method, target, version]) (headers : Headers)
    (input : GoString) (statuses : Store) :
    respond config now line headers input statuses =
      handle config now (request method target headers input) statuses := by
  have hauth : (!authorized (headers.getOrDefault (go "authorization") []) config.token) = true ↔
      utf8 (headers.getOrDefault (go "authorization") []) ≠ go "Bearer " ++ config.token := by
    rw [authorized, Bool.not_eq_true', decide_eq_false_iff_not]
    exact not_congr eq_comm
  simp only [respond, hline, requestBackend, handle, request, List.head?_cons, ne_eq,
    Option.some.injEq]
  cases backendId target with
  | none => rfl
  | some id => exact if_congr Iff.rfl rfl (if_congr hauth rfl rfl)

/-- A request line of fewer parts names no backend. -/
theorem respond_of_short (config : ControlConfig) (now : ℤ) {line : GoString}
    (hline : (splitLimit 32 3 line).length ≠ 3) (headers : Headers) (input : GoString)
    (statuses : Store) : respond config now line headers input statuses = (404, statuses) := by
  have hnone : requestBackend (splitLimit 32 3 line) = none := by
    unfold requestBackend
    split
    · rename_i heq
      rw [heq] at hline
      exact absurd rfl hline
    · rfl
  simp only [respond, hnone]

/-- What a request that is answered with 204 has. -/
structure Accepted (config : ControlConfig) (req : ControlRequest) (id : GoString)
    (availability : BackendAvailability) : Prop where
  method : req.method = go "PUT"
  backend : backendId req.target = some id
  listed : id ∈ config.backendIds
  authorization : req.authorization = go "Bearer " ++ config.token
  length : 0 ≤ req.contentLength ∧ req.contentLength ≤ config.maxBodyBytes
  body : req.contentLength.toNat ≤ req.body.length
  availability : findAvailability (req.body.take req.contentLength.toNat) = some availability

theorem handle_of_accepted {config : ControlConfig} {req : ControlRequest} {id : GoString}
    {availability : BackendAvailability} (h : Accepted config req id availability) (now : ℤ)
    (statuses : Store) :
    handle config now req statuses = (204, statuses.insert id ⟨id, availability, now⟩) := by
  have hmethod : ¬ (req.method ≠ go "PUT" ∨ id ∉ config.backendIds) := by
    rw [not_or, not_not, not_not]
    exact ⟨h.method, h.listed⟩
  have hlength := h.length
  have hbody := h.body
  have htaken : ((req.body.take req.contentLength.toNat).length : ℤ) = req.contentLength := by
    rw [List.length_take]
    omega
  simp only [handle, h.backend, if_neg hmethod, h.availability]
  rw [if_neg (not_not.mpr h.authorization), if_neg (by omega), if_neg (not_not.mpr htaken)]
  rfl

theorem accepted_of_handle {config : ControlConfig} {now : ℤ} {req : ControlRequest}
    {statuses : Store} (h : (handle config now req statuses).1 = 204) :
    ∃ id availability, Accepted config req id availability := by
  simp only [handle] at h
  split at h
  · cases h
  rename_i id hid
  split at h
  · cases h
  rename_i hmethod
  split at h
  · cases h
  rename_i hauth
  split at h
  · cases h
  rename_i hlength
  split at h
  · cases h
  rename_i availability hfind
  split at h
  · cases h
  rename_i htaken
  rw [not_or, not_not, not_not] at hmethod
  refine ⟨id, availability, hmethod.1, hid, hmethod.2, not_not.mp hauth, by omega, ?_, hfind⟩
  rw [not_not, List.length_take] at htaken
  omega

/-- What was stored last can be read off. -/
theorem insert_injective {statuses : Store} {id id' : GoString} {status status' : BackendStatus}
    (h : statuses.insert id status = statuses.insert id' status') :
    id = id' ∧ status = status' := by
  have hhead := congrArg (fun m : Store => m.entries.head?) h
  simp only [AList.entries_insert, List.head?_cons, Option.some.injEq, Sigma.mk.injEq,
    heq_eq_eq] at hhead
  exact hhead

theorem handle_eq_iff {config : ControlConfig} {now : ℤ} {req : ControlRequest} {statuses : Store}
    {id : GoString} {availability : BackendAvailability} :
    handle config now req statuses = (204, statuses.insert id ⟨id, availability, now⟩) ↔
      Accepted config req id availability := by
  refine ⟨fun h => ?_, fun h => handle_of_accepted h now statuses⟩
  obtain ⟨id', availability', hacc⟩ := accepted_of_handle (congrArg Prod.fst h)
  rw [handle_of_accepted hacc, Prod.mk.injEq] at h
  obtain ⟨rfl, hstatus⟩ := insert_injective h.2
  obtain rfl : availability' = availability := congrArg BackendStatus.availability hstatus
  exact hacc

/-- What the companion does with the bytes of a socket: if they can be read,
they get the answer to their request. -/
theorem handleBytes_cases (config : ControlConfig) (now : ℤ) (input : GoString) (statuses : Store) :
    handleBytes config now input statuses = (none, statuses) ∨
      handleBytes config now input statuses = (some 404, statuses) ∨
      ∃ line method target version headers head block rest,
        input = head ++ block ++ rest ∧ Line head line ∧ HeaderBlock ∅ block headers ∧
        splitLimit 32 3 line = [method, target, version] ∧
        handleBytes config now input statuses =
          (some (handle config now (request method target headers rest) statuses).1,
            (handle config now (request method target headers rest) statuses).2) := by
  unfold handleBytes
  split
  · exact .inl rfl
  rename_i line s hline
  obtain ⟨head, hhead, hinput⟩ := (reads_readLine _ _ _).mp hline
  split
  · exact .inl rfl
  rename_i headers s' hheaders
  obtain ⟨block, hblock, rfl⟩ := (reads_readHeaders _ _ _).mp hheaders
  have hbytes : input = head ++ block ++ s'.rest := by
    rw [List.append_assoc]
    exact congrArg Bytes.rest hinput
  by_cases hlen : (splitLimit 32 3 line).length = 3
  · obtain ⟨method, target, version, hsplit⟩ := List.length_eq_three.mp hlen
    refine .inr (.inr ⟨line, method, target, version, headers, head, block, s'.rest, hbytes, hhead,
      hblock, hsplit, ?_⟩)
    rw [respond_eq_handle config now hsplit]
  · refine .inr (.inl ?_)
    rw [respond_of_short config now hlen]

theorem handleBytes_append (config : ControlConfig) (now : ℤ) {head line block : GoString}
    {headers : Headers} (hhead : Line head line) (hblock : HeaderBlock ∅ block headers)
    (rest : GoString) (statuses : Store) :
    handleBytes config now (head ++ block ++ rest) statuses =
      (some (respond config now line headers rest statuses).1,
        (respond config now line headers rest statuses).2) := by
  rw [List.append_assoc]
  simp only [handleBytes, reads_readLine.append hhead, reads_readHeaders.append hblock]

/-- Bytes that begin with a request for a backend: a request line of three
parts, headers up to an empty line, and what makes the request accepted. -/
def Requests (config : ControlConfig) (input id : GoString) (availability : BackendAvailability) :
    Prop :=
  ∃ line method target version headers head block rest,
    input = head ++ block ++ rest ∧ Line head line ∧ HeaderBlock ∅ block headers ∧
    splitLimit 32 3 line = [method, target, version] ∧
    Accepted config (request method target headers rest) id availability

/-- What is well formed is accepted. -/
theorem handleBytes_of_requests {config : ControlConfig} {input id : GoString}
    {availability : BackendAvailability} (h : Requests config input id availability) (now : ℤ)
    (statuses : Store) :
    handleBytes config now input statuses =
      (some 204, statuses.insert id ⟨id, availability, now⟩) := by
  obtain ⟨line, method, target, version, headers, head, block, rest, rfl, hhead, hblock, hsplit,
    hacc⟩ := h
  rw [handleBytes_append config now hhead hblock, respond_eq_handle config now hsplit,
    handle_of_accepted hacc]

/-- What is not accepted is not stored, and what is accepted is well formed. -/
theorem refused_or_requests (config : ControlConfig) (now : ℤ) (input : GoString)
    (statuses : Store) :
    ((handleBytes config now input statuses).1 ≠ some 204 ∧
        (handleBytes config now input statuses).2 = statuses) ∨
      ∃ id availability, Requests config input id availability := by
  rcases handleBytes_cases config now input statuses with heq | heq |
    ⟨line, method, target, version, headers, head, block, rest, hinput, hhead, hblock, hsplit, heq⟩
  · rw [heq]
    exact .inl ⟨by simp, rfl⟩
  · rw [heq]
    exact .inl ⟨by simp, rfl⟩
  · rcases handle_cases config now (request method target headers rest) statuses with
      ⟨hstatus, hsame⟩ | ⟨id, availability, -, -, hout⟩
    · rw [heq]
      exact .inl ⟨fun h => hstatus (Option.some.inj h), hsame⟩
    · exact .inr ⟨id, availability, line, method, target, version, headers, head, block, rest,
        hinput, hhead, hblock, hsplit, handle_eq_iff.mp hout⟩

/-- **What is accepted is well formed, and what is well formed is accepted.**
Anything else is answered with another status, or not at all, and leaves the
store as it is. -/
theorem request_accepted_iff (config : ControlConfig) (now : ℤ) (input : GoString)
    (statuses : Store) :
    (∀ id availability, handleBytes config now input statuses =
        (some 204, statuses.insert id ⟨id, availability, now⟩) ↔
          Requests config input id availability) ∧
      ((¬ ∃ id availability, Requests config input id availability) →
        (handleBytes config now input statuses).1 ≠ some 204 ∧
          (handleBytes config now input statuses).2 = statuses) := by
  have hcases := refused_or_requests config now input statuses
  refine ⟨fun id availability => ⟨fun hout => ?_, fun h => handleBytes_of_requests h now statuses⟩,
    hcases.resolve_right⟩
  obtain ⟨id', availability', hreq⟩ := hcases.resolve_left fun h => h.1 (by rw [hout])
  -- what was stored says which request it was
  rw [handleBytes_of_requests hreq, Prod.mk.injEq] at hout
  obtain ⟨rfl, hstatus⟩ := insert_injective hout.2
  obtain rfl : availability' = availability := congrArg BackendStatus.availability hstatus
  exact hreq

end Availability

end McRouter
