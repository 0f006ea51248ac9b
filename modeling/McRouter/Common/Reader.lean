import McRouter.Common.Strings

/-!
# Readers

`io.Reader` as the code uses it: one byte at a time, or exactly `k` bytes
through `io.ReadFull`. A connection hands its bytes over in pieces the
network chooses (`Source`); a `bytes.Reader` has them all at once
(`Bytes`). **What is read does not depend on the pieces**: the first
simulates the second (`source_simulates`), and every action built from the
two operations inherits it (`Sim.bind`). So what an action reads is proved
on `Bytes` and holds of every connection.
-/

namespace McRouter

/-- An action on a reader's state `σ` that returns an `α` or fails. -/
def ReadM (σ ε α : Type) : Type := σ → Except ε α × σ

namespace ReadM

variable {σ τ ε ε' α β : Type}

instance : Monad (ReadM σ ε) where
  pure a s := (.ok a, s)
  bind x f s := match x s with
    | (.ok a, s') => f a s'
    | (.error e, s') => (.error e, s')

/-- The action that fails. -/
def fail (e : ε) : ReadM σ ε α := fun s => (.error e, s)

/-- The action that reads nothing and returns `x`. -/
def ofExcept (x : Except ε α) : ReadM σ ε α := fun s => (x, s)

/-- The action with its error rewritten. -/
def mapErr (f : ε → ε') (x : ReadM σ ε α) : ReadM σ ε' α := fun s => ((x s).1.mapError f, (x s).2)

/-- A sequence succeeds when both parts do. -/
theorem bind_eq_ok {x : ReadM σ ε α} {f : α → ReadM σ ε β} {s s'' : σ} {b : β} :
    (x >>= f) s = (.ok b, s'') ↔ ∃ a s', x s = (.ok a, s') ∧ f a s' = (.ok b, s'') := by
  change (match x s with | (.ok a, s') => f a s' | (.error e, s') => (.error e, s')) = _ ↔ _
  rcases x s with ⟨a | a, s'⟩ <;> simp

/-- A sequence goes on where its first part ended. -/
theorem bind_of_ok {x : ReadM σ ε α} {f : α → ReadM σ ε β} {s s' : σ} {a : α}
    (h : x s = (.ok a, s')) : (x >>= f) s = f a s' := by
  change (match x s with | (.ok a, s') => f a s' | (.error e, s') => (.error e, s')) = _
  rw [h]

/-- A sequence fails where its first part does. -/
theorem bind_of_error {x : ReadM σ ε α} {f : α → ReadM σ ε β} {s s' : σ} {e : ε}
    (h : x s = (.error e, s')) : (x >>= f) s = (.error e, s') := by
  change (match x s with | (.ok a, s') => f a s' | (.error e, s') => (.error e, s')) = _
  rw [h]

theorem mapErr_eq_ok {f : ε → ε'} {x : ReadM σ ε α} {s s' : σ} {a : α} :
    mapErr f x s = (.ok a, s') ↔ x s = (.ok a, s') := by
  unfold mapErr
  rcases x s with ⟨b | b, t⟩ <;> simp [Except.mapError]

theorem ofExcept_eq_ok {x : Except ε α} {s s' : σ} {a : α} :
    (ofExcept x : ReadM σ ε α) s = (.ok a, s') ↔ x = .ok a ∧ s = s' := Prod.mk.injEq _ _ _ _ ▸ Iff.rfl

/-- `y` does on `view s` what `x` does on `s`: the same result, and the
views of the states reached agree. -/
def Sim (view : σ → τ) (x : ReadM σ ε α) (y : ReadM τ ε α) : Prop :=
  ∀ s, y (view s) = ((x s).1, view (x s).2)

namespace Sim

variable {view : σ → τ}

theorem pure (a : α) : Sim view (pure a : ReadM σ ε α) (Pure.pure a) := fun _ => rfl

theorem fail (e : ε) : Sim view (ReadM.fail e : ReadM σ ε α) (ReadM.fail e) := fun _ => rfl

theorem ofExcept (x : Except ε α) : Sim view (ReadM.ofExcept x : ReadM σ ε α) (ReadM.ofExcept x) :=
  fun _ => rfl

theorem bind {x : ReadM σ ε α} {y : ReadM τ ε α} {f : α → ReadM σ ε β} {g : α → ReadM τ ε β}
    (hxy : Sim view x y) (hfg : ∀ a, Sim view (f a) (g a)) : Sim view (x >>= f) (y >>= g) := by
  intro s
  change (match y (view s) with | (.ok a, s') => g a s' | (.error e, s') => (.error e, s')) =
    ((match x s with | (.ok a, s') => f a s' | (.error e, s') => (.error e, s')).1,
      view (match x s with | (.ok a, s') => f a s' | (.error e, s') => (.error e, s')).2)
  rw [hxy s]
  rcases x s with ⟨a | a, s'⟩
  · rfl
  · exact hfg a s'

theorem mapErr {x : ReadM σ ε α} {y : ReadM τ ε α} (f : ε → ε') (hxy : Sim view x y) :
    Sim view (ReadM.mapErr f x) (ReadM.mapErr f y) := by
  intro s
  simp [ReadM.mapErr, hxy s]

theorem ite {c : Prop} [Decidable c] {x x' : ReadM σ ε α} {y y' : ReadM τ ε α}
    (h : Sim view x y) (h' : Sim view x' y') :
    Sim view (if c then x else x') (if c then y else y') := by
  split
  · exact h
  · exact h'

end Sim

end ReadM

/-- The two ways the code reads. A failed `readFull` also says what it had
read: the caller's buffer holds it. -/
structure Reader (σ ε : Type) where
  readByte : ReadM σ ε UInt8
  readFull : ℕ → ReadM σ (GoString × ε) GoString

/-! ## All bytes at hand -/

/-- The unread bytes, and the error of a read past them. `bytes.Reader` is
the case where that is `io.EOF`. -/
structure Bytes (ε : Type) where
  rest : GoString
  atEnd : ε
deriving DecidableEq

namespace Bytes

variable {ε : Type}

/-- `ReadByte`. -/
def readByte : ReadM (Bytes ε) ε UInt8
  | ⟨[], e⟩ => (.error e, ⟨[], e⟩)
  | ⟨b :: t, e⟩ => (.ok b, ⟨t, e⟩)

/-- `io.ReadFull` for `k` bytes. `short` is what `io.ReadAtLeast` makes of
an error that comes after the first byte. -/
def readFull (short : ε → ε) (k : ℕ) : ReadM (Bytes ε) (GoString × ε) GoString := fun s =>
  if k ≤ s.rest.length then (.ok (s.rest.take k), ⟨s.rest.drop k, s.atEnd⟩)
  else (.error (s.rest, if s.rest = [] then s.atEnd else short s.atEnd), ⟨[], s.atEnd⟩)

/-- The reader over `Bytes`. -/
def reader (short : ε → ε) : Reader (Bytes ε) ε := ⟨readByte, readFull short⟩

/-- One byte is what `io.ReadFull` reads into a buffer of one. -/
theorem readByte_eq (short : ε → ε) (s : Bytes ε) :
    readByte s = match readFull short 1 s with
      | (.ok bs, s') => (.ok (bs.headD 0), s')
      | (.error e, s') => (.error e.2, s') := by
  obtain ⟨_ | ⟨b, t⟩, e⟩ := s <;> simp [readByte, readFull]

theorem readByte_eq_ok {s s' : Bytes ε} {b : UInt8} (h : readByte s = (.ok b, s')) :
    s.rest = b :: s'.rest ∧ s'.atEnd = s.atEnd := by
  obtain ⟨_ | ⟨c, t⟩, e⟩ := s
  · cases h
  · cases h
    exact ⟨rfl, rfl⟩

/-- Reading what is at hand. -/
theorem readFull_append (short : ε → ε) (bs rest : GoString) (e : ε) :
    readFull short bs.length ⟨bs ++ rest, e⟩ = (.ok bs, ⟨rest, e⟩) := by
  simp [readFull]

/-- An action that, when it succeeds, has taken bytes off the front. -/
def Consumes {ε' α : Type} (x : ReadM (Bytes ε) ε' α) : Prop :=
  ∀ s a s', x s = (.ok a, s') → ∃ got, s.rest = got ++ s'.rest

theorem readFull_eq_ok {short : ε → ε} {k : ℕ} {s s' : Bytes ε} {bs : GoString}
    (h : readFull short k s = (.ok bs, s')) :
    s.rest = bs ++ s'.rest ∧ bs.length = k ∧ s'.atEnd = s.atEnd := by
  unfold readFull at h
  split at h
  · rename_i hk
    cases h
    exact ⟨(List.take_append_drop k s.rest).symm, List.length_take_of_le hk, rfl⟩
  · cases h

namespace Consumes

variable {ε' ε'' α β : Type}

theorem pure (a : α) : Consumes (Pure.pure a : ReadM (Bytes ε) ε' α) := by
  intro s b s' h
  cases h
  exact ⟨[], rfl⟩

theorem ofExcept (x : Except ε' α) : Consumes (ReadM.ofExcept x : ReadM (Bytes ε) ε' α) := by
  intro s a s' h
  obtain ⟨-, rfl⟩ := ReadM.ofExcept_eq_ok.mp h
  exact ⟨[], rfl⟩

theorem mapErr {x : ReadM (Bytes ε) ε' α} (f : ε' → ε'') (h : Consumes x) :
    Consumes (ReadM.mapErr f x) := fun s a s' hx => h s a s' (ReadM.mapErr_eq_ok.mp hx)

theorem bind {x : ReadM (Bytes ε) ε' α} {f : α → ReadM (Bytes ε) ε' β} (hx : Consumes x)
    (hf : ∀ a, Consumes (f a)) : Consumes (x >>= f) := by
  intro s b s'' h
  obtain ⟨a, s', hxa, hfa⟩ := ReadM.bind_eq_ok.mp h
  obtain ⟨got, hgot⟩ := hx s a s' hxa
  obtain ⟨got', hgot'⟩ := hf a s' b s'' hfa
  exact ⟨got ++ got', by rw [hgot, hgot', List.append_assoc]⟩

theorem ite {c : Prop} [Decidable c] {x y : ReadM (Bytes ε) ε' α} (hx : Consumes x)
    (hy : Consumes y) : Consumes (if c then x else y) := by
  split
  · exact hx
  · exact hy

theorem readFull (short : ε → ε) (k : ℕ) : Consumes (Bytes.readFull short k) :=
  fun _ bs _ h => ⟨bs, (readFull_eq_ok h).1⟩

end Consumes

end Bytes

/-! ## Bytes that arrive in pieces -/

/-- The read side of a connection: the pieces in which its bytes arrive,
and the error of every read after the last. A `Read` returns the piece, or
as much of it as the buffer takes and the next `Read` the rest. -/
structure Source (ε : Type) where
  chunks : List GoString
  err : ε
deriving DecidableEq

namespace Source

variable {ε : Type}

/-- What the connection will deliver, however it is cut. -/
def view (s : Source ε) : Bytes ε := ⟨s.chunks.flatten, s.err⟩

/-- The loop of `io.ReadAtLeast` for `k` more bytes after `got`. -/
def readFullLoop (short : ε → ε) (err : ε) : (k : ℕ) → (chunks : List GoString) → (got : GoString) →
    Except (GoString × ε) GoString × Source ε
  | 0, chunks, got => (.ok got, ⟨chunks, err⟩)
  | _ + 1, [], got => (.error (got, if got = [] then err else short err), ⟨[], err⟩)
  | k + 1, c :: cs, got =>
    if k + 1 < c.length then (.ok (got ++ c.take (k + 1)), ⟨c.drop (k + 1) :: cs, err⟩)
    else readFullLoop short err (k + 1 - c.length) cs (got ++ c)

/-- `io.ReadFull` for `k` bytes. -/
def readFull (short : ε → ε) (k : ℕ) : ReadM (Source ε) (GoString × ε) GoString := fun s =>
  readFullLoop short s.err k s.chunks []

/-- A reader without `ReadByte`: one byte is read by `io.ReadFull` into a
buffer of one. -/
def readByte (short : ε → ε) : ReadM (Source ε) ε UInt8 := fun s =>
  match readFull short 1 s with
  | (.ok bs, s') => (.ok (bs.headD 0), s')
  | (.error e, s') => (.error e.2, s')

/-- The reader over a connection. -/
def reader (short : ε → ε) : Reader (Source ε) ε := ⟨readByte short, readFull short⟩

/-- The loop reads what is there, in order, whatever the pieces. -/
theorem readFullLoop_eq (short : ε → ε) (err : ε) (chunks : List GoString) :
    ∀ (k : ℕ) (got : GoString),
    (readFullLoop short err k chunks got).1 =
        (if k ≤ chunks.flatten.length then .ok (got ++ chunks.flatten.take k)
          else .error (got ++ chunks.flatten,
            if got ++ chunks.flatten = [] then err else short err)) ∧
      (readFullLoop short err k chunks got).2.view = ⟨chunks.flatten.drop k, err⟩ := by
  induction chunks with
  | nil =>
    intro k got
    cases k <;> simp [readFullLoop, view]
  | cons c cs ih =>
    intro k got
    cases k with
    | zero => simp [readFullLoop, view]
    | succ k =>
      rw [readFullLoop]
      split
      · rename_i hlt
        have htake : (c ++ cs.flatten).take (k + 1) = c.take (k + 1) :=
          List.take_append_of_le_length (by omega)
        have hdrop : (c ++ cs.flatten).drop (k + 1) = c.drop (k + 1) ++ cs.flatten :=
          List.drop_append_of_le_length (by omega)
        simp only [List.flatten_cons, List.length_append, htake, hdrop, view]
        rw [if_pos (by omega)]
        simp
      · rename_i hge
        -- the whole piece goes into the buffer
        obtain ⟨hres, hview⟩ := ih (k + 1 - c.length) (got ++ c)
        have htake : (c ++ cs.flatten).take (k + 1) = c ++ cs.flatten.take (k + 1 - c.length) := by
          rw [List.take_append, List.take_of_length_le (by omega)]
        have hdrop : (c ++ cs.flatten).drop (k + 1) = cs.flatten.drop (k + 1 - c.length) := by
          rw [List.drop_append, List.drop_of_length_le (by omega), List.nil_append]
        have hle : k + 1 - c.length ≤ cs.flatten.length ↔
            k + 1 ≤ c.length + cs.flatten.length := by omega
        simp only [List.flatten_cons, List.length_append, htake, hdrop, ← List.append_assoc, hres,
          hview, hle, and_self]

end Source

/-! ## The simulation -/

/-- Both operations of `r` do what those of `Bytes` do on the view. -/
structure Reader.Simulates {σ ε : Type} (short : ε → ε) (r : Reader σ ε) (view : σ → Bytes ε) :
    Prop where
  readByte : ReadM.Sim view r.readByte Bytes.readByte
  readFull : ∀ k, ReadM.Sim view (r.readFull k) (Bytes.readFull short k)

variable {ε : Type}

/-- **A connection reads as its bytes do**, however they are cut. -/
theorem source_simulates (short : ε → ε) : (Source.reader short).Simulates short Source.view := by
  have hfull : ∀ k, ReadM.Sim Source.view (Source.readFull short k) (Bytes.readFull short k) := by
    intro k s
    obtain ⟨hres, hview⟩ := Source.readFullLoop_eq short s.err s.chunks k []
    rw [Source.readFull, hview, hres]
    simp only [Bytes.readFull, Source.view, List.nil_append]
    by_cases hk : k ≤ s.chunks.flatten.length
    · simp only [if_pos hk]
      exact if_pos hk
    · simp only [if_neg hk, List.drop_of_length_le (Nat.le_of_not_le hk)]
      rfl
  refine ⟨fun s => ?_, hfull⟩
  rw [Bytes.readByte_eq short, hfull 1 s]
  change _ = ((Source.readByte short s).1, (Source.readByte short s).2.view)
  unfold Source.readByte
  rcases Source.readFull short 1 s with ⟨e | bs, s'⟩ <;> rfl

end McRouter
