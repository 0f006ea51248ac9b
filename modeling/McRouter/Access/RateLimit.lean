import McRouter.Common.GoMap
import McRouter.Common.Net
import McRouter.Common.Arithmetic

/-!
# The rate limiter

`internal/ratelimit`: one token bucket per client address, at most
`MaxEntries` of them. Times are nanoseconds. The bucket is computed in an
`Arithmetic` that stands for `float64`, and with exact rationals where none
is named.
-/

namespace McRouter

namespace RateLimit

open Netip
open Arithmetic (float64 mulAdd)

/-- `Config`. -/
structure Config where
  enabled : Bool
  connectionsPerSecond : ℚ
  burst : ℤ
  idleTimeout : ℤ
  maxEntries : ℤ
deriving DecidableEq

/-- `entry`. -/
structure Entry where
  tokens : ℚ
  lastRefill : ℤ
  lastSeen : ℤ
deriving DecidableEq

/-- `Limiter`. -/
structure Limiter where
  cfg : Config
  entries : GoMap Addr Entry
deriving DecidableEq

/-- `New`. -/
def new (cfg : Config) : Limiter := ⟨cfg, ∅⟩

/-- A duration in seconds. -/
def seconds (d : ℤ) : ℚ := (d : ℚ) / 1000000000

/-- `time.Time.Sub`: a difference that does not fit a `Duration` becomes the
nearest one that does. -/
def sub (t u : ℤ) : ℤ := max (-9223372036854775808) (min 9223372036854775807 (t - u))

/-- `deleteExpired`. -/
def deleteExpired (l : Limiter) (now : ℤ) : Limiter :=
  { l with entries :=
      l.entries.filter fun _ current => sub now current.lastSeen < l.cfg.idleTimeout }

/-- One round of the loop of `deleteOldest`: the address and time kept so
far, and the next entry. -/
def olderOf (oldest : Option (Addr × ℤ)) (addr : Addr) (current : Entry) : Option (Addr × ℤ) :=
  match oldest with
  | none => some (addr, current.lastSeen)
  | some (a, seen) => if a.isValid ∧ seen ≤ current.lastSeen then oldest
    else some (addr, current.lastSeen)

/-- `deleteOldest`. -/
def deleteOldest (l : Limiter) : Limiter :=
  match l.entries.foldl olderOf none with
  | some (addr, _) => if addr.isValid then { l with entries := l.entries.erase addr } else l
  | none => l

section Bucket

variable [Arithmetic]

/-- The bucket of `current` at `now`, refilled. -/
def refill (cfg : Config) (current : Entry) (now : ℤ) : Entry :=
  let elapsed := Arithmetic.seconds (sub now current.lastRefill)
  if 0 < elapsed then
    { current with
      tokens := min (float64 cfg.burst) (mulAdd elapsed cfg.connectionsPerSecond current.tokens)
      lastRefill := now }
  else current

/-- `allowAt`. -/
def allowAt (l : Limiter) (addr : Addr) (now : ℤ) : Bool × Limiter :=
  let l := deleteExpired l now
  let (current, l) := match l.entries.lookup addr with
    | some current => (current, l)
    | none =>
      (⟨float64 l.cfg.burst, now, now⟩,
        if l.cfg.maxEntries ≤ l.entries.len then deleteOldest l else l)
  let current := { refill l.cfg current now with lastSeen := now }
  if current.tokens < 1 then (false, { l with entries := l.entries.insert addr current })
  else (true, { l with
    entries := l.entries.insert addr { current with tokens := float64 (current.tokens - 1) } })

/-- `Allow`, with the clock at `now`. -/
def allow (l : Limiter) (addr : Addr) (now : ℤ) : Bool × Limiter :=
  if !l.cfg.enabled || !addr.isValid then (!l.cfg.enabled, l) else allowAt l addr.unmap now

end Bucket

end RateLimit

end McRouter
