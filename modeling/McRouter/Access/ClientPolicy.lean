import McRouter.Errors
import McRouter.Common.Net

/-!
# The client policy

`internal/clientpolicy`: which source addresses may connect.
-/

namespace McRouter

namespace ClientPolicy

open Strings Unicode Netip

/-- `Policy`. -/
structure Policy where
  allow : List Prefix
  deny : List Prefix
deriving DecidableEq, Repr

/-- `parsePrefix`. -/
def parsePrefix (value : GoString) : Except Err Prefix :=
  let value := trimSpace value
  if value = [] then .error ⟨go "must not be empty", []⟩
  else match Netip.parsePrefix value with
    | .ok p => .ok p.masked
    | .error _ =>
      match parseAddr value with
      | .error f => .error ⟨go "must be an IP address or CIDR prefix: " ++ f.text value, []⟩
      | .ok addr => .ok (prefixFrom addr addr.bitLen)

/-- `parsePrefixes` from index `i` on. -/
def parsePrefixesFrom (kind : GoString) : (i : ℕ) → List GoString → Except Err (List Prefix)
  | _, [] => .ok []
  | i, value :: values =>
    match parsePrefix value with
    | .error err => .error (err.prefixed (kind ++ go "[" ++ itoa i ++ go "]"))
    | .ok p => do return p :: (← parsePrefixesFrom kind (i + 1) values)

/-- `parsePrefixes`. -/
def parsePrefixes (kind : GoString) (values : List GoString) : Except Err (List Prefix) :=
  parsePrefixesFrom kind 0 values

/-- `New`. -/
def new (allow deny : List GoString) : Except Err Policy := do
  let parsedAllow ← parsePrefixes (go "allow") allow
  let parsedDeny ← parsePrefixes (go "deny") deny
  return ⟨parsedAllow, parsedDeny⟩

/-- `contains`. -/
def contains (prefixes : List Prefix) (addr : Addr) : Bool := prefixes.any (·.contains addr)

/-- `Allows`: an allow list decides alone. -/
def Policy.allows (p : Policy) (addr : Addr) : Bool :=
  if !addr.isValid then false
  else if p.allow ≠ [] then contains p.allow addr
  else !contains p.deny addr

end ClientPolicy

end McRouter
