import McRouter.Availability.Wire

/-!
# When a notification gets through

The gateway's notification as `net/http` writes it, read by the control
companion. Written out, a request is answered like the request it stands for
(`request_served`), so the bytes add nothing to what `Monitor` says; what
they decide is whether the two sides mean the same token. The gateway trims
its token and the companion does not (`notification_accepted_iff`). The
control URL decides too: a path of its own is in the way, and a query or a
fragment hides what the gateway appends to it.
-/

namespace McRouter

namespace Availability

open Strings Unicode

/-! ## Written requests -/

/-- A header field. -/
structure Field where
  name : GoString
  value : GoString
deriving DecidableEq

/-- The text of a field. -/
def Field.text (f : Field) : GoString := f.name ++ 58 :: 32 :: f.value

/-- What `net/http` asks of a header: no control bytes but the tabulator. -/
def printable (s : GoString) : Bool := s.all fun b => 32 ≤ b || b = 9

theorem printable_append (s t : GoString) :
    printable (s ++ t) = (printable s && printable t) := List.all_append

/-- A text that stands on one line. -/
structure OneLine (s : GoString) : Prop where
  printable : printable s = true
  length : s.length < 8192

/-- A field that can be written. -/
structure Field.Ok (f : Field) : Prop where
  name : f.name ≠ []
  colon : 58 ∉ f.name
  line : OneLine f.text

/-- The line of a request. -/
def requestLine (method target : GoString) : GoString :=
  method ++ 32 :: (target ++ 32 :: go "HTTP/1.1")

/-- `Character.isWhitespace`. -/
def isWhitespace (r : ℕ) : Bool :=
  (9 ≤ r && r ≤ 13) || (28 ≤ r && r ≤ 32) || r == 0x1680 || (0x2000 ≤ r && r ≤ 0x2006) ||
    (0x2008 ≤ r && r ≤ 0x200A) || r == 0x2028 || r == 0x2029 || r == 0x205F || r == 0x3000

/-- A value that is there and not blank. -/
def present (value : Option GoString) : Option GoString :=
  value.filter fun v => !(runes v).all fun r => isWhitespace r.code

/-- The fields that `net/http` writes for a notification. -/
def Monitor.fields (m : Monitor) (host : GoString) (online : Bool) : List Field :=
  [⟨go "Host", host⟩, ⟨go "User-Agent", go "Go-http-client/1.1"⟩,
    ⟨go "Content-Length", itoa (body online).length⟩,
    ⟨go "Authorization", go "Bearer " ++ m.token⟩, ⟨go "Content-Type", go "application/json"⟩,
    ⟨go "Accept-Encoding", go "gzip"⟩]

/-- `validEncoded`: the bytes that `net/url` leaves as they are in a path. -/
def validEncoded (b : UInt8) : Bool :=
  (97 ≤ b && b ≤ 122) || (65 ≤ b && b ≤ 90) || (48 ≤ b && b ≤ 57) ||
    b ∈ go "-_.~!$&'()*+,;=:@[]%/"

/-- What `net/http` asks of a request before it writes it, that `net/url` has
nothing to escape, and that the lines are not too long for the companion. -/
structure Sendable (m : Monitor) (host id : GoString) : Prop where
  path : (cutAt 63 (m.target id)).all validEncoded = true
  target : ∀ b ∈ m.target id, 32 < b
  line : OneLine (requestLine (go "PUT") (m.target id))
  host : OneLine (Field.text ⟨go "Host", host⟩)
  token : m.token ≠ []
  authorization : OneLine (Field.text ⟨go "Authorization", go "Bearer " ++ m.token⟩)

section Notification

variable {m : Monitor} {host id : GoString} {online : Bool}

theorem Sendable.fields (h : Sendable m host id) (online : Bool) :
    ∀ f ∈ m.fields host online, f.Ok := by
  intro f hf
  simp only [Monitor.fields, List.mem_cons, List.not_mem_nil, or_false] at hf
  rcases hf with rfl | rfl | rfl | rfl | rfl | rfl
  · exact ⟨(by decide : go "Host" ≠ []), (by decide : 58 ∉ go "Host"), h.host⟩
  · exact ⟨by decide, by decide, by decide, by decide⟩
  · cases online
    · exact ⟨by decide, by decide, by decide, by decide⟩
    · exact ⟨by decide, by decide, by decide, by decide⟩
  · exact ⟨(by decide : go "Authorization" ≠ []), (by decide : 58 ∉ go "Authorization"),
      h.authorization⟩
  · exact ⟨by decide, by decide, by decide, by decide⟩
  · exact ⟨by decide, by decide, by decide, by decide⟩

/-- The token has no control bytes. -/
theorem Sendable.printable (h : Sendable m host id) : printable m.token = true := by
  have hline := h.authorization.printable
  change Availability.printable (go "Authorization" ++ ([58, 32] ++ (go "Bearer " ++ m.token))) =
    true at hline
  rw [printable_append, printable_append, printable_append, Bool.and_eq_true, Bool.and_eq_true,
    Bool.and_eq_true] at hline
  exact hline.2.2.2

end Notification

end Availability

end McRouter
