import McRouter.Common.Unicode

/-!
# Errors

A Go error is its text together with the sentinels `errors.Is` finds in
its chain. Both are read by the router: the text when ignored routes are
sorted, the sentinels when a failure is classified.
-/

namespace McRouter

/-- The errors the code compares against, the standard library's and its
own. `netTimeout` stands for a chain that holds a `net.Error` whose
`Timeout` is true. -/
inductive Sentinel where
  | ioEOF
  | ioUnexpectedEOF
  | ioShortWrite
  | netTimeout
  | netClosed
  | contextCanceled
  | contextDeadlineExceeded
  | invalidHost
  | varIntTooLong
  | packetTooLarge
  | malformedHandshake
  | unsupportedNextState
  | malformedLoginStart
  | unsupportedLoginProtocol
  | noRoute
  | invalidServerAddress
  | serviceListFailed
  | serviceWatchClosed
  | serviceWatchError
  | serviceWatchSetupFailed
deriving DecidableEq, Repr

/-- An error: what it says and what it wraps. -/
structure Err where
  text : GoString
  wraps : List Sentinel := []
deriving DecidableEq, Repr

/-- `errors.Is(err, s)`. -/
def Err.is (e : Err) (s : Sentinel) : Bool := e.wraps.contains s

/-- `fmt.Errorf` with the operands of its `%w` verbs. -/
def errorf (text : GoString) (wrapped : List Err) : Err := ⟨text, wrapped.flatMap Err.wraps⟩

/-- `fmt.Errorf(text + ": %w", err)`. -/
def Err.prefixed (text : GoString) (e : Err) : Err := errorf (text ++ go ": " ++ e.text) [e]

/-- `errors.Join`: nothing of nothing, and otherwise the texts on lines of
their own. -/
def errorsJoin : List Err → Option Err
  | [] => none
  | errs => some (errorf ((go "\n").intercalate (errs.map Err.text)) errs)

@[simp] theorem errorsJoin_eq_none {errs : List Err} : errorsJoin errs = none ↔ errs = [] := by
  cases errs <;> simp [errorsJoin]

end McRouter
