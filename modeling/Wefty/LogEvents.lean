/-
Log events on the wire (`contract/types.go`), shared by the agent's spool and the L1 store.

An event is one chunk of raw output at a position of its attempt's stream, or a gap: a
declaration that the events from its position through `throughSequence` are no longer
available.
-/
import Wefty.Ranges

set_option autoImplicit false

namespace Wefty.LogEvents

inductive LogStream
  | stdout
  | stderr
  deriving DecidableEq

instance decidableForallStream {p : LogStream → Prop} [∀ st, Decidable (p st)] :
    Decidable (∀ st, p st) :=
  decidable_of_iff (p .stdout ∧ p .stderr)
    ⟨fun h st => match st with | .stdout => h.1 | .stderr => h.2, fun h => ⟨h _, h _⟩⟩

inductive LogGapReason
  | spoolEviction
  | oversizedEvent
  | replayRejected
  | lateEvidenceWindowExpired
  | loggerSourceIncomplete
  deriving DecidableEq

structure LogGap where
  throughSequence : Nat
  lostEventCount : Nat
  lostByteCount : Nat
  reason : LogGapReason
  sourceEventSHA256 : String
  deriving DecidableEq

/-- `contract.LogEvent`. `timestamp` counts nanoseconds from the zero time. -/
structure LogEvent where
  attemptID : Nat
  stream : LogStream
  sequence : Nat
  timestamp : Int
  bytes : List UInt8
  gap : Option LogGap
  deriving DecidableEq

/-- `eventEndSequence`: the last sequence number an event accounts for. -/
def LogEvent.endSequence (e : LogEvent) : Nat :=
  match e.gap with
  | some gap => gap.throughSequence
  | none => e.sequence

end Wefty.LogEvents
