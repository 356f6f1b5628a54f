/-
One run in the ledger and the transactions that decide its link to an L1 job
(`l3/run_job_link.go`, `l3/cancel.go`, and `failRunTx`, `projectJobOutcome` of
`l3/store.go`).

The tables `runs`, `dispatch_outbox`, `run_cancellations`, `dispatch_retry` and `run_tokens`
share the primary key `run_id`, and each of these transactions reads and writes one run, so
a run here is the join of its rows: the outbox row always exists, the other three are
`Option`s. A transaction is a function of that join which fails (and rolls back) or commits.

`dispatch_outbox.last_error` is JSON text that the
link rules read two details of. It is kept as the record it encodes, so text that is not
JSON (which only a hand-edited ledger holds) is not modelled.
-/
import Mathlib.Algebra.Group.Int.Defs
import Wefty.RunIntent

set_option autoImplicit false

namespace Wefty.RunJobLink

open RunIntent Rows

/-! ## 1. Rows -/

inductive RunState
  | pending
  | dispatching
  | queued
  | running
  | awaitingInput
  | succeeded
  | failed
  deriving DecidableEq

namespace RunState

/-- `RunSucceeded`, `RunFailed`. -/
def terminal : RunState → Bool
  | succeeded | failed => true
  | pending | dispatching | queued | running | awaitingInput => false

/-- The states a submit may start from. -/
def submittable : RunState → Bool
  | pending | dispatching => true
  | queued | running | awaitingInput | succeeded | failed => false

theorem not_terminal_of_submittable {state : RunState} (h : state.submittable = true) :
    state.terminal = false := by
  cases state <;> first | rfl | exact absurd h (by decide)

end RunState

/-- `contract.APIError`; `reason` and `l1JobID` are the two details the link rules read, the
first empty when absent. -/
structure APIError where
  code : String
  message : String
  retryable : Bool
  reason : String
  l1JobID : Option String
  deriving DecidableEq

structure DispatchOutbox where
  dispatchKey : String
  jobID : Option String
  attemptCount : Nat
  tokenDelivery : Option String
  lastError : Option APIError
  dispatchedNS : Option Int

structure Cancellation where
  requestedNS : Int
  failures : Nat
  retryNS : Int
  completedNS : Option Int
  lastError : Option APIError
  refused : Bool

structure DispatchRetry where
  failures : Nat
  retryNS : Int

/-- A row of `run_tokens`; the stored digest determines the token and is kept as it. -/
structure RunToken where
  token : String
  mintedNS : Int
  expiresNS : Option Int

/-- A row of `runs`, joined with its rows in the other four tables and with the number of its
rows in `envelopes`, `protocol_rejections` and (failed ones) `gate_results`. -/
structure Run where
  runID : String
  intent : DispatchIntent
  actor : String
  idempotencyKey : String
  requestHash : String
  requiredEnvelope : Bool
  status : RunState
  l1JobID : Option String
  jobLinkSettled : Bool
  jobLinkFailures : Nat
  jobLinkRetryNS : Int
  dispatchAttemptNS : Option Int
  failureReason : Option String
  nodeID : Option String
  nodeAttributionPending : Bool
  updatedNS : Int
  startedNS : Option Int
  finishedNS : Option Int
  acceptedEnvelopes : Nat
  rejectedWrites : Nat
  failedGates : Nat
  outbox : DispatchOutbox
  cancellation : Option Cancellation
  retry : Option DispatchRetry
  token : Option RunToken

variable (run : Run)

inductive LinkError
  | dispatchAbandoned
  | noPendingDispatch
  | tokenAlreadyMinted
  | emptyJobID
  | emptyIdentity
  | conflictingIdentities
  | invalidDiagnosticIdentity
  | regressedWithoutIdentity
  | evidenceChanged
  | conflictsWithRecordedJob
  | recoveredIdentityConflict
  | recoveredKeyConflict
  | linkedWithoutDispatch
  | attemptUnknown
  | forbidden

def l1RegressedReason : String := "l1_regressed"

def dispatchNotFoundReason : String := "dispatch_not_found"

/-- `unrecordedDispatchSettleHorizon`, one hour. -/
def unrecordedDispatchSettleHorizon : Int := 3600 * 1000000000

/-! ## 2. Observations and what they decode to -/

structure Observation where
  outboxJob : Option String
  runJob : Option String
  lastError : Option APIError
  dispatched : Option Int
  attempted : Option Int
  settled : Bool
  state : RunState
  reason : String
  diagnosticJob : String
  deriving DecidableEq

inductive Evidence
  | acknowledgement
  | stored
  | lookup
  deriving DecidableEq

inductive LinkState
  | unknown
  | attemptedUnconfirmed
  | linked
  | missingSettled
  | regressed

structure Knowledge where
  state : LinkState
  jobID : String

/-- One turn of the loop over the recorded identities: an absent one says nothing, a present
one may be neither empty nor different from an earlier one. -/
def joinIdentity (known : String) : Option String → Except LinkError String
  | none => .ok known
  | some identity =>
    if identity = "" then .error .emptyIdentity
    else if known ≠ "" ∧ known ≠ identity then .error .conflictingIdentities
    else .ok identity

/-- The state `decodeRunJobLink` reads off, once the identities agree on `jobID`. -/
def linkState (observed : Observation) (jobID : String) : Except LinkError LinkState :=
  if observed.reason = l1RegressedReason then
    if jobID = "" then .error .regressedWithoutIdentity else .ok .regressed
  else if observed.runJob.isSome then .ok .linked
  else if observed.settled ∨ observed.reason = dispatchNotFoundReason then
    if observed.outboxJob.isSome ∧ observed.dispatched.isSome then .ok .regressed
    else .ok .missingSettled
  else if observed.outboxJob.isSome then .ok .linked
  else if observed.attempted.isSome then .ok .attemptedUnconfirmed
  else .ok .unknown

def decodeRunJobLink (observed : Observation) : Except LinkError Knowledge := do
  let diagnostic := observed.lastError.bind APIError.l1JobID
  if diagnostic = some "" then throw .invalidDiagnosticIdentity
  let jobID ← [observed.runJob, observed.outboxJob, diagnostic].foldlM joinIdentity ""
  let state ← linkState observed jobID
  return ⟨state, jobID⟩

namespace Run

/-- `readDispatchObservation`. -/
def observation : Observation where
  outboxJob := run.outbox.jobID
  runJob := run.l1JobID
  lastError := run.outbox.lastError
  dispatched := run.outbox.dispatchedNS
  attempted := run.dispatchAttemptNS
  settled := run.jobLinkSettled
  state := run.status
  reason := (run.outbox.lastError.map APIError.reason).getD ""
  diagnosticJob := (run.outbox.lastError.bind APIError.l1JobID).getD ""

def uncontradictedOutbox : Bool :=
  !run.jobLinkSettled && decide (run.observation.reason ≠ l1RegressedReason) &&
    decide (run.observation.reason ≠ dispatchNotFoundReason)

/-- The run's own link, else an uncontradicted acknowledgement. -/
def cancelStoredJobID : Option String :=
  match run.l1JobID with
  | some jobID => some jobID
  | none => if run.uncontradictedOutbox then run.outbox.jobID else none

/-- The run can no longer be submitted: it ended, it has a cancellation row, or its outbox row
is marked dispatched. -/
def closed : Bool :=
  run.status.terminal || run.cancellation.isSome || run.outbox.dispatchedNS.isSome

def Names (jobID : String) : Prop :=
  run.l1JobID = some jobID ∨ run.outbox.jobID = some jobID

/-- The token `run_tokens` holds for the run. -/
def minted : Option String := run.token.map RunToken.token

end Run

/-- The cancellation is recorded as delivered: `completed_ns` is set and `refused` is not. -/
def Cancellation.settled (cancellation : Cancellation) : Bool :=
  cancellation.completedNS.isSome && !cancellation.refused

/-! ## 3. Ending a run -/

/-- `nullableReason`; the text is taken as already sanitized. -/
def nullableReason (reason : String) : Option String :=
  if reason = "" then none else some reason

namespace Run

def clearStagedTokenDelivery : Run :=
  { run with
    retry := none
    outbox := { run.outbox with tokenDelivery := none } }

/-- `UPDATE run_tokens SET expires_ns=COALESCE(expires_ns, ?)`. -/
def expireToken (expires : Int) : Run :=
  { run with token := run.token.map fun row =>
    { row with expiresNS := row.expiresNS <|> some expires } }

def failRun (now tokenGrace : Int) (reason : String) : Run :=
  let run :=
    if run.status.terminal then run
    else expireToken
      { run with
        status := .failed
        failureReason := nullableReason reason
        updatedNS := now
        startedNS := run.startedNS <|> some now
        finishedNS := run.finishedNS <|> some now
        nodeID := if run.l1JobID.isSome then none else run.nodeID
        nodeAttributionPending := run.l1JobID.isSome }
      (now + tokenGrace)
  run.clearStagedTokenDelivery

/-- The commit of `AppendEnvelope`. -/
def acceptEnvelope : Run :=
  { run with acceptedEnvelopes := run.acceptedEnvelopes + 1 }

/-- The commit of `AppendGateResult`; `failure` is the reason a fail or error outcome gives. -/
def acceptGate (failure : Option String) (now tokenGrace : Int) : Run :=
  match failure with
  | none => run
  | some reason => failRun { run with failedGates := run.failedGates + 1 } now tokenGrace reason

def rejectProtocolWrite (reason : String) (now tokenGrace : Int) : Run :=
  failRun { run with rejectedWrites := run.rejectedWrites + 1 } now tokenGrace reason

/-! ## 4. Submitting -/

end Run

def dispatchRetryBackoff (failures : Nat) : Int :=
  if failures > 5 then 60 * 1000000000 else 1000000000 * 2 ^ failures

def newToken (random : String) : String := "wrun_" ++ random

namespace Run

/-- The row conditions `pendingDispatches` and `beginDispatch` share; `held` says that a
`dispatch_hold` is in force. -/
def due (held : Bool) (now : Int) : Bool :=
  run.status.submittable && run.cancellation.isNone && !held &&
    !(run.retry.any fun retry => decide (retry.retryNS > now))

/-- `ensureRunTokenTx`: the bearer staged for the pending dispatch, else a fresh one, minted
and staged. `run_tokens` holds one row a run, so a second mint fails. -/
def ensureRunToken (random : String) (now : Int) : Except LinkError (String × Run) :=
  if run.outbox.dispatchedNS.isSome then .error .noPendingDispatch
  else match run.outbox.tokenDelivery.filter (fun token => token ≠ "") with
  | some token => .ok (token, run)
  | none =>
    if run.token.isSome then .error .tokenAlreadyMinted
    else .ok (newToken random,
      { run with
        token := some ⟨newToken random, now, none⟩
        outbox := { run.outbox with tokenDelivery := some (newToken random) } })

/-- One submit attempt is recorded and the bearer it carries is returned. -/
def beginDispatch (held : Bool) (random : String) (now : Int) :
    Except LinkError (String × Run) :=
  if run.due held now then do
    let run :=
      { run with
        status := .dispatching
        updatedNS := now
        dispatchAttemptNS := some now }
    let (token, run) ← run.ensureRunToken random now
    return (token,
      { run with
        outbox := { run.outbox with
          attemptCount := run.outbox.attemptCount + 1, lastError := none } })
  else .error .dispatchAbandoned

def recordDispatchError (cause : APIError) (now : Int) : Run :=
  let pending := run.outbox.dispatchedNS.isNone && !run.jobLinkSettled
  let waiting := pending && run.status.submittable && run.cancellation.isNone
  let failures := (run.retry.map DispatchRetry.failures).getD 0
  { run with
    outbox := if pending then { run.outbox with lastError := some cause } else run.outbox
    retry :=
      if waiting then some ⟨failures + 1, now + dispatchRetryBackoff failures⟩ else run.retry }

def failDispatch (cause : APIError) (now tokenGrace : Int) : Run :=
  let outbox :=
    if run.outbox.dispatchedNS.isNone then
      { run.outbox with
        lastError := if run.jobLinkSettled then run.outbox.lastError else some cause
        tokenDelivery := none }
    else run.outbox
  failRun { run with outbox := outbox } now tokenGrace
    ("L1 refused the dispatch: " ++ cause.code ++ ": " ++ cause.message)

/-! ## 5. Linking -/

def linkTerminalRun (jobID : String) : Run :=
  if run.l1JobID.isNone ∧ run.status.terminal then
    { run with
      l1JobID := some jobID
      jobLinkSettled := true
      nodeAttributionPending :=
        if run.nodeID.getD "" = "" then true else run.nodeAttributionPending }
  else run

/-- The outbox row has not been marked dispatched for another job: the `WHERE` of the statement
that acknowledges it. -/
def acknowledges (jobID : String) : Bool :=
  run.outbox.dispatchedNS.isNone && (run.outbox.jobID.isNone || run.outbox.jobID = some jobID)

/-- The outbox row after the acknowledging statement and, for a lookup, the one that follows
it: a bound positive lookup is a new observation even where the outbox was marked before. -/
def linkedOutbox (jobID : String) (evidence : Evidence) (now : Int) : DispatchOutbox :=
  let outbox :=
    if run.acknowledges jobID then
      { run.outbox with
        jobID := some jobID
        dispatchedNS := some now
        lastError := none
        tokenDelivery := none }
    else run.outbox
  if evidence = .lookup ∧ (outbox.jobID.isNone ∨ outbox.jobID = some jobID) then
    { outbox with
      jobID := outbox.jobID <|> some jobID
      lastError := none
      tokenDelivery := none }
  else outbox

end Run

/-- Delivery starts over: the row is pending again, its failures forgotten. -/
def Cancellation.wake (cancellation : Cancellation) : Cancellation :=
  { cancellation with
    failures := 0
    retryNS := 0
    completedNS := none
    lastError := none
    refused := false }

namespace Run

/-- The writes of `completeDispatchWithEvidenceTx`, once its checks passed. -/
def link (jobID : String) (evidence : Evidence) (now : Int) : Run :=
  let woken := run.acknowledges jobID || run.l1JobID.isNone
  let linked :=
    { run with
      outbox := run.linkedOutbox jobID evidence now
      cancellation := if woken then run.cancellation.map Cancellation.wake else run.cancellation
      retry := none }
  if run.status.submittable then
    { linked with
      l1JobID := some jobID
      status := .queued
      updatedNS := now }
  else linked.linkTerminalRun jobID

/-- A lookup is stale when a regression was recorded after it was sent. -/
def staleLookup (observed : Option Observation) : Bool :=
  match observed with
  | none => true
  | some observed =>
    run.observation.reason = l1RegressedReason &&
      (observed.reason ≠ l1RegressedReason ||
        run.observation.diagnosticJob ≠ observed.diagnosticJob ||
        run.observation.lastError ≠ observed.lastError)

/-- The recorded identities that are not this job. -/
def conflictsWith (jobID : String) : Bool :=
  run.outbox.jobID.any (· ≠ jobID) || run.l1JobID.any (· ≠ jobID) ||
    (run.observation.reason = l1RegressedReason && run.observation.diagnosticJob ≠ "" &&
      run.observation.diagnosticJob ≠ jobID)

/-- The recorded verdict outlives this evidence: a stored identity cannot undo one, and an
acknowledgement cannot undo a regression. -/
def verdictStands (evidence : Evidence) : Bool :=
  let reason := run.observation.reason
  (evidence = .stored &&
    (run.jobLinkSettled || reason = l1RegressedReason || reason = dispatchNotFoundReason)) ||
  (evidence = .acknowledgement && reason = l1RegressedReason)

def completeDispatch (jobID : String) (evidence : Evidence)
    (observed : Option Observation) (now : Int) : Except LinkError Run := do
  if jobID = "" then throw .emptyJobID
  if evidence = .lookup ∧ run.staleLookup observed then throw .evidenceChanged
  let _ ← decodeRunJobLink run.observation
  if run.conflictsWith jobID then throw .conflictsWithRecordedJob
  if run.verdictStands evidence then return run
  return run.link jobID evidence now

end Run

/-- An ended run whose dispatch began and was never linked. -/
structure UnrecordedDispatch where
  runID : String
  dispatchKey : String
  outboxJobID : String
  observed : Observation

namespace Run

/-- The row conditions of `unrecordedDispatchesQuery` and of `unrecordedDispatchForTx`. -/
def unrecorded : Bool :=
  run.l1JobID.isNone && !run.jobLinkSettled && run.status.terminal &&
    run.dispatchAttemptNS.isSome && run.cancellation.isNone

/-- `scanUnrecordedDispatch`. -/
def unrecordedDispatch : UnrecordedDispatch where
  runID := run.runID
  dispatchKey := run.intent.dispatchKey
  outboxJobID := run.outbox.jobID.getD ""
  observed := run.observation

/-- The recovery write, fenced by cancellation ownership. -/
def linkUnrecordedDispatch (item : UnrecordedDispatch) (jobID : String) (now : Int) :
    Except LinkError Run := do
  if run.cancellation.isSome then return run
  if jobID = "" then throw .emptyJobID
  if run.intent.dispatchKey ≠ item.dispatchKey ∨ run.outbox.dispatchKey ≠ run.intent.dispatchKey ∨
      run.conflictsWith jobID then throw .recoveredIdentityConflict
  run.completeDispatch jobID .lookup (some item.observed) now

/-- The same discovery, handed to the cancellation that owns the run. -/
def acceptRecoveredCancellation (item : UnrecordedDispatch) (jobID : String)
    (now : Int) : Except LinkError Run := do
  if run.cancellation.isNone then return run
  if run.intent.dispatchKey ≠ item.dispatchKey ∨
    run.outbox.dispatchKey ≠ run.intent.dispatchKey then throw .recoveredKeyConflict
  run.completeDispatch jobID .lookup (some item.observed) now

end Run

def l1RegressionCause (jobID : String) : APIError where
  code := "not_found"
  message := "L1 regressed: previously dispatched job is absent; work was not replayed"
  retryable := false
  reason := l1RegressedReason
  l1JobID := some jobID

/-- The cause `settleUnrecordedDispatch` records. -/
def settlementCause (item : UnrecordedDispatch) : APIError :=
  if item.outboxJobID ≠ "" then l1RegressionCause item.outboxJobID
  else
    { code := "not_found"
      message := "L1 did not find the attempted dispatch; work was not replayed"
      retryable := false
      reason := dispatchNotFoundReason
      l1JobID := none }

/-- Thirty seconds, doubled a failure, at most thirty minutes. -/
def unrecordedDispatchBackoff (failures : Nat) : Int :=
  min (30 * 1000000000 * 2 ^ failures) (30 * 60 * 1000000000)

namespace Run

/-- The compare-and-set of `settleUnrecordedDispatch`. -/
def settlementDue (item : UnrecordedDispatch) (lookupStarted : Int) : Bool :=
  run.l1JobID.isNone && !run.jobLinkSettled && run.status.terminal && run.cancellation.isNone &&
    decide (run.intent.dispatchKey = item.dispatchKey) &&
    decide (run.outbox.jobID.getD "" = item.outboxJobID) &&
    (decide (item.outboxJobID ≠ "") ||
      run.dispatchAttemptNS.any fun attempted =>
        decide (attempted ≤ lookupStarted - unrecordedDispatchSettleHorizon))

/-- `settleUnrecordedDispatch`; where the compare-and-set misses, nothing is written. -/
def settleUnrecordedDispatch (item : UnrecordedDispatch) (lookupStarted : Int) : Run :=
  if run.settlementDue item lookupStarted then
    { run with
      jobLinkSettled := true
      outbox :=
        { run.outbox with
          lastError :=
            if run.outbox.lastError.all APIError.retryable then some (settlementCause item)
            else run.outbox.lastError
          tokenDelivery := none } }
  else run

/-- `deferUnrecordedDispatch`; `failures` was read before the statement. -/
def deferUnrecordedDispatch (failures : Nat) (now : Int) : Run :=
  if run.l1JobID.isNone ∧ ¬run.jobLinkSettled ∧ run.jobLinkFailures = failures ∧
      run.cancellation.isNone then
    { run with
      jobLinkFailures := run.jobLinkFailures + 1
      jobLinkRetryNS := now + unrecordedDispatchBackoff failures }
  else run

/-! ## 6. Cancelling -/

end Run

/-- A cancellation that is recorded as delivered. -/
def Cancellation.complete (cancellation : Cancellation) (now : Int) : Cancellation :=
  { cancellation with
    completedNS := some now
    lastError := none
    refused := false }

namespace Run

/-- The `INSERT` a request ends with. A run that was never submitted settles here and now;
otherwise the row is pending, and a repeated request resets the schedule of one that still
is. -/
def recordCancellation (delivered : Bool) (now : Int) : Cancellation :=
  match run.cancellation, delivered with
  | none, true => ⟨now, 0, 0, some now, none, false⟩
  | none, false => ⟨now, 0, 0, none, none, false⟩
  | some cancellation, true => cancellation
  | some cancellation, false =>
    if cancellation.completedNS.isNone then cancellation.wake else cancellation

/-- The stored acknowledgement is linked before cancellation takes over recovery. Evidence that
does not decode authorizes no link, but does not stop the request either. -/
def linkStoredEvidence (now : Int) : Except LinkError Run :=
  match run.l1JobID, run.cancelStoredJobID, decodeRunJobLink run.observation with
  | none, some jobID, .ok _ => run.completeDispatch jobID .stored none now
  | _, _, _ => .ok run

/-- `requestRunCancellation`, for an actor that may cancel the run. -/
def requestRunCancellation (now tokenGrace : Int) : Except LinkError Run := do
  let unsubmitted := run.dispatchAttemptNS.isNone && run.cancelStoredJobID.isNone
  if run.status.terminal && unsubmitted then return run
  let linked ← run.linkStoredEvidence now
  let ended :=
    if unsubmitted then linked.failRun now tokenGrace "canceled before dispatch was confirmed"
    else linked
  return { ended with cancellation := some (ended.recordCancellation unsubmitted now) }

/-- An absence settles the cancellation only beyond the horizon and only if no acknowledgement
landed meanwhile. -/
def cancelAbsentDispatch (lookupStarted now tokenGrace : Int) : Except LinkError Run :=
  if run.l1JobID.isSome ∨ run.outbox.jobID.isSome then .ok run
  else match run.dispatchAttemptNS with
  | none => .error .attemptUnknown
  | some attempted =>
    if attempted ≤ lookupStarted - unrecordedDispatchSettleHorizon then
      let ended := run.failRun now tokenGrace "canceled before dispatch was confirmed"
      .ok { ended with
        jobLinkSettled := true
        cancellation := ended.cancellation.map fun row => row.complete now }
    else .ok run

def markTerminalLinkRegressed (jobID : String) : Run :=
  { run with outbox := { run.outbox with lastError := some (l1RegressionCause jobID) } }

/-- The identity `cancelAbsentStoredIdentity` found absent is the recorded one. -/
def storedIdentity : Except LinkError String :=
  match run.outbox.jobID with
  | none => .error .conflictsWithRecordedJob
  | some jobID =>
    if jobID = "" ∨ run.conflictsWith jobID then .error .conflictsWithRecordedJob else .ok jobID

def cancelAbsentStoredIdentity (observed : Observation) (now : Int) :
    Except LinkError Run := do
  if run.observation ≠ observed then throw .evidenceChanged
  let _ ← run.storedIdentity
  if !run.status.terminal then return run
  let marked ←
    match run.l1JobID.filter (fun jobID => jobID ≠ "") with
    | none => pure run
    | some jobID =>
      if run.outbox.dispatchedNS.isNone then throw .linkedWithoutDispatch
      else pure (run.markTerminalLinkRegressed jobID)
  return { marked with
    cancellation := marked.cancellation.map fun row =>
      if row.completedNS.isNone then row.complete now else row }

def finishRunCancellation (now : Int) : Run :=
  { run with cancellation := run.cancellation.map fun row => row.complete now }

def refuseRunCancellation (cause : APIError) (now : Int) : Run :=
  { run with
    cancellation := run.cancellation.map fun row =>
      if row.completedNS.isNone then
        { row with
          completedNS := some now
          lastError := some cause
          refused := true }
      else row }

/-- A settled cancellation whose link is still open: the row `writeCancellationBackoff` also
reschedules and `pendingRunCancellations` also lists. -/
def unresolvedLink : Bool :=
  run.l1JobID.isNone && (run.dispatchAttemptNS.isSome || run.outbox.jobID.isSome) &&
    run.uncontradictedOutbox

/-- `writeCancellationBackoff`; `failures` was read before the statement. -/
def writeCancellationBackoff (failures : Nat) (retryNS : Int) (cause : APIError) : Run :=
  { run with
    cancellation := run.cancellation.map fun row =>
      if row.failures = failures ∧ (row.completedNS.isNone ∨ run.unresolvedLink) then
        { row with
          failures := row.failures + 1
          retryNS := retryNS
          lastError := if row.completedNS.isNone then some cause else row.lastError }
      else row }

def deferRunCancellation (cause : APIError) (now : Int) : Run :=
  let failures := (run.cancellation.map Cancellation.failures).getD 0
  run.writeCancellationBackoff failures (now + unrecordedDispatchBackoff failures) cause

/-- The job the run is linked to by now, and otherwise a backoff. -/
def deferUnlinkedRunCancellation (cause : APIError) (now : Int) : Option String × Run :=
  match run.l1JobID.filter (fun jobID => jobID ≠ "") with
  | some jobID => (some jobID, run)
  | none => (none, run.deferRunCancellation cause now)

/-- The statement `cancelRunJobRemote` runs once L1 answered the cancel. -/
def clearDeliveryFailure : Run :=
  { run with
    cancellation := run.cancellation.map fun row =>
      if row.completedNS.isNone then
        { row with
          lastError := none
          failures := 0
          retryNS := 0 }
      else row }

/-- The row conditions of `pendingRunCancellations`. -/
def cancellationDue (now : Int) : Bool :=
  run.cancellation.any fun row =>
    (row.completedNS.isNone || run.unresolvedLink) && decide (row.retryNS ≤ now)

end Run

/-! ## 7. Projecting -/

/-- What a pass read of the run before it asked L1. -/
structure ProjectedRun where
  runID : String
  jobID : String
  state : RunState
  requiredEnvelope : Bool

/-- The projection table's rank. -/
def RunState.rank : RunState → Nat
  | .pending => 0
  | .dispatching => 1
  | .queued => 2
  | .running => 3
  | .awaitingInput => 4
  | .succeeded | .failed => 5

/-- The target of `ProjectJobState` before staleness is considered; `none` is its error. -/
def projectionTarget (current : RunState) : JobState → Option RunState
  | .queued | .claimed => some .queued
  | .running => some .running
  | .awaitingInput => some .awaitingInput
  | .succeeded => some (if current = .queued then .running else .succeeded)
  | .failed => some .failed
  | _ => none

def projectJobState (current : RunState) (job : JobState) : Option RunState :=
  if current.terminal then none
  else match projectionTarget current job with
  | none => none
  | some target =>
    let resuming := current = .awaitingInput ∧ target = .running
    if current = target then none
    else if ¬resuming ∧ target.terminal = false ∧ target.rank < current.rank then none
    else some target

/-- The counts of a succeeded job's run the ledger gates on. -/
structure Children where
  active : Nat
  failed : Nat

/-- The ledger gate that failed a run whose job exited 0. -/
def succeededJobFailureReason (rejectedWrites failedGates failedChildren : Nat) : String :=
  if 0 < rejectedWrites then
    "the job exited 0, but the ledger rejected " ++ toString rejectedWrites ++
      " of its protocol writes"
  else if 0 < failedGates then
    "the job exited 0, but " ++ toString failedGates ++ " of its gates reported fail or error"
  else if 0 < failedChildren then
    "the job exited 0, but " ++ toString failedChildren ++ " of its child runs failed"
  else "the job exited 0 without reporting the envelope --required-envelope requires"

namespace Run

/-- The state to write and the reason, once the ledger's own gates were applied; `none` where
the run keeps running for its children. -/
def gatedTarget (projected : ProjectedRun) (job : JobState) (jobFailure : String)
    (children : Children) (target : RunState) : Option (RunState × String) :=
  if job = .succeeded then
    if 0 < run.rejectedWrites ∨ 0 < run.failedGates ∨ 0 < children.failed ∨
        (projected.requiredEnvelope ∧ run.acceptedEnvelopes = 0) then
      some (.failed, succeededJobFailureReason run.rejectedWrites run.failedGates children.failed)
    else if 0 < children.active then
      if projected.state = .running then none else some (.running, "")
    else some (target, "")
  else if job = .failed then
    some (target, if jobFailure = "" then "the L1 job failed" else jobFailure)
  else some (target, "")

/-- `projectJobOutcome`, the write: compare-and-set on the state the pass read. -/
def projectJobOutcome (projected : ProjectedRun) (job : JobState) (jobFailure : String)
    (children : Children) (now tokenGrace : Int) : Run :=
  match (projectJobState projected.state job).bind
      (run.gatedTarget projected job jobFailure children) with
  | none => run
  | some (target, reason) =>
    if run.status ≠ projected.state then run
    else
      let projectedRun :=
        { run with
          status := target
          updatedNS := now
          failureReason :=
            (if target = .failed then nullableReason reason else none) <|> run.failureReason
          startedNS := if target.rank < 3 then run.startedNS else run.startedNS <|> some now
          finishedNS := if target.terminal then some now else run.finishedNS }
      if target.terminal then
        (projectedRun.expireToken (now + tokenGrace)).clearStagedTokenDelivery
      else projectedRun

def failMissingL1Job (projected : ProjectedRun) (now tokenGrace : Int) : Run :=
  if projected.jobID ≠ "" ∧ projected.state.terminal = false ∧ run.status = projected.state ∧
      run.l1JobID = some projected.jobID ∧ run.outbox.jobID = some projected.jobID ∧
      run.outbox.dispatchedNS.isSome then
    expireToken
      { run with
        status := .failed
        failureReason := nullableReason
          ("L1 lost the dispatched job " ++ projected.jobID ++ "; the work was not replayed")
        updatedNS := now
        startedNS := run.startedNS <|> some now
        finishedNS := run.finishedNS <|> some now
        outbox := { run.outbox with lastError := some (l1RegressionCause projected.jobID) }
        retry := none }
      (now + tokenGrace)
  else run

end Run

end Wefty.RunJobLink
