/-
Completion of an attempt (`CompleteAttemptOutcome`, `validateOCICompletionPhase`,
`recordPublishedPortOccupied` of `l1/store.go`; `classifyOneshotInterruption` of
`l1/oneshot_restart.go`; `validateCompletionReplayBinding` of `l1/attempt_authority.go`).

A completion is accepted once. Before that point the transaction has four other ends: an
identical report is answered from the record, a different one is refused, a report for a lost
attempt is kept as late evidence and refused, and a report without current authority is
refused. The verdict is then put together in the order of the source, each rule overriding
the one before: the result, cancellation, a controlled interruption, the service policy, the
retry of an OCI one-shot whose runtime went away.
-/
import Wefty.AttemptAuthority

set_option autoImplicit false

namespace Wefty.Completion

open Rows StoreRows AttemptClock RestartPolicy Transactions AttemptAuthority

variable (ctx : Ctx)

/-! ## 1. Checks -/

def validateOCICompletionPhase (spec : JobSpec) (attempt : Attempt) (result : ProcessResult) :
    Check :=
  if spec.kind ≠ .oci then .ok ()
  else if attempt.startedNS.isNone then
    if result.spawnError.isNone ∨ result.oom ∨ result.diskExhausted ∨
        result.logEvidenceIncomplete ∨ result.stoppedProcesses.isSome then
      .error (conflict
        "pre-Started OCI completion requires a sole spawn_error without additive runtime evidence")
    else .ok ()
  else if result.spawnError.isSome then
    .error (conflict "post-Started OCI completion cannot report spawn_error")
  else .ok ()

/-- It is asked only about an attempt with a completion key. -/
def validateCompletionReplayBinding (attemptID : Nat) (job : Job) (attempt : Attempt) : Check :=
  if attempt.state = .interrupted ∧ job.spec.restartable ∧ attempt.completionKey.isSome then .ok ()
  else match job.currentAttemptID with
  | some current =>
    if current ≠ attemptID then
      .error ⟨.attemptMismatch, "attempt is not the job's current attempt"⟩
    else .ok ()
  | none =>
    if job.completionReplayAttemptID ≠ some attemptID then
      .error ⟨.attemptMismatch, "attempt is not the job's retained completion replay attempt"⟩
    else .ok ()

def initiated (request : CompletionRequest) : Bool :=
  request.terminationInitiator = some .agent || request.terminationInitiator = some .guardian ||
    request.result.terminationCause = some .agent ||
    request.result.terminationCause = some .guardian

/-- A verdict of the payload's own, which an interruption that raced with it does not override. -/
def ownVerdict (result : ProcessResult) : Bool :=
  result.limitReached.isSome || result.spawnError.isSome || result.runtimeFailure.isSome ||
    result.oom || result.diskExhausted

/-- Whether the request names what it interrupts correctly, arm by arm of the source's switch. -/
def validateInterruptionKey (attempt : Attempt) (request : CompletionRequest)
    (reason : InterruptionReason) : Check :=
  match reason with
  | .upgrade =>
    if attempt.interruptionRequest.any fun prior =>
        some prior.idempotencyKey = request.interruptionRequestKey && prior.reason = reason then
      .ok ()
    else .error (conflict "completion does not identify the exact interruption request")
  | .agentShutdown =>
    if request.interruptionRequestKey.isSome then
      .error (invalidRequest "agent_shutdown does not consume an upgrade request")
    else .ok ()
  | .leaseExpired =>
    .error (invalidRequest "completion interruption_reason must be upgrade or agent_shutdown")

def classifyOneshotInterruption (spec : JobSpec) (attempt : Attempt)
    (request : CompletionRequest) : Except ProtocolError (Option InterruptionReason) :=
  match request.interruptionReason with
  | none =>
    if request.interruptionRequestKey.isSome then
      .error (invalidRequest "interruption_request_key requires interruption_reason")
    else .ok none
  | some reason =>
    if ¬ spec.restartable ∨ spec.kind ≠ .process ∨ spec.jobClass ≠ .oneShot then
      .error (invalidRequest "interruption evidence requires a restartable process one-shot")
    else match validateInterruptionKey attempt request reason with
    | .error err => .error err
    | .ok () =>
      if ¬ initiated request ∨ ownVerdict request.result then .ok none
      else if request.runtimeQuiescenceEvidence ≠ some .attempt ∧
          request.runtimeQuiescenceEvidence ≠ some .noRuntime then
        .error (invalidRequest
          "controlled interruption requires positive process runtime quiescence evidence")
      else .ok (some reason)

/-! ## 2. The verdict -/

/-- The verdict while it is put together: the job with what was recorded on the way, and the
states it settles on. -/
structure Verdict where
  job : Job
  jobState : JobState
  attemptState : AttemptState

/-- The result, and cancellation, which fails the job whatever the result is. -/
def resultVerdict (job : Job) (result : ProcessResult) : Verdict :=
  ⟨job, if job.canceled then .failed else (completionStates result).1, (completionStates result).2⟩

/-- A controlled interruption: recovery decides about the job. -/
def Verdict.interrupt (attemptID : Nat) (reason : Option InterruptionReason)
    (v : Verdict) : Verdict :=
  match reason with
  | none => v
  | some reason =>
    let (job, state) := recoverOneshot ctx attemptID reason v.job
    ⟨job, state, .interrupted⟩

def Verdict.service (policy : Option ServiceCompletionPolicy) (v : Verdict) : Verdict :=
  match policy with
  | none => v
  | some policy => { v with jobState := policy.jobState, attemptState := policy.attemptState }

def Verdict.prestart (requeue : Bool) (v : Verdict) : Verdict :=
  if ¬ requeue then v
  else
    let retryCount := v.job.prestartRetryCount + 1
    let next := ctx.now + prestartRetryDelay retryCount ctx.jitter
    if v.job.prestartBudgetDeadlineNS.any fun deadline => next < deadline then
      { v with
        jobState := .queued
        job := { v.job with
          prestartRetryCount := retryCount
          prestartNextRetryAtNS := some next } }
    else
      { v with
        job := { v.job with
          prestartRetryCount := retryCount
          prestartNextRetryAtNS := none
          prestartTerminalReason :=
            some "pre-start infrastructure budget exhausted after runtime loss" } }

def prestartRequeue (job : Job) (attempt : Attempt) (result : ProcessResult) : Bool :=
  !job.canceled && job.spec.kind = .oci && job.service.isNone && attempt.state = .claimed &&
    result.spawnError.any fun failure => failure.code = .runtimeUnavailable

/-- What the completion encodes as the failure of the service: the resource a Computer ran out
of, else the spawn failure, else the result. -/
def completionFailure (spec : JobSpec) (nodeID : Nat) (result : ProcessResult) : LastFailure :=
  match terminalResourceFailure spec result nodeID with
  | some failure => .spawn failure
  | none =>
    match result.spawnError with
    | some failure => .spawn failure
    | none => .result result

/-- The policy of a service for this completion; a job without a service row has none. -/
def servicePolicy (job : Job) (attempt : Attempt) (request : CompletionRequest) :
    Option ServiceCompletionPolicy :=
  job.service.map fun service =>
    classifyServiceCompletion job service request
      (completionFailure job.spec attempt.nodeID request.result) ctx.now ctx.config.leaseDuration
      ctx.jitter attempt.startedNS.isSome (readAttemptDirective job attempt = some .restart)

def completionVerdict (job : Job) (attempt : Attempt) (request : CompletionRequest)
    (reason : Option InterruptionReason) : Verdict :=
  (((resultVerdict job request.result).interrupt ctx attempt.attemptID reason).service
    (servicePolicy ctx job attempt request)).prestart ctx
      (prestartRequeue job attempt request.result)

/-! ## 3. The rows of an accepted completion -/

/-- The completions that leave the job without a runtime owner and keep the attempt for replay. -/
def detachesOnCompletion (job : Job) (attempt : Attempt) (request : CompletionRequest)
    (v : Verdict) : Bool :=
  v.attemptState = .interrupted && v.jobState = .queued ||
    prestartRequeue job attempt request.result && v.jobState = .queued ||
    job.computerID.isSome && job.service.isSome && v.jobState = .stopped &&
      validRuntimeQuiescenceEvidence request.runtimeQuiescenceEvidence

def applyServicePolicy (policy : ServiceCompletionPolicy) (service : ServiceJob) : ServiceJob :=
  { service with
    restartStreak := policy.restartStreak
    lifetimeRestartCount := policy.lifetimeRestartCount
    nextRestartAt := policy.nextRestartNS
    policyStop := policy.policyStop
    lastFailure := policy.lastFailure <|> service.lastFailure
    healthySinceNS := none
    publishedAttemptID := none }

/-- `UPDATE service_jobs SET last_failure=?, next_restart_at=NULL`. -/
def recordFailure (failure : LastFailure) (service : ServiceJob) : ServiceJob :=
  { service with lastFailure := some failure, nextRestartAt := none }

/-- A service without a published surface has no port to lose. -/
def recordPublishedPortOccupied (nodeID : Nat) (failure : SpawnFailure) (service : ServiceJob) :
    ServiceJob :=
  match service.publishedPort with
  | none => service
  | some port => recordFailure (.portOccupied failure.code failure.message nodeID port) service

/-- The service row after a completion: the policy, then the failures that latch. -/
def completedService (spec : JobSpec) (nodeID : Nat) (policy : ServiceCompletionPolicy)
    (result : ProcessResult) (service : ServiceJob) : ServiceJob :=
  let applied := applyServicePolicy policy service
  let spawned :=
    match result.spawnError with
    | none => applied
    | some failure =>
      if failure.code = .publishedPortOccupied then
        recordPublishedPortOccupied nodeID failure applied
      else if failure.code = .insufficientMemory ∨ failure.code = .insufficientDisk then
        recordFailure (.spawn { failure with nodeID := some nodeID }) applied
      else applied
  if (terminalResourceFailure spec result nodeID).isSome then
    recordFailure (completionFailure spec nodeID result) spawned
  else spawned

/-- The job row of an accepted completion. A successful process one-shot passes through running
inside the transaction. -/
def completedJob (job : Job) (attempt : Attempt) (request : CompletionRequest)
    (v : Verdict) : Job :=
  let promoted :=
    if v.attemptState = .succeeded ∧ attempt.state = .claimed ∧ job.spec.kind ≠ .oci then
      promoteExecution ctx.now attempt.attemptID v.job
    else v.job
  let detached :=
    if detachesOnCompletion job attempt request v then
      detachAttempt (.completion attempt.attemptID) promoted
    else promoted
  let settled := { detached with state := v.jobState, updatedNS := ctx.now }
  match servicePolicy ctx job attempt request with
  | none => settled
  | some policy =>
    settled.updateService (completedService job.spec attempt.nodeID policy request.result)

def completedAttempt (attempt : Attempt) (request : CompletionRequest)
    (reason : Option InterruptionReason) (v : Verdict) : Attempt :=
  { attempt with
    state := v.attemptState
    completionKey := request.idempotencyKey
    completionHash := some request.bodyHash
    result := some request.result
    terminationInitiator := request.terminationInitiator
    interruptionReason := reason
    updatedAt := ctx.now }

/-- The evidence columns of a lost attempt, and nothing else: what a late report may write. -/
def withLateEvidence (key hash : Option Nat) (late : Option LateResult) (attempt : Attempt) :
    Attempt :=
  { attempt with completionKey := key, completionHash := hash, lateResult := late }

/-- The late evidence of a report: its result, or after the window the fact that there was one. -/
def lateResultEvidence (attempt : Attempt) (result : ProcessResult) : LateResult :=
  if attempt.updatedAt + ctx.config.lateEvidenceWindow < ctx.now then
    .gap ctx.now attempt.updatedAt
  else .observation result ctx.now attempt.updatedAt

/-! ## 4. The transaction -/

def completeAttemptOutcome (identityNodeID jobID attemptID : Nat)
    (request : CompletionRequest) (a : Authority) : AttemptTx AttemptRows := do
  check (validateCompletionRequest request)
  refuseIf a.job.removal.isSome (conflict "service removal has revoked completion authority")
  check (validateAttemptEvidence identityNodeID jobID attemptID request.fencingToken a)
  check (validateOCICompletionPhase a.job.spec a.attempt request.result)
  let expired ← check (leaseExpiredAt ctx a.attempt)
  let due : Bool := (expired || cancelDue ctx a.job) && a.attempt.state ≠ .lost
  let rows := expireInline ctx due a.job a.attempt
  refuseIf (a.attempt.completionKey.isSome ∧ (a.attempt.completionKey ≠ request.idempotencyKey ∨
      a.attempt.completionHash ≠ some request.bodyHash))
    ⟨.idempotencyConflict,
      "completion idempotency key or body conflicts with the accepted completion"⟩
  refuseIf (a.attempt.completionKey.isSome ∧ rows.attempt.state = .lost) leaseExpired
  -- The binding is asked about only where there is a record to replay.
  check (if a.attempt.completionKey.isSome then
    validateCompletionReplayBinding attemptID a.job a.attempt else .ok ())
  answerIf a.attempt.completionKey.isSome
  settleIf (rows.attempt.state = .lost)
    ⟨rows.job, withLateEvidence request.idempotencyKey (some request.bodyHash)
      (some (lateResultEvidence ctx rows.attempt request.result)) rows.attempt⟩ leaseExpired
  check (validateAttemptAuthority identityNodeID jobID attemptID request.fencingToken a)
  settleIf expired (expireAttempt ctx rows.job rows.attempt) leaseExpired
  refuseIf (¬ a.attempt.state.active) (conflict "attempt is terminal")
  let reason ← check (if a.job.canceled then .ok none
    else classifyOneshotInterruption a.job.spec a.attempt request)
  let verdict := completionVerdict ctx a.job a.attempt request reason
  return {
    job := completedJob ctx a.job a.attempt request verdict
    attempt := completedAttempt ctx a.attempt request reason verdict }

end Wefty.Completion
