/-
Execution authority, and the transactions an agent runs under it (`l1/attempt_authority.go`;
`RenewLease`, `ObserveAttemptImage`, `StartAttempt`, `SetAttemptPublication`, `AppendLogs`,
`readAttemptAuthority` and `expireAttempt` of `l1/store.go`; `l1/oneshot_restart.go`).

Each of these transactions reads one attempt with its job and its Node, and writes the attempt
and the job only, so it is a function from those rows to those rows. The four inline expiries
commit and then refuse: the caller learns that its lease is gone, and the loss is on record.
-/
import Wefty.AttemptClock
import Wefty.RestartPolicy
import Wefty.Transactions

set_option autoImplicit false

namespace Wefty.AttemptAuthority

open Rows StoreRows AttemptClock RestartPolicy Transactions

/-! ## 1. Authority -/

/-- The durations a `Store` is configured with. -/
structure Config where
  leaseDuration : Int
  lateEvidenceWindow : Int
  prestartInfrastructureBudget : Int
  nodeStaleAfter : Int
  nodeDeadAfter : Int
  serviceStabilityWindow : Int

/-- What an open write transaction knows: its time, the clock its door left, and the source of
restart jitter. -/
structure Ctx where
  config : Config
  now : Int
  clock : Clock
  jitter : Int → Int

variable (ctx : Ctx)

structure Authority where
  attempt : Attempt
  job : Job
  node : Node
  retiringSessionAuthorized : Bool

structure AttemptRows where
  job : Job
  attempt : Attempt

abbrev AttemptTx := Tx AttemptRows ProtocolError

def attemptNotFound (attemptID : Nat) : ProtocolError :=
  ⟨.attemptNotFound, "attempt \"" ++ toString attemptID ++ "\" was not found"⟩

def leaseExpired : ProtocolError := ⟨.leaseExpired, "attempt lease has expired"⟩

/-- Identity, path, current binding, fence, then registration. An empty token is `none` and matches
no fence. -/
def validateAttemptAuthority (identityNodeID jobID attemptID : Nat) (fencingToken : Option Nat)
    (a : Authority) : Check :=
  if a.node.identityNodeID ≠ identityNodeID then
    .error ⟨.attemptNotOwned, "authenticated node does not own this attempt"⟩
  else if a.attempt.jobID ≠ jobID ∨ a.attempt.attemptID ≠ attemptID then
    .error ⟨.attemptMismatch, "attempt does not match the request path"⟩
  else if a.job.currentAttemptID ≠ some attemptID then
    .error ⟨.attemptMismatch, "attempt is not the job's current attempt"⟩
  else if fencingToken ≠ some a.attempt.fencingToken then
    .error ⟨.staleFence, "fencing token is stale"⟩
  else if ¬ a.retiringSessionAuthorized ∧
      (a.attempt.bootSessionID ≠ a.node.bootSessionID ∨
        a.attempt.authorityGeneration ≠ a.node.authorityGeneration) then
    .error ⟨.nodeSessionReplaced, "attempt authority belongs to a replaced node registration"⟩
  else .ok ()

theorem validateAttemptAuthority_eq_ok_iff {identityNodeID jobID attemptID : Nat}
    {fencingToken : Option Nat} {a : Authority} :
    validateAttemptAuthority identityNodeID jobID attemptID fencingToken a = .ok () ↔
      a.node.identityNodeID = identityNodeID ∧ a.attempt.jobID = jobID ∧
      a.attempt.attemptID = attemptID ∧ a.job.currentAttemptID = some attemptID ∧
      fencingToken = some a.attempt.fencingToken ∧ (a.retiringSessionAuthorized = true ∨
        a.attempt.bootSessionID = a.node.bootSessionID ∧
          a.attempt.authorityGeneration = a.node.authorityGeneration) := by
  unfold validateAttemptAuthority
  simp only [guard_eq_ok_iff, not_or, not_not, not_and_or, and_true, and_assoc, ne_eq]

/-- Who reports, not whether the attempt still counts. -/
def validateAttemptEvidence (identityNodeID jobID attemptID : Nat) (fencingToken : Option Nat)
    (a : Authority) : Check :=
  if a.node.identityNodeID ≠ identityNodeID then
    .error ⟨.attemptNotOwned, "authenticated node does not own this attempt"⟩
  else if a.attempt.jobID ≠ jobID ∨ a.attempt.attemptID ≠ attemptID then
    .error ⟨.attemptMismatch, "attempt does not match the request path"⟩
  else if fencingToken ≠ some a.attempt.fencingToken then
    .error ⟨.staleFence, "fencing token is stale"⟩
  else .ok ()

/-- `attemptLeaseExpired` inside a transaction: an unproved verdict ends it. -/
def leaseExpiredAt (attempt : Attempt) : Except ProtocolError Bool :=
  match attemptLeaseExpired ctx.clock ctx.now attempt with
  | .ok expired => .ok expired
  | .error _ => .error ⟨.internal, "read Attempt lease clock"⟩

/-! ## 2. Effects on the job -/

def promoteExecution (now : Int) (attemptID : Nat) (job : Job) : Job :=
  if job.currentAttemptID = some attemptID ∧ job.state = .claimed then
    { job with state := .running, updatedNS := now }
  else job

inductive HealthCause
  | started
  | renewal
  | logs
  | publication

def HealthCause.skips (cause : HealthCause) (job : Job) (attempt : Attempt) : Bool :=
  match cause with
  | .renewal => job.spec.kind = .oci && attempt.startedNS.isNone
  | .logs => job.spec.kind = .oci
  | .started | .publication => false

/-- The `EXISTS` of `establishHealth`. -/
def healthEstablished (node : Node) (job : Job) (attempt : Attempt) (service : ServiceJob) : Bool :=
  job.currentAttemptID = some attempt.attemptID && attempt.state.active &&
    attemptLeaseLiveSQL ctx.clock ctx.now attempt && !job.canceled &&
    (service.publishedPort.isNone && job.projection.isNone ||
      service.publishedAttemptID = some attempt.attemptID) &&
    service.boundNodeID = some attempt.nodeID && node.state = .alive &&
    attempt.bootSessionID = node.bootSessionID &&
    attempt.authorityGeneration = node.authorityGeneration

def establishHealth (cause : HealthCause) (node : Node) (job : Job) (attempt : Attempt) : Job :=
  if cause.skips job attempt then job
  else job.updateService fun service =>
    if service.healthySinceNS.isNone ∧ healthEstablished ctx node job attempt service then
      { service with healthySinceNS := some ctx.now }
    else service

/-- Completion names the attempt it retains for replay. -/
inductive DetachCause
  | queuedComputerStop
  | computerAbort
  | imageLatch
  | completion (attemptID : Nat)
  | storageDestination
  | oneshotRecovery

def detachAttempt (cause : DetachCause) (job : Job) : Job :=
  match cause with
  | .queuedComputerStop | .computerAbort | .imageLatch =>
    { job with
      currentAttemptID := none
      completionReplayAttemptID := job.currentAttemptID <|> job.completionReplayAttemptID }
  | .completion attemptID =>
    { job with currentAttemptID := none, completionReplayAttemptID := some attemptID }
  | .storageDestination | .oneshotRecovery => { job with currentAttemptID := none }

inductive Directive
  | cancel
  | stop
  | restart
  deriving DecidableEq

def readAttemptDirective (job : Job) (attempt : Attempt) : Option Directive :=
  if job.canceled then some .cancel
  else if attempt.interruptionRequest.isSome then some .restart
  else match job.service with
  | none => none
  | some service =>
    if service.desiredState = .stopped then some .stop
    else if service.desiredState = .running ∧
        service.restartRequests.any (fun r => attempt.createdNS ≤ r.createdNS) then
      some .restart
    else none

/-! ## 3. Expiry -/

/-- `invalidateLeaseSettlement` on one row: an active attempt is lost and keeps its lease. -/
def settleLost (now : Int) (attempt : Attempt) : Attempt :=
  { attempt with state := .lost, updatedAt := now }

/-- The other causes of `invalidateAttempts` on one row: the lease is cut at this door as well. A
door without a usable clock clears the boot stamp instead. -/
def revoke (attempt : Attempt) : Attempt :=
  let clock := currentAttemptClock ctx.clock
  if clock.err.isSome then
    { attempt with
      state := .lost
      updatedAt := ctx.now
      leaseExpires := min attempt.leaseExpires ctx.now
      leaseBootID := ""
      leaseDeadlineNS := 0 }
  else
    { attempt with
      state := .lost
      updatedAt := ctx.now
      leaseExpires := min attempt.leaseExpires ctx.now
      leaseDeadlineNS :=
        if attempt.leaseBootID = clock.boot ∧ 0 < attempt.leaseDeadlineNS then
          min attempt.leaseDeadlineNS clock.ns
        else clock.ns
      leaseBootID := clock.boot }

/-- The job with the decision recorded, and the state the decision is for. -/
def recoverOneshot (attemptID : Nat) (reason : InterruptionReason) (job : Job) :
    Job × JobState :=
  let recorded := { job with
    restartLastReason := some reason
    restartPreviousAttemptID := some attemptID }
  if maximumOneshotRestarts ≤ job.restartCount then
    ({ recorded with
        nextRestartAtNS := none
        restartTerminalReason := some restartLimitReached }, .failed)
  else
    let next :=
      if reason = .leaseExpired then
        ctx.now + oneshotRestartDelay (job.restartCount + 1) ctx.jitter
      else ctx.now
    ({ recorded with nextRestartAtNS := some next, restartTerminalReason := none }, .queued)

/-- Whether `expireAttempt` queues a service again. Running alone is no start evidence for a
process attempt, so it is the start marker that `never` looks at. -/
def requeuesAfterExpiry (job : Job) (attempt : Attempt) : Bool :=
  !job.canceled && (job.service.any fun service => service.desiredState = .running) &&
    (job.state = .claimed || job.state = .running) &&
    (job.spec.restart ≠ some .never || attempt.startedNS.isNone ||
      readAttemptDirective job attempt = some .restart)

/-- The state `expireAttempt` moves the job of a lost current attempt to, with what
`recoverOneshot` recorded on the way. -/
def expiredState (job : Job) (attempt : Attempt) : Job × JobState :=
  if ¬ job.canceled ∧ job.spec.restartable ∧ job.service.isNone then
    recoverOneshot ctx attempt.attemptID .leaseExpired job
  else (job, if requeuesAfterExpiry job attempt then .queued else .failed)

/-- The service columns after a lease loss: lease churn has its own count and its own backoff. -/
def afterLeaseLoss (next : JobState) (service : ServiceJob) : ServiceJob :=
  { service with
    leaseLossCount := service.leaseLossCount + 1
    nextRestartAt :=
      if next = .queued then
        some (ctx.now + prestartRetryDelay (service.leaseLossCount + 1) ctx.jitter)
      else none
    healthySinceNS := none
    publishedAttemptID := none }

def expiredJob (job : Job) (attempt : Attempt) : Job :=
  let next := (expiredState ctx job attempt).2
  let settled := { (expiredState ctx job attempt).1 with state := next, updatedNS := ctx.now }
  let detached :=
    if job.spec.restartable ∧ next = .queued then detachAttempt .oneshotRecovery settled
    else settled
  detached.updateService (afterLeaseLoss ctx next)

def expiredAttempt (job : Job) (attempt : Attempt) : Attempt :=
  let lost := settleLost ctx.now attempt
  if ¬ job.canceled ∧ job.spec.restartable ∧ job.service.isNone then
    { lost with interruptionReason := some .leaseExpired }
  else lost

/-- Only an active attempt is lost, and only the job it is current for moves. -/
def expireAttempt (job : Job) (attempt : Attempt) : AttemptRows :=
  if ¬ attempt.state.active then ⟨job, attempt⟩
  else if job.currentAttemptID ≠ some attempt.attemptID then ⟨job, settleLost ctx.now attempt⟩
  else ⟨expiredJob ctx job attempt, expiredAttempt ctx job attempt⟩

def cancelDue (job : Job) : Bool := job.canceled && job.cancelSettleByNS ≤ ctx.now

/-! ## 4. Renewal, image and start -/

structure AttemptLease where
  attemptID : Nat
  fencingToken : Nat
  leaseExpires : Int
  leaseTTL : Int
  directive : Option Directive
  interruption : Option (InterruptionReason × Nat)

def renewLease (identityNodeID jobID attemptID : Nat) (fencingToken : Option Nat)
    (a : Authority) : AttemptTx (AttemptRows × AttemptLease) := do
  check (validateAttemptAuthority identityNodeID jobID attemptID fencingToken a)
  refuseIf (a.attempt.state = .lost) leaseExpired
  refuseIf (¬ a.attempt.state.active) (conflict "attempt is terminal")
  let expired ← check (leaseExpiredAt ctx a.attempt)
  settleIf (expired ∨ cancelDue ctx a.job) (expireAttempt ctx a.job a.attempt) leaseExpired
  let directive := readAttemptDirective a.job a.attempt
  let expires :=
    if a.job.canceled then min (ctx.now + ctx.config.leaseDuration) a.job.cancelSettleByNS
    else ctx.now + ctx.config.leaseDuration
  -- Renewal is execution evidence for a process, never for an OCI attempt.
  let acknowledges : Bool :=
    a.attempt.state = .claimed && a.job.spec.kind ≠ .oci && !a.job.canceled
  let (boot, deadline) := attemptLeaseDeadline ctx.clock ctx.now expires
  let attempt := { a.attempt with
    state := if acknowledges then .running else a.attempt.state
    leaseExpires := expires
    leaseBootID := boot
    leaseDeadlineNS := deadline
    updatedAt := ctx.now }
  let job := if acknowledges then promoteExecution ctx.now attemptID a.job else a.job
  return (⟨establishHealth ctx .renewal a.node job attempt, attempt⟩,
    { attemptID := attemptID
      fencingToken := a.attempt.fencingToken
      leaseExpires := expires
      leaseTTL := expires - ctx.now
      directive := directive
      interruption :=
        if directive = some .restart ∧ a.job.spec.restartable then
          a.attempt.interruptionRequest.map fun r => (r.reason, r.idempotencyKey)
        else none })

/-- The two hashes are of the observation and of the job's part of it; `wellFormed` is the outcome
of `validateImageObservation`. -/
structure ImageObservationRequest where
  fencingToken : Option Nat
  submittedReference : Nat
  topLevelDigest : Nat
  observationHash : Nat
  jobObservationHash : Nat
  wellFormed : Check

def observeAttemptImage (identityNodeID jobID attemptID : Nat)
    (request : ImageObservationRequest) (a : Authority) : AttemptTx AttemptRows := do
  check request.wellFormed
  check (validateAttemptEvidence identityNodeID jobID attemptID request.fencingToken a)
  let oci ← orRefuse (a.job.spec.oci.filter fun _ => a.job.spec.kind = .oci)
    (conflict "image observation is only valid for OCI attempts")
  refuseIf (request.submittedReference ≠ oci.imageReference)
    (invalidRequest "submitted_reference does not match the job")
  refuseIf (oci.imageDigest.any fun digest => request.topLevelDigest ≠ digest)
    (invalidRequest "top_level_digest does not match the pinned job digest")
  refuseIf (a.attempt.imageObservation.any fun o => o.hash ≠ request.observationHash)
    ⟨.idempotencyConflict, "image observation conflicts with the accepted identity"⟩
  answerIf a.attempt.imageObservation.isSome
  refuseIf a.job.canceled (conflict "pending cancellation forbids image observation")
  check (validateAttemptAuthority identityNodeID jobID attemptID request.fencingToken a)
  let expired ← check (leaseExpiredAt ctx a.attempt)
  settleIf expired (expireAttempt ctx a.job a.attempt) leaseExpired
  refuseIf (a.attempt.state ≠ .claimed) (conflict "image observation must precede Started")
  refuseIf (a.job.imageResolution.any fun r => r.hash ≠ request.jobObservationHash)
    ⟨.idempotencyConflict, "image observation conflicts with the job's resolved image identity"⟩
  let resolution := a.job.imageResolution.getD ⟨request.jobObservationHash, ctx.now⟩
  return {
    job := { a.job with imageResolution := some resolution }
    attempt := { a.attempt with
      imageObservation := some ⟨request.observationHash, resolution.resolvedAt, none⟩
      updatedAt := ctx.now } }

/-- The time `StartAttempt` records, and the image evidence with it: a start is strictly after
the resolution of its image. -/
def startedAt (now : Int) (image : Option ImageObservation) : Int × Option ImageObservation :=
  match image with
  | none => (now, none)
  | some image =>
    let at_ := if image.resolvedAt < now then now else image.resolvedAt + 1
    (at_, some { image with startedAt := some at_ })

/-- `UPDATE computer_job_projections SET chown=0` for a current projection. -/
def completeOwnershipMigration (job : Job) : Job :=
  { job with
    projection := job.projection.map fun p => if p.current then { p with chown := false } else p }

/-- The check that the kind is `oci` or `process` cannot fail here. -/
def startAttempt (identityNodeID jobID attemptID : Nat) (fencingToken : Option Nat)
    (a : Authority) : AttemptTx AttemptRows := do
  refuseIf fencingToken.isNone (invalidRequest "fencing_token is required")
  check (validateAttemptAuthority identityNodeID jobID attemptID fencingToken a)
  let expired ← check (leaseExpiredAt ctx a.attempt)
  settleIf expired (expireAttempt ctx a.job a.attempt) leaseExpired
  answerIf a.attempt.startedNS.isSome
  refuseIf a.job.canceled (conflict "pending cancellation forbids Started acknowledgement")
  refuseIf (a.attempt.state ≠ .claimed ∧
      ¬ (a.job.spec.kind = .process ∧ a.attempt.state = .running))
    (conflict "attempt cannot accept Started")
  refuseIf (a.job.spec.kind = .oci ∧ a.attempt.imageObservation.isNone)
    (conflict "OCI attempt has no fenced image observation")
  let (started, image) :=
    if a.job.spec.kind = .oci then startedAt ctx.now a.attempt.imageObservation
    else (ctx.now, a.attempt.imageObservation)
  let attempt := { a.attempt with
    state := .running
    startedNS := some started
    imageObservation := image
    updatedAt := ctx.now }
  let job := establishHealth ctx .started a.node (promoteExecution ctx.now attemptID a.job) attempt
  return ⟨completeOwnershipMigration job, attempt⟩

/-! ## 5. Publication, interruption and logs -/

/-- The endpoint is opaque but for being valid. -/
structure PublicationRequest where
  fencingToken : Option Nat
  ready : Option Bool
  displayEndpoint : Option Nat
  validEndpoint : Bool
  submitIntentRevision : Option Int

/-- The endpoint rules of `SetAttemptPublication`. -/
def validatePublicationEndpoint (request : PublicationRequest) (ready computerProjection : Bool) :
    Check :=
  if computerProjection then
    if ready then
      if request.displayEndpoint.isNone ∨ ¬ request.validEndpoint then
        .error (invalidRequest
          "ready Computer publication requires an exact private display_endpoint")
      else .ok ()
    else if request.displayEndpoint.isSome then
      .error (invalidRequest "withdrawn Computer publication cannot include display_endpoint")
    else .ok ()
  else if request.displayEndpoint.isSome then
    .error (invalidRequest "display_endpoint is applicable only to Computers")
  else .ok ()

/-- The revision rule of `SetAttemptPublication`. `current` is the Computer's
`submit_intent_revision`. -/
def validatePublicationRevision (request : PublicationRequest) (ready computerProjection : Bool)
    (current : Option Int) : Check :=
  match request.submitIntentRevision with
  | none => .ok ()
  | some revision =>
    if ¬ computerProjection ∨ ¬ ready ∨ revision < 0 then
      .error (invalidRequest
        ("submit_intent_revision is applicable only to a ready Computer publication " ++
          "and must be non-negative"))
    else match current with
    | none => .error ⟨.internal, "read Computer submission revision for publication"⟩
    | some stored =>
      if stored ≠ revision then
        .error ⟨.stalePolicyRevision,
          "Computer readiness was earned under a superseded submission revision"⟩
      else .ok ()

def setAttemptPublication (identityNodeID jobID attemptID : Nat)
    (request : PublicationRequest) (submitIntentRevision : Option Int) (a : Authority) :
    AttemptTx AttemptRows := do
  refuseIf (request.fencingToken.isNone ∨ request.ready.isNone)
    (invalidRequest "fencing_token and ready are required")
  let ready := request.ready.getD false
  check (validateAttemptAuthority identityNodeID jobID attemptID request.fencingToken a)
  refuseIf (¬ a.attempt.state.active) (conflict "attempt is terminal")
  let expired ← check (leaseExpiredAt ctx a.attempt)
  settleIf expired (expireAttempt ctx a.job a.attempt) leaseExpired
  let service ← orRefuse a.job.service (conflict "publication is not applicable to this job")
  let computerProjection := a.job.projection.isSome
  refuseIf (service.publishedPort.isNone ∧ ¬ computerProjection)
    (conflict "publication is not applicable to this job")
  check (validatePublicationEndpoint request ready computerProjection)
  check (validatePublicationRevision request ready computerProjection submitIntentRevision)
  let target := if ready then some attemptID else none
  let endpoint := if ready then request.displayEndpoint else none
  let published :=
    if service.publishedAttemptID ≠ target ∨ service.displayEndpoint ≠ endpoint then
      { a.job with
        updatedNS := ctx.now
        service := some { service with
          publishedAttemptID := target
          healthySinceNS := if ready then service.healthySinceNS else none
          displayEndpoint := endpoint } }
    else a.job
  return {
    job := if ready then establishHealth ctx .publication a.node published a.attempt else published
    attempt := a.attempt }

def interruptRestartableAttempt (nodeID attemptID : Nat) (request : InterruptRequest)
    (a : Authority) : AttemptTx AttemptRows := do
  refuseIf (request.intentRevision < 0 ∨ request.reason ≠ .upgrade) (invalidRequest
    "job_id, boot_session_id, intent_revision, idempotency_key and reason=upgrade are required")
  refuseIf (a.attempt.nodeID ≠ nodeID ∨ a.attempt.jobID ≠ request.jobID ∨
      a.attempt.bootSessionID ≠ request.bootSessionID)
    ⟨.attemptMismatch, "interruption must name the exact Node, Job, Attempt and boot session"⟩
  refuseIf (¬ a.job.spec.restartable ∨ a.job.spec.kind ≠ .process ∨ a.job.spec.jobClass ≠ .oneShot)
    (conflict "interruption requires a restartable process one-shot")
  refuseIf (a.attempt.interruptionRequest.any fun prior => prior ≠ request)
    ⟨.idempotencyConflict, "Attempt already has a different interruption request"⟩
  answerIf a.attempt.interruptionRequest.isSome
  refuseIf (a.node.intentRevision ≠ request.intentRevision)
    ⟨.staleIntentRevision, "Node intent revision changed"⟩
  refuseIf a.node.claimsEnabled (conflict "interruption requires disabled Node claims")
  check (validateAttemptAuthority a.node.identityNodeID request.jobID attemptID
    (some a.attempt.fencingToken) a)
  refuseIf (¬ a.attempt.state.active) (conflict "Attempt is terminal")
  refuseIf a.job.canceled (conflict "Job cancellation takes precedence")
  let expired ← check (leaseExpiredAt ctx a.attempt)
  settleIf expired (expireAttempt ctx a.job a.attempt) ⟨.leaseExpired, "Attempt Lease expired"⟩
  return ⟨a.job, { a.attempt with interruptionRequest := some request }⟩

/-- The attempt `AppendLogs` and `CompleteAttemptOutcome` go on with after an inline expiry, which
neither of them commits at once. -/
def expireInline (expired : Bool) (job : Job) (attempt : Attempt) : AttemptRows :=
  if expired then expireAttempt ctx job attempt else ⟨job, attempt⟩

/-- `AppendLogs`, as far as attempts and jobs are concerned. `scan` is what reading the batch
against the stored events came to: a refusal, or whether anything in it is new. -/
def appendLogs (identityNodeID jobID attemptID : Nat) (fencingToken : Option Nat)
    (scan : Except ProtocolError Bool) (a : Authority) : AttemptTx AttemptRows := do
  refuseIf fencingToken.isNone (invalidRequest "fencing_token is required")
  refuseIf a.job.removal.isSome (conflict "service removal has revoked log authority")
  check (validateAttemptEvidence identityNodeID jobID attemptID fencingToken a)
  let hasAuthority :=
    (validateAttemptAuthority identityNodeID jobID attemptID fencingToken a).isOk
  let expired ← check (leaseExpiredAt ctx a.attempt)
  let rows := expireInline ctx expired a.job a.attempt
  let newEvents ← check scan
  refuseIf (newEvents ∧ rows.attempt.state ≠ .lost ∧ ¬ rows.attempt.state.active)
    (conflict "attempt is terminal")
  -- Evidence that brings nothing new is acknowledged, and an expiry it came with is kept.
  if ¬ newEvents then return rows
  let acknowledges : Bool :=
    rows.attempt.state = .claimed && hasAuthority && a.job.spec.kind ≠ .oci && !a.job.canceled
  let attempt :=
    if acknowledges then { rows.attempt with state := .running, updatedAt := ctx.now }
    else rows.attempt
  let job := if acknowledges then promoteExecution ctx.now attemptID rows.job else rows.job
  return {
    job := if hasAuthority then establishHealth ctx .logs a.node job attempt else job
    attempt := attempt }

end Wefty.AttemptAuthority
