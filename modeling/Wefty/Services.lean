/-
Services: desired state, restart and the image latch (`SetServiceDesiredState`, `RestartService`,
`ensureBoundServiceCapacity` and `neverAutomaticFailureCause` of `l1/operator_routes.go`;
`serviceActionDecision` of `l1/service_operator.go`; `transitionServiceJob` and
`LatchServiceImageReconciliationFailure` of `l1/service_jobs.go`).

An operator's verb is decided first and written afterwards, by the same decision that tells an
operator which verbs are open. A Computer is the only authority over its Job, so every verb on a
Job of a Computer is refused here.
-/
import Wefty.Claims

set_option autoImplicit false

namespace Wefty.Services

open Tables Rows StoreRows RestartPolicy Transactions AttemptAuthority ControlStore Claims

/-! ## 1. Texts -/

/-- An identifier as `%q` prints it. -/
def quoted (id : Nat) : String := "\"" ++ toString id ++ "\""

def quotedState : JobState → String
  | .queued => "\"queued\""
  | .claimed => "\"claimed\""
  | .running => "\"running\""
  | .stopping => "\"stopping\""
  | .stopped => "\"stopped\""
  | .awaitingInput => "\"awaiting-input\""
  | .succeeded => "\"succeeded\""
  | .failed => "\"failed\""
  | .removalPending => "\"removal_pending\""
  | .agentCleaned => "\"agent_cleaned\""
  | .removedVerified => "\"removed_verified\""
  | .forgottenCleanupUnverified => "\"forgotten_cleanup_unverified\""
  | .stalledCleanupUnverified => "\"stalled_cleanup_unverified\""

def quotedDesired : DesiredState → String
  | .running => "\"running\""
  | .stopped => "\"stopped\""
  | .removed => "\"removed\""

def serviceNotFound (jobID : Nat) : ProtocolError :=
  ⟨.notFound, "service job " ++ quoted jobID ++ " was not found"⟩

def serviceConflict (jobID : Nat) (message : String) : ProtocolError :=
  conflict ("service job " ++ quoted jobID ++ " " ++ message)

/-! ## 2. The state machine of a service -/

def serviceJobTransitions : JobState → List JobState
  | .queued => [.claimed, .stopped, .failed, .removalPending]
  | .claimed => [.running, .stopping, .stopped, .queued, .failed, .removalPending]
  | .running => [.stopping, .stopped, .queued, .failed, .removalPending]
  | .stopping => [.stopped, .failed, .removalPending]
  | .stopped => [.queued, .failed, .removalPending]
  | .failed => [.queued, .removalPending]
  | .removalPending =>
    [.agentCleaned, .forgottenCleanupUnverified, .stalledCleanupUnverified]
  | .agentCleaned => [.removedVerified, .forgottenCleanupUnverified]
  | .removedVerified | .forgottenCleanupUnverified | .stalledCleanupUnverified
  | .awaitingInput | .succeeded => []

def validServiceStatePair (desired : DesiredState) (state : JobState) (policyStopped : Bool) :
    Bool :=
  match desired with
  | .running =>
    if state = .stopped then policyStopped
    else state = .queued || state = .claimed || state = .running || state = .failed
  | .stopped => state = .stopping || state = .stopped || state = .failed
  | .removed => false

/-- The current attempt is left to the caller. -/
def transitionServiceJob (now : Int) (desired : DesiredState) (next : JobState) (job : Job) :
    Except ProtocolError Job :=
  match job.service with
  | none => .error (serviceNotFound job.jobID)
  | some service =>
    if next ∉ serviceJobTransitions job.state then
      .error (conflict ("service job cannot transition from " ++ quotedState job.state ++ " to " ++
        quotedState next))
    else if ¬ validServiceStatePair desired next service.policyStop.isSome then
      .error (conflict ("service desired state " ++ quotedDesired desired ++
        " cannot pair with observed state " ++ quotedState next))
    else
      let cleared : Bool :=
        next = .queued || next = .stopping || next = .stopped || next = .failed
      .ok { job with
        state := next
        updatedNS := now
        service := some { service with
          desiredState := desired
          publishedAttemptID := if cleared then none else service.publishedAttemptID
          healthySinceNS := if cleared then none else service.healthySinceNS } }

/-! ## 3. Decisions -/

inductive ServiceVerb
  | start
  | stop
  | restart
  | remove
  | forget
  deriving DecidableEq

/-- The authority a Computer has over a verb, in its refusal. -/
def ServiceVerb.authority : ServiceVerb → String
  | .start | .stop => "desired-state"
  | .remove | .forget => "removal"
  | .restart => "lifecycle"

def boundNode (job : Job) : Option Nat := job.service.bind fun service => service.boundNodeID

def desires (job : Job) (desired : DesiredState) : Bool :=
  job.service.any fun service => service.desiredState = desired

def desiredState (job : Job) : DesiredState :=
  (job.service.map fun service => service.desiredState).getD .stopped

def policyStopped (job : Job) : Bool := job.service.any fun service => service.policyStop.isSome

/-- `job.HoldsSlot(job.State)`, of a service. -/
def holdsSlot (job : Job) : Bool := job.service.any fun service => service.holdsSlot job.state

def ensureBoundServiceCapacity (s : Store) (job : Job) : Check :=
  match boundNode job with
  | none => .ok ()
  | some nodeID =>
    match s.nodes.find nodeID with
    | none => .error (conflict ("bound node " ++ quoted nodeID ++ " was not found"))
    | some node =>
      let occupancy := s.jobs.count (occupiesServiceSlot nodeID)
      if node.maxServiceSlots ≤ occupancy then
        .error ⟨.capacityExhausted, "service capacity exhausted on bound node " ++ quoted nodeID ++
          ": occupancy " ++ toString occupancy ++ "/" ++ toString node.maxServiceSlots⟩
      else .ok ()

/-- The results of `neverAutomaticFailureCause` that were an interruption. An initiator is
recorded by every completion, so a missing one is the payload's own exit. -/
def interruptedResult (job : Job) (attempt : Attempt) (result : ProcessResult) : Bool :=
  match result.spawnError with
  | some failure =>
    classifySpawnFailure failure.code = .infrastructure &&
      (failure.code ≠ .runtimeUnavailable || job.spec.kind = .oci)
  | none =>
    -- A durable-output failure stays a terminal latch.
    if result.outputError ≠ "" then false
    else match result.runtimeFailure with
    | some failure =>
      job.spec.kind = .oci && classifyRuntimeFailure failure.code = .infrastructure
    | none =>
      if result.signal ≠ "" then
        result.terminationCause = some .agent || result.terminationCause = some .guardian
      else result.exitCode.isSome && !policyStopped job && attempt.terminationInitiator.isSome

/-- Whether a failed service that never restarts by itself failed for a reason that was not its own.
It is the current attempt that is asked, so an older failure masks nothing. -/
def neverAutomaticFailureCause (s : Store) (job : Job) : Except ProtocolError Bool :=
  match job.currentAttemptID with
  | none => .ok false
  | some attemptID =>
    if job.service.isNone ∨ job.spec.restart ≠ some .never ∨ job.state ≠ .failed ∨
        job.removal.isSome then .ok false
    else match (s.attempts.find attemptID).filter fun a => a.jobID = job.jobID with
    | none => .error ⟨.internal, "read never service failure cause"⟩
    | some attempt =>
      if attempt.state = .lost then .ok true
      else match attempt.result with
      | none => .error ⟨.internal, "decode never service failure cause"⟩
      | some result => .ok (interruptedResult job attempt result)

def serviceActionAuthority (actor : Check) (verb : ServiceVerb) (job : Job) : Check := do
  actor
  if job.service.isNone ∧ job.removal.isNone then throw (serviceNotFound job.jobID)
  if job.service.isNone ∧ (verb = .start ∨ verb = .stop ∨ verb = .restart) then
    throw (serviceNotFound job.jobID)
  match job.computerForJob with
  | none => return
  | some computerID =>
    throw ⟨.computerResourceRequired, "Computer " ++ quoted computerID ++ " is the sole " ++
      verb.authority ++ " authority for Job " ++ quoted job.jobID⟩

/-- `bound node %q has no registered managed-root instance` -/
def noManagedRoot (nodeID : Nat) : ProtocolError :=
  conflict ("bound node " ++ quoted nodeID ++ " has no registered managed-root instance")

/-- The managed root of a Node. An empty root is 0. -/
def managedRoot (s : Store) (nodeID : Nat) : Option Nat :=
  ((s.nodes.find nodeID).map fun node => node.rootInstanceID).filter fun root => root ≠ 0

/-- The start arm of `serviceActionDecision`. -/
def startDecision (s : Store) (job : Job) : Check :=
  match job.state with
  | .failed | .stopped => do
    let resumable ← neverAutomaticFailureCause s job
    if job.state = .failed ∧ ¬ policyStopped job ∧ ¬ resumable then
      throw (serviceConflict job.jobID "is latched failed; use restart")
    if ¬ holdsSlot job then ensureBoundServiceCapacity s job
  | .stopping =>
    .error (serviceConflict job.jobID "is still stopping; wait for stopped before start")
  | .queued | .claimed | .running =>
    if desires job .running then .ok ()
    else .error (serviceConflict job.jobID "has inconsistent desired state")
  | _ =>
    .error (serviceConflict job.jobID ("cannot be started from " ++ quotedState job.state))

def stopDecision (job : Job) : Check :=
  match job.state with
  | .queued | .claimed | .running | .failed => .ok ()
  | .stopped =>
    if desires job .stopped ∨ policyStopped job then .ok ()
    else .error (serviceConflict job.jobID "has inconsistent desired state")
  | .stopping =>
    if desires job .stopped then .ok ()
    else .error (serviceConflict job.jobID "has inconsistent desired state")
  | _ =>
    .error (serviceConflict job.jobID ("cannot be stopped from " ++ quotedState job.state))

/-- The restart arm: capacity is refused before the state. -/
def restartDecision (s : Store) (job : Job) : Check := do
  if ¬ holdsSlot job then ensureBoundServiceCapacity s job
  match job.state with
  | .stopped | .failed | .queued | .claimed | .running => return
  | .stopping =>
    throw (serviceConflict job.jobID "is still stopping; wait for stopped before restart")
  | _ =>
    throw (serviceConflict job.jobID ("cannot be restarted from " ++ quotedState job.state))

/-- `service job %q is being removed` -/
def refuseRemoved (job : Job) : Check :=
  if job.removal.isSome then .error (serviceConflict job.jobID "is being removed") else .ok ()

/-- The remove and forget arm: a bound service needs a root its cleanup can be proved for. -/
def removeDecision (s : Store) (job : Job) : Check :=
  match boundNode job with
  | none => .ok ()
  | some nodeID =>
    if job.removal.isSome ∨ (managedRoot s nodeID).isSome then .ok ()
    else .error (noManagedRoot nodeID)

def serviceActionDecision (s : Store) (actor : Check) (verb : ServiceVerb)
    (job : Job) : Check := do
  serviceActionAuthority actor verb job
  match verb with
  | .remove | .forget => removeDecision s job
  | .start => do refuseRemoved job; startDecision s job
  | .stop => do refuseRemoved job; stopDecision job
  | .restart => do refuseRemoved job; restartDecision s job

/-! ## 4. Desired state -/

/-- The row of a service that is to stop, but for its backoff. -/
def stoppedJob (now : Int) (job : Job) : Except ProtocolError Job :=
  match job.state with
  | .queued => transitionServiceJob now .stopped .stopped job
  | .claimed | .running => transitionServiceJob now .stopped .stopping job
  | .failed =>
    .ok ({ job with updatedNS := now }.updateService fun service =>
      { service with desiredState := .stopped, nextRestartAt := none })
  | .stopped =>
    -- A policy stop never rewrote the intent. A repeated stop changes nothing.
    if desires job .stopped then .ok job
    else .ok ({ job with updatedNS := now }.updateService fun service =>
      { service with desiredState := .stopped })
  | _ => .ok job

/-- The row `SetServiceDesiredState` writes. -/
def desiredJob (now : Int) (desired : DesiredState) (job : Job) : Except ProtocolError Job :=
  match desired with
  | .running =>
    match job.state with
    | .failed | .stopped => do
      let queued ← transitionServiceJob now .running .queued job
      return queued.updateService fun service =>
        { service with policyStop := none, nextRestartAt := none }
    | _ => .ok job
  | .stopped | .removed => do
    let stopped ← stoppedJob now job
    return stopped.updateService fun service => { service with nextRestartAt := none }

def serviceJob (s : Store) (jobID : Nat) : Option Job :=
  (s.jobs.find jobID).filter fun job => job.service.isSome

def setServiceDesiredState (ctx : Ctx) (jobID : Nat) (desired : DesiredState)
    (actor : Check) (s : Store) : StoreTx Store := do
  refuseIf (desired = .removed)
    (invalidRequest "desired_state must be \"running\" or \"stopped\"")
  let job ← orRefuse (serviceJob s jobID) (serviceNotFound jobID)
  check (serviceActionDecision s actor (if desired = .stopped then .stop else .start) job)
  let written ← check (desiredJob ctx.now desired job)
  return s.setJob written

/-! ## 5. Restart -/

/-- `ServiceRestartRequest.Upgrade`: the predecessor an upgrade asks to recover. -/
structure UpgradeRecovery where
  nodeID : Nat
  attemptID : Nat
  bootSessionID : Nat

structure ServiceRestartRequest where
  idempotencyKey : Nat
  requestHash : Nat
  upgrade : Option UpgradeRecovery

/-- The recovery still applies: no newer intent and no newer attempt came between. -/
def upgradeApplies (job : Job) (old : UpgradeRecovery) : Bool :=
  job.spec.kind = .process && job.computerID.isNone && boundNode job = some old.nodeID &&
    desires job .running && job.removal.isNone && !policyStopped job &&
    job.currentAttemptID = some old.attemptID && (job.state = .queued || job.state = .failed)

def predecessorCompleted (s : Store) (jobID : Nat) (old : UpgradeRecovery) : Bool :=
  (s.attempts.find old.attemptID).any fun a =>
    a.jobID = jobID && a.nodeID = old.nodeID && a.bootSessionID = old.bootSessionID &&
      a.completionKey.isSome && (a.state = .succeeded || a.state = .failed)

def acceptedRestart (job : Job) (idempotencyKey : Nat) : Option RestartRequest :=
  (job.service.map fun service => service.restartRequests).getD [] |>.find? fun r =>
    r.idempotencyKey = idempotencyKey

/-- `created_ns` of a restart request: not before the attempt it is for. -/
def restartCreatedNS (now : Int) (s : Store) (job : Job) : Except ProtocolError Int :=
  match job.currentAttemptID with
  | none => .ok now
  | some attemptID =>
    match s.attempts.find attemptID with
    | none => .error ⟨.internal, "read restarted attempt creation time"⟩
    | some attempt => .ok (max now attempt.createdNS)

/-- The row `RestartService` writes. A live attempt sees the request at its next renewal. -/
def restartedJob (now createdNS : Int) (request : ServiceRestartRequest) (job : Job) :
    Except ProtocolError Job := do
  let queued ←
    match job.state with
    | .stopped | .failed => transitionServiceJob now .running .queued job
    | _ => .ok job
  let accepted : RestartRequest := ⟨request.idempotencyKey, request.requestHash, createdNS⟩
  return { queued with updatedNS := now }.updateService fun service =>
    { service with
      desiredState := .running
      restartStreak := 0
      nextRestartAt := none
      lastFailure := none
      policyStop := none
      healthySinceNS := none
      publishedAttemptID := none
      restartRequests := service.restartRequests ++ [accepted] }

def restartService (ctx : Ctx) (jobID : Nat) (request : ServiceRestartRequest)
    (actor : Check) (s : Store) : StoreTx Store := do
  let job ← orRefuse (serviceJob s jobID) (serviceNotFound jobID)
  check (serviceActionAuthority actor .restart job)
  let replay := acceptedRestart job request.idempotencyKey
  refuseIf (replay.any fun r => r.requestHash ≠ request.requestHash)
    ⟨.idempotencyConflict, "restart idempotency key conflicts with the accepted request"⟩
  answerIf replay.isSome
  -- A recovery that was overtaken by a newer intent is dropped without a word.
  answerIf (request.upgrade.any fun old => !upgradeApplies job old)
  refuseIf (request.upgrade.any fun old => !predecessorCompleted s jobID old)
    (conflict "upgrade service predecessor has no accepted completion")
  check (serviceActionDecision s actor .restart job)
  let createdNS ← check (restartCreatedNS ctx.now s job)
  let written ← check (restartedJob ctx.now createdNS request job)
  return s.setJob written

/-! ## 6. The image latch -/

/-- `ServiceImageReconciliationFailureRequest`. -/
structure ImageReconciliationFailure where
  nodeID : Nat
  bootSessionID : Nat
  failure : SpawnFailure

def validateImagePinNodeSession (s : Store) (identityNodeID nodeID bootSessionID : Nat) : Check :=
  match s.nodes.find nodeID with
  | none => .error ⟨.nodeNotRegistered, "node " ++ quoted nodeID ++ " is not registered"⟩
  | some node =>
    if node.identityNodeID ≠ identityNodeID then
      .error ⟨.attemptNotOwned, "authenticated node does not own node " ++ quoted nodeID⟩
    else if node.bootSessionID ≠ bootSessionID then
      .error ⟨.nodeSessionReplaced, "node " ++ quoted nodeID ++ " boot session has been replaced"⟩
    else .ok ()

def latchedJob (now : Int) (result : ProcessResult) (failed : Job) : Job :=
  { detachAttempt .imageLatch failed with updatedNS := now }.updateService fun service =>
    { service with
      policyStop := none
      nextRestartAt := none
      lastFailure := some (.result result)
      healthySinceNS := none
      publishedAttemptID := none }

def latchServiceImageReconciliationFailure (ctx : Ctx) (identityNodeID jobID : Nat)
    (request : ImageReconciliationFailure) (s : Store) : StoreTx Store := do
  let result : ProcessResult := { spawnError := some request.failure }
  refuseIf (request.failure.code = .other "" ∨ request.failure.message = "")
    (invalidRequest "service image reconciliation failure is incomplete")
  check (validateProcessResult result)
  check (validateImagePinNodeSession s identityNodeID request.nodeID request.bootSessionID)
  let job ← orRefuse (s.jobs.find jobID) (serviceNotFound jobID)
  refuseIf (boundNode job ≠ some request.nodeID)
    ⟨.attemptNotOwned, "authenticated node does not own service binding " ++ quoted jobID⟩
  let failed ← check (if job.state = .failed then .ok job
    else transitionServiceJob ctx.now (desiredState job) .failed job)
  let revoked := s.invalidateAttempts ctx fun a => job.currentAttemptID = some a.attemptID
  return revoked.setJob (latchedJob ctx.now result failed)

end Wefty.Services
