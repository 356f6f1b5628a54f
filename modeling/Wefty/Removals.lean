/-
Removal of services (`l1/removal.go`).

A removal takes the authority of the service's attempts at once and is irreversible from then on.
A service that was never bound leaves a tombstone and is gone. A bound one waits until its Node
has cleaned up: `removal_pending`, `agent_cleaned`, and finally the tombstone. An operator may
waive the proof (`forgotten_cleanup_unverified`) and the Node may give up
(`stalled_cleanup_unverified`); a cleanup that comes after either of them is recorded and takes
neither label back. The Job of a Computer takes the same way and is kept instead of buried.
-/
import Wefty.Services

set_option autoImplicit false

namespace Wefty.Removals

open Tables Rows StoreRows RestartPolicy Transactions AttemptAuthority ControlStore Services

/-! ## 1. The request -/

/-- `insertServiceTombstone`, with the two unique columns where SQLite checks them. -/
def insertTombstone (s : Store) (tombstone : Tombstone) : Except ProtocolError Store :=
  if (s.tombstones.find tombstone.jobID).isSome ∨
      (s.tombstoneByDispatchKey tombstone.dispatchKey).isSome then
    .error ⟨.internal, "insert service tombstone"⟩
  else .ok (s.insertServiceTombstone tombstone)

/-- The tombstone of a service that no Node ever had: it is verified as it is. -/
def unboundTombstone (job : Job) : Tombstone where
  jobID := job.jobID
  dispatchKey := job.spec.dispatchKey
  requestHash := job.requestHash
  originatingSubmitter := job.originatingSubmitter
  parentJobID := job.parentJobID
  outcome := .verifiedRemoved
  lastBoundNodeID := none
  rootInstanceID := 0
  cleanupAcknowledgedNS := none
  acknowledgement := none
  stall := none

/-- The tombstone of a forced forget: what was acknowledged until then. -/
def forgottenTombstone (job : Job) (removal : Removal) : Tombstone :=
  { unboundTombstone job with
    outcome := .forceForgotten
    lastBoundNodeID := some removal.boundNodeID
    rootInstanceID := removal.rootInstanceID
    cleanupAcknowledgedNS := removal.agentCleanedNS }

/-- The tombstone of a finalized removal, with the outcome the removal ended with. -/
def finalizedTombstone (job : Job) (removal : Removal) : Tombstone :=
  { unboundTombstone job with
    outcome :=
      if removal.status = .stalledCleanupUnverified then .cleanupStalled else .verifiedRemoved
    lastBoundNodeID := some removal.boundNodeID
    rootInstanceID := removal.rootInstanceID
    cleanupAcknowledgedNS := removal.agentCleanedNS
    acknowledgement := removal.acknowledgement
    stall := removal.stall }

/-- `scrubServiceControllerState` on the job: the fence moves, and no attempt claimed before is
worth anything. -/
def scrubbedJob (now : Int) (job : Job) : Job :=
  { job with
    state := .removalPending
    fenceCounter := job.fenceCounter + 1
    updatedNS := now }.updateService fun service =>
      { service with publishedAttemptID := none, healthySinceNS := none }

/-- The row of `service_removals` a request creates. -/
def requestedRemoval (now : Int) (nodeID root cleanupFence : Nat) : Removal where
  boundNodeID := nodeID
  cleanupFence := cleanupFence
  rootInstanceID := root
  status := .removalPending
  cleanupStatus := .pending
  cleanupQuarantine := none
  requestedNS := now
  acknowledgement := none
  agentCleanedNS := none
  removedNS := none
  stall := none

/-- A request for a service that is gone is answered with its tombstone, and one for a removal that
stands commits nothing new. -/
def removeService (ctx : Ctx) (jobID : Nat) (actor : Check) (s : Store) :
    StoreTx Store :=
  match serviceJob s jobID with
  | none => do
    refuseIf (s.tombstones.find jobID).isNone (serviceNotFound jobID)
    check actor
    answer
  | some job => do
    check (serviceActionDecision s actor .remove job)
    if job.removal.isSome then return s
    let scrubbed := scrubbedJob ctx.now job
    let revoked := (s.invalidateAttempts ctx fun a => a.jobID = jobID).setJob scrubbed
    match boundNode job with
    | none =>
      let buried ← check (insertTombstone revoked (unboundTombstone scrubbed))
      return buried.deleteServiceRows jobID
    | some nodeID =>
      let root ← orRefuse (managedRoot s nodeID) (noManagedRoot nodeID)
      return { revoked.setJob { scrubbed with
          removal := some (requestedRemoval ctx.now nodeID root s.nextID) } with
        nextID := s.nextID + 1 }

/-- The states `ForceForgetService` has nothing to waive in. -/
def removalOver (state : JobState) : Bool :=
  state = .removedVerified || state = .forgottenCleanupUnverified ||
    state = .stalledCleanupUnverified

/-- The second transaction of `ForceForgetService`, on the state the first one answered with: the
proof is waived and the directive stands. -/
def forgetService (ctx : Ctx) (jobID : Nat) (s : Store) : StoreTx Store := do
  let job ← orRefuse (s.jobs.find jobID) ⟨.internal, "read forced service forget"⟩
  let removal ← orRefuse job.removal ⟨.internal, "read forced service forget"⟩
  let buried ← check (insertTombstone s (forgottenTombstone job removal))
  return buried.setJob { job with
    state := .forgottenCleanupUnverified
    updatedNS := ctx.now
    removal := some { removal with
      status := .forgottenCleanupUnverified
      removedNS := some ctx.now } }

/-! ## 2. The acknowledgement -/

/-- `InitialServiceRemovalGeneration`, the only generation there is. -/
def initialServiceRemovalGeneration : Nat := 1

/-- `RemovalAcknowledgementRequest`. A quarantine is the outcome of the checks of its receipt, with
the receipt; a stall is the outcome of `validateServiceRemovalStallEvidence` and the hash of the
declaration; `backups` is the outcome of counting the Backup copies of a Computer. -/
structure RemovalAcknowledgement where
  nodeID : Nat
  bootSessionID : Nat
  removalGeneration : Nat
  cleanupFence : Nat
  rootInstanceID : Nat
  idempotencyKey : Nat
  bodyHash : Nat
  cleanupQuarantine : Option (Check × Nat)
  cleanupStall : Option (Check × Nat)
  backups : Check

/-- The statuses a removal can still be acknowledged in. -/
def acknowledgeable (status : JobState) : Bool :=
  status = .removalPending || status = .agentCleaned || status = .forgottenCleanupUnverified ||
    status = .stalledCleanupUnverified

def validateMutableAcknowledgement (s : Store) (identityNodeID : Nat)
    (request : RemovalAcknowledgement) (removal : Removal) : Check :=
  if ¬ acknowledgeable removal.status then
    .error (conflict ("service removal state " ++ quotedState removal.status ++
      " does not accept acknowledgement"))
  else match s.nodes.find removal.boundNodeID with
  | none => .error ⟨.internal, "read removal acknowledgement node"⟩
  | some node =>
    if node.identityNodeID ≠ identityNodeID ∨ request.nodeID ≠ removal.boundNodeID then
      .error ⟨.attemptNotOwned, "authenticated node does not own this service removal"⟩
    else if request.bootSessionID ≠ node.bootSessionID then
      .error ⟨.nodeSessionReplaced,
        "node " ++ quoted removal.boundNodeID ++ " boot session has been replaced"⟩
    else if request.removalGeneration ≠ initialServiceRemovalGeneration ∨
        request.cleanupFence ≠ removal.cleanupFence ∨
        request.rootInstanceID ≠ removal.rootInstanceID ∨
        node.rootInstanceID ≠ removal.rootInstanceID then
      .error ⟨.staleFence, "service removal authority does not match the standing directive"⟩
    else .ok ()

/-- The answer to an acknowledgement of a Computer's removal that is over: it replays or it is
refused, and writes nothing. -/
def replayRetainedComputer (s : Store) (identityNodeID : Nat) (request : RemovalAcknowledgement)
    (removal : Removal) : StoreTx Store := do
  let node ← orRefuse (s.nodes.find removal.boundNodeID)
    ⟨.internal, "read finalized Computer acknowledgement node"⟩
  refuseIf (node.identityNodeID ≠ identityNodeID ∨ request.nodeID ≠ removal.boundNodeID)
    ⟨.attemptNotOwned, "authenticated node does not own this finalized Computer removal"⟩
  refuseIf (request.removalGeneration ≠ initialServiceRemovalGeneration ∨
      request.rootInstanceID ≠ removal.rootInstanceID)
    ⟨.staleFence, "finalized Computer removal acknowledgement does not match the removal"⟩
  refuseIf request.cleanupQuarantine.isSome
    (conflict "finalized Computer removal cannot accept this acknowledgement shape")
  refuseIf (request.cleanupStall.any fun stall =>
      removal.stall ≠ some (request.idempotencyKey, stall.2))
    ⟨.idempotencyConflict,
      "finalized stalled Computer removal replay does not match the accepted declaration"⟩
  answer

/-- `recordServiceRemovalStall`, with the checks before it: the Slot goes back without a claim
that anything was cleaned. The durations in the text of the bound are left out. -/
def recordServiceRemovalStall (ctx : Ctx) (removalStallBound : Int) (s : Store) (job : Job)
    (removal : Removal) (request : RemovalAcknowledgement)
    (stall : Check × Nat) : StoreTx Store := do
  refuseIf request.cleanupQuarantine.isSome (invalidRequest
    "a removal acknowledgement carries cleanup quarantine or stall evidence, never both")
  refuseIf (removal.cleanupStatus = .quarantined) (conflict
    ("service removal cleanup is quarantined and retains its Slot; " ++
      "it cannot also be declared stalled"))
  refuseIf (removal.status ≠ .removalPending ∧ removal.status ≠ .stalledCleanupUnverified)
    (conflict ("service removal state " ++ quotedState removal.status ++
      " cannot accept stall evidence"))
  refuseIf (job.spec.kind ≠ .oci) (conflict
    ("only a runtime removal can be declared stalled; service " ++ quoted job.jobID ++
      " has workload kind \"process\""))
  check stall.1
  refuseIf (ctx.now - removal.requestedNS < removalStallBound)
    (conflict ("service removal " ++ quoted job.jobID ++ " has stood short of the stall bound"))
  refuseIf (removal.stall.any fun accepted => accepted ≠ (request.idempotencyKey, stall.2))
    ⟨.idempotencyConflict,
      "stalled service removal replay does not match the accepted declaration"⟩
  -- A replayed declaration is committed as it stands.
  if removal.stall.isSome then return s
  refuseIf (removal.status ≠ .removalPending)
    (conflict ("service removal " ++ quoted job.jobID ++ " is no longer declarable stalled"))
  return s.setJob ({ job with
    state := .stalledCleanupUnverified
    updatedNS := ctx.now
    removal := some { removal with
      status := .stalledCleanupUnverified
      stall := some (request.idempotencyKey, stall.2) } }.updateService fun service =>
        { service with publishedAttemptID := none, healthySinceNS := none, nextRestartAt := none })

/-- The status a cleanup leaves: a waived or stalled removal keeps its label. -/
def cleanedStatus (status : JobState) : JobState :=
  if status = .forgottenCleanupUnverified ∨ status = .stalledCleanupUnverified then status
  else .agentCleaned

/-- `AcknowledgeServiceRemoval` for a removal that is not over. -/
def acknowledgeMutable (ctx : Ctx) (removalStallBound : Int) (identityNodeID : Nat)
    (request : RemovalAcknowledgement) (job : Job) (removal : Removal) (s : Store) :
    StoreTx Store := do
  check (validateMutableAcknowledgement s identityNodeID request removal)
  match request.cleanupStall with
  | some stall => recordServiceRemovalStall ctx removalStallBound s job removal request stall
  | none => do
    refuseIf (removal.cleanupStatus = .quarantined ∧ request.cleanupQuarantine.isNone) (conflict
      "Computer removal cleanup is quarantined; ordinary acknowledgement cannot resolve it")
    refuseIf (request.cleanupQuarantine.isSome ∧ removal.status ≠ .removalPending)
      (conflict ("service removal state " ++ quotedState removal.status ++
        " cannot accept cleanup quarantine evidence"))
    match request.cleanupQuarantine with
    | some quarantine => do
      refuseIf job.computerForJob.isNone
        (invalidRequest "cleanup quarantine evidence is valid only for Computer removal")
      check quarantine.1
      refuseIf (removal.cleanupQuarantine.any fun evidence => evidence ≠ quarantine.2)
        ⟨.idempotencyConflict,
          "Computer removal cleanup quarantine replay differs from durable evidence"⟩
      -- A replayed receipt is committed as it stands.
      if removal.cleanupQuarantine.isSome then return s
      return s.setJob { job with
        removal := some { removal with
          cleanupStatus := .quarantined
          cleanupQuarantine := some quarantine.2 } }
    | none => do
      check (if job.computerForJob.isSome then request.backups else .ok ())
      refuseIf (removal.acknowledgement.any fun accepted =>
          accepted ≠ (request.idempotencyKey, request.bodyHash))
        (conflict "removal acknowledgement replay does not match the accepted request")
      answerIf removal.acknowledgement.isSome
      return s.setJob { job with
        state := cleanedStatus removal.status
        updatedNS := ctx.now
        removal := some { removal with
          status := cleanedStatus removal.status
          cleanupStatus := .acknowledged
          acknowledgement := some (request.idempotencyKey, request.bodyHash)
          agentCleanedNS := some ctx.now } }

/-- A bare acknowledgement may come from a later boot, so its key and its fence are no part of what
is compared. -/
def validateFinalizedAcknowledgement (s : Store) (identityNodeID : Nat)
    (request : RemovalAcknowledgement) (tombstone : Tombstone) : Check :=
  match tombstone.lastBoundNodeID.bind s.nodes.find with
  | none =>
    .error ⟨.nodeNotRegistered, "node " ++ ((tombstone.lastBoundNodeID.map quoted).getD "\"\"") ++
      " is not registered"⟩
  | some node =>
    if node.identityNodeID ≠ identityNodeID ∨ some request.nodeID ≠ tombstone.lastBoundNodeID then
      .error ⟨.attemptNotOwned, "authenticated node does not own this finalized removal"⟩
    else if request.removalGeneration ≠ initialServiceRemovalGeneration ∨
        request.rootInstanceID ≠ tombstone.rootInstanceID then
      .error ⟨.staleFence, "finalized removal acknowledgement does not match the tombstone"⟩
    else if request.cleanupQuarantine.isSome then
      .error (conflict "a finalized service removal cannot accept cleanup quarantine evidence")
    else match request.cleanupStall with
    | some stall =>
      if tombstone.stall ≠ some (request.idempotencyKey, stall.2) then
        .error ⟨.idempotencyConflict,
          "finalized stalled removal replay does not match the accepted declaration"⟩
      else .ok ()
    | none =>
      if tombstone.cleanupAcknowledgedNS.isNone then
        .error ⟨.idempotencyConflict,
          "finalized service removal accepted no cleanup acknowledgement to replay"⟩
      else .ok ()

/-- What is left of a buried service only answers. -/
def acknowledgeServiceRemoval (ctx : Ctx) (removalStallBound : Int) (identityNodeID jobID : Nat)
    (request : RemovalAcknowledgement) (s : Store) : StoreTx Store :=
  match (s.jobs.find jobID).bind fun job => job.removal.map fun removal => (job, removal) with
  | none => do
    let tombstone ← orRefuse (s.tombstones.find jobID)
      ⟨.notFound, "service removal " ++ quoted jobID ++ " was not found"⟩
    check (validateFinalizedAcknowledgement s identityNodeID request tombstone)
    answer
  | some (job, removal) =>
    if removal.removedNS.isSome ∧ removal.agentCleanedNS.isSome ∧ job.computerForJob.isSome then
      replayRetainedComputer s identityNodeID request removal
    else acknowledgeMutable ctx removalStallBound identityNodeID request job removal s

/-! ## 3. Finalization -/

def finalizable (removal : Removal) : Bool :=
  removal.cleanupStatus = .acknowledged &&
    (removal.status = .agentCleaned ||
      (removal.status = .forgottenCleanupUnverified ||
        removal.status = .stalledCleanupUnverified) && removal.agentCleanedNS.isSome)

def terminalStatus (status : JobState) : JobState :=
  if status = .stalledCleanupUnverified ∨ status = .forgottenCleanupUnverified then status
  else .removedVerified

def finalizedComputerJob (now : Int) (job : Job) (removal : Removal) : Job :=
  { job with
    state := terminalStatus removal.status
    updatedNS := now
    removal := some { removal with
      status := terminalStatus removal.status
      removedNS := some now } }.updateService fun service =>
        { service with
          desiredState := .stopped
          publishedAttemptID := none
          healthySinceNS := none
          nextRestartAt := none }

/-- The store it leaves, or none where there is nothing to finalize. -/
def finalizeServiceRemovalTx (ctx : Ctx) (jobID : Nat) (s : Store) :
    Except ProtocolError (Option Store) :=
  match (s.jobs.find jobID).bind fun job => job.removal.map fun removal => (job, removal) with
  | none =>
    if (s.tombstones.find jobID).isSome then .ok none
    else .error ⟨.notFound, "service removal " ++ quoted jobID ++ " was not found"⟩
  | some (job, removal) =>
    if ¬ finalizable removal then .ok none
    else if job.computerForJob.isSome then
      -- A Computer keeps its row, so the time of removal tells a finalized one apart.
      if removal.removedNS.isSome then .ok none
      else .ok (some (s.setJob (finalizedComputerJob ctx.now job removal)))
    else if (s.tombstones.find jobID).isSome then
      -- Forgotten before: the tombstone records the cleanup and keeps its outcome.
      .ok (some ((s.acknowledgeTombstone jobID removal.agentCleanedNS
        removal.acknowledgement).deleteServiceRows jobID))
    else do
      let buried ← insertTombstone s (finalizedTombstone job removal)
      return some (buried.deleteServiceRows jobID)

def finalizeServiceRemoval (ctx : Ctx) (jobID : Nat) (s : Store) : StoreTx Store := do
  let finalized ← check (finalizeServiceRemovalTx ctx jobID s)
  match finalized with
  | none => answer
  | some s => return s

end Wefty.Removals
