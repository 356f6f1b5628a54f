/-
Storage resets and disk growth (`l1/storage_generations.go`; `l1/storage_grow.go`; their decisions
of `l1/computer_decisions.go`; `quiesceComputerProjectionTx` of `l1/computers.go`).

A reset replaces the bytes of a Computer. It reserves the next generation, the Node prepares it and
reports, the verified generation is published and the old one retired, and a last acknowledgement
says that the old bytes are gone; only then may the Computer run again. Verification and publication
are two transactions, so that a crash between them resumes from what is on record. Growth keeps the
generation and changes its budget.
-/
import Wefty.StorageCopies

set_option autoImplicit false

namespace Wefty.StorageResets

open Tables StoreRows AttemptClock RestartPolicy Transactions AttemptAuthority ControlStore Services
open Computers StorageCopies

/-! ## 1. The Node -/

def validateStorageResetNode (s : Store) (identityNodeID nodeID bootSessionID : Nat) : Check :=
  match s.nodes.find nodeID with
  | none => .error ⟨.nodeNotRegistered, "node " ++ quoted nodeID ++ " is not registered"⟩
  | some node =>
    if node.identityNodeID ≠ identityNodeID then
      .error ⟨.identityBound,
        "stable node " ++ quoted nodeID ++ " is bound to another Fabric identity"⟩
    else if node.bootSessionID ≠ bootSessionID then
      .error ⟨.nodeSessionReplaced, "node " ++ quoted nodeID ++ " boot session has been replaced"⟩
    else .ok ()

/-- The Node of an operation still has the managed root it was reserved under. -/
def sameRoot (s : Store) (nodeID rootInstanceID : Nat) (missing changed : ProtocolError) : Check :=
  match s.nodes.find nodeID with
  | none => .error missing
  | some node => if node.rootInstanceID ≠ rootInstanceID then .error changed else .ok ()

/-- The Node of a Computer's bytes: the one it is bound to, or the one it is placed on. -/
def storageNode (computer : Computer) : Nat := computer.boundNodeID.getD computer.placementNodeID

/-! ## 2. The reservation of a reset -/

structure ResetRequest where
  idempotencyKey : Nat
  requestHash : Nat
  terminateSessions : Bool
  precondition : Precondition

def computerResetDecision (computer : Computer) (job : Job) (request : ResetRequest) : Check := do
  if computer.desiredState = .removed then
    throw (computerConflict computer.computerID "is being removed")
  if (job.state = .claimed ∨ job.state = .running ∨ job.state = .stopping) ∧
      ¬ request.terminateSessions ∧ ¬ computer.seatRequestMade then
    throw (conflict "running Computer reset requires explicit take-over session termination")
  if computer.phase ≠ .stable then throw (inPhase computer)
  if computer.storageGeneration = Rows.maxInt64 then
    throw (computerConflict computer.computerID "exhausted Storage generation space")
  requireCurrentComputerStorage computer "reset"

def computerResetCapacityDecision (s : Store) (job : Job) (nodeID : Nat) :
    Except ProtocolError Nat :=
  match s.nodes.find nodeID with
  | none => .error (conflict ("bound node " ++ quoted nodeID ++ " was not found"))
  | some node =>
    if node.rootInstanceID = 0 then .error (noManagedRoot nodeID)
    else do
      -- The successor has its Slot before anything is allocated on the Node.
      if ¬ holdsSlot job then ensureBoundServiceCapacity s job
      return node.rootInstanceID

/-- `quiesceComputerProjectionTx` on the Job: a live attempt is asked to stop. -/
def quiescedJob (s : Store) (now : Int) (job : Job) : Except ProtocolError Job :=
  match job.state with
  | .queued | .claimed | .running => do
    computerServiceDesiredDecision s job .stopped
    computerDesiredJob now .stopped job
  | .stopping | .stopped | .failed =>
    .ok (job.updateService fun service =>
      { service with
        desiredState := .stopped
        nextRestartAt := none
        publishedAttemptID := none
        healthySinceNS := none })
  | _ =>
    .error (computerJobConflict job.jobID
      ("cannot enter projection from " ++ quotedState job.state))

/-- `SELECT COALESCE(MAX(storage_generation), 0) + 1`. -/
def nextGeneration (generations : List StorageGeneration) : Nat :=
  (generations.map fun g => g.storageGeneration).foldr max 0 + 1

/-- A Computer that is to be reset: the next generation is staged. Its desired state is not touched,
and says whether the Computer runs again when the reset is over. -/
def resettingComputer (computer : Computer) (request : ResetRequest) (root cleanupFence : Nat) :
    Computer :=
  let revision := computer.intentRevision + 1
  let generation := nextGeneration computer.generations
  { computer with
    intentRevision := revision
    phase := .resetting
    reconfigurationRevision := some revision
    generations := computer.generations ++
      [⟨generation, computer.desiredDiskBytes, .staging, some revision⟩]
    resets := computer.resets ++ [{
      intentRevision := revision
      oldGeneration := computer.storageGeneration
      newGeneration := generation
      diskBytes := computer.desiredDiskBytes
      boundNodeID := storageNode computer
      rootInstanceID := root
      jobID := computer.currentJobID
      cleanupFence := cleanupFence
      idempotencyKey := request.idempotencyKey
      requestHash := request.requestHash
      status := .reserved
      acknowledgement := none
      cleanupQuarantine := none
      resumeDesiredRunning := computer.desiredState = .running }] }

def beginComputerStorageReset (ctx : Ctx) (computerID : Nat) (request : ResetRequest) (s : Store) :
    StoreTx Store := do
  let (computer, job) ← orRefuse (readComputerAuthority s computerID) (computerNotFound computerID)
  let replay := computer.resets.find? fun reset => reset.idempotencyKey = request.idempotencyKey
  refuseIf (replay.any fun reset => reset.requestHash ≠ request.requestHash)
    (conflict "Computer Storage reset idempotency key was reused with different authority")
  if replay.isSome then return s
  check (computerWritePreconditionDecision computer request.precondition)
  check (computerResetDecision computer job request)
  let root ← check (computerResetCapacityDecision s job (storageNode computer))
  let quiesced ← check (quiescedJob s ctx.now job)
  refuseIf (stagingTaken computer.generations (nextGeneration computer.generations))
    ⟨.internal, "stage replacement Computer Storage generation"⟩
  refuseIf (computer.resets.any fun reset => resetActive reset.status)
    ⟨.internal, "persist Computer Storage reset intent"⟩
  let reserved := (s.setJob quiesced).setComputer
    (resettingComputer computer request root s.nextID)
  return { reserved with nextID := s.nextID + 1 }

/-! ## 3. Verification and publication -/

def resetByRevision (computer : Computer) (intentRevision : Nat) : Option StorageReset :=
  computer.resets.find? fun reset => reset.intentRevision = intentRevision

/-- `UPDATE computer_storage_resets ... WHERE computer_id=? AND intent_revision=?`. -/
def updateReset (intentRevision : Nat) (f : StorageReset → StorageReset)
    (resets : List StorageReset) : List StorageReset :=
  resets.map fun reset => if reset.intentRevision = intentRevision then f reset else reset

/-- `ComputerStorageResetReceipt`. `wellFormed` says that the receipt is of its kind, has an
identifier and a helper generation, and names the Computer and the Storage of the reset. -/
structure ResetReceipt where
  wellFormed : Bool
  intentRevision : Nat
  oldGeneration : Nat
  newGeneration : Nat
  nodeID : Nat
  rootInstanceID : Nat
  jobID : Nat
  cleanupFence : Nat

def validateStorageResetReceipt (reset : StorageReset) (receipt : ResetReceipt) : Check :=
  if ¬ receipt.wellFormed ∨ receipt.oldGeneration ≠ reset.oldGeneration ∨
      receipt.newGeneration ≠ reset.newGeneration ∨ receipt.nodeID ≠ reset.boundNodeID ∨
      receipt.rootInstanceID ≠ reset.rootInstanceID ∨ receipt.jobID ≠ reset.jobID ∨
      receipt.intentRevision ≠ reset.intentRevision ∨ receipt.cleanupFence ≠ reset.cleanupFence then
    .error (conflict "Computer Storage reset receipt does not match current reset authority")
  else .ok ()

/-- `ComputerStorageResetAcknowledgementRequest`, with the hash of its body. -/
structure ResetAcknowledgement where
  identityNodeID : Nat
  nodeID : Nat
  bootSessionID : Nat
  idempotencyKey : Nat
  bodyHash : Nat
  receipt : ResetReceipt

/-- `recordComputerStorageResetVerification`, the first transaction of
`AcknowledgeComputerStorageReset`. The row of the Computer itself is not read. -/
def recordComputerStorageResetVerification (computerID : Nat) (request : ResetAcknowledgement)
    (s : Store) : StoreTx Store := do
  check (validateStorageResetNode s request.identityNodeID request.nodeID request.bootSessionID)
  let stale : ProtocolError :=
    ⟨.staleIntentRevision, "Computer Storage reset revision is no longer current"⟩
  let computer ← orRefuse (s.computers.find computerID) stale
  let reset ← orRefuse (resetByRevision computer request.receipt.intentRevision) stale
  refuseIf (request.nodeID ≠ reset.boundNodeID)
    ⟨.attemptNotOwned, "authenticated node does not own this Computer Storage reset"⟩
  check (sameRoot s reset.boundNodeID reset.rootInstanceID
    ⟨.internal, "read Computer Storage reset managed-root authority"⟩
    ⟨.staleFence, "Computer Storage reset managed-root authority changed"⟩)
  check (validateStorageResetReceipt reset request.receipt)
  refuseIf (reset.status ≠ .reserved ∧
      reset.acknowledgement ≠ some (request.idempotencyKey, request.bodyHash))
    (conflict "Computer Storage reset acknowledgement conflicts with durable verification")
  if reset.status ≠ .reserved then return s
  return s.setComputer { computer with
    resets := updateReset reset.intentRevision (fun reset =>
      { reset with
        status := .prepared
        acknowledgement := some (request.idempotencyKey, request.bodyHash) }) computer.resets }

def stagedByReset (reset : StorageReset) (g : StorageGeneration) : Bool :=
  g.storageGeneration = reset.newGeneration && g.phase = .staging &&
    g.resetRevision = some reset.intentRevision

def replacedByReset (reset : StorageReset) (g : StorageGeneration) : Bool :=
  g.storageGeneration = reset.oldGeneration && g.phase = .current

/-- The Job of a Computer whose Storage was replaced: stopped, and nothing counts against it. -/
def resetJob (now : Int) (job : Job) : Job :=
  { job with state := .stopped, updatedNS := now }.updateService fun service =>
    { service with
      desiredState := .stopped
      restartStreak := 0
      nextRestartAt := none
      lastFailure := none
      healthySinceNS := none
      publishedAttemptID := none }

/-- `publishVerifiedComputerStorageReset`, the second transaction. -/
def publishVerifiedComputerStorageReset (ctx : Ctx) (computerID intentRevision : Nat) (s : Store) :
    StoreTx Store := do
  let (computer, job) ← orRefuse (readComputerAuthority s computerID)
    ⟨.internal, "read Computer Storage reset publication authority"⟩
  let reset ← orRefuse (resetByRevision computer intentRevision)
    ⟨.internal, "read verified Computer Storage reset"⟩
  if reset.status = .published ∨ reset.status = .retired then return s
  refuseIf (reset.status ≠ .prepared)
    (conflict "Computer Storage reset has no positive successor preparation verification")
  refuseIf (computer.intentRevision ≠ intentRevision ∨
      computer.storageGeneration ≠ reset.oldGeneration ∨ computer.phase ≠ .resetting ∨
      computer.reconfigurationRevision ≠ some intentRevision)
    ⟨.staleIntentRevision, "Computer Storage reset no longer owns publication"⟩
  refuseIf (job.state ≠ .stopped ∧ job.state ≠ .failed)
    (conflict "Computer runtime is not stopped for Storage publication")
  let retired ← check (setGeneration (replacedByReset reset) .retired
    "retire current Computer Storage generation" computer.generations)
  let generations ← check (setGeneration (stagedByReset reset) .current
    "publish replacement Computer Storage generation" retired)
  return (s.setJob (resetJob ctx.now job)).setComputer { computer with
    storageGeneration := reset.newGeneration
    generations := generations
    resets := updateReset intentRevision (fun reset => { reset with status := .published })
      computer.resets }

/-! ## 4. Retirement -/

/-- The acknowledgement that the bytes of the predecessor are gone. A quarantine is the outcome of
its checks and the hash of its evidence. -/
structure RetirementAcknowledgement where
  identityNodeID : Nat
  nodeID : Nat
  bootSessionID : Nat
  removalGeneration : Nat
  cleanupFence : Nat
  rootInstanceID : Nat
  cleanupQuarantine : Option (Check × Nat)

/-- A quarantined cleanup is put on record once. -/
def recordResetQuarantine (computer : Computer) (reset : StorageReset)
    (quarantine : Check × Nat) (s : Store) : StoreTx Store := do
  refuseIf (reset.status ≠ .published) ⟨.staleIntentRevision,
    "Computer Storage cleanup quarantine is not awaiting predecessor retirement"⟩
  check quarantine.1
  refuseIf (reset.cleanupQuarantine.any fun evidence => evidence ≠ quarantine.2)
    ⟨.idempotencyConflict,
      "Computer Storage cleanup quarantine replay differs from durable evidence"⟩
  return s.setComputer { computer with
    resets := updateReset reset.intentRevision (fun reset =>
      { reset with cleanupQuarantine := some quarantine.2 }) computer.resets }

/-- The Job of a Computer whose reset is over: it runs again if that is still wanted. -/
def resumedJob (s : Store) (now : Int) (computer : Computer) (reset : StorageReset) (job : Job) :
    Except ProtocolError Job :=
  if reset.resumeDesiredRunning ∧ computer.desiredState = .running then do
    computerServiceDesiredDecision s job .running
    computerDesiredJob now .running job
  else .ok job

def acknowledgeComputerStorageRetirement (ctx : Ctx) (computerID : Nat)
    (request : RetirementAcknowledgement) (s : Store) : StoreTx Store := do
  check (validateStorageResetNode s request.identityNodeID request.nodeID request.bootSessionID)
  let stale : ProtocolError :=
    ⟨.staleIntentRevision, "Computer Storage reset revision is no longer current"⟩
  let (computer, job) ← orRefuse (readComputerAuthority s computerID) stale
  let reset ← orRefuse (resetByRevision computer request.removalGeneration) stale
  refuseIf (request.nodeID ≠ reset.boundNodeID ∨ request.cleanupFence ≠ reset.cleanupFence ∨
      request.rootInstanceID ≠ reset.rootInstanceID)
    ⟨.staleFence, "Computer Storage retirement authority does not match the standing reset"⟩
  check (sameRoot s reset.boundNodeID reset.rootInstanceID
    ⟨.internal, "read Computer Storage retirement managed-root authority"⟩
    ⟨.staleFence, "Computer Storage retirement managed-root authority changed"⟩)
  match request.cleanupQuarantine with
  | some quarantine => recordResetQuarantine computer reset quarantine s
  | none => do
    if reset.status = .retired then return s
    refuseIf (reset.status ≠ .published ∨ computer.intentRevision ≠ reset.intentRevision ∨
        computer.storageGeneration ≠ reset.newGeneration ∨ computer.phase ≠ .resetting)
      ⟨.staleIntentRevision, "Computer Storage reset no longer owns predecessor retirement"⟩
    let resumed ← check (resumedJob s ctx.now computer reset job)
    return (s.setJob resumed).setComputer { computer with
      phase := .stable
      reconfigurationRevision := none
      resets := updateReset reset.intentRevision (fun reset => { reset with status := .retired })
        computer.resets }

/-! ## 5. Growth -/

structure GrowRequest where
  diskBytes : Int
  idempotencyKey : Nat
  requestHash : Nat
  precondition : Precondition

def computerGrowDecision (s : Store) (computer : Computer) (request : GrowRequest) :
    Except ProtocolError (Nat × Nat) := do
  if computer.desiredState = .removed then
    throw (computerConflict computer.computerID "is being removed")
  if computer.phase ≠ .stable then throw (inPhase computer)
  requireCurrentComputerStorage computer "resize"
  if request.diskBytes ≤ computer.desiredDiskBytes then
    throw (conflict "Computer resize is grow-only")
  match s.nodes.find (storageNode computer) with
  | none => throw (conflict ("bound node " ++ quoted (storageNode computer) ++ " is unavailable"))
  | some node =>
    if node.rootInstanceID = 0 then throw (conflict "bound node has no managed-root instance")
    return (node.nodeID, node.rootInstanceID)

def growingComputer (computer : Computer) (request : GrowRequest)
    (nodeID root operationFence : Nat) : Computer :=
  let revision := computer.intentRevision + 1
  { computer with
    intentRevision := revision
    phase := .growing
    reconfigurationRevision := some revision
    grows := computer.grows ++ [{
      operationRevision := revision
      storageGeneration := computer.storageGeneration
      oldDiskBytes := computer.desiredDiskBytes
      newDiskBytes := request.diskBytes
      boundNodeID := nodeID
      rootInstanceID := root
      jobID := computer.currentJobID
      operationFence := operationFence
      idempotencyKey := request.idempotencyKey
      requestHash := request.requestHash
      status := .planned
      acknowledgement := none }] }

def beginComputerGrow (computerID : Nat) (request : GrowRequest) (s : Store) : StoreTx Store := do
  refuseIf (request.diskBytes ≤ 0)
    (invalidRequest "computer_id, positive disk_bytes, and idempotency_key are required")
  let (computer, _) ← orRefuse (readComputerAuthority s computerID) (computerNotFound computerID)
  let replay := computer.grows.find? fun grow => grow.idempotencyKey = request.idempotencyKey
  refuseIf (replay.any fun grow => grow.requestHash ≠ request.requestHash) ⟨.idempotencyConflict,
    "Computer grow idempotency key was reused with different authority"⟩
  if replay.isSome then return s
  check (computerWritePreconditionDecision computer request.precondition)
  let (nodeID, root) ← check (computerGrowDecision s computer request)
  let planned := s.setComputer (growingComputer computer request nodeID root s.nextID)
  return { planned with nextID := s.nextID + 1 }

/-- `ComputerStorageGrowReceipt`. `wellFormed` says that the receipt has its identifiers and names
the Computer and the Storage of the grow, `shape` that its kind goes with its outcome. -/
structure GrowReceipt where
  wellFormed : Bool
  shape : Bool
  storageGeneration : Nat
  nodeID : Nat
  rootInstanceID : Nat
  jobID : Nat
  operationRevision : Nat
  operationFence : Nat
  oldDiskBytes : Int
  newDiskBytes : Int
  applied : Bool
  observedAvailableBytes : Int

def validateComputerGrowReceipt (grow : StorageGrow) (receipt : GrowReceipt) : Check :=
  if ¬ receipt.wellFormed ∨ receipt.storageGeneration ≠ grow.storageGeneration ∨
      receipt.nodeID ≠ grow.boundNodeID ∨ receipt.rootInstanceID ≠ grow.rootInstanceID ∨
      receipt.jobID ≠ grow.jobID ∨ receipt.operationRevision ≠ grow.operationRevision ∨
      receipt.operationFence ≠ grow.operationFence ∨ receipt.oldDiskBytes ≠ grow.oldDiskBytes ∨
      receipt.newDiskBytes ≠ grow.newDiskBytes then
    .error (conflict "Computer grow receipt does not match current authority")
  else if ¬ receipt.shape then
    .error (invalidRequest "Computer grow receipt lacks assertion-derived outcome")
  else .ok ()

/-- `ComputerStorageGrowAcknowledgementRequest`, with the hash of its body. -/
structure GrowAcknowledgement where
  identityNodeID : Nat
  nodeID : Nat
  bootSessionID : Nat
  idempotencyKey : Nat
  bodyHash : Nat
  receipt : GrowReceipt

/-- The Job of a grow that found no room: the failure is on record and nothing restarts by itself.
-/
def refusedGrowJob (grow : StorageGrow) (receipt : GrowReceipt) (job : Job) : Job :=
  job.updateService fun service =>
    { service with
      lastFailure := some (.spawn {
        code := .insufficientDisk
        message := "Computer disk grow capacity was refused"
        nodeID := some grow.boundNodeID
        requestedBytes := grow.newDiskBytes
        observedAvailableBytes := receipt.observedAvailableBytes })
      nextRestartAt := none }

def grownGenerations (grow : StorageGrow) (generations : List StorageGeneration) :
    List StorageGeneration :=
  generations.map fun g =>
    if g.storageGeneration = grow.storageGeneration ∧ g.phase = .current then
      { g with diskBytes := grow.newDiskBytes }
    else g

def acknowledgeComputerStorageGrow (computerID : Nat) (request : GrowAcknowledgement) (s : Store) :
    StoreTx Store := do
  check (validateStorageResetNode s request.identityNodeID request.nodeID request.bootSessionID)
  let missing : ProtocolError := ⟨.notFound, "Computer grow operation was not found"⟩
  let (computer, _) ← orRefuse (readComputerAuthority s computerID) missing
  let grow ← orRefuse (computer.grows.find? fun grow =>
    grow.operationRevision = request.receipt.operationRevision) missing
  check (validateComputerGrowReceipt grow request.receipt)
  refuseIf (request.nodeID ≠ grow.boundNodeID)
    ⟨.attemptNotOwned, "authenticated node does not own Computer grow"⟩
  check (sameRoot s grow.boundNodeID grow.rootInstanceID
    ⟨.internal, "read Computer grow managed-root authority"⟩
    ⟨.staleFence, "Computer grow managed-root authority changed"⟩)
  refuseIf (grow.status ≠ .planned ∧
      grow.acknowledgement ≠ some (request.idempotencyKey, request.bodyHash))
    ⟨.idempotencyConflict, "Computer grow acknowledgement conflicts with durable outcome"⟩
  if grow.status ≠ .planned then return s
  refuseIf (computer.intentRevision ≠ grow.operationRevision ∨ computer.phase ≠ .growing ∨
      computer.reconfigurationRevision ≠ some grow.operationRevision ∨
      computer.storageGeneration ≠ grow.storageGeneration ∨
      computer.desiredDiskBytes ≠ grow.oldDiskBytes)
    ⟨.staleIntentRevision, "Computer grow no longer owns the current Storage budget"⟩
  let applied := request.receipt.applied
  let settled := if applied then s
    else updateJob s grow.jobID (refusedGrowJob grow request.receipt)
  return settled.setComputer { computer with
    desiredDiskBytes := if applied then grow.newDiskBytes else computer.desiredDiskBytes
    generations :=
      if applied then grownGenerations grow computer.generations else computer.generations
    phase := .stable
    reconfigurationRevision := none
    grows := computer.grows.map fun row =>
      if row.operationRevision = grow.operationRevision then
        { row with
          status := if applied then .applied else .failed
          acknowledgement := some (request.idempotencyKey, request.bodyHash) }
      else row }

end Wefty.StorageResets
