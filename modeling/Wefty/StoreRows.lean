/-
Jobs and Computers as the L1 store keeps them (`l1/store.go`, the schema; `l1/types.go`).

Tables that share the primary key of `jobs` are joined into one row: a job carries its
`service_jobs` row, its row of `computer_job_projections`, its `service_removals` row and the
tags and capabilities it requires, each absent where the source has no row. In the same way
a Computer carries its Storage generations and its aborts. A foreign key between the joined
tables is then a fact about the type. Everything else stays a table.

Identifiers, keys and hashes are `Nat`, as in [`Wefty.Rows`]. Revisions, generations and the
fence counter only grow from one, so they are `Nat` too.
-/
import Wefty.Rows

set_option autoImplicit false

namespace Wefty.StoreRows

open Rows

/-! ## 1. Protocol errors -/

/-- `contract.ErrorCode`, the codes the modelled transactions answer with. -/
inductive ErrorCode
  | invalidRequest
  | notFound
  | unauthorized
  | identityBound
  | conflict
  | nodeNotRegistered
  | nodeDead
  | nodeDraining
  | nodeSessionReplaced
  | attemptNotFound
  | attemptNotOwned
  | staleFence
  | leaseExpired
  | attemptMismatch
  | dispatchKeyConflict
  | spawnDepthExceeded
  | idempotencyConflict
  | staleIntentRevision
  | stalePolicyRevision
  | forbidden
  | storageReferenceConflict
  | computerResourceRequired
  | capacityExhausted
  | cancelService
  | cancelNotQueued
  | deEnrollmentNotCommitted
  | runIdentityNotEntitled
  | runIdentityRequired
  | internal
  deriving DecidableEq

structure ProtocolError where
  code : ErrorCode
  message : String
  deriving DecidableEq

/-- What a check answers: nothing, or the error it refuses with. -/
abbrev Check := Except ProtocolError Unit

/-! ## 2. Job specifications -/

/-- `contract.JobClassOneShot`, `contract.JobClassService`. -/
inductive JobClass
  | oneShot
  | service
  deriving DecidableEq

/-- `JobSpec.Restart`. -/
inductive RestartPolicy
  | always
  | onFailure
  | never
  deriving DecidableEq

/-- The parts of `contract.OCIExecutionSpec` the store reads. `computerDisk` is the disk budget of
the Computer trait, absent without the trait. -/
structure OCISpec where
  imageReference : Nat
  imageDigest : Option Nat
  memoryBytes : Option Int
  computerDisk : Option Int

/-- The parts of `contract.JobSpec` the store reads. -/
structure JobSpec where
  dispatchKey : Nat
  kind : JobKind
  jobClass : JobClass
  publishedPort : Option Nat := none
  restartable : Bool := false
  restart : Option RestartPolicy := none
  maxRestartStreak : Option Nat := none
  routingTags : List Nat := []
  requiredCapabilities : List Nat := []
  oci : Option OCISpec := none

def isComputerSpec (spec : JobSpec) : Bool :=
  spec.kind = .oci && (spec.oci.bind fun oci => oci.computerDisk).isSome

/-! ## 3. Services -/

/-- `contract.ServiceDesiredState`. A `service_jobs` row is never `removed`. -/
inductive DesiredState
  | running
  | stopped
  | removed
  deriving DecidableEq

structure RestartRequest where
  idempotencyKey : Nat
  requestHash : Nat
  createdNS : Int

/-- The documents `service_jobs.last_failure` holds. -/
inductive LastFailure
  | result (result : ProcessResult)
  | spawn (failure : SpawnFailure)
  | portOccupied (code : SpawnFailureCode) (message : String) (nodeID : Nat) (port : Nat)

/-- A row of `service_jobs`, with the restart requests of the job. -/
structure ServiceJob where
  desiredState : DesiredState
  boundNodeID : Option Nat := none
  restartStreak : Nat := 0
  lifetimeRestartCount : Nat := 0
  leaseLossCount : Nat := 0
  nextRestartAt : Option Int := none
  publishedPort : Option Nat := none
  lastFailure : Option LastFailure := none
  healthySinceNS : Option Int := none
  publishedAttemptID : Option Nat := none
  displayEndpoint : Option Nat := none
  policyStop : Option ProcessResult := none
  restartRequests : List RestartRequest := []

/-- `ServiceJob.HoldsSlot`: the binding is the reservation, and it is given back by a stop, a
latched failure and the end of a removal. -/
def ServiceJob.holdsSlot (service : ServiceJob) (state : JobState) : Bool :=
  if service.boundNodeID.isNone then false
  else match state with
  | .queued => service.desiredState = .running
  | .claimed | .running | .stopping | .removalPending | .agentCleaned => true
  | _ => false

structure Projection where
  computerID : Nat
  specRevision : Nat
  current : Bool
  chown : Bool
  retiredNS : Option Int

inductive CleanupStatus
  | pending
  | quarantined
  | acknowledged
  deriving DecidableEq

/-- A row of `service_removals`. The acknowledgement and the stall are each a key and a hash, and
the quarantine is the receipt that was accepted. -/
structure Removal where
  boundNodeID : Nat
  cleanupFence : Nat
  rootInstanceID : Nat
  status : JobState
  cleanupStatus : CleanupStatus
  cleanupQuarantine : Option Nat
  requestedNS : Int
  acknowledgement : Option (Nat × Nat)
  agentCleanedNS : Option Int
  removedNS : Option Int
  stall : Option (Nat × Nat)

/-! ## 4. Jobs -/

/-- The image identity a job was resolved to: `image_resolution_hash` and the time in
`image_resolution_json`. -/
structure ImageResolution where
  hash : Nat
  resolvedAt : Int

/-- A row of `jobs`, with what a column has where an insert does not name it. `canceled` is
`outcome = 'canceled'`; the outcome has no other value. -/
structure Job where
  jobID : Nat
  requestHash : Nat
  spec : JobSpec
  state : JobState
  canceled : Bool := false
  cancelSettleByNS : Int := 0
  currentAttemptID : Option Nat := none
  completionReplayAttemptID : Option Nat := none
  fenceCounter : Nat := 0
  imageResolution : Option ImageResolution := none
  prestartRetryCount : Nat := 0
  prestartBudgetDeadlineNS : Option Int := none
  prestartNextRetryAtNS : Option Int := none
  prestartTerminalReason : Option String := none
  restartCount : Nat := 0
  nextRestartAtNS : Option Int := none
  restartTerminalReason : Option String := none
  restartLastReason : Option InterruptionReason := none
  restartPreviousAttemptID : Option Nat := none
  parentJobID : Option Nat := none
  parentAttemptID : Option Nat := none
  originatingSubmitter : Option Nat := none
  spawnDepth : Nat := 0
  service : Option ServiceJob := none
  projection : Option Projection := none
  removal : Option Removal := none
  createdNS : Int
  updatedNS : Int

/-- `UPDATE service_jobs SET f WHERE job_id=?`: nothing happens to a job without the row. -/
def Job.updateService (job : Job) (f : ServiceJob → ServiceJob) : Job :=
  { job with service := job.service.map f }

/-- The Computer a job is or was projected for: `computerForJob`, `computerIDForJob`. -/
def Job.computerForJob (job : Job) : Option Nat := job.projection.map fun p => p.computerID

/-- `Job.ComputerID`: the Computer whose current projection the job is. -/
def Job.computerID (job : Job) : Option Nat :=
  (job.projection.filter fun p => p.current).map fun p => p.computerID

/-- `ServiceRemovalOutcome`, as a tombstone keeps it. -/
inductive RemovalOutcome
  | verifiedRemoved
  | forceForgotten
  | cleanupStalled
  deriving DecidableEq

/-- The state a tombstone answers with: `serviceTombstoneRow.job`. -/
def RemovalOutcome.state : RemovalOutcome → JobState
  | .verifiedRemoved => .removedVerified
  | .forceForgotten => .forgottenCleanupUnverified
  | .cleanupStalled => .stalledCleanupUnverified

/-- A row of `service_tombstones`. A service that was never bound has no last Node and an empty
root, which is 0. The acknowledgement and the stall are each a key and a hash. -/
structure Tombstone where
  jobID : Nat
  dispatchKey : Nat
  requestHash : Nat
  originatingSubmitter : Option Nat
  parentJobID : Option Nat
  outcome : RemovalOutcome
  lastBoundNodeID : Option Nat
  rootInstanceID : Nat
  cleanupAcknowledgedNS : Option Int
  acknowledgement : Option (Nat × Nat)
  stall : Option (Nat × Nat)

/-! ## 5. Computers -/

inductive ReconfigurationPhase
  | stable
  | projecting
  | resetting
  | backingUp
  | restoring
  | cloning
  | exporting
  | importing
  | reimaging
  | growing
  | removing
  deriving DecidableEq

inductive GenerationPhase
  | current
  | staging
  | retired
  deriving DecidableEq

structure StorageGeneration where
  storageGeneration : Nat
  diskBytes : Int
  phase : GenerationPhase
  resetRevision : Option Nat

inductive CopyOperation
  | restore
  | clone
  | custodyImport
  deriving DecidableEq

inductive CopyStatus
  | reserved
  | prepared
  | published
  | retired
  | complete
  | failed
  | superseded
  deriving DecidableEq

/-- A row of `computer_storage_copy_operations`. Only a Custody import names an export. -/
structure StorageCopy where
  destinationComputerID : Nat
  operationRevision : Nat
  operation : CopyOperation
  sourceComputerID : Nat
  backupID : Nat
  exportID : Option Nat
  oldGeneration : Nat
  destinationGeneration : Nat
  boundNodeID : Nat
  jobID : Nat
  idempotencyKey : Nat
  requestHash : Nat
  status : CopyStatus

def StorageCopy.key (copy : StorageCopy) : Nat × Nat :=
  (copy.destinationComputerID, copy.operationRevision)

inductive ResetStatus
  | reserved
  | prepared
  | published
  | retired
  | superseded
  deriving DecidableEq

/-- A row of `computer_storage_resets`. The acknowledgement is a key and a hash, and the quarantine
is the hash of its evidence. -/
structure StorageReset where
  intentRevision : Nat
  oldGeneration : Nat
  newGeneration : Nat
  diskBytes : Int
  boundNodeID : Nat
  rootInstanceID : Nat
  jobID : Nat
  cleanupFence : Nat
  idempotencyKey : Nat
  requestHash : Nat
  status : ResetStatus
  acknowledgement : Option (Nat × Nat)
  cleanupQuarantine : Option Nat
  resumeDesiredRunning : Bool

inductive GrowStatus
  | planned
  | applied
  | failed
  | superseded
  deriving DecidableEq

structure StorageGrow where
  operationRevision : Nat
  storageGeneration : Nat
  oldDiskBytes : Int
  newDiskBytes : Int
  boundNodeID : Nat
  rootInstanceID : Nat
  jobID : Nat
  operationFence : Nat
  idempotencyKey : Nat
  requestHash : Nat
  status : GrowStatus
  acknowledgement : Option (Nat × Nat)

structure Abort where
  idempotencyKey : Nat
  requestHash : Nat

/-- A row of `computers`, with its Storage generations, its resets, its grows and its aborts. -/
structure Computer where
  computerID : Nat
  name : Option Nat
  placementNodeID : Nat
  boundNodeID : Option Nat
  storageGeneration : Nat
  desiredDiskBytes : Int
  seatRequestMade : Bool
  desiredState : DesiredState
  intentRevision : Nat
  currentJobID : Nat
  phase : ReconfigurationPhase
  reconfigurationRevision : Option Nat
  submitIntentRevision : Int := 0
  generations : List StorageGeneration
  resets : List StorageReset := []
  grows : List StorageGrow := []
  aborts : List Abort := []

end Wefty.StoreRows
