/-
The rows of the L1 control-plane database that a transaction door reads and writes, attempts
and Nodes, with the evidence an attempt carries (`l1/store.go`, the schema; `l1/types.go`;
`contract/states.go`, the states; `contract/types.go`, process results).

Identifiers, idempotency keys and digests are opaque to every modelled function, which only
compares them, so all of them are `Nat`. Times are `Int` nanoseconds. A nullable column is
an `Option`, and a JSON column is the value it encodes. A fencing token is the decimal
rendering of the job's fence counter; it is kept as the number, which loses nothing since
distinct numbers render differently.
-/
import Wefty.Tables

set_option autoImplicit false

namespace Wefty.Rows

/-- `math.MaxInt64`. -/
def maxInt64 : Nat := 2 ^ 63 - 1

/-! ## States -/

inductive AttemptState
  | claimed
  | running
  | awaitingInput
  | succeeded
  | failed
  | lost
  | interrupted
  deriving DecidableEq

namespace AttemptState

/-- The states in which an attempt can hold execution authority. -/
def active : AttemptState → Bool
  | claimed | running | awaitingInput => true
  | succeeded | failed | lost | interrupted => false

end AttemptState

inductive JobState
  | queued
  | claimed
  | running
  | stopping
  | stopped
  | awaitingInput
  | succeeded
  | failed
  | removalPending
  | agentCleaned
  | removedVerified
  | forgottenCleanupUnverified
  | stalledCleanupUnverified
  deriving DecidableEq

namespace JobState

/-- The states in which a job's current attempt may be executing. -/
def holding : JobState → Bool
  | claimed | running | stopping | awaitingInput => true
  | _ => false

end JobState

inductive NodeState
  | alive
  | stale
  | draining
  | dead
  deriving DecidableEq

namespace NodeState

/-- The states whose implicit heartbeat deadlines still run. -/
def monitored : NodeState → Bool
  | alive | stale | draining => true
  | dead => false

end NodeState

/-! ## Process results -/

/-- `contract.JobKindProcess`, `contract.JobKindOCI`. -/
inductive JobKind
  | process
  | oci
  deriving DecidableEq

/-- `contract.SpawnFailureCode`. A code outside the vocabulary is kept as its text. -/
inductive SpawnFailureCode
  | unsupportedClass
  | unsupportedKind
  | unsupportedRuntimeHandler
  | managedResourcePreparation
  | handoffPreparation
  | executableMaterialization
  | workflowBridgeCreation
  | logSinkSetup
  | processRequest
  | processGroupSetup
  | processSpawn
  | processWait
  | publishedPortOccupied
  | publishedListener
  | startupReadinessTimeout
  | runtimeUnavailable
  | imageUnavailable
  | imageNotFound
  | imageManifestInvalid
  | imagePlatformUnsupported
  | ociSpecRejected
  | insufficientMemory
  | insufficientDisk
  | reconfigurationAborted
  | reimagePreflight
  | passUnavailable
  | servicePortTaken
  | computerStorageQuarantined
  | computerStoragePreparationInterrupted
  | other (text : String)
  deriving DecidableEq

/-- `contract.SpawnFailure`. An empty `node_id` is `none`. -/
structure SpawnFailure where
  code : SpawnFailureCode
  message : String
  nodeID : Option Nat
  requestedBytes : Int
  observedAvailableBytes : Int
  deriving DecidableEq

inductive RuntimeFailureCode
  | unavailable
  | other (text : String)
  deriving DecidableEq

structure RuntimeFailure where
  code : RuntimeFailureCode
  message : String
  deriving DecidableEq

inductive LimitReached
  | maxRuntime
  | idleTimeout
  deriving DecidableEq

inductive TerminationCause
  | spontaneous
  | agent
  | guardian
  deriving DecidableEq

structure StoppedProcess where
  pid : Int
  name : String
  cwd : String
  deriving DecidableEq

/-- An empty `output_error` or `signal` means that the field is absent. -/
structure ProcessResult where
  stoppedProcesses : Option (List StoppedProcess) := none
  limitReached : Option LimitReached := none
  spawnError : Option SpawnFailure := none
  runtimeFailure : Option RuntimeFailure := none
  outputError : String := ""
  exitCode : Option Int := none
  signal : String := ""
  terminationCause : Option TerminationCause := none
  oom : Bool := false
  diskExhausted : Bool := false
  logEvidenceIncomplete : Bool := false
  deriving DecidableEq

/-! ## Attempts and Nodes -/

inductive InterruptionReason
  | upgrade
  | agentShutdown
  | leaseExpired
  deriving DecidableEq

/-- `InterruptRestartableAttemptRequest`, also the `interruption_request_json` it is stored as. -/
structure InterruptRequest where
  jobID : Nat
  bootSessionID : Nat
  intentRevision : Int
  idempotencyKey : Nat
  reason : InterruptionReason
  deriving DecidableEq

/-- `OCIImageEvidence`, with the hash of the observation it was accepted from. -/
structure ImageObservation where
  hash : Nat
  resolvedAt : Int
  startedAt : Option Int
  deriving DecidableEq

/-- `LateResultEvidence`. `gap` is the marker of a report after the observation window. -/
inductive LateResult
  | observation (result : ProcessResult) (observedAt authorityLostAt : Int)
  | gap (observedAt authorityLostAt : Int)
  deriving DecidableEq

/-- A row of `attempts`. The `interruption_request` columns are always written together. -/
structure Attempt where
  attemptID : Nat
  jobID : Nat
  nodeID : Nat
  bootSessionID : Nat
  state : AttemptState
  fencingToken : Nat
  leaseExpires : Int
  leaseBootID : String
  leaseDeadlineNS : Int
  authorityGeneration : Nat
  completionKey : Option Nat := none
  completionHash : Option Nat := none
  result : Option ProcessResult := none
  terminationInitiator : Option TerminationCause := none
  imageObservation : Option ImageObservation := none
  startedNS : Option Int := none
  interruptionReason : Option InterruptionReason := none
  interruptionRequest : Option InterruptRequest := none
  lateResult : Option LateResult := none
  createdNS : Int
  updatedAt : Int
  deriving DecidableEq

/-- A row of `nodes`, with its `node_tags` and the capabilities it advertises. -/
structure Node where
  nodeID : Nat
  identityNodeID : Nat
  bootSessionID : Nat
  state : NodeState
  lastHeartbeat : Int
  heartbeatSleep : Int
  authorityGeneration : Nat
  rootInstanceID : Nat
  claimsEnabled : Bool
  intentRevision : Int
  maxOneshotSlots : Nat
  maxServiceSlots : Nat
  tags : List Nat
  capabilities : List Nat
  deriving DecidableEq

end Wefty.Rows
