/-
The operations of the L1 store, and runs of them.

An operation is one call with all of its arguments, and a run is a list of operations that opens
its doors in this order: SQLite admits one write transaction at a time. Nothing relates the
arguments, the clock readings or the settings of one operation to those of the next.

Three kinds of transaction are wider here than in the source. Registration, heartbeats, drains and
the retirement of generations are `node`, which may leave any Node rows, and may end the stability
window of any services ([`Wefty.NodeGenerations`] has them in full). Whether a retiring generation
of its Node owns an attempt is an argument of the call. And a reconfiguration of a Computer that
is neither a copy, a reset, a grow nor a removal is its phase only ([`Wefty.Computers`]); the
projection that moves its Job is in [`Wefty.Spawns`].
-/
import Wefty.Submissions
import Wefty.Recovery
import Wefty.StorageResets
import Wefty.Runs

set_option autoImplicit false

namespace Wefty.Operations

open Tables Rows StoreRows RestartPolicy Transactions AttemptAuthority Completion ControlStore
open Submissions Claims Services Removals Computers StorageCopies StorageResets Recovery

/-! ## 1. Calls -/

/-- What the agent of a Node asks for an attempt. -/
inductive AgentCall
  | renewLease (fencingToken : Option Nat)
  | observeAttemptImage (request : ImageObservationRequest)
  | startAttempt (fencingToken : Option Nat)
  | setAttemptPublication (request : PublicationRequest)
  | interruptRestartableAttempt (nodeID : Nat) (request : InterruptRequest)
  | appendLogs (fencingToken : Option Nat) (scan : Except ProtocolError Bool) (listed : List Nat)
  | completeAttemptOutcome (request : CompletionRequest) (listed : List Nat)

/-- The transaction of the call, on the rows of its attempt. -/
def AgentCall.tx (call : AgentCall) (ctx : Ctx) (identityNodeID jobID attemptID : Nat) (s : Store)
    (a : Authority) : AttemptTx AttemptRows :=
  match call with
  | .renewLease fencingToken => do
    let (rows, _) ← AttemptAuthority.renewLease ctx identityNodeID jobID attemptID fencingToken a
    return rows
  | .observeAttemptImage request =>
    AttemptAuthority.observeAttemptImage ctx identityNodeID jobID attemptID request a
  | .startAttempt fencingToken =>
    AttemptAuthority.startAttempt ctx identityNodeID jobID attemptID fencingToken a
  | .setAttemptPublication request =>
    AttemptAuthority.setAttemptPublication ctx identityNodeID jobID attemptID request
      ((s.computerOf a.job).map fun computer => computer.submitIntentRevision) a
  | .interruptRestartableAttempt nodeID request =>
    AttemptAuthority.interruptRestartableAttempt ctx nodeID attemptID request a
  | .appendLogs fencingToken scan _ =>
    AttemptAuthority.appendLogs ctx identityNodeID jobID attemptID fencingToken scan a
  | .completeAttemptOutcome request _ =>
    Completion.completeAttemptOutcome ctx identityNodeID jobID attemptID request a

/-- What `pruneServiceAttemptSummaries` is left to look at before the call commits, if it calls it.
An upload does with new events; a completion does when it is accepted, and its own attempt is then
the newest of the service, so above the floor. -/
def AgentCall.pruned (call : AgentCall) (attemptID : Nat) : List Nat :=
  match call with
  | .appendLogs _ (.ok true) listed => listed
  | .completeAttemptOutcome _ listed => listed.filter fun id => id ≠ attemptID
  | _ => []

/-- What is asked for a service by its operator, or by the Node it is bound to. -/
inductive ServiceCall
  | setDesiredState (desired : DesiredState) (actor : Check)
  | restart (request : ServiceRestartRequest) (actor : Check)
  | latchImageFailure (identityNodeID : Nat) (request : ImageReconciliationFailure)
  | remove (actor : Check)
  | forget
  | acknowledgeRemoval (removalStallBound : Int) (identityNodeID : Nat)
      (request : RemovalAcknowledgement)
  | finalizeRemoval

def ServiceCall.tx (call : ServiceCall) (ctx : Ctx) (jobID : Nat) (s : Store) : StoreTx Store :=
  match call with
  | .setDesiredState desired actor => setServiceDesiredState ctx jobID desired actor s
  | .restart request actor => restartService ctx jobID request actor s
  | .latchImageFailure identityNodeID request =>
    latchServiceImageReconciliationFailure ctx identityNodeID jobID request s
  | .remove actor => removeService ctx jobID actor s
  | .forget => forgetService ctx jobID s
  | .acknowledgeRemoval removalStallBound identityNodeID request =>
    acknowledgeServiceRemoval ctx removalStallBound identityNodeID jobID request s
  | .finalizeRemoval => finalizeServiceRemoval ctx jobID s

/-- What is asked for a Computer that is on record. -/
inductive ComputerCall
  | setDesiredState (desired : DesiredState) (precondition : Precondition)
  | restart (request : ServiceRestartRequest) (precondition : Precondition)
  | remove (request : RemoveComputer)
  | beginReconfiguration (phase : ReconfigurationPhase) (precondition : Precondition)
      (admission : Check)
  | finishReconfiguration (admission : Check)
  | abortReconfiguration (request : Abort) (precondition : Precondition)
      (operationNode : Option Nat)
  | beginRestore (request : RestoreRequest)
  | acknowledgeStorageCopy (request : CopyAcknowledgement)
  | publishStorageCopy (operationRevision : Nat) (revoked : Bool)
  | acknowledgeRestoreRetirement (authority receipt : Check)
      (quarantined : Bool)
  | beginStorageReset (request : ResetRequest)
  | recordResetVerification (request : ResetAcknowledgement)
  | publishStorageReset (intentRevision : Nat)
  | acknowledgeStorageRetirement (request : RetirementAcknowledgement)
  | beginGrow (request : GrowRequest)
  | acknowledgeStorageGrow (request : GrowAcknowledgement)

def ComputerCall.tx (call : ComputerCall) (ctx : Ctx) (computerID : Nat) (s : Store) :
    StoreTx Store :=
  match call with
  | .setDesiredState desired precondition =>
    setComputerDesiredState ctx computerID desired precondition s
  | .restart request precondition => restartComputer ctx computerID request precondition s
  | .remove request => removeComputer ctx computerID request s
  | .beginReconfiguration phase precondition admission =>
    Computers.beginReconfiguration computerID phase precondition admission s
  | .finishReconfiguration admission => Computers.finishReconfiguration computerID admission s
  | .abortReconfiguration request precondition operationNode =>
    abortComputerReconfiguration ctx computerID request precondition operationNode s
  | .beginRestore request => beginComputerRestore computerID request s
  | .acknowledgeStorageCopy request => acknowledgeComputerStorageCopy ctx computerID request s
  | .publishStorageCopy operationRevision revoked =>
    publishVerifiedComputerStorageCopy ctx computerID operationRevision revoked s
  | .acknowledgeRestoreRetirement authority receipt quarantined =>
    acknowledgeComputerRestoreRetirement computerID authority receipt quarantined s
  | .beginStorageReset request => beginComputerStorageReset ctx computerID request s
  | .recordResetVerification request => recordComputerStorageResetVerification computerID request s
  | .publishStorageReset intentRevision =>
    publishVerifiedComputerStorageReset ctx computerID intentRevision s
  | .acknowledgeStorageRetirement request =>
    acknowledgeComputerStorageRetirement ctx computerID request s
  | .beginGrow request => beginComputerGrow computerID request s
  | .acknowledgeStorageGrow request => acknowledgeComputerStorageGrow computerID request s

/-! ## 2. Operations -/

/-- A writing call of the store. -/
inductive Op
  | submit (submissions : List Submission)
  | cancel (jobID : Nat) (caller : CancelCaller)
  | claim (request : ClaimRequest)
  | agent (identityNodeID jobID attemptID : Nat) (retiring : Bool) (call : AgentCall)
  | service (jobID : Nat) (call : ServiceCall)
  | computer (computerID : Nat) (call : ComputerCall)
  | createComputer (request : CreateComputer)
  | cloneComputer (request : CloneRequest)
  | importComputer (request : ImportRequest)
  | reconcile (checked : Nat → Bool) (listed : List Nat)
  | node (nodes : Table Node.nodeID) (unstable : Job → ServiceJob → Bool)

def Op.tx (op : Op) (ctx : Ctx) (s : Store) : StoreTx Store :=
  match op with
  | .submit submissions => Submissions.submit ctx submissions s
  | .cancel jobID caller => cancelJob ctx jobID caller s
  | .claim request => claimJob ctx request s
  | .agent identityNodeID jobID attemptID retiring call => do
    let s' ← onAttempt s attemptID retiring (call.tx ctx identityNodeID jobID attemptID s)
    return s'.pruneListedAttemptSummaries ctx (call.pruned attemptID)
  | .service jobID call => call.tx ctx jobID s
  | .computer computerID call => call.tx ctx computerID s
  | .createComputer request => Computers.createComputer ctx request s
  | .cloneComputer request => beginComputerClone ctx request s
  | .importComputer request => beginComputerCustodyImport ctx request s
  | .reconcile checked listed => Recovery.reconcile ctx checked listed s
  | .node nodes unstable =>
    return updateServices (s.withNodes nodes) unstable fun service =>
      { service with healthySinceNS := none }

/-- The two operations that put a Computer on record for a copy to fill. -/
def Op.copies : Op → Bool
  | .cloneComputer _ | .importComputer _ => true
  | _ => false

/-! ## 3. Runs -/

/-- An operation with the door it opens, under the settings the server runs with at the time. -/
structure Event where
  config : Config
  door : Door
  op : Op

/-- What the operation leaves: the store as it was where its door or a check refuses it. -/
def step (s : Store) (e : Event) : Store := runTx e.config e.door e.op.tx s

/-- The store a run leads to from an empty one. -/
def reached (events : List Event) : Store := Runs.exec step Store.openStore events

end Wefty.Operations
