/-
Storage copies: restore, clone and Custody import, from their reservation to their publication
(`l1/storage_copies.go`; `BeginComputerCustodyImport` and its acknowledgement of `l1/custody.go`).

Each of them reserves a Storage generation of a Computer and a phase in which its Job cannot be
claimed. The Node copies and reports; a verified copy is published and leaves the Job stopped, one
that failed leaves it as it was, latched failed, or, for an import, removes the Computer and its
Job again. Publication and failure name the Job of the copy, not the Computer's: that these are the
same Job is for an invariant to say.
-/
import Wefty.Computers

set_option autoImplicit false

namespace Wefty.StorageCopies

open Tables Rows StoreRows AttemptClock RestartPolicy Transactions AttemptAuthority ControlStore
open Services Computers

/-! ## 1. Storage generations -/

def stagedBy (copy : StorageCopy) (g : StorageGeneration) : Bool :=
  g.storageGeneration = copy.destinationGeneration && g.phase = .staging &&
    g.resetRevision = some copy.operationRevision

def stagedUnder (copy : StorageCopy) (g : StorageGeneration) : Bool :=
  g.storageGeneration = copy.destinationGeneration && g.phase = .staging

/-- The generation an import staged: the first one of a Computer that is new. -/
def stagedByImport (g : StorageGeneration) : Bool :=
  g.storageGeneration = 1 && g.phase = .staging && g.resetRevision = some 1

def owns (computer : Computer) (copy : StorageCopy) (phase : ReconfigurationPhase) : Bool :=
  computer.intentRevision = copy.operationRevision && computer.phase = phase &&
    computer.reconfigurationRevision = some copy.operationRevision

/-! ## 2. Reservation -/

def validateStoppedDetachedComputer (computer : Computer) (job : Job) (action : String) : Check :=
  if computer.desiredState ≠ .stopped ∨ (job.state ≠ .stopped ∧ job.state ≠ .failed) ∨
      job.currentAttemptID.isSome then
    .error (computerConflict computer.computerID
      ("must be stopped or failed with no current attempt before " ++ action))
  else if computer.phase ≠ .stable then .error (inPhase computer)
  else .ok ()

def CopyOperation.text : CopyOperation → String
  | .restore => "restore"
  | .clone => "clone"
  | .custodyImport => "import"

/-- `ComputerRestoreRequest`. `backup` is the Node the Backup's copy is on, or the refusal of the
checks on the Backup. -/
structure RestoreRequest where
  backupID : Nat
  idempotencyKey : Nat
  requestHash : Nat
  precondition : Precondition
  backup : Except ProtocolError Nat

def acceptedCopy (s : Store) (p : StorageCopy → Bool) (idempotencyKey : Nat) : Option StorageCopy :=
  s.copies.rows.find? fun copy => p copy && copy.idempotencyKey = idempotencyKey

/-- A Computer that is to be restored: the next generation is staged. -/
def restoringComputer (computer : Computer) : Computer :=
  let revision := computer.intentRevision + 1
  { computer with
    intentRevision := revision
    phase := .restoring
    reconfigurationRevision := some revision
    generations := computer.generations ++
      [⟨computer.storageGeneration + 1, computer.desiredDiskBytes, .staging, some revision⟩] }

def restoreCopy (computer : Computer) (request : RestoreRequest) (nodeID : Nat) : StorageCopy where
  destinationComputerID := computer.computerID
  operationRevision := computer.intentRevision + 1
  operation := .restore
  sourceComputerID := computer.computerID
  backupID := request.backupID
  exportID := none
  oldGeneration := computer.storageGeneration
  destinationGeneration := computer.storageGeneration + 1
  boundNodeID := nodeID
  jobID := computer.currentJobID
  idempotencyKey := request.idempotencyKey
  requestHash := request.requestHash
  status := .reserved

def beginComputerRestore (computerID : Nat) (request : RestoreRequest) (s : Store) :
    StoreTx Store := do
  let (computer, job) ← orRefuse (readComputerAuthority s computerID) (computerNotFound computerID)
  let replay := acceptedCopy s (fun copy => copy.destinationComputerID = computerID)
    request.idempotencyKey
  refuseIf (replay.any fun copy => copy.operation ≠ .restore)
    ⟨.idempotencyConflict, "idempotency key was already used for a Computer clone"⟩
  refuseIf (replay.any fun copy => copy.requestHash ≠ request.requestHash)
    ⟨.idempotencyConflict, "Computer restore idempotency key was reused with different authority"⟩
  answerIf replay.isSome
  let reused := acceptedCopy s (fun copy => copy.backupID = request.backupID)
    request.idempotencyKey
  refuseIf reused.isSome ⟨.idempotencyConflict,
    "idempotency key was already used for a Computer " ++
    ((reused.map fun copy => CopyOperation.text copy.operation).getD "")⟩
  check (computerWritePreconditionDecision computer request.precondition)
  check (validateStoppedDetachedComputer computer job "restore")
  refuseIf (computer.storageGeneration = maxInt64)
    (computerConflict computer.computerID "exhausted Storage generation space")
  let nodeID ← check request.backup
  refuseIf (stagingTaken computer.generations (computer.storageGeneration + 1))
    ⟨.internal, "stage restored Storage generation"⟩
  let reserved := s.setComputer (restoringComputer computer)
  return { reserved with copies := reserved.copies.insert (restoreCopy computer request nodeID) }

/-- A Computer that a copy is to fill: stopped, bound to the Node of the copy, in the phase of the
copy, with its one generation staged. -/
def reservedComputer (computerID jobID : Nat) (name nodeID : Nat) (diskBytes : Int)
    (phase : ReconfigurationPhase) : Computer where
  computerID := computerID
  name := some name
  placementNodeID := nodeID
  boundNodeID := some nodeID
  storageGeneration := 1
  desiredDiskBytes := diskBytes
  seatRequestMade := false
  desiredState := .stopped
  intentRevision := 1
  currentJobID := jobID
  phase := phase
  reconfigurationRevision := some 1
  generations := [⟨1, diskBytes, .staging, some 1⟩]

def reservedCopy (operation : CopyOperation) (computerID jobID sourceComputerID backupID : Nat)
    (exportID : Option Nat) (nodeID idempotencyKey requestHash : Nat) : StorageCopy where
  destinationComputerID := computerID
  operationRevision := 1
  operation := operation
  sourceComputerID := sourceComputerID
  backupID := backupID
  exportID := exportID
  oldGeneration := 0
  destinationGeneration := 1
  boundNodeID := nodeID
  jobID := jobID
  idempotencyKey := idempotencyKey
  requestHash := requestHash
  status := .reserved

/-- A new Computer with its Job and the copy that fills it. -/
def insertReserved (s : Store) (job : Job) (computer : Computer) (copy : StorageCopy) :
    Except ProtocolError Store := do
  let inserted ← insertComputer s job computer
  return { inserted with copies := inserted.copies.insert copy }

/-- `ComputerCloneRequest`. `backup` is the Computer the Backup is of and the Node its copy is on,
or the refusal of the checks on the Backup and its Node. The key and the hash are those of the
cloned specification. -/
structure CloneRequest where
  backupID : Nat
  name : Nat
  idempotencyKey : Nat
  requestHash : Nat
  precondition : Precondition
  backup : Except ProtocolError (Nat × Nat)
  dispatchKey : Nat
  specHash : Nat
  computerDisk : Int

def copiedSpec (spec : JobSpec) (dispatchKey : Nat) (computerDisk : Int) : JobSpec :=
  { spec with
    dispatchKey := dispatchKey
    oci := spec.oci.map fun oci => { oci with computerDisk := some computerDisk } }

def beginComputerClone (ctx : Ctx) (request : CloneRequest) (s : Store) : StoreTx Store := do
  let replay := acceptedCopy s (fun copy => copy.backupID = request.backupID)
    request.idempotencyKey
  refuseIf (replay.any fun copy => copy.operation ≠ .clone)
    ⟨.idempotencyConflict, "idempotency key was already used for a Computer restore"⟩
  refuseIf (replay.any fun copy => copy.requestHash ≠ request.requestHash)
    ⟨.idempotencyConflict, "Computer clone idempotency key was reused with different authority"⟩
  answerIf replay.isSome
  let (sourceID, nodeID) ← check request.backup
  refuseIf (s.computers.any fun c => c.name = some request.name)
    (conflict ("Computer name " ++ quoted request.name ++ " is already used"))
  let (source, job) ← orRefuse (readComputerAuthority s sourceID)
    ⟨.internal, "read clone source Computer"⟩
  refuseIf (source.desiredState = .removed ∨ nodeID ≠ source.placementNodeID)
    (conflict "clone source is not available on its Pinned Node")
  check (computerWritePreconditionDecision source request.precondition)
  check (insertReserved s
    (computerJob ctx.now s.nextID (s.nextID + 1)
      (copiedSpec job.spec request.dispatchKey request.computerDisk) request.specHash .stopped
      .stopped (some nodeID))
    (reservedComputer (s.nextID + 1) s.nextID request.name nodeID request.computerDisk
      .cloning)
    (reservedCopy .clone (s.nextID + 1) s.nextID sourceID request.backupID none nodeID
      request.idempotencyKey request.requestHash))

/-- `ComputerCustodyImportRequest`, with what its manifest says. `wellFormed` is the outcome of the
checks on the manifest, `admission` that of the check on run identity. The class of the
specification is not among the checks. -/
structure ImportRequest where
  exportID : Nat
  sourceComputerID : Nat
  backupID : Nat
  name : Nat
  nodeID : Nat
  idempotencyKey : Nat
  requestHash : Nat
  spec : JobSpec
  dispatchKey : Nat
  specHash : Nat
  computerDisk : Int
  wellFormed : Check
  admission : Check

def beginComputerCustodyImport (ctx : Ctx) (request : ImportRequest) (s : Store) :
    StoreTx Store := do
  check request.wellFormed
  refuseIf (¬ isComputerSpec request.spec) ⟨.storageReferenceConflict,
    "Custody import manifest does not contain a safe Computer Job specification"⟩
  let replay := acceptedCopy s (fun copy => copy.exportID = some request.exportID)
    request.idempotencyKey
  refuseIf (replay.any fun copy =>
      copy.operation ≠ .custodyImport || copy.requestHash ≠ request.requestHash)
    ⟨.idempotencyConflict, "Custody import idempotency key was reused"⟩
  answerIf replay.isSome
  check request.admission
  let node ← orRefuse (s.nodes.find request.nodeID)
    ⟨.notFound, "destination Node " ++ quoted request.nodeID ++ " was not found"⟩
  refuseIf (node.rootInstanceID = 0)
    (conflict "destination Node has no current managed-root identity")
  refuseIf (s.computers.any fun c => c.name = some request.name)
    (conflict ("Computer name " ++ quoted request.name ++ " is already used or reserved"))
  check (insertReserved s
    (computerJob ctx.now s.nextID (s.nextID + 1)
      (copiedSpec request.spec request.dispatchKey request.computerDisk) request.specHash .stopped
      .stopped (some request.nodeID))
    (reservedComputer (s.nextID + 1) s.nextID request.name request.nodeID
      request.computerDisk .importing)
    (reservedCopy .custodyImport (s.nextID + 1) s.nextID request.sourceComputerID request.backupID
      (some request.exportID) request.nodeID request.idempotencyKey request.requestHash))

/-! ## 3. Settlement of a Job

The one row all three operations write to, each in its own way. -/

def publishedJob (now : Int) (job : Job) : Job :=
  { detachAttempt .storageDestination job with
    state := .stopped
    updatedNS := now }.updateService fun service =>
      { service with
        desiredState := .stopped
        publishedAttemptID := none
        healthySinceNS := none
        nextRestartAt := none }

/-- The Job of a clone that can never be prepared: failed, for the reason the copy gave. -/
def refusedCloneJob (now : Int) (failure : SpawnFailure) (job : Job) : Job :=
  { detachAttempt .storageDestination job with
    state := .failed
    updatedNS := now }.updateService fun service =>
      { service with
        desiredState := .stopped
        publishedAttemptID := none
        healthySinceNS := none
        nextRestartAt := none
        lastFailure := some (.spawn failure) }

/-- `UPDATE jobs ... WHERE job_id=?` for the Job of a copy: no row, no write. -/
def updateJob (s : Store) (jobID : Nat) (f : Job → Job) : Store :=
  match s.jobs.find jobID with
  | none => s
  | some job => s.setJob (f job)

/-! ## 4. Reports of a Node -/

/-- The newest copy into a Computer: `ORDER BY operation_revision DESC LIMIT 1`. -/
def newestCopy (computerID : Nat) : List StorageCopy → Option StorageCopy
  | [] => none
  | copy :: copies =>
    if copy.destinationComputerID ≠ computerID then newestCopy computerID copies
    else match newestCopy computerID copies with
    | none => some copy
    | some other => if copy.operationRevision < other.operationRevision then some other
      else some copy

inductive CopyReport
  /-- the preparation cannot go on now, and will be tried again -/
  | deferred
  /-- the preparation of a clone is over; the failure its Job is latched with -/
  | unprepared (failure : SpawnFailure)
  /-- the Backup a restore was to keep of its predecessor could not be made -/
  | predecessorFailed
  /-- the destination had no room; the failure the Job of a clone is latched with -/
  | refused (failure : SpawnFailure)
  /-- the copy was verified -/
  | verified

/-- `ComputerStorageCopyAcknowledgementRequest`. `authority` is the outcome of the checks on the
Node's session and root, `evidence` that of the checks on the report itself. -/
structure CopyAcknowledgement where
  report : CopyReport
  authority : Check
  evidence : Check

/-- `closeTerminalComputerClone`, with `requireCloningComputerCloneAuthority`. -/
def closeTerminalComputerClone (ctx : Ctx) (copy : StorageCopy) (failure : SpawnFailure)
    (s : Store) : StoreTx Store := do
  refuseIf (copy.operation ≠ .clone)
    (invalidRequest "only a Computer clone latches a typed Storage copy refusal")
  let (computer, _) ← orRefuse (readComputerAuthority s copy.destinationComputerID)
    ⟨.internal, "read refused Computer clone target"⟩
  refuseIf (¬ owns computer copy .cloning)
    ⟨.staleIntentRevision, "Computer clone no longer owns its refusal"⟩
  let generations ← check (setGeneration (stagedBy copy) .retired
    "retire refused Computer clone generation" computer.generations)
  let failed := s.setCopy { copy with status := .failed }
  return (updateJob failed copy.jobID (refusedCloneJob ctx.now failure)).setComputer { computer with
    generations := generations
    phase := .stable
    reconfigurationRevision := none }

/-- The predecessor stays current. -/
def abortRestoreForFailedPredecessorCopy (copy : StorageCopy) (s : Store) : StoreTx Store := do
  let computer ← orRefuse (s.computers.find copy.destinationComputerID)
    (computerNotFound copy.destinationComputerID)
  refuseIf (computer.intentRevision ≠ copy.operationRevision ∨ computer.phase ≠ .restoring)
    ⟨.staleIntentRevision, "Computer " ++ quoted computer.computerID ++
      " intent revision changed from " ++ toString copy.operationRevision⟩
  let failed := if copy.status = .reserved then s.setCopy { copy with status := .failed } else s
  return failed.setComputer { computer with
    generations := computer.generations.map fun g =>
      if stagedUnder copy g then { g with phase := .retired } else g
    phase := .stable
    reconfigurationRevision := none }

/-- `AcknowledgeComputerStorageCopy` for a restore or a clone. -/
def acknowledgeCopy (ctx : Ctx) (request : CopyAcknowledgement) (copy : StorageCopy) (s : Store) :
    StoreTx Store :=
  match request.report with
  | .predecessorFailed => do
    refuseIf (copy.operation ≠ .restore)
      (invalidRequest "restore predecessor copy failure evidence is invalid")
    check request.evidence
    abortRestoreForFailedPredecessorCopy copy s
  | .deferred => do
    refuseIf (copy.operation ≠ .clone) (invalidRequest
      "only a Computer clone or Custody import acknowledges a Storage copy preparation outcome")
    check request.evidence
    refuseIf (copy.status ≠ .reserved) (conflict "Computer clone is not awaiting preparation")
    return s
  | .unprepared failure => do
    refuseIf (copy.operation ≠ .clone) (invalidRequest
      "only a Computer clone or Custody import acknowledges a Storage copy preparation outcome")
    check request.evidence
    refuseIf (copy.status ≠ .reserved) (conflict "Computer clone is not awaiting preparation")
    closeTerminalComputerClone ctx copy failure s
  | .refused failure => do
    check request.evidence
    refuseIf (copy.status ≠ .reserved)
      (conflict "Computer Storage copy operation is not awaiting verification")
    closeTerminalComputerClone ctx copy failure s
  | .verified => do
    check request.evidence
    refuseIf (copy.status ≠ .reserved)
      (conflict "Computer Storage copy operation is not awaiting verification")
    return markCopies s (fun c => c.destinationComputerID = copy.destinationComputerID &&
      c.status = .reserved) .prepared

/-- A failed import takes back the Computer it reserved and its Job. -/
def discardImport (copy : StorageCopy) (s : Store) : Store :=
  let failed := s.setCopy { copy with status := .failed }
  { failed with computers := failed.computers.delete copy.destinationComputerID }.deleteServiceRows
    copy.jobID

/-- `acknowledgeComputerCustodyImport`. -/
def acknowledgeImport (ctx : Ctx) (request : CopyAcknowledgement) (copy : StorageCopy) (s : Store) :
    StoreTx Store := do
  check request.evidence
  refuseIf (copy.status ≠ .reserved) (conflict "Custody import is not awaiting verification")
  match request.report with
  | .deferred | .unprepared _ | .predecessorFailed => return s
  | .refused _ => return discardImport copy s
  | .verified => do
    let (computer, _) ← orRefuse (readComputerAuthority s copy.destinationComputerID)
      ⟨.internal, "read Custody import publication authority"⟩
    refuseIf (¬ owns computer copy .importing)
      ⟨.staleIntentRevision, "Custody import no longer owns publication"⟩
    let generations ← check (setGeneration stagedByImport .current
      "publish imported Storage generation" computer.generations)
    let complete := s.setCopy { copy with status := .complete }
    return (updateJob complete copy.jobID (publishedJob ctx.now)).setComputer { computer with
      generations := generations
      phase := .stable
      reconfigurationRevision := none }

/-- `AcknowledgeComputerStorageCopy`, about the newest copy into the Computer. -/
def acknowledgeComputerStorageCopy (ctx : Ctx) (computerID : Nat) (request : CopyAcknowledgement)
    (s : Store) : StoreTx Store := do
  let copy ← orRefuse (newestCopy computerID s.copies.rows)
    ⟨.notFound, "Computer Storage copy operation was not found"⟩
  check request.authority
  if copy.operation = .custodyImport then acknowledgeImport ctx request copy s
  else acknowledgeCopy ctx request copy s

/-! ## 5. Publication and retirement -/

def expectedPhase (copy : StorageCopy) : ReconfigurationPhase :=
  if copy.operation = .clone then .cloning else .restoring

/-- A clone is complete with it; a restore waits for the retirement of its predecessor. -/
def publishComputerStorageCopy (ctx : Ctx) (copy : StorageCopy) (s : Store) : StoreTx Store := do
  let (computer, job) ← orRefuse (readComputerAuthority s copy.destinationComputerID)
    ⟨.internal, "read Computer Storage copy publication authority"⟩
  refuseIf (¬ owns computer copy (expectedPhase copy) ∨ computer.desiredState ≠ .stopped ∨
      (job.state ≠ .stopped ∧ job.state ≠ .failed))
    ⟨.staleIntentRevision, "Computer Storage copy no longer owns publication"⟩
  refuseIf (copy.operation = .restore ∧ computer.storageGeneration ≠ copy.oldGeneration)
    ⟨.storageReferenceConflict, "Computer restore predecessor changed"⟩
  let retired ← check (if copy.operation = .restore then
      setGeneration (fun g => g.storageGeneration = copy.oldGeneration &&
        g.phase = .current) .retired "retire restored Computer predecessor" computer.generations
    else .ok computer.generations)
  let generations ← check (setGeneration (stagedBy copy) .current
    "publish copied Computer Storage generation" retired)
  let cloned : Bool := copy.operation = .clone
  let published := updateJob s copy.jobID (publishedJob ctx.now)
  let settled := published.setComputer { computer with
    storageGeneration := copy.destinationGeneration
    generations := generations
    phase := if cloned then .stable else computer.phase
    reconfigurationRevision := if cloned then none else computer.reconfigurationRevision }
  return markCopies settled (fun c => c.destinationComputerID = copy.destinationComputerID &&
    c.status = .prepared) (if cloned then .complete else .published)

/-- `revoked` says whether the authority of a restore was revoked on record before its publication.
-/
def publishVerifiedComputerStorageCopy (ctx : Ctx) (computerID operationRevision : Nat)
    (revoked : Bool) (s : Store) : StoreTx Store := do
  let copy ← orRefuse (s.copies.find (computerID, operationRevision))
    ⟨.internal, "read verified Computer Storage copy"⟩
  answerIf (copy.status = .published ∨ copy.status = .retired ∨ copy.status = .complete)
  refuseIf (copy.status ≠ .prepared)
    (conflict "Computer Storage copy has no durable positive verification")
  refuseIf (copy.operation = .restore ∧ ¬ revoked)
    (conflict "Computer restore authority was not durably revoked before publication")
  publishComputerStorageCopy ctx copy s

/-- `authority` is the outcome of the checks on the Node, `receipt` that of the directive's fence,
and a quarantined cleanup is recorded outside the model. -/
def acknowledgeComputerRestoreRetirement (computerID : Nat)
    (authority receipt : Check) (quarantined : Bool) (s : Store) : StoreTx Store := do
  check authority
  let copy ← orRefuse (newestCopy computerID s.copies.rows)
    ⟨.staleIntentRevision, "Computer restore operation is no longer current"⟩
  refuseIf (copy.operation ≠ .restore ∨ (copy.status ≠ .published ∧ copy.status ≠ .retired))
    ⟨.staleFence, "Computer restore retirement authority does not match"⟩
  check receipt
  refuseIf (quarantined ∧ copy.status ≠ .published) ⟨.staleIntentRevision,
    "restore cleanup quarantine is not awaiting predecessor retirement"⟩
  if quarantined then return s
  answerIf (copy.status = .retired)
  let (computer, _) ← orRefuse (readComputerAuthority s computerID)
    ⟨.internal, "read Computer restore retirement target"⟩
  refuseIf (computer.storageGeneration ≠ copy.destinationGeneration ∨ computer.phase ≠ .restoring ∨
      computer.intentRevision ≠ copy.operationRevision)
    ⟨.staleIntentRevision, "Computer restore no longer owns predecessor retirement"⟩
  let retired := markCopies s (fun c => c.destinationComputerID = computerID &&
    c.status = .published) .retired
  return retired.setComputer { computer with phase := .stable, reconfigurationRevision := none }

end Wefty.StorageCopies
