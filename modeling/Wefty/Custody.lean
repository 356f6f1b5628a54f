/-
Custody of Computer Storage (`finalizeComputerCustodyOutcome` of `l1/removal.go`, the custody graph
of `l1/storage_provenance.go`, clones of `l1/storage_copies.go`, exports and imports of
`l1/custody.go`, `RemoveComputer` of `l1/computers.go`).

Bytes of a Storage leave it by a clone or by an export, and come back by an import. The table of
provenance records clones and imports as edges between Storages, and a removal that is verified
claims that nothing is left of the whole component: every Computer in it is removed, nothing of it
was exported and nothing in it was imported. A removal that cannot claim this yet is reduced, and
the last removal of a component upgrades the others.
-/
import Wefty.Components
import Wefty.Computers

set_option autoImplicit false

namespace Wefty.Custody

open Tables StoreRows RestartPolicy Transactions Services Components
open Wefty.Computers (quotedPhase computerNotFound computerConflict)

/-! ## 1. Rows -/

/-- `computers.removal_outcome`; `standing` is the empty one. -/
inductive RemovalOutcome
  | standing
  | removalPending
  | removedReduced
  | removedVerified
  deriving DecidableEq

/-- The removal directive of the Computer's Job: a row of `service_removals`, and whether its
`removed_ns` is set. -/
inductive Directive
  | none
  | standing
  | finalized
  deriving DecidableEq

structure Computer where
  computerID : Nat
  storageID : Nat
  boundNodeID : Option Nat
  desiredState : DesiredState
  intentRevision : Nat
  phase : ReconfigurationPhase
  removalOutcome : RemovalOutcome
  directive : Directive

/-- A row of `backups`, with whether it has a copy that can be read. -/
structure Backup where
  backupID : Nat
  computerID : Nat
  sourceStorageID : Nat
  available : Bool

inductive ExportStatus
  | planned
  | available
  | failed
  | superseded
  deriving DecidableEq

structure CustodyExport where
  exportID : Nat
  computerID : Nat
  operationRevision : Nat
  sourceStorageID : Nat
  idempotencyKey : Nat
  requestHash : Nat
  status : ExportStatus
  failureCode : String
  acknowledgement : Option (Nat × Nat)

/-- A row of `computer_storage_copy_operations` for a clone or an import: `origin` is the Backup of
a clone and the export of an import. Either is the first operation of the Computer it makes. -/
structure StorageCopy where
  destinationComputerID : Nat
  operation : CopyOperation
  origin : Nat
  sourceComputerID : Nat
  sourceStorageID : Nat
  destinationStorageID : Nat
  idempotencyKey : Nat
  requestHash : Nat
  status : CopyStatus
  acknowledgement : Option (Nat × Nat)

/-- The kinds of `storage_provenance` that are edges of the custody graph. -/
inductive ProvenanceKind
  | clone
  | custodyImport
  deriving DecidableEq

structure Provenance where
  kind : ProvenanceKind
  sourceStorageID : Nat
  destinationStorageID : Nat
  deriving DecidableEq

structure Store where
  computers : Table Computer.computerID
  backups : Table Backup.backupID
  exports : Table CustodyExport.exportID
  copies : Table StorageCopy.destinationComputerID
  provenance : List Provenance

variable (s : Store)

def Store.openStore : Store := ⟨.empty, .empty, .empty, .empty, []⟩

abbrev StoreTx := Tx Store ProtocolError

/-! ## 2. The custody graph -/

def Provenance.edge (row : Provenance) : Nat × Nat :=
  (row.sourceStorageID, row.destinationStorageID)

def Store.edges : List (Nat × Nat) := s.provenance.map Provenance.edge

/-- `computerCustodyGraph`: the Storages a chain of clones and imports leads to, in either
direction. -/
def Store.custody (storageID : Nat) : List Nat := component s.edges storageID

def custodyExportUntouchedRefusalCodes : List String :=
  ["managed_root_path", "external_path_unconfined", "external_root_unmounted",
    "external_path_crosses_mount"]

/-- `custodyExportTaintingPredicate`: bytes may exist at the destination, unless the helper refused
before it wrote any. -/
def CustodyExport.tainting (e : CustodyExport) : Bool :=
  ¬ (e.status = .failed ∧ e.failureCode ∈ custodyExportUntouchedRefusalCodes)

def RemovalOutcome.removed : RemovalOutcome → Bool
  | .removedReduced | .removedVerified => true
  | .standing | .removalPending => false

/-- Another Computer of the custody fork is not gone. -/
def Store.surviving (computer : Computer) : Bool :=
  s.computers.any fun c => c.storageID ∈ s.custody computer.storageID &&
    c.computerID ≠ computer.computerID && ¬ c.removalOutcome.removed

/-- Something of the custody fork was exported, or something in it was imported. -/
def Store.externalCustody (computer : Computer) : Bool :=
  (s.exports.any fun e => e.sourceStorageID ∈ s.custody computer.storageID && e.tainting) ||
    s.provenance.any fun p =>
      p.destinationStorageID ∈ s.custody computer.storageID && p.kind = .custodyImport

def Store.record (computerID : Nat) (outcome : RemovalOutcome) : Store :=
  { s with
    computers := s.computers.update computerID
      (fun c => { c with removalOutcome := outcome }) fun _ => rfl }

def Store.upgrade (storageID : Nat) : Store :=
  { s with
    computers := s.computers.updateWhere
      (fun c => c.storageID ∈ s.custody storageID && c.removalOutcome = .removedReduced)
      (fun c => { c with removalOutcome := .removedVerified }) fun _ => rfl }

def finalizeComputerCustodyOutcome (computerID : Nat) (s : Store) : StoreTx Store := do
  let computer ← orRefuse (s.computers.find computerID)
    ⟨.internal, "read Computer Storage custody identity"⟩
  if s.surviving computer || s.externalCustody computer then
    return s.record computerID .removedReduced
  return (s.record computerID .removedVerified).upgrade computer.storageID

/-! ## 3. Computers and Backups -/

def Store.insertComputer (computer : Computer) : Store :=
  { s with computers := s.computers.insert computer }

def Store.setComputer (computer : Computer) : Store :=
  { s with computers := s.computers.replace computer }

def newComputer (computerID storageID : Nat) (boundNodeID : Option Nat) (desired : DesiredState)
    (phase : ReconfigurationPhase) : Computer where
  computerID := computerID
  storageID := storageID
  boundNodeID := boundNodeID
  desiredState := desired
  intentRevision := 1
  phase := phase
  removalOutcome := .standing
  directive := .none

/-- `CreateComputer`, as far as custody goes. -/
def createComputer (computerID storageID : Nat) (admission : Check)
    (s : Store) : StoreTx Store := do
  check admission
  return s.insertComputer (newComputer computerID storageID none .running .stable)

/-- The phases that are entered and left without a change of custody. -/
def ordinary : ReconfigurationPhase → Bool
  | .exporting | .importing | .removing => false
  | _ => true

/-- Every other change of a Computer that stands: a claim binds it, and its desired state and the
phases of its other reconfigurations come and go, each with a revision of its own. A clone that
is published is one of them. -/
def reconfigure (computerID : Nat) (boundNodeID : Option Nat) (desired : DesiredState)
    (phase : ReconfigurationPhase) (admission : Check) (s : Store) :
    StoreTx Store := do
  let computer ← orRefuse (s.computers.find computerID) (computerNotFound computerID)
  refuseIf (computer.desiredState = .removed ∨ desired = .removed ∨ ¬ ordinary computer.phase ∨
      ¬ ordinary phase)
    (computerConflict computerID "is being removed")
  check admission
  return s.setComputer { computer with
    boundNodeID := boundNodeID
    desiredState := desired
    intentRevision := computer.intentRevision + 1
    phase := phase }

/-- A Backup is published, by its own operation or with a restore that keeps the generation it
replaces. It is of the Storage of its Computer. -/
def publishBackup (backupID computerID : Nat) (admission : Check) (s : Store) :
    StoreTx Store := do
  let computer ← orRefuse (s.computers.find computerID) (computerNotFound computerID)
  check admission
  return { s with backups := s.backups.insert ⟨backupID, computerID, computer.storageID, true⟩ }

def pruneBackup (backupID : Nat) (s : Store) : StoreTx Store :=
  return { s with
    backups := s.backups.update backupID (fun b => { b with available := false }) fun _ => rfl }

def readAvailableBackupCopy (backupID : Nat) (s : Store) : StoreTx Backup := do
  let backup ← orRefuse (s.backups.find backupID)
    ⟨.notFound, "Backup " ++ quoted backupID ++ " was not found"⟩
  refuseIf (¬ backup.available)
    (conflict ("Backup " ++ quoted backupID ++ " has no available source-node copy"))
  return backup

/-! ## 4. Clones -/

/-- `ComputerCloneRequest`, with the identifiers it draws. `admission` is the outcome of the checks
on the size, the name, the managed root and the precondition. -/
structure CloneRequest where
  backupID : Nat
  idempotencyKey : Nat
  requestHash : Nat
  nodeID : Nat
  computerID : Nat
  storageID : Nat
  admission : Check

def clonedCopy (request : CloneRequest) (backup : Backup) : StorageCopy where
  destinationComputerID := request.computerID
  operation := .clone
  origin := request.backupID
  sourceComputerID := backup.computerID
  sourceStorageID := backup.sourceStorageID
  destinationStorageID := request.storageID
  idempotencyKey := request.idempotencyKey
  requestHash := request.requestHash
  status := .reserved
  acknowledgement := none

/-- The edge is there before any byte is. -/
def beginComputerClone (request : CloneRequest) (s : Store) : StoreTx Store := do
  let replay := s.copies.rows.find? fun c => c.operation = .clone ∧ c.origin = request.backupID ∧
    c.idempotencyKey = request.idempotencyKey
  refuseIf (replay.any fun c => c.requestHash ≠ request.requestHash)
    ⟨.idempotencyConflict, "Computer clone idempotency key was reused with different authority"⟩
  answerIf replay.isSome
  let backup ← readAvailableBackupCopy request.backupID s
  let source ← orRefuse (s.computers.find backup.computerID)
    ⟨.internal, "read clone source Computer"⟩
  refuseIf (source.desiredState = .removed)
    (conflict "clone source is not available on its Pinned Node")
  check request.admission
  return { s with
    computers := s.computers.insert
      (newComputer request.computerID request.storageID (some request.nodeID) .stopped .cloning)
    copies := s.copies.insert (clonedCopy request backup)
    provenance := ⟨.clone, backup.sourceStorageID, request.storageID⟩ :: s.provenance }

/-! ## 5. Exports -/

/-- `ComputerCustodyExportRequest`, with the identifier it draws. -/
structure ExportRequest where
  backupID : Nat
  idempotencyKey : Nat
  requestHash : Nat
  exportID : Nat
  precondition : Check
  admission : Check

def plannedExport (request : ExportRequest) (computer : Computer) (backup : Backup) :
    CustodyExport where
  exportID := request.exportID
  computerID := computer.computerID
  operationRevision := computer.intentRevision + 1
  sourceStorageID := backup.sourceStorageID
  idempotencyKey := request.idempotencyKey
  requestHash := request.requestHash
  status := .planned
  failureCode := ""
  acknowledgement := none

/-- The export is on record before any byte leaves. -/
def beginComputerCustodyExport (computerID : Nat) (request : ExportRequest) (s : Store) :
    StoreTx Store := do
  let computer ← orRefuse (s.computers.find computerID) (computerNotFound computerID)
  let replay := s.exports.rows.find? fun e => e.computerID = computerID ∧
    e.idempotencyKey = request.idempotencyKey
  refuseIf (replay.any fun e => e.requestHash ≠ request.requestHash)
    ⟨.idempotencyConflict, "Custody export idempotency key was reused"⟩
  answerIf replay.isSome
  check request.precondition
  refuseIf (computer.desiredState = .removed ∨ computer.phase ≠ .stable)
    (computerConflict computerID "cannot begin a Custody export")
  let backup ← readAvailableBackupCopy request.backupID s
  refuseIf (backup.computerID ≠ computerID ∨ backup.sourceStorageID ≠ computer.storageID)
    ⟨.storageReferenceConflict, "Backup " ++ quoted request.backupID ++
      " does not belong to Computer " ++ quoted computerID ++ " Storage"⟩
  check request.admission
  return { s.setComputer { computer with
      intentRevision := computer.intentRevision + 1
      phase := .exporting } with
    exports := s.exports.insert (plannedExport request computer backup) }

/-- `ComputerCustodyExportAcknowledgementRequest`: the export of its receipt, with the failure the
receipt reports if it does. `authority` is the outcome of the checks on the Node, `receipt` of
those on the receipt. -/
structure ExportAcknowledgement where
  exportID : Nat
  idempotencyKey : Nat
  bodyHash : Nat
  failure : Option String
  authority : Check
  receipt : Check

def acknowledgeComputerCustodyExport (computerID : Nat) (request : ExportAcknowledgement)
    (s : Store) : StoreTx Store := do
  check request.authority
  let row ← orRefuse ((s.exports.find request.exportID).filter fun e => e.computerID = computerID)
    ⟨.notFound, "Custody export was not found"⟩
  check request.receipt
  refuseIf (row.acknowledgement.any fun accepted =>
      accepted ≠ (request.idempotencyKey, request.bodyHash))
    ⟨.idempotencyConflict, "Custody export acknowledgement differs from durable evidence"⟩
  answerIf row.acknowledgement.isSome
  refuseIf (row.status ≠ .planned) (conflict "Custody export is no longer awaiting completion")
  let computer ← orRefuse ((s.computers.find computerID).filter fun c =>
      c.intentRevision = row.operationRevision ∧ c.phase = .exporting)
    ⟨.staleIntentRevision, "Custody export was superseded before acknowledgement"⟩
  return { s.setComputer { computer with phase := .stable } with
    exports := s.exports.replace { row with
      status := if request.failure.isSome then .failed else .available
      failureCode := request.failure.getD ""
      acknowledgement := some (request.idempotencyKey, request.bodyHash) } }

/-- The exports of a reconfiguration that are still planned, ended with a status, and with a code if
there is one. -/
def Store.endExports (computer : Computer) (status : ExportStatus) (code : Option String) : Store :=
  { s with
    exports := s.exports.updateWhere
      (fun e => e.computerID = computer.computerID &&
        e.operationRevision = computer.intentRevision && e.status = .planned)
      (fun e => { e with status := status, failureCode := code.getD e.failureCode }) fun _ => rfl }

/-! ## 6. Imports -/

/-- `ComputerCustodyImportRequest`, with the identifiers it draws. What it imports, and from what
Storage, is in the manifest, and the manifest is the caller's. -/
structure ImportRequest where
  exportID : Nat
  manifestComputerID : Nat
  manifestStorageID : Nat
  idempotencyKey : Nat
  requestHash : Nat
  nodeID : Nat
  computerID : Nat
  storageID : Nat
  wellFormed : Check
  admission : Check

def importedCopy (request : ImportRequest) : StorageCopy where
  destinationComputerID := request.computerID
  operation := .custodyImport
  origin := request.exportID
  sourceComputerID := request.manifestComputerID
  sourceStorageID := request.manifestStorageID
  destinationStorageID := request.storageID
  idempotencyKey := request.idempotencyKey
  requestHash := request.requestHash
  status := .reserved
  acknowledgement := none

def beginComputerCustodyImport (request : ImportRequest) (s : Store) : StoreTx Store := do
  check request.wellFormed
  let replay := s.copies.rows.find? fun c => c.operation = .custodyImport ∧
    c.origin = request.exportID ∧ c.idempotencyKey = request.idempotencyKey
  refuseIf (replay.any fun c => c.requestHash ≠ request.requestHash)
    ⟨.idempotencyConflict, "Custody import idempotency key was reused"⟩
  answerIf replay.isSome
  check request.admission
  return { s with
    computers := s.computers.insert
      (newComputer request.computerID request.storageID (some request.nodeID) .stopped .importing)
    copies := s.copies.insert (importedCopy request) }

/-- `ComputerStorageCopyAcknowledgementRequest` for an import. -/
structure ImportAcknowledgement where
  idempotencyKey : Nat
  bodyHash : Nat
  failedAbsent : Bool
  authority : Check
  receipt : Check

/-- An import that left nothing releases its Computer, and a verified one is published with its
edge. -/
def acknowledgeComputerCustodyImport (computerID : Nat) (request : ImportAcknowledgement)
    (s : Store) : StoreTx Store := do
  let row ← orRefuse (s.copies.find computerID)
    ⟨.notFound, "Custody import operation was not found"⟩
  refuseIf (row.operation ≠ .custodyImport)
    (invalidRequest "stored Storage copy operation is not a Custody import")
  check request.authority
  check request.receipt
  refuseIf (row.acknowledgement.any fun accepted =>
      accepted ≠ (request.idempotencyKey, request.bodyHash))
    ⟨.idempotencyConflict, "Custody import acknowledgement differs from durable evidence"⟩
  answerIf row.acknowledgement.isSome
  refuseIf (row.status ≠ .reserved) (conflict "Custody import is not awaiting verification")
  let accepted := some (request.idempotencyKey, request.bodyHash)
  if request.failedAbsent then
    return { s with
      computers := s.computers.delete computerID
      copies := s.copies.replace { row with status := .failed, acknowledgement := accepted } }
  let computer ← orRefuse (s.computers.find computerID)
    ⟨.internal, "read Custody import publication authority"⟩
  refuseIf (computer.intentRevision ≠ 1 ∨ computer.phase ≠ .importing)
    ⟨.staleIntentRevision, "Custody import no longer owns publication"⟩
  return { s.setComputer { computer with phase := .stable } with
    copies := s.copies.replace { row with status := .complete, acknowledgement := accepted }
    provenance := ⟨.custodyImport, row.sourceStorageID, row.destinationStorageID⟩ :: s.provenance }

/-! ## 7. Removal and abort -/

/-- `AbortComputerReconfiguration`, for the phases of custody: the Computer stands again, and what
was under way is given up. `admission` is the outcome of the checks on the bound Node. -/
def abortReconfiguration (computerID : Nat) (admission : Check) (s : Store) :
    StoreTx Store := do
  let computer ← orRefuse (s.computers.find computerID) (computerNotFound computerID)
  refuseIf (computer.phase ≠ .exporting ∧ computer.phase ≠ .importing)
    (computerConflict computerID
      ("reconfiguration phase " ++ quotedPhase computer.phase ++ " is not abortable"))
  check admission
  let ended := if computer.phase = .exporting
    then s.endExports computer .failed (some "aborted_dead_node") else s
  return { ended.setComputer { computer with
      intentRevision := computer.intentRevision + 1
      phase := .stable } with
    copies := s.copies.updateWhere
      (fun c => c.destinationComputerID = computerID && c.operation = .custodyImport &&
        computer.phase = .importing && (c.status = .reserved || c.status = .prepared))
      (fun c => { c with status := .superseded }) fun _ => rfl }

/-- The phases `computerRemoveDecision` lets a removal begin in. -/
def removable : ReconfigurationPhase → Bool
  | .importing | .removing => false
  | _ => true

/-- A Computer that was never bound has nothing to clean up, and its outcome is settled at once. -/
def removeComputer (computerID : Nat) (precondition : Check) (s : Store) :
    StoreTx Store := do
  let computer ← orRefuse (s.computers.find computerID) (computerNotFound computerID)
  check precondition
  answerIf (computer.desiredState = .removed)
  refuseIf (¬ removable computer.phase)
    (computerConflict computerID ("is in reconfiguration phase " ++ quotedPhase computer.phase))
  let ended := if computer.phase = .exporting then s.endExports computer .superseded none else s
  let removing := ended.setComputer { computer with
    desiredState := .removed
    intentRevision := computer.intentRevision + 1
    phase := .removing
    removalOutcome := .removalPending
    directive := if computer.boundNodeID.isSome then .standing else .none }
  if computer.boundNodeID.isSome then return removing
  finalizeComputerCustodyOutcome computerID removing

/-- `finalizeServiceRemovalTx` for the Job of a Computer: once, and when the cleanup was
acknowledged. -/
def finalizeRemoval (computerID : Nat) (acknowledged : Bool) (s : Store) : StoreTx Store := do
  let computer ← orRefuse (s.computers.find computerID) (computerNotFound computerID)
  refuseIf (computer.directive = .none)
    ⟨.notFound, "service removal was not found"⟩
  answerIf (¬ acknowledged ∨ computer.directive = .finalized)
  finalizeComputerCustodyOutcome computerID
    (s.setComputer { computer with directive := .finalized })

/-! ## 8. Operations -/

inductive Op
  | create (computerID storageID : Nat) (admission : Check)
  | change (computerID : Nat) (boundNodeID : Option Nat) (desired : DesiredState)
      (phase : ReconfigurationPhase) (admission : Check)
  | backUp (backupID computerID : Nat) (admission : Check)
  | prune (backupID : Nat)
  | beginClone (request : CloneRequest)
  | beginExport (computerID : Nat) (request : ExportRequest)
  | acknowledgeExport (computerID : Nat) (request : ExportAcknowledgement)
  | beginImport (request : ImportRequest)
  | acknowledgeImport (computerID : Nat) (request : ImportAcknowledgement)
  | abort (computerID : Nat) (admission : Check)
  | remove (computerID : Nat) (precondition : Check)
  | finalize (computerID : Nat) (acknowledged : Bool)

def Op.tx (op : Op) (s : Store) : StoreTx Store :=
  match op with
  | .create computerID storageID admission => createComputer computerID storageID admission s
  | .change computerID boundNodeID desired phase admission =>
    reconfigure computerID boundNodeID desired phase admission s
  | .backUp backupID computerID admission => publishBackup backupID computerID admission s
  | .prune backupID => pruneBackup backupID s
  | .beginClone request => beginComputerClone request s
  | .beginExport computerID request => beginComputerCustodyExport computerID request s
  | .acknowledgeExport computerID request => acknowledgeComputerCustodyExport computerID request s
  | .beginImport request => beginComputerCustodyImport request s
  | .acknowledgeImport computerID request => acknowledgeComputerCustodyImport computerID request s
  | .abort computerID admission => abortReconfiguration computerID admission s
  | .remove computerID precondition => removeComputer computerID precondition s
  | .finalize computerID acknowledged => finalizeRemoval computerID acknowledged s

/-- What an operation leaves: what its transaction committed, or the store as it was. -/
def step (op : Op) : Store := (committed (op.tx s)).getD s

def Store.computerIDs : List Nat :=
  s.computers.rows.map Computer.computerID ++ s.backups.rows.map Backup.computerID ++
    s.exports.rows.map CustodyExport.computerID ++
    s.copies.rows.flatMap fun c => [c.destinationComputerID, c.sourceComputerID]

def Store.storageIDs : List Nat :=
  s.computers.rows.map Computer.storageID ++ s.backups.rows.map Backup.sourceStorageID ++
    s.exports.rows.map CustodyExport.sourceStorageID ++
    (s.copies.rows.flatMap fun c => [c.sourceStorageID, c.destinationStorageID]) ++
    s.provenance.flatMap fun p => [p.sourceStorageID, p.destinationStorageID]

def Op.Fresh : Op → Prop
  | .create computerID storageID _ =>
    computerID ∉ s.computerIDs ∧ storageID ∉ s.storageIDs
  | .beginClone request => request.computerID ∉ s.computerIDs ∧ request.storageID ∉ s.storageIDs
  | .beginImport request =>
    request.computerID ∉ s.computerIDs ∧ request.storageID ∉ s.storageIDs ∧
      request.storageID ≠ request.manifestStorageID
  | .backUp backupID _ _ => s.backups.find backupID = none
  | .beginExport _ request => s.exports.find request.exportID = none
  | _ => True

end Wefty.Custody
