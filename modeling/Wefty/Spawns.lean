/-
Who may speak for a run: job submissions with the labels of their specifications
(`CreateJobAs`, `authorizeRunIdentity` of `l1/store.go`; `l1/attempt_credential.go`;
`contract/handoff_owner.go`; `refuseComputerRunIdentity` of `l1/computers.go`).

The run ledger names a run in the labels of each job it dispatches. A job that was claimed
holds an attempt credential, and may submit children with it: a child inherits its parent's
submitter, is one deeper, and may name only runs its parent names. Every other submitter may
name no run, and a Computer never does.

Beside the rows of `Wefty.Operations` stand the columns of a job that no other operation reads. They
are recorded once, with the row (`Birth`). A removed job leaves its record behind: a child can
outlive its parent.

A request with a credential is two transactions. The first one reads what the credential proves
(`resolve`), the second one, any time later, writes the job. So is a reimage, which first reads the
specification the Computer has (`getComputer`). Re-projections of a Computer, which
`Wefty.Operations` has as phases only, are here with the Jobs they stage and publish.
-/
import Wefty.Operations
import Wefty.RunIntent

set_option autoImplicit false

namespace Wefty.Spawns

open Tables Rows StoreRows AttemptClock RestartPolicy Transactions AttemptAuthority ControlStore
open Submissions Claims Services Computers StorageCopies StorageResets Operations
open Wefty.Substrings (trimSpace)

/-! ## 1. Run identity -/

def labelRunID : String := "run_id"

def labelHandoffOwnerRunID : String := "handoff_owner_run_id"

def maxHandoffOwnerKeyBytes : Nat := 255

/-- The parts of a specification that `Wefty.StoreRows.JobSpec` leaves out. -/
structure Document where
  labels : List (String × String)
  handoffDirectory : String

/-- `spec.Labels[name]`, trimmed; a label that is not set is empty. -/
def Document.label (document : Document) (name : String) : String :=
  trimSpace ((document.labels.lookup name).getD "")

def handoffOwnerKey (document : Document) : String :=
  if document.label labelHandoffOwnerRunID ≠ "" then document.label labelHandoffOwnerRunID
  else document.label labelRunID

/-- `ExecutionHandoffOwnerKey`, with the identifier of the job as the source writes it. -/
def executionHandoffOwnerKey (spec : JobSpec) (document : Document) (jobID : String) : String :=
  if handoffOwnerKey document ≠ "" then handoffOwnerKey document
  else if spec.jobClass = .oneShot ∧ (spec.kind = .oci ∨
      (spec.kind = .process ∧ document.handoffDirectory = "")) then jobID
  else ""

def requiresHandoffOwner (spec : JobSpec) : Bool := spec.kind = .oci && spec.jobClass = .oneShot

def validateHandoffOwner (spec : JobSpec) (document : Document) : Check :=
  if !requiresHandoffOwner spec then .ok ()
  else if maxHandoffOwnerKeyBytes < (handoffOwnerKey document).utf8ByteSize then
    .error ⟨.runIdentityRequired, "a kind=oci one-shot job's handoff owner key " ++
      "(handoff_owner_run_id, else run_id) exceeds 255 bytes"⟩
  else if (handoffOwnerKey document).toList.contains (Char.ofNat 0) then
    .error ⟨.runIdentityRequired, "a kind=oci one-shot job's handoff owner key " ++
      "(handoff_owner_run_id, else run_id) contains a NUL byte"⟩
  else .ok ()

/-- `RunIdentityLabels`, in the order the callers list them. -/
def runIdentityLabels (document : Document) : List (String × String) :=
  [labelRunID, labelHandoffOwnerRunID].filterMap fun name =>
    if document.label name ≠ "" then some (name, document.label name) else none

def runNames (document : Document) : List String := (runIdentityLabels document).map Prod.snd

/-- What a child of a job with this specification may set a label to. -/
def entitled (parent : Document) (name : String) : List String :=
  if name = labelRunID then [parent.label labelRunID]
  else [parent.label labelRunID, handoffOwnerKey parent]

def refuseComputerRunIdentity (document : Document) : Check :=
  if runIdentityLabels document = [] then .ok ()
  else .error ⟨.runIdentityNotEntitled,
    "a Computer never belongs to a run, so its specification may not name one in " ++
      " or ".intercalate ((runIdentityLabels document).map Prod.fst)⟩

/-! ## 2. Records, credentials and requests -/

structure Birth where
  jobID : Nat
  parentJobID : Option Nat
  parentAttemptID : Option Nat
  originatingSubmitter : Option Nat
  spawnDepth : Nat
  submittedByRunLedger : Bool
  document : Document

/-- A row of `attempt_credentials`. -/
structure Credential where
  tokenHash : Nat
  attemptID : Nat
  jobID : Nat
  originatingSubmitter : Option Nat
  spawnDepth : Nat
  deriving DecidableEq

/-- The store with these records, and what requests in flight hold: scopes, and the specifications
that reimages of Computers have read. -/
structure System where
  store : Store
  births : Table Birth.jobID
  credentials : Table Credential.tokenHash
  resolved : List Scope
  reads : List (Nat × Document)

variable (system : System)

/-- Who submits a job: a client, which is the run ledger or not, or a job through a credential
whose scope was resolved. -/
inductive Principal
  | client (submitter : Option Nat) (runLedger : Bool)
  | attempt (index : Nat)

/-- A call of `CreateJobAs`. The answers are those of `validateJobSpec`, `instanceKeyConflict` and
`admitSeatRun`. -/
structure SubmitRequest where
  spec : JobSpec
  document : Document
  requestHash : Nat
  principal : Principal
  retiring : Bool
  wellFormed : Check
  instanceKey : Check
  seatRun : Check

namespace System

def documentOf (jobID : Nat) : Document :=
  ((system.births.find jobID).map Birth.document).getD ⟨[], ""⟩

def authorizeRunIdentity (document : Document) (submittedByRunLedger : Bool)
    (parent : Option Scope) : Check :=
  if runIdentityLabels document = [] ∨ submittedByRunLedger then .ok ()
  else match parent with
  | none => .error ⟨.runIdentityNotEntitled, "only the run ledger may name a run in " ++
      " or ".intercalate ((runIdentityLabels document).map Prod.fst) ++
      ": omit the run labels for a direct job, or submit an L3 run whose dispatch names it"⟩
  | some scope =>
    match system.store.jobs.find scope.jobID with
    | none => .error ⟨.internal, "read the credential's parent job"⟩
    | some _ =>
      match (runIdentityLabels document).find? fun named =>
          !(entitled (system.documentOf scope.jobID) named.1).contains named.2 with
      | none => .ok ()
      | some named => .error ⟨.runIdentityNotEntitled,
          "a child job may name only its parent job's own run in " ++ named.1⟩

/-- The origin of a submission, and whether it is the run ledger's own. A child never is. -/
def origin : Principal → Option (JobOrigin × Bool)
  | .client submitter runLedger => some (⟨submitter, none⟩, runLedger)
  | .attempt index => system.resolved[index]?.map fun scope => (⟨none, some scope⟩, false)

/-- The submission of `Wefty.Submissions`, with the checks between lookup and insert. -/
def submission (request : SubmitRequest) (origin : JobOrigin)
    (submittedByRunLedger : Bool) : Submission where
  spec := request.spec
  requestHash := request.requestHash
  origin := origin
  retiring := request.retiring
  wellFormed := request.wellFormed
  admission := do
    request.instanceKey
    system.authorizeRunIdentity request.document submittedByRunLedger origin.parent
    validateHandoffOwner request.spec request.document
  seatRun := request.seatRun

end System

def birthOf (document : Document) (submittedByRunLedger : Bool) (job : Job) : Birth where
  jobID := job.jobID
  parentJobID := job.parentJobID
  parentAttemptID := job.parentAttemptID
  originatingSubmitter := job.originatingSubmitter
  spawnDepth := job.spawnDepth
  submittedByRunLedger := submittedByRunLedger
  document := document

/-- The rows of `after` that were not in `before`. -/
def inserted (before after : Store) : List Job :=
  after.jobs.rows.filter fun job => (before.jobs.find job.jobID).isNone

/-- The attempts of `after` that were not in `before`. -/
def claimed (before after : Store) : List Attempt :=
  after.attempts.rows.filter fun attempt => (before.attempts.find attempt.attemptID).isNone

/-- The credential `claimJob` mints with an attempt. -/
def credentialOf (after : Store) (tokenHash : Nat) (attempt : Attempt) : Option Credential :=
  (after.jobs.find attempt.jobID).map fun job =>
    ⟨tokenHash, attempt.attemptID, attempt.jobID, job.originatingSubmitter, job.spawnDepth⟩

/-- `pruneAttemptCredentials`: the credentials of attempts that no job is bound to. -/
def pruneAttemptCredentials (s : Store) (credentials : Table Credential.tokenHash) :
    Table Credential.tokenHash :=
  credentials.deleteWhere fun credential =>
    !s.jobs.any fun job => job.currentAttemptID = some credential.attemptID

/-- `pruneEndedAttemptCredentials`: of the credentials that its limit lets it come to, those of
attempts that have ended or are gone. -/
def pruneEndedAttemptCredentials (s : Store) (listed : List Nat)
    (credentials : Table Credential.tokenHash) : Table Credential.tokenHash :=
  credentials.deleteWhere fun credential => credential.tokenHash ∈ listed &&
    !(s.attempts.find credential.attemptID).any fun attempt => attempt.state.active

namespace System

/-- The store after a transaction that gave its jobs this specification. -/
def commit (after : Store) (document : Document) (submittedByRunLedger : Bool) :
    System :=
  { system with
    store := after
    births := (inserted system.store after).foldl
      (fun births job => births.insert (birthOf document submittedByRunLedger job)) system.births }

/-- `CreateJobAs`. -/
def submit (config : Config) (door : Door) (request : SubmitRequest) : System :=
  match system.origin request.principal with
  | none => system
  | some (origin, submittedByRunLedger) =>
    system.commit
      (Operations.step system.store
        ⟨config, door, .submit [system.submission request origin submittedByRunLedger]⟩)
      request.document submittedByRunLedger

/-- `claimJob`, with the credential it mints. A claim that takes no job prunes none. -/
def claim (config : Config) (door : Door) (request : ClaimRequest) (tokenHash : Nat) : System :=
  let after := Operations.step system.store ⟨config, door, .claim request⟩
  let minted := ((claimed system.store after).filterMap (credentialOf after tokenHash)).foldl
    (fun credentials credential => credentials.insert credential) system.credentials
  { system.commit after ⟨[], ""⟩ false with
    credentials :=
      if claimed system.store after = [] then system.credentials
      else pruneAttemptCredentials after minted }

/-- `ReconcileAttempts`; `tokens` are the credentials its last statement comes to. -/
def reconcile (config : Config) (door : Door) (checked : Nat → Bool)
    (listed tokens : List Nat) : System :=
  let after := Operations.step system.store ⟨config, door, .reconcile checked listed⟩
  { system.commit after ⟨[], ""⟩ false with
    credentials := pruneEndedAttemptCredentials after tokens system.credentials }

def scopeOf (credential : Credential) (identityNodeID : Nat) : Scope where
  attemptID := credential.attemptID
  jobID := credential.jobID
  identityNodeID := identityNodeID
  originatingSubmitter := credential.originatingSubmitter
  spawnDepth := credential.spawnDepth

def resolve (ctx : Ctx) (tokenHash identityNodeID : Nat) (retiring : Bool) :
    System :=
  match system.credentials.find tokenHash with
  | none => system
  | some credential =>
    match revalidateAttemptCredential ctx system.store (scopeOf credential identityNodeID)
        retiring with
    | .error _ => system
    | .ok () =>
      { system with resolved := system.resolved ++ [scopeOf credential identityNodeID] }

end System

/-! ## 3. Computers -/

/-- `ComputerProjectionRequest`, with the operation it is for. `wellFormed` is the outcome of
`validateJobSpec`, `pending` that of the checks a request for the running projection goes
through, `managedRoot` that of `computerReimageRootDecision`; `unverified` says that the
preflight of a reimage is still owed, and `reading` which read it goes on from. -/
structure ProjectionRequest where
  precondition : Precondition
  spec : JobSpec
  requestHash : Nat
  placementNodeID : Nat
  reimage : Bool
  chown : Bool
  stagingJobID : Nat
  wellFormed : Check
  pending : Check
  managedRoot : Check
  unverified : Bool
  reading : Nat

def ProjectionRequest.phase (request : ProjectionRequest) : ReconfigurationPhase :=
  if request.reimage then .reimaging else .projecting

/-- A projection's specification is the caller's, a reimage's is the Computer's own. -/
def computerProjectionDecision (computer : Computer) (request : ProjectionRequest)
    (document : Document) : Check := do
  if computer.phase ≠ .stable then throw (inPhase computer)
  if request.reimage then pure () else refuseComputerRunIdentity document
  requireCurrentComputerStorage computer (if request.reimage then "reimage" else "project")
  computerWritePreconditionDecision computer request.precondition

/-- `SELECT COALESCE(MAX(spec_revision), 0) + 1 FROM computer_job_projections`. -/
def nextSpecRevision (s : Store) (computerID : Nat) : Nat :=
  ((s.jobs.rows.filterMap fun job =>
    (job.projection.filter fun p => p.computerID = computerID).map
      fun p => p.specRevision).foldr max 0) + 1

def stagedJob (s : Store) (now : Int) (computer : Computer) (request : ProjectionRequest) : Job :=
  { computerJob now s.nextID computer.computerID request.spec request.requestHash .stopped .stopped
      computer.boundNodeID with
    projection := some
      { computerID := computer.computerID
        specRevision := nextSpecRevision s computer.computerID
        current := false
        chown := request.chown
        retiredNS := none } }

def projectingComputer (computer : Computer) (request : ProjectionRequest) : Computer :=
  { computer with
    intentRevision := computer.intentRevision + 1
    phase := request.phase
    reconfigurationRevision := some (computer.intentRevision + 1) }

def retiredProjection (now : Int) (job : Job) : Job :=
  { job with
    projection := job.projection.map fun p => { p with current := false, retiredNS := some now }
    service := job.service.map fun service =>
      { service with
        desiredState := .stopped
        boundNodeID := none
        publishedAttemptID := none
        healthySinceNS := none
        nextRestartAt := none } }

def publishedProjection (now : Int) (computer : Computer) (job : Job) : Job :=
  { job with
    projection := job.projection.map fun p => { p with current := true }
    service := job.service.map fun service =>
      { service with
        desiredState := if computer.desiredState = .running then .running else .stopped
        boundNodeID := computer.boundNodeID
        restartStreak := 0
        nextRestartAt := none
        lastFailure := none
        healthySinceNS := none
        publishedAttemptID := none }
    state := if computer.desiredState = .running then .queued else .stopped
    updatedNS := now }

def projectedComputer (computer : Computer) (stagingJobID : Nat) : Computer :=
  { computer with
    currentJobID := stagingJobID
    phase := .stable
    reconfigurationRevision := none }

/-- `finalizeComputerProjectionTx`, for the Job that the intent history names: one that is staged
for the Computer and not published yet. It is stopped, since it was inserted so and nothing moves a
Job that is not current. -/
def finalizeComputerProjection (ctx : Ctx) (computerID stagingJobID : Nat)
    (phase : ReconfigurationPhase) (s : Store) : StoreTx Store := do
  let (computer, job) ← orRefuse (readComputerAuthority s computerID) (computerNotFound computerID)
  refuseIf (computer.phase ≠ phase ∨
      computer.reconfigurationRevision ≠ some computer.intentRevision)
    ⟨.internal, "finalize Computer projection"⟩
  let staged ← orRefuse ((s.jobs.find stagingJobID).filter fun staged =>
      staged.state = .stopped && staged.projection.any fun p =>
        p.computerID = computerID && !p.current && p.retiredNS.isNone)
    ⟨.internal, "read staging Computer projection"⟩
  refuseIf (job.state ≠ .stopped)
    (computerConflict computerID "has not quiesced its current Job")
  check (if computer.desiredState = .running ∧ ¬ holdsSlot job then ensureBoundServiceCapacity s job
    else .ok ())
  return ((s.setJob (retiredProjection ctx.now job)).setJob
    (publishedProjection ctx.now computer staged)).setComputer
    (projectedComputer computer stagingJobID)

def installComputerProjection (ctx : Ctx) (computerID : Nat) (request : ProjectionRequest)
    (document : Document) (s : Store) : StoreTx Store := do
  check request.wellFormed
  refuseIf (¬ isComputerSpec request.spec)
    (invalidRequest "Computer projection requires execution.oci.computer")
  let (computer, job) ← orRefuse (readComputerAuthority s computerID) (computerNotFound computerID)
  refuseIf (computer.desiredState = .removed) (computerConflict computerID "is being removed")
  refuseIf (request.placementNodeID ≠ computer.placementNodeID)
    (conflict "Computer placement cannot change during projection replacement")
  refuseIf (specDisk request.spec ≠ specDisk job.spec)
    (conflict "Computer disk budget cannot change during projection replacement")
  if computer.phase = request.phase then
    -- The same request again, while the old Job is quiescing.
    check request.pending
    answerIf (job.state ≠ .stopped)
    answerIf (request.reimage ∧ request.unverified)
    finalizeComputerProjection ctx computerID request.stagingJobID request.phase s
  else
    check (computerProjectionDecision computer request document)
    refuseIf (s.jobByDispatchKey request.spec.dispatchKey).isSome
      (dispatchKeyRefused request.spec.dispatchKey "is already in use")
    refuseIf (s.tombstoneByDispatchKey request.spec.dispatchKey).isSome
      (dispatchKeyRefused request.spec.dispatchKey "belongs to a removed service")
    check (if request.reimage then request.managedRoot else .ok ())
    let quiesced ← check (quiescedJob s ctx.now job)
    let staged := ((s.insertJob (stagedJob s ctx.now computer request)).setJob quiesced).setComputer
      (projectingComputer computer request)
    if (job.state = .queued ∨ job.state = .stopped ∨ job.state = .failed) ∧ ¬ request.reimage then
      finalizeComputerProjection ctx computerID s.nextID request.phase staged
    else return staged

namespace System

def computerDocument (computerID : Nat) : Document :=
  match readComputerAuthority system.store computerID with
  | some (_, job) => system.documentOf job.jobID
  | none => ⟨[], ""⟩

def createComputer (config : Config) (door : Door) (request : CreateComputer)
    (document : Document) : System :=
  let admission : Check := do
    refuseComputerRunIdentity document
    request.admission
  system.commit
    (Operations.step system.store
      ⟨config, door, .createComputer { request with admission := admission }⟩) document false

/-- `BeginComputerCustodyImport`. -/
def importComputer (config : Config) (door : Door) (request : ImportRequest)
    (document : Document) : System :=
  let admission : Check := do
    refuseComputerRunIdentity document
    request.admission
  system.commit
    (Operations.step system.store
      ⟨config, door, .importComputer { request with admission := admission }⟩) document false

/-- `BeginComputerClone`: the specification is the source's. -/
def cloneComputer (config : Config) (door : Door) (request : CloneRequest) :
    System :=
  let document := match request.backup with
    | .ok (sourceID, _) => system.computerDocument sourceID
    | .error _ => ⟨[], ""⟩
  system.commit (Operations.step system.store ⟨config, door, .cloneComputer request⟩) document false

/-- `GetComputer`, as a reimage calls it before its transaction. -/
def getComputer (computerID : Nat) : System :=
  { system with reads := system.reads ++ [(computerID, system.computerDocument computerID)] }

/-- The specification of a projection: a reimage keeps the one it has read but for its image,
whatever Job the Computer has by now. -/
def projectedDocument (computerID : Nat) (request : ProjectionRequest)
    (document : Document) : Option Document :=
  if request.reimage then
    (system.reads[request.reading]?.filter fun read => read.1 = computerID).map Prod.snd
  else some document

/-- `ProjectComputer`, and `ReimageComputer` from its transaction on. -/
def projectComputer (config : Config) (door : Door) (computerID : Nat)
    (request : ProjectionRequest) (document : Document) : System :=
  match system.projectedDocument computerID request document with
  | none => system
  | some document =>
    system.commit
      (runTx config door (fun ctx s => installComputerProjection ctx computerID request document s)
        system.store) document false

/-- The preflight of a reimage is acknowledged. -/
def publishReimage (config : Config) (door : Door) (computerID stagingJobID : Nat) : System :=
  system.commit
    (runTx config door (fun ctx s => finalizeComputerProjection ctx computerID
      stagingJobID .reimaging s) system.store) ⟨[], ""⟩ false

end System

/-! ## 4. Runs -/

inductive Event
  | submit (config : Config) (door : Door) (request : SubmitRequest)
  | claim (config : Config) (door : Door) (request : ClaimRequest) (tokenHash : Nat)
  | resolve (ctx : Ctx) (tokenHash identityNodeID : Nat) (retiring : Bool)
  | createComputer (config : Config) (door : Door) (request : CreateComputer) (document : Document)
  | importComputer (config : Config) (door : Door) (request : ImportRequest) (document : Document)
  | cloneComputer (config : Config) (door : Door) (request : CloneRequest)
  | getComputer (computerID : Nat)
  | projectComputer (config : Config) (door : Door) (computerID : Nat)
      (request : ProjectionRequest) (document : Document)
  | publishReimage (config : Config) (door : Door) (computerID stagingJobID : Nat)
  | reconcile (config : Config) (door : Door) (checked : Nat → Bool) (listed tokens : List Nat)
  /-- Any other operation of the store. -/
  | other (e : Operations.Event)

/-- The operations that have an event of their own. -/
def named : Op → Bool
  | .submit _ | .claim _ | .createComputer _ | .importComputer _ | .cloneComputer _
  | .reconcile .. => true
  | _ => false

namespace System

def step : Event → System
  | .submit config door request => system.submit config door request
  | .claim config door request tokenHash => system.claim config door request tokenHash
  | .resolve ctx tokenHash identityNodeID retiring =>
    system.resolve ctx tokenHash identityNodeID retiring
  | .createComputer config door request document =>
    system.createComputer config door request document
  | .importComputer config door request document =>
    system.importComputer config door request document
  | .cloneComputer config door request => system.cloneComputer config door request
  | .getComputer computerID => system.getComputer computerID
  | .projectComputer config door computerID request document =>
    system.projectComputer config door computerID request document
  | .publishReimage config door computerID stagingJobID =>
    system.publishReimage config door computerID stagingJobID
  | .reconcile config door checked listed tokens =>
    system.reconcile config door checked listed tokens
  | .other e =>
    if named e.op then system
    else system.commit (Operations.step system.store e) ⟨[], ""⟩ false

def start : System := ⟨Store.openStore, .empty, .empty, [], []⟩

def reached (events : List Event) : System := Runs.exec step start events

end System

end Wefty.Spawns
