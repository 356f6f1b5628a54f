/-
Computers: creation, desired state, restart, removal and abort (`l1/computers.go`;
`l1/computer_decisions.go`; `AbortComputerReconfiguration` of `l1/reconfiguration_abort.go`).

A Computer is a durable authority over one current Job. Each mutation is decided against the
Computer's row and the Job's, counts the intent revision up by one, and moves the Job with it.
While a Computer is in a reconfiguration phase other than `stable` its Job cannot be claimed.
-/
import Wefty.Removals

set_option autoImplicit false

namespace Wefty.Computers

open Tables Rows StoreRows AttemptClock RestartPolicy Transactions AttemptAuthority ControlStore
open Services Removals

/-! ## 1. Reading a Computer -/

def quotedPhase : ReconfigurationPhase → String
  | .stable => "\"stable\""
  | .projecting => "\"projecting\""
  | .resetting => "\"resetting\""
  | .backingUp => "\"backing_up\""
  | .restoring => "\"restoring\""
  | .cloning => "\"cloning\""
  | .exporting => "\"exporting\""
  | .importing => "\"importing\""
  | .reimaging => "\"reimaging\""
  | .growing => "\"growing\""
  | .removing => "\"removing\""

def computerNotFound (computerID : Nat) : ProtocolError :=
  ⟨.notFound, "Computer " ++ quoted computerID ++ " was not found"⟩

def computerConflict (computerID : Nat) (message : String) : ProtocolError :=
  conflict ("Computer " ++ quoted computerID ++ " " ++ message)

def computerJobConflict (jobID : Nat) (message : String) : ProtocolError :=
  conflict ("Computer Job " ++ quoted jobID ++ " " ++ message)

def readComputerAuthority (s : Store) (computerID : Nat) : Option (Computer × Job) := do
  let computer ← s.computers.find computerID
  let job ← s.jobs.find computer.currentJobID
  return (computer, job)

/-- `ComputerMutationPrecondition`. `caller` is the outcome of the checks on the actor and on the
identity of the Storage. -/
structure Precondition where
  intentRevision : Nat
  storageGeneration : Nat
  caller : Check

def computerWritePreconditionDecision (computer : Computer) (request : Precondition) : Check := do
  request.caller
  if computer.intentRevision ≠ request.intentRevision then
    throw ⟨.staleIntentRevision, "Computer " ++ quoted computer.computerID ++
      " intent revision changed from " ++ toString request.intentRevision ++ " to " ++
      toString computer.intentRevision⟩
  if computer.storageGeneration ≠ request.storageGeneration then
    throw ⟨.storageReferenceConflict, "Computer " ++ quoted computer.computerID ++
      " storage reference has changed"⟩

def inPhase (computer : Computer) : ProtocolError :=
  computerConflict computer.computerID
    ("is in reconfiguration phase " ++ quotedPhase computer.phase)

/-- A Storage generation that was never published holds no bytes to start on. -/
def requireCurrentComputerStorage (computer : Computer) (action : String) : Check :=
  if computer.generations.any fun generation =>
      generation.storageGeneration = computer.storageGeneration && generation.phase = .current then
    .ok ()
  else .error (computerConflict computer.computerID ("cannot " ++ action ++
    ": its Storage generation " ++ toString computer.storageGeneration ++ " was never published"))

/-- `UPDATE computer_storage_generations SET phase=?` for the one generation `p` picks:
`requireSingleStorageGenerationMutation` refuses any other number. -/
def setGeneration (p : StorageGeneration → Bool) (phase : GenerationPhase) (action : String)
    (generations : List StorageGeneration) : Except ProtocolError (List StorageGeneration) :=
  if generations.countP p = 1 then
    .ok (generations.map fun g => if p g then { g with phase := phase } else g)
  else .error (conflict (action ++ " affected " ++ toString (generations.countP p) ++ " rows"))

/-- A number the generations of a Computer have in use, or a generation that is being staged: the
schema takes no second one. -/
def stagingTaken (generations : List StorageGeneration) (storageGeneration : Nat) : Bool :=
  generations.any fun g => g.storageGeneration = storageGeneration || g.phase = .staging

/-! ## 2. Creation -/

/-- `insertComputerJobWithID`: the Job of a Computer, with its projection. -/
def computerJob (now : Int) (jobID computerID : Nat) (spec : JobSpec) (requestHash : Nat)
    (state : JobState) (desired : DesiredState) (boundNodeID : Option Nat) : Job where
  jobID := jobID
  requestHash := requestHash
  spec := spec
  state := state
  service := some {
    desiredState := desired
    boundNodeID := boundNodeID }
  projection := some
    { computerID := computerID, specRevision := 1, current := true, chown := false,
      retiredNS := none }
  createdNS := now
  updatedNS := now

/-- `INSERT INTO jobs` and `INSERT INTO computers`, with the unique key of a Job where SQLite
checks it. The Job takes the next identifier and the Computer the one after. -/
def insertComputer (s : Store) (job : Job) (computer : Computer) : Except ProtocolError Store :=
  if (s.jobByDispatchKey job.spec.dispatchKey).isSome then
    .error ⟨.internal, "store Computer Job projection"⟩
  else
    let inserted := s.insertJob job
    .ok { inserted with
      computers := inserted.computers.insert computer
      nextID := inserted.nextID + 1 }

/-- `CreateComputerRequest`. `wellFormed` is the outcome of the checks before the first read,
`admission` that of those between the replay and the insert, and `identifies` says whether the
Computer under the key has the name, actor, cap and settings of the request. -/
structure CreateComputer where
  name : Nat
  spec : JobSpec
  requestHash : Nat
  placementNodeID : Nat
  seatRequestMade : Bool
  wellFormed : Check
  admission : Check
  identifies : Bool

def dispatchKeyRefused (dispatchKey : Nat) (message : String) : ProtocolError :=
  ⟨.dispatchKeyConflict, "dispatch key " ++ quoted dispatchKey ++ " " ++ message⟩

def specDisk (spec : JobSpec) : Int := (spec.oci.bind fun oci => oci.computerDisk).getD 0

def createdComputer (computerID jobID : Nat) (request : CreateComputer) : Computer where
  computerID := computerID
  name := some request.name
  placementNodeID := request.placementNodeID
  boundNodeID := none
  storageGeneration := 1
  desiredDiskBytes := specDisk request.spec
  seatRequestMade := request.seatRequestMade
  desiredState := .running
  intentRevision := 1
  currentJobID := jobID
  phase := .stable
  reconfigurationRevision := none
  generations := [⟨1, specDisk request.spec, .current, none⟩]

/-- A key that belongs to a removed service identifies no Computer. -/
def createComputer (ctx : Ctx) (request : CreateComputer) (s : Store) : StoreTx Store := do
  check request.wellFormed
  refuseIf (¬ isComputerSpec request.spec)
    (invalidRequest "Computer creation requires execution.oci.computer")
  refuseIf (request.spec.jobClass ≠ .service)
    (invalidRequest "OCI computer trait requires class \"service\"")
  let key := request.spec.dispatchKey
  let existing := s.jobByDispatchKey key
  refuseIf (existing.any fun job => job.requestHash ≠ request.requestHash)
    (dispatchKeyRefused key "was already used with a different job")
  refuseIf (existing.isSome ∧ ¬ request.identifies)
    (dispatchKeyRefused key "does not identify this Computer")
  answerIf existing.isSome
  let tombstone := s.tombstoneByDispatchKey key
  refuseIf (tombstone.any fun t => t.requestHash ≠ request.requestHash)
    (dispatchKeyRefused key "was already used with a different job")
  refuseIf tombstone.isSome (dispatchKeyRefused key "belongs to a removed service")
  check request.admission
  let named := s.computers.rows.find? fun c => c.name = some request.name
  refuseIf named.isSome (conflict ("Computer name " ++ quoted request.name ++
    " is already used by " ++ quoted ((named.map fun c => c.computerID).getD 0)))
  check (insertComputer s
    (computerJob ctx.now s.nextID (s.nextID + 1) request.spec request.requestHash .queued .running
      none) (createdComputer (s.nextID + 1) s.nextID request))

/-! ## 3. Desired state -/

/-- Whether the stop wins over a Backup that is running. -/
def computerDesiredDecision (computer : Computer) (job : Job) (desired : DesiredState) :
    Except ProtocolError Bool := do
  if computer.desiredState = .removed then
    throw (computerConflict computer.computerID "is being removed")
  let backupStopWins : Bool := computer.phase = .backingUp && desired = .stopped
  if computer.phase ≠ .stable ∧ ¬ backupStopWins then throw (inPhase computer)
  if desired = .running then requireCurrentComputerStorage computer "start"
  if desired = .running ∧ job.state = .failed then
    throw (computerConflict computer.computerID
      ("is latched failed; use POST /v1/computers/" ++ toString computer.computerID ++ "/restart"))
  return backupStopWins

def computerServiceDesiredDecision (s : Store) (job : Job) (desired : DesiredState) : Check :=
  if job.service.isNone then .error ⟨.internal, "apply Computer desired state"⟩
  else match desired with
  | .running =>
    match job.state with
    | .failed =>
      .error (computerJobConflict job.jobID "is latched failed; restart is required")
    | .stopped => if holdsSlot job then .ok () else ensureBoundServiceCapacity s job
    | .stopping => .error (computerJobConflict job.jobID "is still stopping")
    | .queued | .claimed | .running =>
      if desires job .running then .ok ()
      else .error (computerJobConflict job.jobID "has inconsistent desired state")
    | _ =>
      .error (computerJobConflict job.jobID ("cannot start from " ++ quotedState job.state))
  | .stopped =>
    match job.state with
    | .queued | .claimed | .running | .failed => .ok ()
    | .stopping | .stopped =>
      if desires job .stopped then .ok ()
      else .error (computerJobConflict job.jobID "has inconsistent desired state")
    | _ =>
      .error (computerJobConflict job.jobID ("cannot stop from " ++ quotedState job.state))
  | .removed => .ok ()

/-- `setComputerServiceDesiredState` on the Job. A queued Computer has no live runtime, so its stop
detaches the attempt before. -/
def computerDesiredJob (now : Int) (desired : DesiredState) (job : Job) :
    Except ProtocolError Job := do
  let moved ←
    match desired with
    | .running =>
      if job.state = .stopped then transitionServiceJob now .running .queued job else .ok job
    | .stopped =>
      match job.state with
      | .queued =>
        (transitionServiceJob now .stopped .stopped job).map (detachAttempt .queuedComputerStop)
      | .claimed | .running => transitionServiceJob now .stopped .stopping job
      | .failed =>
        .ok (job.updateService fun service =>
          { service with
            desiredState := .stopped
            nextRestartAt := none
            publishedAttemptID := none
            healthySinceNS := none })
      | _ => .ok job
    | .removed => .ok job
  return moved.updateService fun service => { service with nextRestartAt := none }

def setComputerDesiredState (ctx : Ctx) (computerID : Nat) (desired : DesiredState)
    (request : Precondition) (s : Store) : StoreTx Store := do
  refuseIf (desired = .removed)
    (invalidRequest "desired_state must be \"running\" or \"stopped\"")
  let (computer, job) ← orRefuse (readComputerAuthority s computerID) (computerNotFound computerID)
  check (computerWritePreconditionDecision computer request)
  let _ ← check (computerDesiredDecision computer job desired)
  answerIf (computer.desiredState = desired)
  check (computerServiceDesiredDecision s job desired)
  let written ← check (computerDesiredJob ctx.now desired job)
  return (s.setJob written).setComputer { computer with
    desiredState := desired
    intentRevision := computer.intentRevision + 1 }

/-! ## 4. Restart -/

/-- The Computer ran out of a resource: the code of the failure document says so. -/
def resourceLatched (job : Job) : Bool :=
  job.service.any fun service => service.lastFailure.any fun failure =>
    match failure with
    | .spawn failure => resourceFailure failure.code
    | .portOccupied code _ _ _ => resourceFailure code
    | .result _ => false

/-- A live attempt that a restart may end: it ran out of a resource, or a Seat request made the
Computer and its owner is obeyed at once. -/
def activeRestart (computer : Computer) (job : Job) : Bool :=
  (job.state = .claimed || job.state = .running) &&
    (resourceLatched job || computer.seatRequestMade)

def computerRestartDecision (s : Store) (computer : Computer) (job : Job) : Check := do
  if computer.desiredState = .removed then
    throw (computerConflict computer.computerID "is being removed")
  if computer.phase ≠ .stable then throw (inPhase computer)
  requireCurrentComputerStorage computer "restart"
  if job.state ≠ .stopped ∧ job.state ≠ .failed ∧ ¬ activeRestart computer job then
    throw (computerConflict computer.computerID
      ("can restart only from stopped, failed, or an active insufficient-resource latch, not " ++
        quotedState job.state))
  if ¬ activeRestart computer job ∧ ¬ holdsSlot job then ensureBoundServiceCapacity s job

/-- The Job of a restarted Computer: a live attempt is asked to stop, and a restart request says
that what follows is a restart. -/
def restartedComputerJob (now createdNS : Int) (computer : Computer)
    (request : ServiceRestartRequest) (job : Job) : Except ProtocolError Job := do
  let moved ←
    if activeRestart computer job then .ok { job with state := .stopping, updatedNS := now }
    else transitionServiceJob now .running .queued job
  let accepted : RestartRequest := ⟨request.idempotencyKey, request.requestHash, createdNS⟩
  return moved.updateService fun service =>
    { service with
      desiredState := .running
      restartStreak := 0
      nextRestartAt := none
      lastFailure := none
      healthySinceNS := none
      publishedAttemptID := none
      restartRequests := service.restartRequests ++ [accepted] }

def restartComputer (ctx : Ctx) (computerID : Nat) (request : ServiceRestartRequest)
    (precondition : Precondition) (s : Store) : StoreTx Store := do
  let (computer, job) ← orRefuse (readComputerAuthority s computerID) (computerNotFound computerID)
  let replay := acceptedRestart job request.idempotencyKey
  refuseIf (replay.any fun r => r.requestHash ≠ request.requestHash) ⟨.idempotencyConflict,
    "Computer restart idempotency key conflicts with the accepted request"⟩
  answerIf replay.isSome
  check (computerWritePreconditionDecision computer precondition)
  check (computerRestartDecision s computer job)
  let createdNS ← check (restartCreatedNS ctx.now s job)
  let written ← check (restartedComputerJob ctx.now createdNS computer request job)
  return (s.setJob written).setComputer { computer with
    desiredState := .running
    intentRevision := computer.intentRevision + 1 }

/-! ## 5. Removal -/

/-- The phases a removal may overtake: all but an import and a removal. -/
def removablePhase (phase : ReconfigurationPhase) : Bool :=
  phase ≠ .importing && phase ≠ .removing

def computerRemovalBindingDecision (s : Store) (computer : Computer) (job : Job) :
    Except ProtocolError (Option (Nat × Nat)) :=
  if computer.boundNodeID ≠ boundNode job then
    .error (computerConflict computer.computerID "and current Job binding diverged")
  else match boundNode job with
  | none => .ok none
  | some nodeID =>
    match s.nodes.find nodeID with
    | none => .error (conflict ("bound node " ++ quoted nodeID ++ " was not found"))
    | some node =>
      if node.rootInstanceID = 0 then .error (noManagedRoot nodeID)
      else .ok (some (nodeID, node.rootInstanceID))

/-- A copy that a removal overtakes: one into the Computer that is being restored or cloned, or a
clone out of it that is not published. -/
def supersededByRemoval (computer : Computer) (copy : StorageCopy) : Bool :=
  (computer.phase = .restoring || computer.phase = .cloning) &&
      copy.destinationComputerID = computer.computerID &&
      (copy.status = .reserved || copy.status = .prepared || copy.status = .published) ||
    copy.sourceComputerID = computer.computerID && copy.operation = .clone &&
      (copy.status = .reserved || copy.status = .prepared)

def resetActive (status : ResetStatus) : Bool :=
  status = .reserved || status = .prepared || status = .published

/-- The resets `p` picks, superseded as far as they have not come to their end. -/
def supersedeResets (p : StorageReset → Bool) (resets : List StorageReset) : List StorageReset :=
  resets.map fun reset =>
    if p reset && resetActive reset.status then { reset with status := .superseded } else reset

/-- The grows `p` picks, superseded as far as they are planned. -/
def supersedeGrows (p : StorageGrow → Bool) (grows : List StorageGrow) : List StorageGrow :=
  grows.map fun grow =>
    if p grow && grow.status = .planned then { grow with status := .superseded } else grow

/-- `UPDATE computer_storage_copy_operations SET status=?` for the copies `p` picks. -/
def markCopies (s : Store) (p : StorageCopy → Bool) (status : CopyStatus) : Store :=
  { s with copies := s.copies.updateWhere p (fun copy => { copy with status := status }) }

/-- The Job of a removed Computer. One that was never bound has nothing to clean. -/
def removedComputerJob (now : Int) (cleanupFence : Nat) (binding : Option (Nat × Nat)) (job : Job) :
    Job :=
  let withdrawn := { job with
    fenceCounter := job.fenceCounter + 1
    updatedNS := now }.updateService fun service =>
      { service with
        desiredState := .stopped
        publishedAttemptID := none
        healthySinceNS := none
        nextRestartAt := none }
  match binding with
  | none => { withdrawn with state := .removedVerified }
  | some (nodeID, root) =>
    { withdrawn with
      state := .removalPending
      removal := some (requestedRemoval now nodeID root cleanupFence) }

/-- `ComputerRemoveRequest`. `admission` is the outcome of the idleness and Seat checks, and
`overtaken` says that the Seat request it was for is not refused any more. -/
structure RemoveComputer where
  precondition : Precondition
  admission : Check
  overtaken : Bool

def removeComputer (ctx : Ctx) (computerID : Nat) (request : RemoveComputer) (s : Store) :
    StoreTx Store := do
  let (computer, job) ← orRefuse (readComputerAuthority s computerID) (computerNotFound computerID)
  check request.admission
  answerIf request.overtaken
  check (computerWritePreconditionDecision computer request.precondition)
  answerIf (computer.desiredState = .removed)
  refuseIf (¬ removablePhase computer.phase) (inPhase computer)
  let binding ← check (computerRemovalBindingDecision s computer job)
  let superseded := markCopies s (supersededByRemoval computer) .superseded
  let removing := superseded.setComputer { computer with
    resets := supersedeResets (fun _ => computer.phase = .resetting) computer.resets
    grows := supersedeGrows (fun _ => computer.phase = .growing) computer.grows
    desiredState := .removed
    intentRevision := computer.intentRevision + 1
    phase := .removing
    reconfigurationRevision := some (computer.intentRevision + 1) }
  let revoked := removing.invalidateAttempts ctx fun a =>
    (s.jobs.find a.jobID).any fun j => j.computerForJob = some computerID
  return { revoked.setJob (removedComputerJob ctx.now s.nextID binding job) with
    nextID := s.nextID + 1 }

/-! ## 6. Other phases, and abort -/

/-- The phases that are modelled no further than the Computer's row. -/
def otherPhase (phase : ReconfigurationPhase) : Bool :=
  phase = .projecting || phase = .backingUp || phase = .exporting || phase = .reimaging

/-- The transactions that begin a projection, Backup, export or reimage, on the Computer's row.
`admission` is the outcome of the decision of the operation. -/
def beginReconfiguration (computerID : Nat) (phase : ReconfigurationPhase)
    (precondition : Precondition) (admission : Check) (s : Store) :
    StoreTx Store := do
  let (computer, _) ← orRefuse (readComputerAuthority s computerID) (computerNotFound computerID)
  refuseIf (¬ otherPhase phase) (inPhase computer)
  check (computerWritePreconditionDecision computer precondition)
  refuseIf (computer.desiredState = .removed)
    (computerConflict computerID "is being removed")
  refuseIf (computer.phase ≠ .stable) (inPhase computer)
  check admission
  return s.setComputer { computer with
    intentRevision := computer.intentRevision + 1
    phase := phase
    reconfigurationRevision := some (computer.intentRevision + 1) }

def finishReconfiguration (computerID : Nat) (admission : Check) (s : Store) :
    StoreTx Store := do
  let (computer, _) ← orRefuse (readComputerAuthority s computerID) (computerNotFound computerID)
  refuseIf (¬ otherPhase computer.phase) (inPhase computer)
  check admission
  return s.setComputer { computer with phase := .stable, reconfigurationRevision := none }

def abortable (phase : ReconfigurationPhase) : Bool :=
  phase = .backingUp || phase = .resetting || phase = .reimaging || phase = .growing ||
    phase = .exporting || phase = .importing

/-- `operationNode` is the Node the aborted operation was bound to, asked where neither the Computer
nor its Job is bound. -/
def computerAbortDecision (s : Store) (computer : Computer) (job : Job)
    (operationNode : Option Nat) : Except ProtocolError Nat := do
  if computer.reconfigurationRevision ≠ some computer.intentRevision then
    throw (computerConflict computer.computerID "has no abortable reconfiguration authority")
  if ¬ abortable computer.phase then
    throw (computerConflict computer.computerID
      ("reconfiguration phase " ++ quotedPhase computer.phase ++ " is not abortable"))
  match computer.boundNodeID <|> boundNode job <|> operationNode with
  | none =>
    throw (computerConflict computer.computerID "has no bound Node whose loss can authorize abort")
  | some nodeID =>
    match s.nodes.find nodeID with
    | none => throw (conflict ("bound node " ++ quoted nodeID ++ " was not found"))
    | some node =>
      if node.state ≠ .dead then
        throw (conflict "Computer reconfiguration abort requires a dead bound Node")
      return nodeID

/-- The generations of an aborted reset or import: what was staged for it is retired. -/
def abortedGenerations (computer : Computer) : List StorageGeneration :=
  if computer.phase = .resetting ∨ computer.phase = .importing then
    computer.generations.map fun generation =>
      if generation.resetRevision = some computer.intentRevision ∧ generation.phase = .staging then
        { generation with phase := .retired }
      else generation
  else computer.generations

def supersededByAbort (computer : Computer) (copy : StorageCopy) : Bool :=
  computer.phase = .importing && copy.destinationComputerID = computer.computerID &&
    copy.operationRevision = computer.intentRevision && copy.operation = .custodyImport &&
    (copy.status = .reserved || copy.status = .prepared)

/-- The Job of an aborted Computer: stopped, and it says why. -/
def abortedJob (now : Int) (nodeID : Nat) (job : Job) : Job :=
  { detachAttempt .computerAbort job with
    state := .stopped
    updatedNS := now }.updateService fun service =>
      { service with
        nextRestartAt := none
        lastFailure := some (.spawn {
          code := .reconfigurationAborted
          message := "Computer reconfiguration was aborted after its bound Node died"
          nodeID := some nodeID
          requestedBytes := 0
          observedAvailableBytes := 0 })
        publishedAttemptID := none
        healthySinceNS := none }

/-- An aborted import gives its name back. -/
def abortComputerReconfiguration (ctx : Ctx) (computerID : Nat) (request : Abort)
    (precondition : Precondition) (operationNode : Option Nat) (s : Store) : StoreTx Store := do
  let (computer, job) ← orRefuse (readComputerAuthority s computerID) (computerNotFound computerID)
  let replay := computer.aborts.find? fun a => a.idempotencyKey = request.idempotencyKey
  refuseIf (replay.any fun a => a.requestHash ≠ request.requestHash) ⟨.idempotencyConflict,
    "Computer reconfiguration abort idempotency key was reused with different authority"⟩
  if replay.isSome then return s
  check (computerWritePreconditionDecision computer precondition)
  let nodeID ← check (computerAbortDecision s computer job operationNode)
  let superseded := markCopies s (supersededByAbort computer) .superseded
  let revoked := superseded.invalidateAttempts ctx fun a => a.jobID = computer.currentJobID
  return (revoked.setJob (abortedJob ctx.now nodeID job)).setComputer { computer with
    name := if computer.phase = .importing then none else computer.name
    generations := abortedGenerations computer
    resets := supersedeResets (fun reset =>
      computer.phase = .resetting && reset.intentRevision = computer.intentRevision) computer.resets
    grows := supersedeGrows (fun grow =>
      computer.phase = .growing && grow.operationRevision = computer.intentRevision) computer.grows
    intentRevision := computer.intentRevision + 1
    phase := .stable
    reconfigurationRevision := none
    aborts := computer.aborts ++ [request] }

end Wefty.Computers
