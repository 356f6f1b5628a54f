/-
Agent generations of one Node (`l1/node_generation.go`, `l1/node_generation_abort.go`,
`l1/node_generation_deenroll.go`; the registration of `l1/store.go`).

A Node that is upgraded while it works has several agent processes, its generations. One is
primary and takes new work. When a staged candidate is promoted, the attempts of the old
primary are frozen as its residents and it goes on retiring: it may finish them and nothing
else.
-/
import Wefty.AttemptAuthority
import Wefty.Runs
import Mathlib.Data.List.Perm.Basic

set_option autoImplicit false

namespace Wefty.NodeGenerations

open Tables Rows StoreRows AttemptClock RestartPolicy Transactions AttemptAuthority

/-! ## 1. Rows -/

inductive Role
  | staged
  | primary
  | retiring
  | closed
  deriving DecidableEq

structure ResidentAttempt where
  jobID : Nat
  attemptID : Nat
  bootSessionID : Nat
  authorityGeneration : Nat
  fencingToken : Nat
  deriving DecidableEq

/-- A row of `node_generation_residents`. -/
structure Resident where
  generationID : Nat
  attempt : ResidentAttempt

def Resident.attemptID (resident : Resident) : Nat := resident.attempt.attemptID

/-- The parts of `contract.NodeRegistration` that are read here. -/
structure Registration where
  agentGenerationID : Option Nat
  bootSessionID : Nat
  systemBootID : Option Nat
  darwin : Bool
  rootInstanceID : Nat
  capabilities : List Nat
  protocols : Option (List Nat)
  rest : Nat
  deriving DecidableEq

structure NodePolicy where
  maxOneshotSlots : Nat
  maxServiceSlots : Nat
  tags : List Nat

/-- The capability observation in effect after a registration, with its retirement protocols. A
legacy registration of the same boot session leaves the stored one in effect. -/
structure Observation where
  capabilities : List Nat
  protocols : Option (List Nat)

/-- A row of `node_generations`. -/
structure Generation where
  generationID : Nat
  bootSessionID : Nat
  authorityGeneration : Nat
  role : Role
  registration : Registration
  protocols : List Nat
  selectedProtocol : Nat := 0
  promotionOperationID : String := ""
  heartbeatNS : Int
  retiringNS : Option Int := none
  closedNS : Option Int := none

/-- `COALESCE(json_extract(registration_json,'$.system_boot_id'),'')` -/
def Generation.systemBootID (generation : Generation) : Option Nat :=
  generation.registration.systemBootID

def Generation.live (generation : Generation) : Bool :=
  generation.role = .primary || generation.role = .retiring

/-- A Node with the columns that promotion reads besides. -/
structure HostNode extends Node where
  darwin : Bool
  intentReason : String

structure PromoteRequest where
  operationID : String
  expectedPrimaryGenerationID : Nat
  expectedPrimaryBootSessionID : Nat
  expectedAuthorityGeneration : Nat
  candidateGenerationID : Nat
  candidateBootSessionID : Nat
  expectedCatalogRevision : Nat
  catalogRevision : Nat
  intentRevision : Int
  selectedProtocol : Nat
  retiringGenerationIDs : List Nat
  residentAttempts : List ResidentAttempt
  deriving DecidableEq

structure StagedAbort where
  operationID : String
  primaryGenerationID : Nat
  primaryBootSessionID : Nat
  authorityGeneration : Nat
  catalogRevision : Nat
  intentRevision : Int
  intentReason : String
  deriving DecidableEq

/-- `CloseNodeGenerationRequest`, without the abort it may carry. -/
structure CloseRequest where
  bootSessionID : Nat
  promotionOperationID : String
  residentAttempts : List ResidentAttempt
  runtimesReaped : Bool
  evidenceSettled : Bool
  deriving DecidableEq

structure DeEnrollRequest where
  operationID : String
  primaryGenerationID : Nat
  primaryBootSessionID : Nat
  authorityGeneration : Nat
  catalogRevision : Nat
  intentRevision : Int
  intentReason : String
  runtimesReaped : Bool
  evidenceSettled : Bool
  deriving DecidableEq

/-- The request a row of `node_generation_promotions` holds. -/
inductive Payload
  | promotion (request : PromoteRequest)
  | abort (generationID : Nat) (abort : StagedAbort) (request : CloseRequest)
  | deEnrollment (request : DeEnrollRequest)
  deriving DecidableEq

/-- A row of `node_generation_promotions`. -/
structure Operation where
  operationID : String
  payload : Payload
  refused : Bool

structure Cohort where
  node : Option HostNode
  catalogRevision : Option Nat
  generations : Table Generation.generationID
  residents : Table Resident.attemptID
  operations : Table Operation.operationID
  attempts : Table Attempt.attemptID
  jobs : Table Job.jobID

variable (cohort : Cohort)

abbrev CohortTx := Tx Cohort ProtocolError

namespace Cohort

def start : Cohort :=
  ⟨none, none, Table.empty, Table.empty, Table.empty, Table.empty, Table.empty⟩

/-! ## 2. Reads -/

/-- The generation a query for `role='primary'` finds. -/
def primary : Option Generation :=
  cohort.generations.rows.find? fun generation => generation.role = .primary

def working : Bool :=
  cohort.attempts.any fun attempt => attempt.state.active

/-- `readPrimaryResidents`. -/
def primaryResidents (bootSessionID authorityGeneration : Nat) :
    List ResidentAttempt :=
  (cohort.attempts.rows.filter fun attempt => attempt.bootSessionID = bootSessionID &&
      attempt.authorityGeneration = authorityGeneration && attempt.state.active).map fun attempt =>
    ⟨attempt.jobID, attempt.attemptID, attempt.bootSessionID, attempt.authorityGeneration,
      attempt.fencingToken⟩

/-- `readGenerationResidents`. -/
def generationResidents (generationID : Nat) : List ResidentAttempt :=
  (cohort.residents.rows.filter fun resident => resident.generationID = generationID).map
    fun resident => resident.attempt

def residentsOf (generation : Generation) : List ResidentAttempt :=
  if generation.role = .primary then
    cohort.primaryResidents generation.bootSessionID generation.authorityGeneration
  else cohort.generationResidents generation.generationID

def requireGenerationIdentity (identity : Nat) : Except ProtocolError HostNode :=
  match cohort.node with
  | none => .error ⟨.nodeNotRegistered, "node is not registered"⟩
  | some node =>
    if node.identityNodeID ≠ identity then
      .error ⟨.identityBound, "node is bound to another identity"⟩
    else .ok node

/-- `retiringAttemptAuthoritySQL`. -/
def retiringSessionAuthorized (attempt : Attempt) : Bool :=
  (cohort.residents.find attempt.attemptID).any fun resident =>
    resident.attempt = ⟨attempt.jobID, attempt.attemptID, attempt.bootSessionID,
      attempt.authorityGeneration, attempt.fencingToken⟩ &&
    (cohort.generations.find resident.generationID).any fun session =>
      session.role = .retiring && session.bootSessionID = attempt.bootSessionID &&
      session.authorityGeneration = attempt.authorityGeneration &&
      session.systemBootID = cohort.primary.bind fun generation => generation.systemBootID

def readAttemptAuthority (attemptID : Nat) : Option Authority := do
  let attempt ← cohort.attempts.find attemptID
  let job ← cohort.jobs.find attempt.jobID
  let node ← cohort.node
  return ⟨attempt, job, node.toNode, cohort.retiringSessionAuthorized attempt⟩

/-- The request, presented with this identity, path and token, has execution authority. -/
def authorizes (identity jobID attemptID : Nat) (fencingToken : Option Nat) :
    Bool :=
  (cohort.readAttemptAuthority attemptID).any fun authority =>
    (validateAttemptAuthority identity jobID attemptID fencingToken authority).isOk

/-! ## 3. Registration -/

def guardGenerationRegistration (registration : Registration) :
    CohortTx PUnit := do
  refuseIf (cohort.primary.any fun generation =>
      some generation.generationID ≠ registration.agentGenerationID)
    ⟨.nodeSessionReplaced, "only the recorded primary generation may register"⟩
  match registration.agentGenerationID with
  | none => return ⟨⟩
  | some generationID =>
    let prior := cohort.generations.find generationID
    refuseIf (prior.any fun generation => generation.systemBootID.isSome &&
        (registration.systemBootID.isNone ||
          registration.bootSessionID = generation.registration.bootSessionID &&
            registration.systemBootID ≠ generation.systemBootID))
      (conflict "generation system boot binding changed or was withdrawn")
    refuseIf (prior.any fun generation => generation.role ≠ .primary)
      ⟨.nodeSessionReplaced, "generation cannot register as primary"⟩
    refuseIf (registration.protocols.isNone)
      (invalidRequest "malformed retirement protocol capability")
    -- the live work of a legacy session is never adopted into a generation
    refuseIf (cohort.primary.isNone ∧ cohort.working)
      (conflict "legacy resident Attempts must settle before generation enrollment")

/-- The row of `nodes` a registration writes. -/
def registeredNode (now : Int) (nodeID identity : Nat) (claimsEnabled : Bool)
    (policy : NodePolicy) (registration : Registration) (observed : Observation) :
    Option HostNode → HostNode
  | none =>
    { nodeID
      identityNodeID := identity
      bootSessionID := registration.bootSessionID
      state := .alive
      lastHeartbeat := now
      heartbeatSleep := 0
      authorityGeneration := 1
      rootInstanceID := registration.rootInstanceID
      claimsEnabled
      intentRevision := 0
      maxOneshotSlots := policy.maxOneshotSlots
      maxServiceSlots := policy.maxServiceSlots
      tags := policy.tags
      capabilities := observed.capabilities
      darwin := registration.darwin
      intentReason := "" }
  | some node =>
    { node with
      bootSessionID := registration.bootSessionID
      -- a drain belongs to the boot session that asked for it
      state :=
        if node.bootSessionID = registration.bootSessionID ∧ node.state = .draining then .draining
        else .alive
      lastHeartbeat := now
      authorityGeneration := node.authorityGeneration + 1
      rootInstanceID := registration.rootInstanceID
      maxOneshotSlots := policy.maxOneshotSlots
      maxServiceSlots := policy.maxServiceSlots
      tags := policy.tags
      capabilities := observed.capabilities
      darwin := registration.darwin }

def validateGenerationProtocolObservation (versions : List Nat) : Check :=
  match cohort.primary with
  | none => .ok ()
  | some generation =>
    if (cohort.working || cohort.generations.any fun other => other.role = .retiring) &&
        generation.protocols.any fun version => !versions.contains version then
      .error (conflict "live generation protocol promises cannot be withdrawn")
    else .ok ()

/-- The first observation of a system boot, from an unchanged primary session, binds the live
generations that have none. -/
def bindSystemBoot (systemBootID : Option Nat) (generations : Table Generation.generationID) :
    Table Generation.generationID :=
  if systemBootID.isSome then
    generations.updateWhere
      (fun generation => generation.live && generation.systemBootID.isNone)
      fun generation =>
        { generation with registration := { generation.registration with systemBootID } }
  else generations

/-- The row `recordPrimaryGeneration` stores. A row that exists keeps its role. -/
def recordedGeneration (now : Int) (generationID authorityGeneration : Nat) (versions : List Nat)
    (registration : Registration) : Option Generation → Generation
  | none =>
    { generationID
      bootSessionID := registration.bootSessionID
      authorityGeneration
      role := .primary
      registration
      protocols := versions
      heartbeatNS := now }
  | some generation =>
    { generation with
      bootSessionID := registration.bootSessionID
      authorityGeneration
      registration
      protocols := versions
      heartbeatNS := now }

/-- `UNIQUE(node_id,boot_session_id)` would be violated. -/
def bootSessionTaken (generationID bootSessionID : Nat) : Bool :=
  cohort.generations.any fun generation =>
    generation.generationID ≠ generationID && generation.bootSessionID = bootSessionID

/-- `recordPrimaryGeneration`, after the Node's row was written. A rejoin of the same generation
in the same boot session takes back the authority generation it had. -/
def recordPrimaryGeneration (now : Int) (node : HostNode) (generationID : Nat)
    (registration : Registration) (versions : List Nat) : CohortTx Cohort := do
  refuseIf (cohort.bootSessionTaken generationID registration.bootSessionID)
    ⟨.internal, "record primary generation"⟩
  let rejoined := (cohort.generations.find generationID).filter fun generation =>
    generation.bootSessionID = registration.bootSessionID
  let authority := (rejoined.map fun generation => generation.authorityGeneration).getD
    node.authorityGeneration
  let bound :=
    if rejoined.isSome then bindSystemBoot registration.systemBootID cohort.generations
    else cohort.generations
  return { cohort with
    node := some { node with authorityGeneration := authority }
    catalogRevision := some (cohort.catalogRevision.getD 0)
    generations := bound.put (recordedGeneration now generationID authority versions registration
      (bound.find generationID)) }

def registerNode (now : Int) (nodeID identity : Nat) (claimsEnabled : Bool)
    (policy : NodePolicy) (registration : Registration) (observed : Observation) :
    CohortTx Cohort := do
  cohort.guardGenerationRegistration registration
  refuseIf (cohort.node.any fun node => node.identityNodeID ≠ identity)
    ⟨.identityBound,
      "stable node \"" ++ toString nodeID ++ "\" is bound to another Fabric identity"⟩
  let node := registeredNode now nodeID identity claimsEnabled policy registration observed
    cohort.node
  match registration.agentGenerationID with
  | none => return { cohort with node := some node }
  | some generationID =>
    let versions ← orRefuse observed.protocols
      (invalidRequest "malformed retirement protocol capability")
    check (cohort.validateGenerationProtocolObservation versions)
    cohort.recordPrimaryGeneration now node generationID
      { registration with capabilities := observed.capabilities, protocols := some versions }
      versions

/-! ## 4. Staging and promotion -/

/-- The row `StageNodeGeneration` inserts. -/
def stagedGeneration (now : Int) (generationID : Nat) (registration : Registration)
    (versions : List Nat) : Generation :=
  { generationID
    bootSessionID := registration.bootSessionID
    authorityGeneration := 0
    role := .staged
    registration
    protocols := versions
    heartbeatNS := now }

def protocolV1 : Nat := 1

def stageNodeGeneration (now : Int) (identity : Nat)
    (registration : Registration) : CohortTx Cohort := do
  let generationID ← orRefuse (registration.agentGenerationID.filter fun _ => registration.darwin)
    (invalidRequest "a complete plain Mac generation registration is required")
  let versions ← orRefuse registration.protocols
    (invalidRequest "malformed retirement protocol capability")
  refuseIf (protocolV1 ∉ versions) (conflict "candidate does not support retirement protocol 1")
  let _ ← check (cohort.requireGenerationIdentity identity)
  let known := cohort.generations.find generationID
  refuseIf (known.any fun generation => generation.role ≠ .staged ||
      generation.registration ≠ registration)
    (conflict "candidate identity already used")
  answerIf known.isSome
  refuseIf cohort.primary.isNone (conflict "primary must enroll before staging")
  refuseIf (cohort.bootSessionTaken generationID registration.bootSessionID)
    ⟨.internal, "stage generation"⟩
  return { cohort with
    generations := cohort.generations.insert
      (stagedGeneration now generationID registration versions) }

/-- `upgradecompat.Decide` for a plain Mac whose work is process one-shots: the highest version
the candidate shares with every live generation, `none` where it does not decide for a
rolling upgrade. -/
def rollingProtocol (candidate : List Nat) (primary : Generation) (live : List Generation) :
    Option Nat :=
  if candidate.contains 0 || live.any (fun generation => generation.protocols.contains 0) ||
      primary.protocols.isEmpty || candidate.isEmpty then none
  else
    let common := candidate.foldl (fun best version =>
      if best < version && live.all (fun generation => generation.protocols.contains version) then
        version
      else best) 0
    if common = 0 then none else some common

def retire (now : Int) (request : PromoteRequest) (generation : Generation) : Generation :=
  { generation with
    role := .retiring
    retiringNS := some now
    selectedProtocol := request.selectedProtocol
    promotionOperationID := request.operationID }

def promoted (now : Int) (request : PromoteRequest) (authorityGeneration : Nat)
    (generation : Generation) : Generation :=
  { generation with
    role := .primary
    authorityGeneration
    selectedProtocol := request.selectedProtocol
    promotionOperationID := request.operationID
    heartbeatNS := now }

/-- Where the candidate registered a system boot, a surviving generation registered another. -/
def systemBootsDiffer (candidate : Generation) : Bool :=
  candidate.systemBootID.isSome && cohort.generations.any fun generation =>
    generation.live && generation.systemBootID.isSome &&
      generation.systemBootID ≠ candidate.systemBootID

/-- The rows a promotion leaves. The candidate's system boot is bound to the surviving
generations that have none, and only the candidate's is ever looked at. -/
def promote (now : Int) (request : PromoteRequest) (node : HostNode)
    (primary candidate : Generation) : Cohort :=
  { cohort with
    node := some { node with
      bootSessionID := candidate.registration.bootSessionID
      authorityGeneration := node.authorityGeneration + 1
      state := .alive
      lastHeartbeat := now
      rootInstanceID := candidate.registration.rootInstanceID
      capabilities := candidate.registration.capabilities
      darwin := candidate.registration.darwin }
    catalogRevision := some request.catalogRevision
    residents := (cohort.primaryResidents node.bootSessionID node.authorityGeneration).foldl
      (fun residents attempt => residents.insert ⟨primary.generationID, attempt⟩) cohort.residents
    generations := ((bindSystemBoot candidate.systemBootID cohort.generations).update
        primary.generationID (retire now request)).update candidate.generationID
      (promoted now request (node.authorityGeneration + 1))
    operations := cohort.operations.insert ⟨request.operationID, .promotion request, false⟩ }

def promoteNodeGeneration (now : Int) (identity : Nat)
    (request : PromoteRequest) : CohortTx Cohort := do
  refuseIf (request.operationID = "" ∨
      request.expectedPrimaryGenerationID = request.candidateGenerationID ∨
      request.catalogRevision ≠ request.expectedCatalogRevision + 1 ∨
      request.selectedProtocol ≠ protocolV1)
    (invalidRequest "invalid generation promotion fences")
  let node ← check (cohort.requireGenerationIdentity identity)
  let previous := cohort.operations.find request.operationID
  refuseIf (previous.any fun operation => operation.payload ≠ .promotion request)
    (conflict "promotion operation identity reused")
  answerIf previous.isSome
  let changed := conflict "generation inventory changed"
  let primary ← orRefuse cohort.primary changed
  let candidate ← orRefuse ((cohort.generations.find request.candidateGenerationID).filter
    fun generation => generation.role = .staged) changed
  let retiring := cohort.generations.rows.filter fun generation => generation.role = .retiring
  refuseIf (primary.generationID ≠ request.expectedPrimaryGenerationID ∨
      primary.bootSessionID ≠ request.expectedPrimaryBootSessionID ∨
      primary.authorityGeneration ≠ request.expectedAuthorityGeneration ∨
      candidate.bootSessionID ≠ request.candidateBootSessionID ∨
      cohort.catalogRevision ≠ some request.expectedCatalogRevision ∨
      ¬ (retiring.map fun generation => generation.generationID).isPerm
        request.retiringGenerationIDs) changed
  refuseIf (node.claimsEnabled ∨ node.intentRevision ≠ request.intentRevision ∨
      node.bootSessionID ≠ primary.bootSessionID ∨
      node.authorityGeneration ≠ primary.authorityGeneration ∨ ¬ node.darwin)
    (conflict "promotion requires current primary and fenced closed admission")
  let residents := cohort.primaryResidents node.bootSessionID node.authorityGeneration
  refuseIf (¬ residents.isPerm request.residentAttempts)
    (conflict "resident Attempt inventory changed")
  refuseIf (residents.any fun resident => !(cohort.jobs.find resident.jobID).any fun job =>
      job.service.isNone && job.spec.kind = .process)
    (conflict "resident services and OCI must quiesce before promotion")
  refuseIf (rollingProtocol candidate.protocols primary (primary :: retiring) ≠
      some request.selectedProtocol)
    (conflict "cohort retirement protocol is incompatible")
  refuseIf (retiring.any fun generation => generation.selectedProtocol ≠ request.selectedProtocol)
    (conflict "cohort protocol transition requires acknowledgment")
  -- `attempt_id` is unique in `node_generation_residents`
  refuseIf (residents.any fun resident => (cohort.residents.find resident.attemptID).isSome)
    ⟨.internal, "freeze resident Attempts"⟩
  refuseIf (cohort.systemBootsDiffer candidate)
    (conflict "candidate and surviving cohort system boots differ")
  return cohort.promote now request node primary candidate

/-! ## 5. Heartbeats, closing and de-enrolment -/

/-- `HeartbeatRetiringNodeGeneration`. -/
def heartbeatRetiring (now : Int) (identity generationID bootSessionID : Nat) :
    CohortTx Cohort := do
  let _ ← check (cohort.requireGenerationIdentity identity)
  refuseIf (¬ (cohort.generations.find generationID).any fun generation =>
      generation.bootSessionID = bootSessionID && generation.role = .retiring &&
        generation.systemBootID = cohort.primary.bind fun current => current.systemBootID)
    ⟨.nodeSessionReplaced, "retiring session is not authorized"⟩
  return { cohort with
    generations := cohort.generations.update generationID
      fun generation => { generation with heartbeatNS := now } }

/-- A resident whose completion is not accepted and whose lease has not ended. -/
def pendingResident (ctx : Ctx) (resident : ResidentAttempt) : Bool :=
  match cohort.attempts.find resident.attemptID, cohort.jobs.find resident.jobID with
  | some attempt, some job =>
    (attempt.completionKey.isNone || !(attempt.state = .succeeded || attempt.state = .failed ||
        attempt.state = .interrupted)) && attempt.state ≠ .lost &&
      attemptLeaseLiveSQL (withAttemptExpiryClock ctx.clock) ctx.now attempt && !cancelDue ctx job
  | _, _ => true

def nodeGenerationClosureReady (ctx : Ctx) (generationID : Nat) :
    Except ProtocolError Bool :=
  if (currentAttemptClock (withAttemptExpiryClock ctx.clock)).err.isSome then
    .error ⟨.internal, "read generation lease clock"⟩
  else .ok (!(cohort.generationResidents generationID).any (cohort.pendingResident ctx))

def close (now : Int) (generation : Generation) : Generation :=
  { generation with role := .closed, closedNS := some now }

/-- `CloseNodeGeneration` of a retiring generation. -/
def closeNodeGeneration (ctx : Ctx) (identity generationID : Nat)
    (request : CloseRequest) : CohortTx Cohort := do
  let _ ← check (cohort.requireGenerationIdentity identity)
  let unsettled := conflict "retirement requires exact session, positive reap and settled evidence"
  let target ← orRefuse (cohort.generations.find generationID) unsettled
  refuseIf ((target.role ≠ .retiring ∧ target.role ≠ .closed) ∨
      target.bootSessionID ≠ request.bootSessionID ∨
      target.promotionOperationID ≠ request.promotionOperationID ∨
      ¬ (cohort.residentsOf target).isPerm request.residentAttempts ∨
      ¬ request.runtimesReaped ∨ ¬ request.evidenceSettled) unsettled
  answerIf (target.role = .closed)
  let ready ← check (cohort.nodeGenerationClosureReady ctx generationID)
  refuseIf (¬ ready) (conflict "resident completion must be accepted or Lease ended")
  return { cohort with generations := cohort.generations.update generationID (close ctx.now) }

/-- The admission of the Node is closed under exactly this intent. -/
def fenced (node : HostNode) (bootSessionID authorityGeneration : Nat) (intentRevision : Int)
    (intentReason : String) : Bool :=
  node.bootSessionID = bootSessionID && node.authorityGeneration = authorityGeneration &&
    !node.claimsEnabled && node.intentRevision = intentRevision &&
    node.intentReason = intentReason

def abortStagedGeneration (now : Int) (identity generationID : Nat)
    (abort : StagedAbort) (request : CloseRequest) : CohortTx Cohort := do
  refuseIf (abort.operationID = "" ∨ abort.authorityGeneration = 0 ∨ abort.intentRevision ≤ 0 ∨
      abort.intentReason = "" ∨ request.promotionOperationID ≠ abort.operationID ∨
      ¬ request.runtimesReaped ∨ ¬ request.evidenceSettled ∨ request.residentAttempts ≠ [])
    (conflict "staged abort requires exact operation and absent runtimes")
  let node ← check (cohort.requireGenerationIdentity identity)
  let key := "abort:" ++ abort.operationID
  let prior := cohort.operations.find key
  refuseIf (prior.any fun operation => operation.payload ≠ .abort generationID abort request)
    (conflict "staged abort operation payload changed")
  answerIf prior.isSome
  refuseIf (¬ ((cohort.generations.find abort.primaryGenerationID).any fun generation =>
        generation.role = .primary && generation.bootSessionID = abort.primaryBootSessionID &&
          generation.authorityGeneration = abort.authorityGeneration) ∨
      ¬ ((cohort.generations.find generationID).any fun generation =>
        generation.role = .staged && generation.bootSessionID = request.bootSessionID &&
          (cohort.residentsOf generation).isEmpty) ∨
      cohort.catalogRevision ≠ some abort.catalogRevision ∨
      ¬ fenced node abort.primaryBootSessionID abort.authorityGeneration abort.intentRevision
        abort.intentReason)
    (conflict "staged abort primary or admission fence changed")
  return { cohort with
    generations := cohort.generations.update generationID fun generation =>
      { close now generation with promotionOperationID := abort.operationID }
    operations := cohort.operations.insert ⟨key, .abort generationID abort request, false⟩ }

/-- `contract.ErrorDeEnrollmentNotCommitted`, with the fence that did not hold. -/
def deEnrollmentNotCommitted (message : String) : ProtocolError :=
  ⟨.deEnrollmentNotCommitted, message⟩

/-- The fence of a de-enrolment that does not hold, in the order the source asks. -/
def deEnrollmentRefusal (node : HostNode) (request : DeEnrollRequest) :
    Option String :=
  if cohort.generations.any fun generation => generation.role = .closed &&
      generation.closedNS.isNone then
    some "de-enrollment requires positive closed-generation evidence"
  else if cohort.generations.any fun generation => generation.role = .staged ||
      generation.role = .retiring then
    some "de-enrollment requires no retiring or staged generations"
  else if !(cohort.primary.any fun generation =>
        generation.generationID = request.primaryGenerationID &&
          generation.bootSessionID = request.primaryBootSessionID &&
          generation.authorityGeneration = request.authorityGeneration) ||
      cohort.catalogRevision ≠ some request.catalogRevision ||
      !fenced node request.primaryBootSessionID request.authorityGeneration request.intentRevision
        request.intentReason then
    some "de-enrollment primary, catalog or admission fence changed"
  else if cohort.attempts.any fun attempt => attempt.state.active ||
      attempt.state ≠ .lost && attempt.completionKey.isNone then
    some "de-enrollment requires every Attempt and its completion to settle"
  else none

/-- A refusal is recorded, so that a delayed duplicate cannot commit after it. `revokedBoot` is the
boot session `de-enrolled:` with the operation. -/
def deEnrollNodeGeneration (now : Int) (identity revokedBoot : Nat)
    (request : DeEnrollRequest) : CohortTx Cohort := do
  refuseIf (request.operationID = "" ∨ request.authorityGeneration = 0 ∨
      request.intentRevision ≤ 0 ∨
      request.intentReason ≠ "wefty maintenance " ++ request.operationID ∨
      ¬ request.runtimesReaped ∨ ¬ request.evidenceSettled)
    (conflict "de-enrollment requires exact operation, positive reap and settled evidence")
  let node ← check (cohort.requireGenerationIdentity identity)
  let key := "de-enroll:" ++ request.operationID
  let prior := cohort.operations.find key
  refuseIf (prior.any fun operation => operation.payload ≠ .deEnrollment request)
    (conflict "de-enrollment operation payload changed")
  answerIf prior.isSome
  let refusal := cohort.deEnrollmentRefusal node request
  settleIf refusal.isSome
    { cohort with operations := cohort.operations.insert ⟨key, .deEnrollment request, true⟩ }
    (deEnrollmentNotCommitted (refusal.getD ""))
  return { cohort with
    node := some { node with
      bootSessionID := revokedBoot
      authorityGeneration := node.authorityGeneration + 1 }
    catalogRevision := cohort.catalogRevision.map fun revision => revision + 1
    generations := cohort.generations.update request.primaryGenerationID (close now)
    operations := cohort.operations.insert ⟨key, .deEnrollment request, false⟩ }

/-! ## 6. Runs -/

inductive Op
  | register (now : Int) (nodeID identity : Nat) (claimsEnabled : Bool) (policy : NodePolicy)
      (registration : Registration) (observed : Observation)
  | stage (now : Int) (identity : Nat) (registration : Registration)
  | promote (now : Int) (identity : Nat) (request : PromoteRequest)
  | heartbeatRetiring (now : Int) (identity generationID bootSessionID : Nat)
  | close (ctx : Ctx) (identity generationID : Nat) (request : CloseRequest)
  | abort (now : Int) (identity generationID : Nat) (abort : StagedAbort) (request : CloseRequest)
  | deEnroll (now : Int) (identity revokedBoot : Nat) (request : DeEnrollRequest)
  /-- The operator's intent for the Node changes. -/
  | intend (claimsEnabled : Bool) (intentRevision : Int) (intentReason : String)
  /-- Transactions on jobs and attempts, of which these rows are left. -/
  | work (attempts : Table Attempt.attemptID) (jobs : Table Job.jobID)

def transact : Op → CohortTx Cohort
  | .register now nodeID identity claimsEnabled policy registration observed =>
    cohort.registerNode now nodeID identity claimsEnabled policy registration observed
  | .stage now identity registration => cohort.stageNodeGeneration now identity registration
  | .promote now identity request => cohort.promoteNodeGeneration now identity request
  | .heartbeatRetiring now identity generationID bootSessionID =>
    cohort.heartbeatRetiring now identity generationID bootSessionID
  | .close ctx identity generationID request =>
    cohort.closeNodeGeneration ctx identity generationID request
  | .abort now identity generationID abort request =>
    cohort.abortStagedGeneration now identity generationID abort request
  | .deEnroll now identity revokedBoot request =>
    cohort.deEnrollNodeGeneration now identity revokedBoot request
  | .intend claimsEnabled intentRevision intentReason =>
    return { cohort with
      node := cohort.node.map fun node =>
        { node with claimsEnabled, intentRevision, intentReason } }
  | .work attempts jobs => return { cohort with attempts, jobs }

def step (op : Op) : Cohort := (committed (cohort.transact op)).getD cohort

/-- What an attempt is claimed as, which no transaction changes. -/
def claimedAs (attempt : Attempt) : ResidentAttempt :=
  ⟨attempt.jobID, attempt.attemptID, attempt.bootSessionID, attempt.authorityGeneration,
    attempt.fencingToken⟩

/-- Transactions on attempts keep what an attempt was claimed as, and claim for the boot session
and the authority generation the Node has. -/
def continues (attempt : Attempt) : Bool :=
  match cohort.attempts.find attempt.attemptID with
  | some before => claimedAs attempt = claimedAs before
  | none => cohort.node.any fun node => attempt.bootSessionID = node.bootSessionID &&
      attempt.authorityGeneration = node.authorityGeneration

/-- The guard: every attempt that is left is one of these. -/
def Admits : Op → Prop
  | .work attempts _ => attempts.rows.all cohort.continues = true
  | _ => True

instance decidableAdmits (cohort : Cohort) : (op : Op) → Decidable (cohort.Admits op)
  | .work attempts _ => inferInstanceAs (Decidable (attempts.rows.all cohort.continues = true))
  | .register .. | .stage .. | .promote .. | .heartbeatRetiring .. | .close .. | .abort ..
  | .deEnroll .. | .intend .. => inferInstanceAs (Decidable True)

def reached (ops : List Op) : Cohort := Runs.exec step start ops

end Cohort

end Wefty.NodeGenerations
