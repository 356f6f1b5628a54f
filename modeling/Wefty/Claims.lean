/-
Claims (`claimJob`, `requireClaimBindingUpdate` of `l1/store.go`; `reconcileClaimingNode` of
`l1/recovery.go`).

A claim is one transaction: it settles what the Node's own heartbeat says about the Node, ends the
one-shots whose pre-start budget ran out while they waited, picks the first eligible job and binds
a new attempt to it. The query that picks is the conjunction of many conditions; each of them is a
predicate of its own here, in the order of the `WHERE` clause.
-/
import Wefty.ControlStore

set_option autoImplicit false

namespace Wefty.Claims

open Tables Rows StoreRows AttemptClock RestartPolicy Transactions AttemptAuthority ControlStore

variable (ctx : Ctx)

/-! ## 1. The claiming Node -/

/-- The arguments of `claimJob`. `listed` is what the summary walk of the claimed service comes
to, as in `pruneListedAttemptSummaries`. -/
structure ClaimRequest where
  identityNodeID : Nat
  nodeID : Nat
  bootSessionID : Nat
  jobClass : JobClass
  excludedJobIDs : List Nat
  enrolled : Bool
  resident : Nat → Bool
  listed : List Nat

def reconcileClaimingNode (node : Node) : NodeState :=
  let heartbeat := node.lastHeartbeat + node.heartbeatSleep
  let comparison := leaseExpiryWallTime ctx.clock ctx.now
  if node.state = .alive ∨ node.state = .stale then
    if heartbeat + ctx.config.nodeDeadAfter ≤ comparison then .dead
    else if node.state = .alive ∧ heartbeat + ctx.config.nodeStaleAfter ≤ comparison then .stale
    else node.state
  else node.state

def nodeRefusal (nodeID : Nat) : NodeState → ProtocolError
  | .dead => ⟨.nodeDead, "node \"" ++ toString nodeID ++ "\" is dead"⟩
  | .draining => ⟨.nodeDraining, "node \"" ++ toString nodeID ++ "\" is draining"⟩
  | .alive | .stale => conflict ("node \"" ++ toString nodeID ++ "\" is not alive")

/-! ## 2. Eligibility -/

/-- The condition on a job that is projected for a Computer: only the current projection of a
stable, running Computer placed on this Node, with published Storage. -/
def projectionClaimable (s : Store) (nodeID : Nat) (job : Job) : Bool :=
  match job.projection with
  | none => true
  | some projection =>
    projection.current &&
      (s.computers.find projection.computerID).any fun computer =>
        computer.currentJobID = job.jobID && computer.desiredState = .running &&
          computer.phase = .stable && computer.placementNodeID = nodeID &&
          computer.generations.any fun generation =>
            generation.storageGeneration = computer.storageGeneration &&
              generation.phase = .current

def activeOneshot (s : Store) (nodeID : Nat) (attempt : Attempt) : Bool :=
  attempt.nodeID = nodeID && attempt.state.active &&
    !(s.jobs.find attempt.jobID).any fun job => job.service.isSome

/-- The one-shot arm: not before a scheduled restart or retry, not after the pre-start deadline,
and within the Node's slots. -/
def oneshotClaimable (s : Store) (node : Node) (job : Job) : Bool :=
  job.service.isNone &&
    (job.nextRestartAtNS.all fun next => next ≤ ctx.now) &&
    (job.prestartNextRetryAtNS.all fun next => next ≤ ctx.now) &&
    (job.prestartBudgetDeadlineNS.all fun deadline => ctx.now < deadline) &&
    s.attempts.count (activeOneshot s node.nodeID) < node.maxOneshotSlots

def occupiesServiceSlot (nodeID : Nat) (job : Job) : Bool :=
  job.service.any fun service =>
    service.boundNodeID = some nodeID &&
      (job.state = .queued && service.desiredState = .running || job.state = .claimed ||
        job.state = .running || job.state = .stopping || job.state = .removalPending ||
        job.state = .agentCleaned)

def serviceClaimable (s : Store) (node : Node) (job : Job) : Bool :=
  job.service.any fun service =>
    service.desiredState = .running &&
      (service.boundNodeID.isNone || service.boundNodeID = some node.nodeID) &&
      service.policyStop.isNone &&
      (service.nextRestartAt.all fun next => next ≤ ctx.now) &&
      (service.boundNodeID = some node.nodeID ||
        s.jobs.count (occupiesServiceSlot node.nodeID) < node.maxServiceSlots)

/-- An active attempt of the Node that belongs to another session of it. -/
def foreignAttempt (request : ClaimRequest) (node : Node) (prior : Attempt) : Bool :=
  prior.nodeID = node.nodeID &&
    (prior.bootSessionID ≠ request.bootSessionID ||
      prior.authorityGeneration ≠ node.authorityGeneration && request.enrolled) &&
    !request.resident prior.attemptID && prior.state.active

/-- The `WHERE` clause of the claim query. -/
def eligible (s : Store) (request : ClaimRequest) (node : Node) (job : Job) : Bool :=
  job.state = .queued && !job.canceled && projectionClaimable s node.nodeID job &&
    (match request.jobClass with
    | .oneShot => oneshotClaimable ctx s node job
    | .service => serviceClaimable ctx s node job) &&
    !s.attempts.any (foreignAttempt request node) &&
    !request.excludedJobIDs.contains job.jobID &&
    (job.spec.routingTags.all fun tag => node.tags.contains tag) &&
    job.spec.requiredCapabilities.all fun capability => node.capabilities.contains capability

/-- Rank in the `ORDER BY`: a service that is bound to the Node already comes first. -/
def claimRank (request : ClaimRequest) (job : Job) : Nat :=
  if request.jobClass = .service ∧
      (job.service.any fun service => service.boundNodeID = some request.nodeID) then 0
  else 1

/-- `ORDER BY rank, created_ns, job_id`. -/
def claimedBefore (request : ClaimRequest) (a b : Job) : Bool :=
  claimRank request a < claimRank request b ||
    claimRank request a = claimRank request b &&
      (a.createdNS < b.createdNS || a.createdNS = b.createdNS && a.jobID < b.jobID)

/-- `LIMIT 1` of the jobs in this order. -/
def firstJob (before : Job → Job → Bool) : List Job → Option Job
  | [] => none
  | job :: jobs =>
    match firstJob before jobs with
    | none => some job
    | some other => if before other job then some other else some job

def candidate (s : Store) (request : ClaimRequest) (node : Node) : Option Job :=
  firstJob (claimedBefore request) (s.jobs.rows.filter (eligible ctx s request node))

/-! ## 3. What a claim writes -/

def prestartExpired (job : Job) : Bool :=
  job.state = .queued && job.prestartBudgetDeadlineNS.any (fun deadline => deadline ≤ ctx.now) &&
    job.service.isNone

def expirePrestart (job : Job) : Job :=
  { job with
    state := .failed
    currentAttemptID := none
    prestartNextRetryAtNS := none
    prestartTerminalReason :=
      some "pre-start infrastructure budget expired while awaiting scheduling"
    updatedNS := ctx.now }

/-- `terminalize expired pre-start scheduling gap`. -/
def expireWaiting (s : Store) : Store :=
  { s with jobs := s.jobs.updateWhere (prestartExpired ctx) (expirePrestart ctx) }

/-- The columns of the claimed service: it is bound, and starts its next life unpublished. -/
def claimedService (nodeID : Nat) (service : ServiceJob) : ServiceJob :=
  { service with
    boundNodeID := service.boundNodeID <|> some nodeID
    nextRestartAt := none
    healthySinceNS := none
    publishedAttemptID := none }

/-- The row of the claimed job. A scheduled restart is counted here and nowhere else. -/
def claimedJob (attemptID : Nat) (request : ClaimRequest) (job : Job) : Job :=
  let claimed := { job with
    state := .claimed
    currentAttemptID := some attemptID
    completionReplayAttemptID := none
    fenceCounter := job.fenceCounter + 1
    updatedNS := ctx.now
    restartCount := job.restartCount + if job.nextRestartAtNS.isSome then 1 else 0
    nextRestartAtNS := none }
  let budgeted :=
    if job.spec.kind = .oci ∧ job.spec.jobClass = .oneShot then
      { claimed with
        prestartBudgetDeadlineNS := some
          (job.prestartBudgetDeadlineNS.getD (ctx.now + ctx.config.prestartInfrastructureBudget))
        prestartNextRetryAtNS := none }
    else claimed
  if request.jobClass = .service then budgeted.updateService (claimedService request.nodeID)
  else budgeted

/-- A time strictly after `latest`, and not before `at_`. -/
def strictlyAfter (latest : Option Int) (at_ : Int) : Int :=
  match latest with
  | some latest => if at_ ≤ latest then latest + 1 else at_
  | none => at_

/-- `created_ns` of a new attempt: after every attempt of a restartable job, and after every
restart request, since a request is for the attempt that existed when it was accepted. -/
def attemptCreatedNS (s : Store) (job : Job) : Int :=
  let predecessors := (s.attempts.rows.filter fun a => a.jobID = job.jobID).map fun a => a.createdNS
  let afterAttempts :=
    if job.spec.restartable then strictlyAfter predecessors.max? ctx.now else ctx.now
  let requests := (job.service.map fun service => service.restartRequests).getD []
  strictlyAfter (requests.map fun request => request.createdNS).max? afterAttempts

def claimedAttempt (s : Store) (request : ClaimRequest) (node : Node) (job : Job) :
    Attempt :=
  let leaseExpires := ctx.now + ctx.config.leaseDuration
  let (leaseBoot, leaseDeadline) := attemptLeaseDeadline ctx.clock ctx.now leaseExpires
  { attemptID := s.nextID
    jobID := job.jobID
    nodeID := node.nodeID
    bootSessionID := request.bootSessionID
    state := .claimed
    fencingToken := job.fenceCounter + 1
    leaseExpires := leaseExpires
    leaseBootID := leaseBoot
    leaseDeadlineNS := leaseDeadline
    authorityGeneration := node.authorityGeneration
    createdNS := attemptCreatedNS ctx s job
    updatedAt := ctx.now }

def bindAttempt (request : ClaimRequest) (node : Node) (job : Job) (s : Store) :
    Store :=
  { s.setJob (claimedJob ctx s.nextID request job) with
    leases := { s.leases with
      attempts := s.attempts.insert (claimedAttempt ctx s request node job) }
    nextID := s.nextID + 1 }

def bindingDiverged : ProtocolError := ⟨.internal, "bind claimed service"⟩

def bindComputer (nodeID : Nat) (job : Job) (s : Store) : Except ProtocolError Store :=
  match job.computerForJob with
  | none => .ok s
  | some computerID =>
    match s.computers.find computerID with
    | none => .error bindingDiverged
    | some computer =>
      if computer.currentJobID = job.jobID ∧ computer.placementNodeID = nodeID ∧
          (computer.boundNodeID.isNone ∨ computer.boundNodeID = some nodeID) then
        .ok (s.setComputer { computer with boundNodeID := computer.boundNodeID <|> some nodeID })
      else .error bindingDiverged

def checkServiceBinding (nodeID : Nat) (job : Job) : Check :=
  if job.service.any fun service =>
      service.boundNodeID.isNone || service.boundNodeID = some nodeID then .ok ()
  else .error bindingDiverged

/-! ## 4. The transaction -/

/-- A claim that finds nothing commits as well: the Node's state and the ended one-shots are on
record. -/
def claimJob (request : ClaimRequest) (s : Store) : StoreTx Store := do
  refuseIf (currentAttemptClock ctx.clock).err.isSome ⟨.internal, "claim Attempt lease clock"⟩
  let node ← orRefuse (s.nodes.find request.nodeID) ⟨.nodeNotRegistered,
    "node \"" ++ toString request.nodeID ++ "\" is not registered"⟩
  refuseIf (node.identityNodeID ≠ request.identityNodeID) ⟨.identityBound,
    "stable node \"" ++ toString request.nodeID ++ "\" is bound to another Fabric identity"⟩
  refuseIf (node.bootSessionID ≠ request.bootSessionID) ⟨.nodeSessionReplaced,
    "node \"" ++ toString request.nodeID ++ "\" boot session has been replaced"⟩
  let state := reconcileClaimingNode ctx node
  let s := s.withNodes (s.nodes.replace { node with state := state })
  settleIf (state ≠ .alive) s (nodeRefusal request.nodeID state)
  answerIf (¬ node.claimsEnabled)
  let s := if request.jobClass = .oneShot then expireWaiting ctx s else s
  match candidate ctx s request node with
  | none => return s
  | some job =>
    refuseIf (job.imageResolution.isSome ∧ (job.spec.kind ≠ .oci ∨ job.spec.oci.isNone))
      ⟨.internal, "decode claimed job image resolution"⟩
    check (if request.jobClass = .service then checkServiceBinding request.nodeID job else .ok ())
    let s := bindAttempt ctx request node job s
    let s ← check (if request.jobClass = .service then bindComputer request.nodeID job s else .ok s)
    return s.pruneListedAttemptSummaries ctx
      (request.listed.filter fun attemptID =>
        (s.attempts.find attemptID).any fun a => a.jobID = job.jobID)

end Wefty.Claims
