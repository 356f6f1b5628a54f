/-
Reconciliation (`Reconcile` of `l1/recovery.go`; `interruptServiceStability` and
`reconcileServiceStability` of `l1/attempt_authority.go`).

One transaction settles what nobody came to report: Nodes that fell silent, services whose health
lost its ground, attempts whose lease ran out, canceled jobs past their settlement deadline, and
removals that were cleaned up and never finalized. Log retention, Seats and audit rows, which the
same pass sweeps, are outside the model.
-/
import Wefty.Removals

set_option autoImplicit false

namespace Wefty.Recovery

open Tables Rows StoreRows AttemptClock Transactions AttemptAuthority ControlStore Removals

variable (ctx : Ctx)

/-! ## 1. Nodes -/

def sweepDead (node : Node) : Node :=
  if (node.state = .alive ∨ node.state = .stale ∨ node.state = .draining) ∧
      node.lastHeartbeat + node.heartbeatSleep ≤
        leaseExpiryWallTime ctx.clock ctx.now - ctx.config.nodeDeadAfter then
    { node with state := .dead }
  else node

def sweepStale (node : Node) : Node :=
  if node.state = .alive ∧ node.lastHeartbeat + node.heartbeatSleep ≤
      leaseExpiryWallTime ctx.clock ctx.now - ctx.config.nodeStaleAfter then
    { node with state := .stale }
  else node

theorem sweepStale_sweepDead_nodeID (node : Node) :
    (sweepStale ctx (sweepDead ctx node)).nodeID = node.nodeID := by
  unfold sweepStale sweepDead
  split <;> split <;> rfl

def sweepNodes (s : Store) : Store :=
  s.withNodes (s.nodes.updateWhere (fun _ => true) (fun node => sweepStale ctx (sweepDead ctx node))
    (sweepStale_sweepDead_nodeID ctx))

/-! ## 2. Stability of services -/

def currentRuntime (s : Store) (job : Job) : Option (Attempt × Node) := do
  let attemptID ← job.currentAttemptID
  let attempt ← s.attempts.find attemptID
  let node ← s.nodes.find attempt.nodeID
  return (attempt, node)

def registered (attempt : Attempt) (node : Node) : Bool :=
  node.state = .alive && attempt.bootSessionID = node.bootSessionID &&
    attempt.authorityGeneration = node.authorityGeneration

/-- `serviceHealthLost`, for the services of the Nodes this pass reads. -/
def serviceHealthLost (s : Store) (checked : Nat → Bool) (job : Job)
    (service : ServiceJob) : Bool :=
  service.healthySinceNS.isSome && service.boundNodeID.any checked &&
    (currentRuntime s job).any fun (attempt, node) =>
      service.boundNodeID = some attempt.nodeID && !registered attempt node

/-- `serviceStabilityResetSQL`: a service that was healthy for the whole window. -/
def serviceStable (s : Store) (job : Job) (service : ServiceJob) : Bool :=
  0 < service.restartStreak && service.desiredState = .running &&
    (service.healthySinceNS.any fun since => since ≤ ctx.now - ctx.config.serviceStabilityWindow) &&
    job.state = .running &&
    (currentRuntime s job).any fun (attempt, node) =>
      attempt.state = .running && attemptLeaseLiveSQL ctx.clock ctx.now attempt &&
        registered attempt node && service.boundNodeID = some attempt.nodeID

/-- `UPDATE service_jobs` for the services `p` picks. -/
def updateServices (s : Store) (p : Job → ServiceJob → Bool)
    (f : ServiceJob → ServiceJob) : Store :=
  let jobs := s.jobs.updateWhere (fun job => job.service.any (p job)) fun job => job.updateService f
  { s with jobs := jobs }

/-- `interruptServiceStability`, then `reconcileServiceStability`. -/
def reconcileStability (checked : Nat → Bool) (s : Store) : Store :=
  let interrupted := updateServices s (serviceHealthLost s checked) fun service =>
    { service with healthySinceNS := none }
  updateServices interrupted (serviceStable ctx interrupted) fun service =>
    { service with restartStreak := 0 }

/-! ## 3. Attempts -/

/-- The two lease branches of `expiredAttemptsSQL`, on the clock that takes every possible sleep
off. Without a clock nothing runs out. -/
def leaseRanOut (attempt : Attempt) : Bool :=
  let clock := withAttemptExpiryClock ctx.clock
  (currentAttemptClock clock).err.isNone &&
    (attempt.leaseExpires ≤ leaseWallTime clock ctx.now ||
      attempt.leaseBootID = clock.boot && 0 < attempt.leaseDeadlineNS &&
        attempt.leaseDeadlineNS ≤ clock.ns) &&
    !attemptLeaseLiveSQL clock ctx.now attempt

/-- `expiredAttemptsSQL`. -/
def expiring (s : Store) (attempt : Attempt) : Bool :=
  attempt.state.active && (s.jobs.find attempt.jobID).any fun job =>
    job.currentAttemptID = some attempt.attemptID && job.state.holding &&
      (leaseRanOut ctx attempt || cancelDue ctx job)

/-- The loop over the expired attempts: each is read again before it is settled. -/
def expireAttempts (ctx : Ctx) : List Nat → Store → Except ProtocolError Store
  | [], s => .ok s
  | attemptID :: rest, s =>
    match s.readAttemptAuthority attemptID false with
    | none => .error (attemptNotFound attemptID)
    | some a => expireAttempts ctx rest (s.setRows (expireAttempt ctx a.job a.attempt))

/-! ## 4. Removals -/

/-- The removals the pass finalizes: cleaned up, and not final already. -/
def awaitsFinalization (job : Job) : Bool :=
  job.removal.any fun removal =>
    (removal.status = .agentCleaned ||
      (removal.status = .forgottenCleanupUnverified ||
        removal.status = .stalledCleanupUnverified) &&
        removal.cleanupStatus = .acknowledged && removal.agentCleanedNS.isSome) &&
      (removal.removedNS.isNone || job.projection.isNone)

def finalizeRemovals (ctx : Ctx) : List Nat → Store → Except ProtocolError Store
  | [], s => .ok s
  | jobID :: rest, s =>
    match finalizeServiceRemovalTx ctx jobID s with
    | .error err => .error err
    | .ok finalized => finalizeRemovals ctx rest (finalized.getD s)

/-! ## 5. The pass -/

/-- `checked` are the Nodes whose services the pass reads, `listed` the attempts its summary walk
comes to. -/
def reconcile (checked : Nat → Bool) (listed : List Nat) (s : Store) :
    StoreTx Store := do
  let swept := reconcileStability ctx checked (sweepNodes ctx s)
  let expired := (swept.attempts.rows.filter (expiring ctx swept)).map fun a => a.attemptID
  let settled ← check (expireAttempts ctx expired swept)
  let pruned := settled.pruneListedAttemptSummaries ctx listed
  let removals := (pruned.jobs.rows.filter awaitsFinalization).map fun job => job.jobID
  check (finalizeRemovals ctx removals pruned)

end Wefty.Recovery
