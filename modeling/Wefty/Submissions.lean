/-
Submission and cancellation of jobs (`CreateJobAs`, `replayWithinScope`, `concurrentSubmit` of
`l1/store.go`; `l1/attempt_credential.go`; `CancelJob` of `l1/cancel.go`).

A submission is looked up by its dispatch key first, among the jobs and then among the tombstones
of removed services, and only an unknown key is inserted. The insert itself can still lose to
another submission of the key: the source then rolls back and reads again what the key belongs to.
Under SQLite that path is dead, since a submission holds the write lock from its lookup to its
insert. The source has it all the same, and so has the model: `submit` takes a list of submissions
that are all looked up in one store before the first of them inserts. A submission on its own is the
list of length one.
-/
import Wefty.ControlStore

set_option autoImplicit false

namespace Wefty.Submissions

open Tables Rows StoreRows RestartPolicy Transactions AttemptAuthority ControlStore

/-! ## 1. Attempt credentials -/

/-- `AttemptCredentialScope`: what a bearer credential proves. -/
structure Scope where
  attemptID : Nat
  jobID : Nat
  identityNodeID : Nat
  originatingSubmitter : Option Nat
  spawnDepth : Nat

def unauthorized (message : String) : ProtocolError := ⟨.unauthorized, message⟩

/-- The predicates of `validateAttemptAuthority` but for the fencing token, which a workload never
holds, and then the lease. -/
def validateAttemptCredentialAuthority (ctx : Ctx) (scope : Scope) (a : Authority) : Check :=
  if a.node.identityNodeID ≠ scope.identityNodeID then
    .error ⟨.forbidden, "attempt credential was presented from another node"⟩
  else if a.attempt.jobID ≠ scope.jobID ∨ a.attempt.attemptID ≠ scope.attemptID then
    .error (unauthorized "attempt credential does not match its attempt")
  else if a.job.currentAttemptID ≠ some scope.attemptID then
    .error (unauthorized "attempt credential belongs to a superseded attempt")
  else if ¬ a.retiringSessionAuthorized ∧
      (a.attempt.bootSessionID ≠ a.node.bootSessionID ∨
        a.attempt.authorityGeneration ≠ a.node.authorityGeneration) then
    .error (unauthorized "attempt credential belongs to a replaced node registration")
  else if ¬ a.attempt.state.active then
    .error (unauthorized "attempt credential belongs to a terminal attempt")
  else match leaseExpiredAt ctx a.attempt with
    | .error err => .error err
    | .ok true => .error (unauthorized "attempt credential lease has expired")
    | .ok false => .ok ()

def revalidateAttemptCredential (ctx : Ctx) (s : Store) (scope : Scope) (retiring : Bool) : Check :=
  match s.readAttemptAuthority scope.attemptID retiring with
  | none => .error (unauthorized "attempt credential is no longer live")
  | some a => validateAttemptCredentialAuthority ctx scope a

/-! ## 2. Submissions -/

def maxSpawnDepth : Nat := 8

structure JobOrigin where
  originatingSubmitter : Option Nat
  parent : Option Scope

/-- A call of `CreateJobAs`. `wellFormed` is the outcome of `validateJobSpec`, `admission` that of
the checks between the lookup and the insert, `seatRun` that of `admitSeatRun`. -/
structure Submission where
  spec : JobSpec
  requestHash : Nat
  origin : JobOrigin
  retiring : Bool
  wellFormed : Check
  admission : Check
  seatRun : Check

/-- A client principal may replay any key, an attempt credential only one of a job that was
submitted through its own job. -/
def replayWithinScope (origin : JobOrigin) (parentJobID originatingSubmitter : Option Nat) : Bool :=
  match origin.parent with
  | none => true
  | some parent =>
    parentJobID = some parent.jobID && originatingSubmitter = parent.originatingSubmitter

/-- The refusal of a key that belongs to something else, or to something out of scope. -/
def dispatchKeyConflict (dispatchKey : Nat) : ProtocolError :=
  ⟨.dispatchKeyConflict, "dispatch key \"" ++ toString dispatchKey ++
    "\" was already used with a different job"⟩

/-- What a dispatch key belongs to: the identifier of its job, answered if the caller may see it
and the request is the same. A tombstone keeps no parentage that a replay could be checked
against, so it is out of scope for every attempt credential. -/
def replayDispatchKey (s : Store) (submission : Submission) : Except ProtocolError (Option Nat) :=
  match s.jobByDispatchKey submission.spec.dispatchKey with
  | some job =>
    if ¬ replayWithinScope submission.origin job.parentJobID job.originatingSubmitter ∨
        job.requestHash ≠ submission.requestHash then
      .error (dispatchKeyConflict submission.spec.dispatchKey)
    else .ok (some job.jobID)
  | none =>
    match s.tombstoneByDispatchKey submission.spec.dispatchKey with
    | some tombstone =>
      if ¬ replayWithinScope submission.origin none none ∨
          tombstone.requestHash ≠ submission.requestHash then
        .error (dispatchKeyConflict submission.spec.dispatchKey)
      else .ok (some tombstone.jobID)
    | none => .ok none

/-- The checks `CreateJobAs` makes before it opens a transaction. -/
def checkSubmission (submission : Submission) : Check := do
  submission.wellFormed
  match submission.origin.parent with
  | some parent =>
    if maxSpawnDepth < parent.spawnDepth + 1 then
      throw ⟨.spawnDepthExceeded, "job \"" ++ toString parent.jobID ++ "\" is at spawn depth " ++
        toString parent.spawnDepth ++ " and may not spawn past the cap of " ++
        toString maxSpawnDepth⟩
  | none => pure ()
  if isComputerSpec submission.spec then
    throw ⟨.computerResourceRequired,
      "Computer trait Jobs must be created through the durable Computer resource"⟩

/-- A canceled parent has no authority left to create children. -/
def checkParent (s : Store) (submission : Submission) : Check :=
  match submission.origin.parent with
  | none => .ok ()
  | some parent =>
    match s.jobs.find parent.jobID with
    | none => .error ⟨.internal, "read cancellation intent"⟩
    | some job =>
      if job.canceled then .error (unauthorized "cancellation revoked child creation authority")
      else .ok ()

/-- `CreateJobAs` up to its insert, in the store `s`: the job to answer with, or none where the key
is free and the caller may create. -/
def lookupSubmission (ctx : Ctx) (s : Store) (submission : Submission) :
    Except ProtocolError (Option Nat) := do
  checkSubmission submission
  match submission.origin.parent with
  | some parent => revalidateAttemptCredential ctx s parent submission.retiring
  | none => pure ()
  match ← replayDispatchKey s submission with
  | some jobID => return some jobID
  | none =>
    checkParent s submission
    submission.admission
    return none

/-- The row a submission inserts. A child inherits the submitter of its parent's root. -/
def submittedJob (ctx : Ctx) (jobID : Nat) (submission : Submission) : Job where
  jobID := jobID
  requestHash := submission.requestHash
  spec := submission.spec
  state := .queued
  parentJobID := submission.origin.parent.map fun parent => parent.jobID
  parentAttemptID := submission.origin.parent.map fun parent => parent.attemptID
  originatingSubmitter :=
    match submission.origin.parent with
    | some parent => parent.originatingSubmitter
    | none => submission.origin.originatingSubmitter
  spawnDepth :=
    match submission.origin.parent with
    | some parent => parent.spawnDepth + 1
    | none => 0
  service :=
    if submission.spec.jobClass = .service then
      some {
        desiredState := .running
        publishedPort := submission.spec.publishedPort }
    else none
  createdNS := ctx.now
  updatedNS := ctx.now

/-- How a submission is answered: with a new job, with the job its key already has, or not. -/
inductive SubmitAnswer
  | created (jobID : Nat)
  | replayed (jobID : Nat)
  | refused (err : ProtocolError)
  deriving DecidableEq

def SubmitAnswer.isCreated : SubmitAnswer → Bool
  | .created _ => true
  | .replayed _ | .refused _ => false

/-- What a submission whose insert failed is answered with. -/
def concurrentSubmit (s : Store) (submission : Submission) : SubmitAnswer :=
  match replayDispatchKey s submission with
  | .error err => .refused err
  | .ok (some jobID) => .replayed jobID
  | .ok none => .refused ⟨.internal, "store job"⟩

/-- The insert of a submission that found its key free, with the unique constraint on
`jobs.dispatch_key` where SQLite checks it. -/
def insertSubmission (ctx : Ctx) (s : Store) (submission : Submission) : Store × SubmitAnswer :=
  if (s.jobByDispatchKey submission.spec.dispatchKey).isSome then (s, concurrentSubmit s submission)
  else
    match submission.seatRun with
    | .error err => (s, .refused err)
    | .ok () => (s.insertJob (submittedJob ctx s.nextID submission), .created s.nextID)

/-- Submissions that were all looked up in `before`, inserted one after another. -/
def createJobs (ctx : Ctx) (before : Store) : Store → List Submission → Store × List SubmitAnswer
  | s, [] => (s, [])
  | s, submission :: rest =>
    let (s', answer) :=
      match lookupSubmission ctx before submission with
      | .error err => (s, .refused err)
      | .ok (some jobID) => (s, .replayed jobID)
      | .ok none => insertSubmission ctx s submission
    let (s'', answers) := createJobs ctx before s' rest
    (s'', answer :: answers)

/-- `CreateJobAs`, for submissions whose lookups come before all of their inserts. Only an insert
commits. -/
def submit (ctx : Ctx) (submissions : List Submission) (s : Store) : StoreTx Store := do
  let (s', answers) := createJobs ctx s s submissions
  answerIf (answers.all fun answer => !answer.isCreated)
  return s'

/-! ## 3. Cancellation -/

/-- `CancelSettlementTimeout`, in nanoseconds. -/
def cancelSettlementTimeout : Int := 30 * second

/-- `JobCancelCaller`. A person is an administrator or not, which is decided over tables outside
the model, with an error where the decision itself failed. -/
inductive CancelCaller
  | parent (scope : Scope) (retiring : Bool)
  | person (admin : Except ProtocolError Bool)
  | submitter (name : Option Nat)

/-- Whether the caller may cancel a job with this parent and this submitter. -/
def CancelCaller.allowed (caller : CancelCaller) (parentJobID originatingSubmitter : Option Nat) :
    Except ProtocolError Bool :=
  match caller with
  | .parent scope _ => .ok (parentJobID = some scope.jobID)
  | .person admin => admin
  | .submitter name => .ok (name.isSome && name = originatingSubmitter)

/-- `job was not found`, also the answer to a caller who may not cancel it. -/
def jobNotFound : ProtocolError := ⟨.notFound, "job was not found"⟩

/-- The refusal of every service, removed or not. -/
def cancelService : ProtocolError :=
  ⟨.cancelService, "services cannot be canceled; use desired state or remove"⟩

/-- A queued job that is canceled is over at once. -/
def cancelQueued (now : Int) (job : Job) : Job :=
  { job with
    state := .failed
    canceled := true
    currentAttemptID := none
    prestartTerminalReason := none
    prestartNextRetryAtNS := none
    nextRestartAtNS := none
    updatedNS := now }

/-- A job with a live attempt keeps it until the settlement deadline. -/
def reserveCanceled (now : Int) (job : Job) : Job :=
  { job with
    canceled := true
    cancelSettleByNS := now + cancelSettlementTimeout
    updatedNS := now }

/-- The row `CancelJob` writes. The first terminal intent wins: a job that is over, or canceled
already, stays as it is. -/
def canceledJob (now : Int) (job : Job) : Except ProtocolError Job :=
  match job.state with
  | .succeeded | .failed => .ok job
  | .queued =>
    if job.spec.jobClass ≠ .oneShot then
      .error ⟨.cancelNotQueued, "only queued one-shots can be canceled"⟩
    else .ok (cancelQueued now job)
  | .claimed | .running | .awaitingInput =>
    if job.spec.jobClass ≠ .oneShot then
      .error ⟨.cancelNotQueued, "only one-shots support active cancellation"⟩
    else .ok (if job.canceled then job else reserveCanceled now job)
  | _ =>
    .error ⟨.cancelNotQueued, "job does not support cancellation in this state"⟩

def cancelJob (ctx : Ctx) (jobID : Nat) (caller : CancelCaller) (s : Store) : StoreTx Store := do
  check (match caller with
    | .parent scope retiring => revalidateAttemptCredential ctx s scope retiring
    | .person _ | .submitter _ => .ok ())
  match s.jobs.find jobID with
  | none =>
    -- A removed service is refused as a service, to those who could have canceled it.
    let tombstone ← orRefuse (s.tombstones.find jobID) jobNotFound
    let allowed ← check (caller.allowed tombstone.parentJobID tombstone.originatingSubmitter)
    refuse (if allowed then cancelService else jobNotFound)
  | some job =>
    let allowed ← check (caller.allowed job.parentJobID job.originatingSubmitter)
    refuseIf (¬ allowed) jobNotFound
    refuseIf (job.spec.jobClass = .service) cancelService
    let canceled ← check (canceledJob ctx.now job)
    return s.setJob canceled

end Wefty.Submissions
