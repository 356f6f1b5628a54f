/-
The run ledger and L1, with the remote calls between them in flight
(`l3/reconciler.go`, `l3/run_job_link_recovery.go`, `l3/cancel.go`, `CreateRun` of
`l3/store.go`).

The reconciler and the cancel handler are sequences of short ledger transactions with L1
calls between them. Each such sequence is cut at its commits and at its remote calls, and
what it holds in its local variables at the cut is a `Call`: the bearer a begun attempt
carries, the observation a lookup was sent with, the job a cancel was sent for. The world
is the ledger, L1's jobs, and the calls in flight. One step resumes any one of them, so
answers are delayed without bound and every interleaving of the sequences is a run.

L1 is what the ledger may assume of it: a submit under a stored dispatch key returns the
stored job when the documents are equal and is refused for good when they differ; jobs are
never deleted; an ended job stays ended. Clock readings are inputs of a step and nothing is
assumed of them.
-/
import Wefty.RunJobLink
import Wefty.Runs

set_option autoImplicit false

namespace Wefty.Dispatch

open Tables Rows RunIntent RunJobLink

/-! ## 1. The ledger -/

/-- The runs, and whether `dispatch_hold` has a `since_ns`. -/
structure Ledger where
  runs : Table Run.runID
  held : Bool

/-- A transaction on one run. -/
abbrev RunTx := Run → Except LinkError Run

/-- The row after a transaction: the committed one, or the old one where it rolled back. The
primary key is never assigned. -/
def committed (tx : RunTx) (run : Run) : Run :=
  match tx run with
  | .ok run' => { run' with runID := run.runID }
  | .error _ => run

theorem committed_runID (tx : RunTx) (run : Run) :
    (committed tx run).runID = run.runID := by
  unfold committed
  cases tx run <;> rfl

namespace Ledger

def transact (ledger : Ledger) (runID : String) (tx : RunTx) : Ledger :=
  { ledger with runs := ledger.runs.update runID (committed tx) (committed_runID tx) }

end Ledger

/-- `dispatchKey := "run:" + runID`. -/
def dispatchKey (runID : String) : String := "run:" ++ runID

theorem dispatchKey_inj {runID runID' : String} (h : dispatchKey runID = dispatchKey runID') :
    runID = runID' :=
  (String.append_right_inj "run:").mp h

/-- What `CreateRun` and `CreateRerun` insert, once the request is normalized and authorized;
`rerunOf` is the source of a rerun. -/
structure CreateRun where
  runID : String
  actor : String
  idempotencyKey : String
  requestHash : String
  parentRunID : String
  rerunOf : Option String
  program : Program
  tags : List String
  params : String
  maxRuntimeSeconds : Option Int
  dispatchAuthority : Bool
  restartable : Bool
  requiredEnvelope : Bool

def newRun (request : CreateRun) (now : Int) : Run where
  runID := request.runID
  intent :=
    { runID := request.runID
      dispatchKey := dispatchKey request.runID
      parentRunID := request.parentRunID
      handoffOwnerID := request.rerunOf.getD request.runID
      params := request.params
      dispatchAuthority := request.dispatchAuthority
      restartable := request.restartable
      program := request.program
      tags := request.tags
      maxRuntimeSeconds := request.maxRuntimeSeconds }
  actor := request.actor
  idempotencyKey := request.idempotencyKey
  requestHash := request.requestHash
  requiredEnvelope := request.requiredEnvelope
  status := .pending
  l1JobID := none
  jobLinkSettled := false
  jobLinkFailures := 0
  jobLinkRetryNS := 0
  dispatchAttemptNS := none
  failureReason := none
  nodeID := none
  nodeAttributionPending := false
  updatedNS := now
  startedNS := none
  finishedNS := none
  acceptedEnvelopes := 0
  rejectedWrites := 0
  failedGates := 0
  outbox := ⟨dispatchKey request.runID, none, 0, none, none, none⟩
  cancellation := none
  retry := none
  token := none

namespace Ledger

def parentLive (ledger : Ledger) (parentRunID : String) : Bool :=
  parentRunID = "" || (ledger.runs.find parentRunID).any fun parent => !parent.status.terminal

/-- `CreateRun`, `CreateRerun`: a key its actor used before is answered from the stored run, and
an ended parent is refused. -/
def createRun (ledger : Ledger) (request : CreateRun) (now : Int) : Ledger :=
  if ledger.runs.any fun run =>
      run.actor = request.actor && run.idempotencyKey = request.idempotencyKey then ledger
  else if ledger.parentLive request.parentRunID then
    { ledger with runs := ledger.runs.insert (newRun request now) }
  else ledger

def maxLineageTraversalDepth : Nat := 64

/-- The submitting actor of the lineage root, within so many parent links. -/
def rootActor (ledger : Ledger) : Nat → String → Option String
  | depth, runID =>
    match ledger.runs.find runID with
    | none => none
    | some run =>
      if run.intent.parentRunID = "" then some run.actor
      else match depth with
      | 0 => none
      | depth + 1 => rootActor ledger depth run.intent.parentRunID

/-- Who may cancel a run: its submitting actor, or the lineage root's. -/
def mayCancel (ledger : Ledger) (runID actor : String) (run : Run) : Bool :=
  actor = run.actor || ledger.rootActor maxLineageTraversalDepth runID = some actor

/-- `parent_run_id=?`; a root's is NULL and equals nothing. -/
def childOf (runID : String) (run : Run) : Bool :=
  run.intent.parentRunID ≠ "" && run.intent.parentRunID = runID

/-- The child counts `projectJobOutcome` reads. -/
def children (ledger : Ledger) (runID : String) : Children where
  active := ledger.runs.count fun run => childOf runID run && !run.status.terminal
  failed := ledger.runs.count fun run => childOf runID run && decide (run.status = .failed)

end Ledger

/-! ## 2. L1 -/

/-- A job L1 stores, as the ledger can tell jobs apart. -/
structure Job where
  jobID : String
  spec : JobSpec
  state : JobState

def ended : JobState → Bool
  | .succeeded | .failed => true
  | .queued | .claimed | .running | .stopping | .stopped | .awaitingInput | .removalPending
  | .agentCleaned | .removedVerified | .forgottenCleanupUnverified
  | .stalledCleanupUnverified => false

inductive SubmitAnswer
  | job (jobID : String)
  | dispatchKeyConflict
  | unavailable

def lookupJobByDispatchKey (jobs : List Job) (key : String) : Option Job :=
  jobs.find? fun job => job.spec.dispatchKey = key

def getJob (jobs : List Job) (jobID : String) : Option Job :=
  jobs.find? fun job => job.jobID = jobID

/-- `SubmitJob`, at L1. A new job's id is fresh; an id that is not fails the insert. -/
def submitJob (jobs : List Job) (spec : JobSpec) (newID : String) : List Job × SubmitAnswer :=
  match lookupJobByDispatchKey jobs spec.dispatchKey with
  | some job => if job.spec = spec then (jobs, .job job.jobID) else (jobs, .dispatchKeyConflict)
  | none =>
    if newID = "" ∨ (getJob jobs newID).isSome then (jobs, .unavailable)
    else (jobs ++ [⟨newID, spec, .queued⟩], .job newID)

/-- L1's own progress on a job: any state may follow one that is not final. -/
def advance (jobs : List Job) (jobID : String) (state : JobState) : List Job :=
  jobs.map fun job =>
    if job.jobID = jobID ∧ ended job.state = false then { job with state := state } else job

/-! ## 3. Calls in flight -/

/-- Where a sequence of transactions and remote calls stands, and what it holds there. -/
inductive Call
  /-- `pendingDispatches` listed the run; `beginDispatch` is next. -/
  | listed (intent : DispatchIntent)
  /-- `beginDispatch` committed; `SubmitJob` has not been called. -/
  | begun (intent : DispatchIntent) (token : String)
  /-- `SubmitJob` was called; its request is on its way. -/
  | submit (runID : String) (spec : JobSpec)
  /-- A submit nobody waits for any more. -/
  | stray (spec : JobSpec)
  /-- L1's answer to a submit is on its way back. -/
  | answered (runID : String) (answer : SubmitAnswer)
  /-- `unrecordedDispatches` listed the run; the dispatch-key lookup is next. -/
  | recover (item : UnrecordedDispatch)
  /-- The lookup did not confirm the acknowledged job; `GetJob` of it is next. -/
  | recoverByID (item : UnrecordedDispatch) (lookupStarted : Int)
  /-- L1 has the job; `linkUnrecordedDispatch` is next. -/
  | recovered (item : UnrecordedDispatch) (jobID : String)
  /-- `acceptRecoveredCancellation` is next. -/
  | recoveredOwned (item : UnrecordedDispatch) (jobID : String)
  /-- L1 has no job for the run; `settleUnrecordedDispatch` is next. -/
  | absent (item : UnrecordedDispatch) (lookupStarted : Int)
  /-- `pendingRunCancellations` listed the run; `jobID` is empty where it has no job yet. -/
  | cancel (runID jobID dispatchKey : String)
  /-- `canceledRunJob` read the observation; the dispatch-key lookup is next. -/
  | cancelLookup (runID dispatchKey : String) (observed : Observation)
  /-- No job under the key; `GetJob` of the acknowledged one is next. -/
  | cancelByID (runID jobID : String) (observed : Observation)
  /-- The acknowledged job is gone; `cancelAbsentStoredIdentity` is next, and after it a backoff if
  the absence is `provisional`. -/
  | cancelAbsent (runID : String) (observed : Observation) (provisional : Bool)
  /-- `deferRunCancellation` of a provisional absence is next. -/
  | cancelProvisional (runID : String)
  /-- No job under the key and none acknowledged; `cancelAbsentDispatch` is next. -/
  | cancelMissing (runID : String) (lookupStarted : Int)
  /-- `deferUnlinkedRunCancellation` is next. -/
  | cancelUnlinked (runID : String)
  /-- L1 has the job; `completeDispatchWithEvidence` by lookup is next. -/
  | cancelFound (runID jobID : String) (observed : Observation)
  /-- The run is read again for the job it is linked to. -/
  | cancelReread (runID : String)
  /-- The stored-evidence recheck is next. -/
  | cancelLinked (runID jobID : String)
  /-- The identity check before the remote cancel is next. -/
  | cancelRecorded (runID jobID : String)
  /-- `CancelJob` is next. -/
  | cancelReady (runID jobID : String) (observed : Observation)
  /-- L1 answered the cancel of a run read in state `current`; `state` is what the job counts as. -/
  | canceled (runID jobID : String) (current : RunState) (state : JobState)
  /-- That job had ended; the run is read again, projected once more and finished. -/
  | canceledEnded (runID jobID : String) (state : JobState)
  /-- L1 refused the cancel; `GetJob` decides whether as not found. -/
  | cancelRefused (runID jobID : String) (observed : Observation) (cause : APIError)
  /-- `finishRunCancellation` is next. -/
  | finish (runID jobID : String)
  /-- `refuseRunCancellation` is next. -/
  | refuse (runID : String) (cause : APIError)
  /-- `activeProjectedRuns` listed the run; `GetJob` is next. -/
  | project (projected : ProjectedRun)
  /-- The job's state was read; `projectJobOutcome` is next. -/
  | observed (projected : ProjectedRun) (state : JobState)
  /-- The job is gone; `failMissingL1Job` is next. -/
  | lost (projected : ProjectedRun)

inductive Outcome
  | delivered
  | failed
  | refused
  deriving DecidableEq

/-- What a step is given: the clock, how a remote call ends, the error it ends with, fresh
random text, what L1 makes of a job it was asked to cancel, and whether L1 shows that an
attempt of a requeued job had started. -/
structure Input where
  now : Int
  tokenGrace : Int
  outcome : Outcome
  cause : APIError
  fresh : String
  state : JobState
  attemptStarted : Bool

/-- The ledger, L1, and what is in flight; `submitted` and `answers` are the history of
`SubmitJob` calls started and of L1's answers to them. -/
structure World where
  ledger : Ledger
  l1 : List Job
  calls : List Call
  submitted : List (String × JobSpec)
  answers : List SubmitAnswer

variable (w : World)

namespace World

def start : World := ⟨⟨Table.empty, false⟩, [], [], [], []⟩

def push (call : Call) : World := { w with calls := w.calls ++ [call] }

def transact (runID : String) (tx : RunTx) : World :=
  { w with ledger := w.ledger.transact runID tx }

def write (runID : String) (f : Run → Run) : World :=
  w.transact runID fun run => .ok (f run)

def arrive (spec : JobSpec) (newID : String) : World :=
  { w with
    l1 := (submitJob w.l1 spec newID).1
    answers := w.answers ++ [(submitJob w.l1 spec newID).2] }

/-- What follows a read of the run `runID`; nothing if it is not there. -/
def reading (runID : String) (f : Run → World) : World :=
  match w.ledger.runs.find runID with
  | none => w
  | some run => f run

/-! ## 4. The sequences -/

/-- `dispatchPending`, one intent. -/
def begin (input : Input) (intent : DispatchIntent) : World :=
  w.reading intent.runID fun run =>
    match run.beginDispatch w.ledger.held input.fresh input.now with
    | .error _ => w
    | .ok (token, _) =>
      (w.transact intent.runID fun run =>
        (run.beginDispatch w.ledger.held input.fresh input.now).map Prod.snd).push
          (.begun intent token)

def submit (intent : DispatchIntent) (token : String) : World :=
  { w with submitted := w.submitted ++ [(intent.runID, intent.jobSpec token)] }.push
    (.submit intent.runID (intent.jobSpec token))

/-- The caller's end of a submit that L1 may or may not have seen. -/
def submitOutcome (input : Input) (runID : String) (spec : JobSpec) : World :=
  match input.outcome with
  | .delivered => (w.arrive spec input.fresh).push
      (.answered runID (submitJob w.l1 spec input.fresh).2)
  | .failed => (w.write runID fun run => run.recordDispatchError input.cause input.now).push
      (.stray spec)
  | .refused => w.write runID fun run => run.failDispatch input.cause input.now input.tokenGrace

/-- The caller gets L1's answer, unless it is lost on the way. -/
def answered (input : Input) (runID : String) (answer : SubmitAnswer) : World :=
  match input.outcome, answer with
  | .delivered, .job jobID =>
    w.transact runID fun run => run.completeDispatch jobID .acknowledgement none input.now
  | .delivered, .dispatchKeyConflict =>
    w.write runID fun run => run.failDispatch input.cause input.now input.tokenGrace
  | _, _ => w.write runID fun run => run.recordDispatchError input.cause input.now

/-- `resolveUnrecordedDispatch`, the dispatch-key lookup. -/
def recover (input : Input) (item : UnrecordedDispatch) : World :=
  if input.outcome = .delivered then
    match lookupJobByDispatchKey w.l1 item.dispatchKey with
    | some job =>
      if item.outboxJobID = "" ∨ job.jobID = item.outboxJobID then
        w.push (.recovered item job.jobID)
      else w.push (.recoverByID item input.now)
    | none =>
      if item.outboxJobID ≠ "" then w.push (.recoverByID item input.now)
      else w.push (.absent item input.now)
  else w.write item.runID fun run => run.deferUnrecordedDispatch run.jobLinkFailures input.now

/-- `resolveUnrecordedDispatch`, the acknowledged job by its id. -/
def recoverByID (input : Input) (item : UnrecordedDispatch) (lookupStarted : Int) :
    World :=
  if input.outcome = .delivered then
    match getJob w.l1 item.outboxJobID with
    | some _ => w.push (.recovered item item.outboxJobID)
    | none => w.push (.absent item lookupStarted)
  else w.write item.runID fun run => run.deferUnrecordedDispatch run.jobLinkFailures input.now

/-- `canceledRunJob`, up to its first remote read. -/
def cancelObserve (runID jobID key : String) : World :=
  if jobID ≠ "" then w.push (.cancelLinked runID jobID)
  else w.reading runID fun run => w.push (.cancelLookup runID key run.observation)

/-- `canceledRunJob`, the dispatch-key lookup. -/
def cancelLookup (input : Input) (runID key : String) (observed : Observation) :
    World :=
  if input.outcome = .delivered then
    match lookupJobByDispatchKey w.l1 key, observed.outboxJob.filter (fun jobID => jobID ≠ "") with
    | some job, _ => w.push (.cancelFound runID job.jobID observed)
    | none, some jobID => w.push (.cancelByID runID jobID observed)
    | none, none => w.push (.cancelMissing runID input.now)
  else w.push (.cancelUnlinked runID)

def deferDelivery (input : Input) (runID : String) : World :=
  w.write runID fun run => run.deferRunCancellation input.cause input.now

def deliver (input : Input) (runID : String) (tx : RunTx)
    (next : Call) : World :=
  w.reading runID fun run =>
    match tx run with
    | .ok _ => (w.transact runID tx).push next
    | .error _ => w.deferDelivery input runID

/-- `canceledRunJob`, the acknowledged job by its id. -/
def cancelByID (input : Input) (runID jobID : String) (observed : Observation) :
    World :=
  if input.outcome = .delivered then
    match getJob w.l1 jobID with
    | some _ => w.push (.cancelFound runID jobID observed)
    | none => w.push (.cancelAbsent runID observed true)
  else w.deferDelivery input runID

/-- What `cancellationFailurePayload` stores for no error. -/
def absenceProvisional : APIError :=
  ⟨"not_found", "dispatch absence remains provisional", true, "", none⟩

/-- The absence is settled, or the error is deferred. -/
def cancelAbsent (input : Input) (runID : String) (observed : Observation) (provisional : Bool) :
    World :=
  w.reading runID fun run =>
    match run.cancelAbsentStoredIdentity observed input.now with
    | .error _ => w.deferDelivery input runID
    | .ok _ =>
      let settled := w.transact runID fun run => run.cancelAbsentStoredIdentity observed input.now
      if provisional then settled.push (.cancelProvisional runID) else settled

/-- `deferUnlinkedRunCancellation`: the run may have been linked meanwhile. -/
def cancelUnlinked (input : Input) (runID : String) : World :=
  w.reading runID fun run =>
    let deferred := w.write runID fun run =>
      (run.deferUnlinkedRunCancellation input.cause input.now).2
    match (run.deferUnlinkedRunCancellation input.cause input.now).1 with
    | some jobID => deferred.push (.cancelLinked runID jobID)
    | none => deferred

/-- `canceledRunJob` ends: the run and its outbox must both name the job that is cancelled. -/
def cancelCheck (input : Input) (runID jobID : String) : World :=
  w.reading runID fun run =>
    if run.l1JobID = some jobID ∧ run.outbox.jobID = some jobID ∧ jobID ≠ "" then
      w.push (.cancelReady runID jobID run.observation)
    else w.deferDelivery input runID

/-- `projectObservedJob`: a restartable job that was requeued after it started is running. -/
def observedState (input : Input) (job : Job) : JobState :=
  if job.spec.restartable ∧ job.state = .queued ∧ input.attemptStarted then .running
  else job.state

/-- `CancelJob`, and L1's answer. -/
def cancelJob (input : Input) (runID jobID : String) (observed : Observation) : World :=
  match input.outcome with
  | .failed => w.deferDelivery input runID
  | .refused => w.push (.cancelRefused runID jobID observed input.cause)
  | .delivered =>
    let asked := { w with l1 := advance w.l1 jobID input.state }
    match getJob asked.l1 jobID with
    | some job => asked.push (.canceled runID jobID observed.state (observedState input job))
    | none => asked.push (.cancelRefused runID jobID observed input.cause)

/-- `cancelRunJobRemote`, after a refusal: a not-found one may be a regression, which only
`GetJob` can tell. -/
def cancelRefused (input : Input) (runID jobID : String) (observed : Observation)
    (cause : APIError) : World :=
  if cause.code = "not_found" ∧ input.outcome = .delivered ∧ (getJob w.l1 jobID).isNone then
    if observed.state.terminal then w.push (.cancelAbsent runID observed false)
    else (w.push (.lost ⟨runID, jobID, observed.state, false⟩)).push (.refuse runID cause)
  else w.push (.refuse runID cause)

/-- `cancelRunJobRemote`, after L1's answer: the delivery failure is cleared and the outcome is
projected onto the state the run was read in. -/
def canceled (runID jobID : String) (current : RunState) (state : JobState) : World :=
  w.reading runID fun run =>
    let cleared := (w.write runID Run.clearDeliveryFailure).push
      (.observed ⟨runID, jobID, current, run.requiredEnvelope⟩ state)
    if ended state then cleared.push (.canceledEnded runID jobID state) else cleared

/-- A success first observed from queued passes through running, so the outcome of an ended job
is projected a second time before the cancellation is finished. -/
def canceledEnded (runID jobID : String) (state : JobState) : World :=
  w.reading runID fun run =>
    (w.push (.observed ⟨runID, jobID, run.status, run.requiredEnvelope⟩ state)).push
      (.finish runID jobID)

/-- `ReconcileOnce`, the projection loop's read of L1. -/
def project (input : Input) (projected : ProjectedRun) : World :=
  if input.outcome = .delivered then
    match getJob w.l1 projected.jobID with
    | some job => w.push (.observed projected (observedState input job))
    | none => w.push (.lost projected)
  else w

/-- **One step of a sequence**: the next transaction, or the next remote call. -/
def proceed (input : Input) : Call → World
  | .listed intent => w.begin input intent
  | .begun intent token => w.submit intent token
  | .submit runID spec => w.submitOutcome input runID spec
  | .stray spec => w.arrive spec input.fresh
  | .answered runID answer => w.answered input runID answer
  | .recover item => w.recover input item
  | .recoverByID item lookupStarted => w.recoverByID input item lookupStarted
  | .recovered item jobID =>
    (w.transact item.runID fun run => run.linkUnrecordedDispatch item jobID input.now).push
      (.recoveredOwned item jobID)
  | .recoveredOwned item jobID =>
    w.transact item.runID fun run => run.acceptRecoveredCancellation item jobID input.now
  | .absent item lookupStarted =>
    w.write item.runID fun run => run.settleUnrecordedDispatch item lookupStarted
  | .cancel runID jobID key => w.cancelObserve runID jobID key
  | .cancelLookup runID key observed => w.cancelLookup input runID key observed
  | .cancelByID runID jobID observed => w.cancelByID input runID jobID observed
  | .cancelAbsent runID observed provisional => w.cancelAbsent input runID observed provisional
  | .cancelProvisional runID =>
    w.write runID fun run => run.deferRunCancellation absenceProvisional input.now
  | .cancelMissing runID lookupStarted =>
    w.deliver input runID
      (fun run => run.cancelAbsentDispatch lookupStarted input.now input.tokenGrace)
      (.cancelUnlinked runID)
  | .cancelUnlinked runID => w.cancelUnlinked input runID
  | .cancelFound runID jobID observed =>
    w.deliver input runID
      (fun run => run.completeDispatch jobID .lookup (some observed) input.now)
      (.cancelReread runID)
  | .cancelReread runID =>
    w.reading runID fun run => w.push (.cancelLinked runID (run.l1JobID.getD ""))
  | .cancelLinked runID jobID =>
    w.deliver input runID (fun run => run.completeDispatch jobID .stored none input.now)
      (.cancelRecorded runID jobID)
  | .cancelRecorded runID jobID => w.cancelCheck input runID jobID
  | .cancelReady runID jobID observed => w.cancelJob input runID jobID observed
  | .canceled runID jobID current state => w.canceled runID jobID current state
  | .canceledEnded runID jobID state => w.canceledEnded runID jobID state
  | .cancelRefused runID jobID observed cause => w.cancelRefused input runID jobID observed cause
  | .finish runID _ => w.write runID fun run => run.finishRunCancellation input.now
  | .refuse runID cause => w.write runID fun run => run.refuseRunCancellation cause input.now
  | .project projected => w.project input projected
  | .observed projected state =>
    w.write projected.runID fun run =>
      run.projectJobOutcome projected state input.cause.message
        (w.ledger.children projected.runID) input.now input.tokenGrace
  | .lost projected =>
    w.write projected.runID fun run => run.failMissingL1Job projected input.now input.tokenGrace

/-! ## 5. Runs of the system -/

end World

inductive Op
  | createRun (request : CreateRun) (now : Int)
  /-- `holdDispatch` and the admission probe that lifts it. -/
  | hold (held : Bool)
  | appendEnvelope (runID : String)
  | appendGateResult (runID : String) (failure : Option String) (now tokenGrace : Int)
  | rejectProtocolWrite (runID reason : String) (now tokenGrace : Int)
  | pendingDispatches (runID : String) (now : Int)
  | unrecordedDispatches (runID : String) (now : Int)
  | requestRunCancellation (runID actor : String) (now tokenGrace : Int)
  | pendingRunCancellations (runID : String) (now : Int)
  | activeProjectedRuns (runID : String)
  /-- A job moves on at L1. -/
  | advance (jobID : String) (state : JobState)
  /-- The `index`-th call in flight takes its next step. -/
  | resume (index : Nat) (input : Input)
  /-- The ledger's process dies and starts again. -/
  | restart

def Call.afterRestart : Call → Option Call
  | .submit _ spec => some (.stray spec)
  | .stray spec => some (.stray spec)
  | _ => none

namespace World

def step : Op → World
  | .createRun request now => { w with ledger := w.ledger.createRun request now }
  | .hold held => { w with ledger := { w.ledger with held := held } }
  | .appendEnvelope runID => w.write runID Run.acceptEnvelope
  | .appendGateResult runID failure now grace =>
    w.write runID fun run => run.acceptGate failure now grace
  | .rejectProtocolWrite runID reason now grace =>
    w.write runID fun run => run.rejectProtocolWrite reason now grace
  | .pendingDispatches runID now =>
    w.reading runID fun run =>
      if run.outbox.dispatchedNS.isNone ∧ run.due w.ledger.held now then
        w.push (.listed run.intent)
      else w
  | .unrecordedDispatches runID now =>
    w.reading runID fun run =>
      if run.unrecorded ∧ run.jobLinkRetryNS ≤ now then w.push (.recover run.unrecordedDispatch)
      else w
  | .requestRunCancellation runID actor now grace =>
    w.transact runID fun run =>
      if w.ledger.mayCancel runID actor run then run.requestRunCancellation now grace
      else .error .forbidden
  | .pendingRunCancellations runID now =>
    w.reading runID fun run =>
      if run.cancellationDue now then
        w.push (.cancel runID (run.cancelStoredJobID.getD "") run.intent.dispatchKey)
      else w
  | .activeProjectedRuns runID =>
    w.reading runID fun run =>
      match run.l1JobID with
      | some jobID =>
        if run.status.terminal then w
        else w.push (.project ⟨runID, jobID, run.status, run.requiredEnvelope⟩)
      | none => w
  | .advance jobID state => { w with l1 := Dispatch.advance w.l1 jobID state }
  | .resume index input =>
    match w.calls[index]? with
    | none => w
    | some call => proceed { w with calls := w.calls.eraseIdx index } input call
  | .restart => { w with calls := w.calls.filterMap Call.afterRestart }

def reached (ops : List Op) : World := Runs.exec step start ops

end World

end Wefty.Dispatch
