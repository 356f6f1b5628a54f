/-
The run ledger under its store operations, with every argument free.

`Wefty.Dispatch` models the reconciler and the cancel handler as sequences of ledger
transactions tied to what L1 answered. Here the same transactions are taken one by one, in
any order and with any arguments: any job id, any observation captured at any earlier time,
any job state, any clock reading. Whatever the reconciler does is such a sequence, and so is
what a stale, repeated or mistaken caller does.
-/
import Wefty.Dispatch

set_option autoImplicit false

namespace Wefty.RunJobLink.Run

/-! ## 1. Node attribution and the open-time backfill -/

def settleNodeAttribution (run : Run) (nodeID : String) : Run :=
  if run.nodeAttributionPending then
    { run with
      nodeID := if run.nodeID.getD "" = "" ∧ nodeID ≠ "" then some nodeID else run.nodeID
      nodeAttributionPending := false }
  else run

/-- A provisional answer fills an empty attribution, a settled one replaces a different one, and
neither touches a run that ended. -/
def recordRunNode (run : Run) (nodeID : String) (settled : Bool) (now : Int) : Run :=
  if nodeID ≠ "" ∧ (run.nodeID.getD "" = "" ∨ settled = true ∧ run.nodeID ≠ some nodeID) ∧
      run.status.terminal = false then
    { run with
      nodeID := some nodeID
      updatedNS := now }
  else run

/-- The backfill of `dispatch_attempt_ns`: a ledger from before the column records attempts only
as a count. -/
def backfillDispatchAttempt (run : Run) : Run :=
  if run.dispatchAttemptNS.isNone ∧ run.l1JobID.isNone ∧
      (run.status.submittable ∨ run.status.terminal) ∧ 0 < run.outbox.attemptCount then
    { run with dispatchAttemptNS := run.finishedNS <|> some run.updatedNS }
  else run

/-- The reasons under which a run ended before its dispatch was confirmed. -/
def canceledBeforeDispatch : List String :=
  ["the run was canceled before dispatch", "canceled before dispatch",
    "canceled before dispatch was confirmed"]

/-- The `WHERE` of `migrateLegacyRunJobLinks`: an ended run whose acknowledgement only the outbox
has. -/
def legacyLink (run : Run) : Bool :=
  run.status.terminal && run.l1JobID.isNone && !run.jobLinkSettled &&
    run.dispatchAttemptNS.isSome && decide (run.outbox.dispatchKey = run.intent.dispatchKey) &&
    run.outbox.jobID.any (· ≠ "") && run.outbox.dispatchedNS.isSome &&
    run.outbox.tokenDelivery.isNone && run.outbox.lastError.isNone &&
    !canceledBeforeDispatch.contains (run.failureReason.getD "") && run.cancellation.isNone

def migrateLegacyLink (run : Run) : Run := run.linkTerminalRun (run.outbox.jobID.getD "")

theorem backfillDispatchAttempt_runID (run : Run) :
    run.backfillDispatchAttempt.runID = run.runID := by
  unfold backfillDispatchAttempt
  split <;> rfl

theorem migrateLegacyLink_runID (run : Run) : run.migrateLegacyLink.runID = run.runID := by
  unfold migrateLegacyLink linkTerminalRun
  split <;> rfl

end Wefty.RunJobLink.Run

namespace Wefty.LedgerStore

open Tables Rows RunJobLink Dispatch

/-! ## 2. Migrated links -/

/-- A row of `run_job_link_validations`. -/
structure Validation where
  runID : String
  dispatchKey : String
  jobID : String
  failures : Nat
  retryNS : Int
  deriving DecidableEq

/-- A due row and the link columns it was read with. -/
structure MigratedLinkValidation where
  row : Validation
  observed : Observation

inductive MigratedLinkVerdict
  | found
  | absent
  | retry
  | retired
  deriving DecidableEq

/-- Neither a cancellation nor newer evidence took the link over. -/
def migratedLinkOwnership (run : Run) (row : Validation) : Bool :=
  decide (run.intent.dispatchKey = row.dispatchKey) &&
    decide (run.outbox.dispatchKey = row.dispatchKey) && decide (run.l1JobID = some row.jobID) &&
    decide (run.outbox.jobID = some row.jobID) && run.outbox.dispatchedNS.isSome &&
    run.status.terminal && run.outbox.lastError.isNone && run.outbox.tokenDelivery.isNone &&
    run.cancellation.isNone

structure Store where
  ledger : Ledger
  migrated : Bool
  validations : Table Validation.runID

namespace Store

def validationOf (run : Run) : Validation :=
  ⟨run.runID, run.intent.dispatchKey, run.outbox.jobID.getD "", 0, 0⟩

/-- The rows are listed and then linked in turn; a run has one row, so each is linked by its own. -/
def migrateLegacyRunJobLinks (store : Store) : Store :=
  if store.migrated then store
  else
    { ledger :=
        { store.ledger with
          runs := store.ledger.runs.updateWhere Run.legacyLink Run.migrateLegacyLink
            Run.migrateLegacyLink_runID }
      migrated := true
      validations := (store.ledger.runs.rows.filter Run.legacyLink).foldl
        (fun table run => table.insert (validationOf run)) store.validations }

def openStore (store : Store) : Store :=
  migrateLegacyRunJobLinks
    { store with
      ledger :=
        { store.ledger with
          runs := store.ledger.runs.updateWhere (fun _ => true) Run.backfillDispatchAttempt
            Run.backfillDispatchAttempt_runID } }

/-- The row must be the one that was read, the link must still be the migration's, and nothing may
have been observed meanwhile. -/
def completeMigratedLinkValidation (store : Store) (item : MigratedLinkValidation)
    (verdict : MigratedLinkVerdict) (now : Int) : Store :=
  match store.validations.find item.row.runID, store.ledger.runs.find item.row.runID with
  | some row, some run =>
    let retired := { store with validations := store.validations.delete row.runID }
    if row ≠ item.row then store
    else if !migratedLinkOwnership run row then retired
    else if verdict = .retired ∨ run.observation ≠ item.observed then store
    else match verdict with
    | .retry =>
      { store with
        validations := store.validations.update row.runID fun row =>
          { row with
            failures := row.failures + 1
            retryNS := now + unrecordedDispatchBackoff item.row.failures } }
    | .absent =>
      { retired with
        ledger := store.ledger.transact row.runID fun run =>
          .ok (run.markTerminalLinkRegressed item.row.jobID) }
    | .found | .retired => retired
  | _, _ => store

end Store

/-! ## 3. Operations -/

/-- The transactions on one run. What a projection compares with is the state an earlier read
returned; its `required_envelope` is read with it and never written. -/
inductive Txn
  | appendEnvelope
  | appendGateResult (failure : Option String) (now tokenGrace : Int)
  | rejectProtocolWrite (reason : String) (now tokenGrace : Int)
  | beginDispatch (random : String) (now : Int)
  | recordDispatchError (cause : APIError) (now : Int)
  | failDispatch (cause : APIError) (now tokenGrace : Int)
  | completeDispatch (jobID : String) (evidence : Evidence) (observed : Option Observation)
      (now : Int)
  | linkUnrecordedDispatch (item : UnrecordedDispatch) (jobID : String) (now : Int)
  | acceptRecoveredCancellation (item : UnrecordedDispatch) (jobID : String) (now : Int)
  | settleUnrecordedDispatch (item : UnrecordedDispatch) (lookupStarted : Int)
  | deferUnrecordedDispatch (failures : Nat) (now : Int)
  | requestRunCancellation (actor : String) (now tokenGrace : Int)
  | cancelAbsentDispatch (lookupStarted now tokenGrace : Int)
  | cancelAbsentStoredIdentity (observed : Observation) (now : Int)
  | finishRunCancellation (now : Int)
  | refuseRunCancellation (cause : APIError) (now : Int)
  | deferRunCancellation (cause : APIError) (now : Int)
  | deferUnlinkedRunCancellation (cause : APIError) (now : Int)
  | clearDeliveryFailure
  | projectJobOutcome (jobID : String) (state : RunState) (job : JobState) (jobFailure : String)
      (now tokenGrace : Int)
  | failMissingL1Job (jobID : String) (state : RunState) (now tokenGrace : Int)
  | settleNodeAttribution (nodeID : String)
  | recordRunNode (nodeID : String) (settled : Bool) (now : Int)

def Txn.commit (ledger : Ledger) (runID : String) (run : Run) : Txn → Except LinkError Run
  | .appendEnvelope => .ok run.acceptEnvelope
  | .appendGateResult failure now grace => .ok (run.acceptGate failure now grace)
  | .rejectProtocolWrite reason now grace => .ok (run.rejectProtocolWrite reason now grace)
  | .beginDispatch random now => (run.beginDispatch ledger.held random now).map Prod.snd
  | .recordDispatchError cause now => .ok (run.recordDispatchError cause now)
  | .failDispatch cause now grace => .ok (run.failDispatch cause now grace)
  | .completeDispatch jobID evidence observed now =>
    run.completeDispatch jobID evidence observed now
  | .linkUnrecordedDispatch item jobID now => run.linkUnrecordedDispatch item jobID now
  | .acceptRecoveredCancellation item jobID now => run.acceptRecoveredCancellation item jobID now
  | .settleUnrecordedDispatch item lookupStarted =>
    .ok (run.settleUnrecordedDispatch item lookupStarted)
  | .deferUnrecordedDispatch failures now => .ok (run.deferUnrecordedDispatch failures now)
  | .requestRunCancellation actor now grace =>
    if ledger.mayCancel runID actor run then run.requestRunCancellation now grace
    else .error .forbidden
  | .cancelAbsentDispatch lookupStarted now grace =>
    run.cancelAbsentDispatch lookupStarted now grace
  | .cancelAbsentStoredIdentity observed now => run.cancelAbsentStoredIdentity observed now
  | .finishRunCancellation now => .ok (run.finishRunCancellation now)
  | .refuseRunCancellation cause now => .ok (run.refuseRunCancellation cause now)
  | .deferRunCancellation cause now => .ok (run.deferRunCancellation cause now)
  | .deferUnlinkedRunCancellation cause now => .ok (run.deferUnlinkedRunCancellation cause now).2
  | .clearDeliveryFailure => .ok run.clearDeliveryFailure
  | .projectJobOutcome jobID state job jobFailure now grace =>
    .ok (run.projectJobOutcome ⟨runID, jobID, state, run.requiredEnvelope⟩ job jobFailure
      (ledger.children runID) now grace)
  | .failMissingL1Job jobID state now grace =>
    .ok (run.failMissingL1Job ⟨runID, jobID, state, run.requiredEnvelope⟩ now grace)
  | .settleNodeAttribution nodeID => .ok (run.settleNodeAttribution nodeID)
  | .recordRunNode nodeID settled now => .ok (run.recordRunNode nodeID settled now)

inductive Op
  /-- The process starts on the ledger. -/
  | openStore
  /-- `CreateRun`, and `CreateRerun` where the request has a source. -/
  | createRun (request : CreateRun) (now : Int)
  /-- `holdDispatch` and the admission probe that lifts it. -/
  | hold (held : Bool)
  | transact (runID : String) (txn : Txn)
  | completeMigratedLinkValidation (item : MigratedLinkValidation) (verdict : MigratedLinkVerdict)
      (now : Int)

namespace Store

def step (store : Store) : Op → Store
  | .openStore => store.openStore
  | .createRun request now => { store with ledger := store.ledger.createRun request now }
  | .hold held => { store with ledger := { store.ledger with held := held } }
  | .transact runID txn =>
    { store with
      ledger := store.ledger.transact runID fun run => txn.commit store.ledger runID run }
  | .completeMigratedLinkValidation item verdict now =>
    store.completeMigratedLinkValidation item verdict now

def start : Store := ⟨⟨Table.empty, false⟩, false, Table.empty⟩

def reached (ops : List Op) : Store := Runs.exec step start ops

theorem reached_snoc (ops : List Op) (op : Op) : reached (ops ++ [op]) = (reached ops).step op :=
  Runs.exec_append _ _ _ _

end Store

end Wefty.LedgerStore
