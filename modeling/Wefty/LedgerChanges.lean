/-
What the store operations can do to one run (`Wefty.LedgerStore`).

Some twenty-five transactions write the rows of a run, and every one of them is a sequence of
six kinds of change: bookkeeping that no argument reads (`Quiet`), dropping the staged bearer,
recording a diagnosis, beginning a submit, linking a job, and ending the run (`Ends`). One
lemma for each transaction says which changes it makes. What holds of a run in every reachable
ledger is then argued once for each kind of change, not once for each transaction.

Two parameters say what differs between the transactions: `admits` holds of the errors of L1
that may be recorded as a diagnosis, and `success` is what a transaction that ends the run as
succeeded has established. Only a projection has such a thing.
-/
import Wefty.DispatchSteps
import Wefty.LedgerStore
import Mathlib.Logic.Relation

set_option autoImplicit false

namespace Wefty.LedgerChanges

open Relation Tables Rows RunJobLink LinkRules Dispatch DispatchSteps LedgerStore

variable {now : Int} {run run' : Run} {jobID : String} {item : UnrecordedDispatch}
variable {grace : Int} {reason : String}

/-! ## 1. The kinds of change -/

/-- What every change leaves alone or only adds to. -/
structure Fixed (run run' : Run) : Prop where
  runID : run'.runID = run.runID
  intent : run'.intent = run.intent
  requiredEnvelope : run'.requiredEnvelope = run.requiredEnvelope
  accepted : run.acceptedEnvelopes ≤ run'.acceptedEnvelopes
  rejected : run.rejectedWrites ≤ run'.rejectedWrites
  gates : run.failedGates ≤ run'.failedGates

structure SameOutbox (run run' : Run) : Prop where
  jobID : run'.outbox.jobID = run.outbox.jobID
  lastError : run'.outbox.lastError = run.outbox.lastError
  dispatched : run'.outbox.dispatchedNS = run.outbox.dispatchedNS

/-- Bookkeeping: retries, cancellations, attribution, counts, and a move between two states
neither of which is final. -/
structure Quiet (run run' : Run) : Prop where
  fixed : Fixed run run'
  outbox : SameOutbox run run'
  delivery : run'.outbox.tokenDelivery = run.outbox.tokenDelivery
  link : run'.l1JobID = run.l1JobID
  token : run'.token = run.token
  reason : run.status.terminal = true → run'.failureReason = run.failureReason
  finished : run.status.terminal = true → run'.finishedNS = run.finishedNS
  status : run'.status = run.status ∨ run.status.terminal = false ∧ run'.status.terminal = false

/-- The two link details of an error are those of the ledger's own diagnoses; an error without
them says nothing about the job. -/
def Plain (cause : APIError) : Prop :=
  cause.l1JobID = none ∧ cause.reason ≠ l1RegressedReason

/-- A diagnosis the ledger records: one of those admitted, one that says nothing about the job,
or the regression of a job the run names. -/
def Diagnosis (admits : APIError → Prop) (run : Run) (cause : APIError) : Prop :=
  admits cause ∨ Plain cause ∨ ∃ jobID, cause = l1RegressionCause jobID ∧ run.Names jobID

/-- A submit begins: only before the run is closed, with the staged bearer or, where the run has
no token yet, a fresh one. -/
structure Begins (run run' : Run) : Prop where
  fixed : Fixed run run'
  before : run.closed = false
  after : run'.status.terminal = false
  undispatched : run'.outbox.dispatchedNS = none
  jobID : run'.outbox.jobID = run.outbox.jobID
  lastError : run'.outbox.lastError = none
  link : run'.l1JobID = run.l1JobID

/-- The run ends: its token expires, and its bearer is dropped unless an earlier dispatch did
so. -/
structure Ends (success : Prop) (run run' : Run) : Prop where
  fixed : Fixed run run'
  outbox : SameOutbox run run'
  link : run'.l1JobID = run.l1JobID
  live : run.status.terminal = false
  ended : run'.status.terminal = true
  success : run'.status = .succeeded → success
  expires : ∀ token, run'.token = some token → token.expiresNS.isSome = true
  delivery : run'.outbox.tokenDelivery = none ∨
    run.outbox.dispatchedNS.isSome = true ∧
      run'.outbox.tokenDelivery = run.outbox.tokenDelivery

inductive Change (admits : APIError → Prop) (success : Prop) (run : Run) : Run → Prop
  | quiet {run' : Run} (h : Quiet run run') : Change admits success run run'
  | unstaged : Change admits success run
      { run with outbox := { run.outbox with tokenDelivery := none } }
  | diagnosed (cause : APIError) (h : Diagnosis admits run cause) : Change admits success run
      { run with outbox := { run.outbox with lastError := some cause } }
  | begun {run' : Run} (h : Begins run run') : Change admits success run run'
  | linked (jobID : String) (evidence : Evidence) (now : Int) (hne : jobID ≠ "")
      (h : run.conflictsWith jobID = false) :
      Change admits success run (run.link jobID evidence now)
  | migrated (jobID : String) (h : run.outbox.jobID = some jobID) :
      Change admits success run (run.linkTerminalRun jobID)
  | ended {run' : Run} (h : Ends success run run') : Change admits success run run'

abbrev Changes (admits : APIError → Prop) (success : Prop) : Run → Run → Prop :=
  ReflTransGen (Change admits success)

namespace Fixed

theorem refl (run : Run) : Fixed run run :=
  ⟨rfl, rfl, rfl, Nat.le_refl _, Nat.le_refl _, Nat.le_refl _⟩

theorem trans {a b c : Run} (h : Fixed a b) (h' : Fixed b c) : Fixed a c where
  runID := h'.runID.trans h.runID
  intent := h'.intent.trans h.intent
  requiredEnvelope := h'.requiredEnvelope.trans h.requiredEnvelope
  accepted := Nat.le_trans h.accepted h'.accepted
  rejected := Nat.le_trans h.rejected h'.rejected
  gates := Nat.le_trans h.gates h'.gates

end Fixed

structure Core where
  fixed : String × RunIntent.DispatchIntent × Bool × Nat × Nat × Nat
  status : RunState
  failureReason : Option String
  finishedNS : Option Int
  l1JobID : Option String
  token : Option RunToken
  outbox : Option String × Option APIError × Option Int × Option String

def core (run : Run) : Core where
  fixed := (run.runID, run.intent, run.requiredEnvelope, run.acceptedEnvelopes, run.rejectedWrites,
    run.failedGates)
  status := run.status
  failureReason := run.failureReason
  finishedNS := run.finishedNS
  l1JobID := run.l1JobID
  token := run.token
  outbox := (run.outbox.jobID, run.outbox.lastError, run.outbox.dispatchedNS,
    run.outbox.tokenDelivery)

theorem Fixed.of_core (h : (core run').fixed = (core run).fixed) : Fixed run run' where
  runID := congrArg (fun c => c.1) h
  intent := congrArg (fun c => c.2.1) h
  requiredEnvelope := congrArg (fun c => c.2.2.1) h
  accepted := Nat.le_of_eq (congrArg (fun c => c.2.2.2.1) h).symm
  rejected := Nat.le_of_eq (congrArg (fun c => c.2.2.2.2.1) h).symm
  gates := Nat.le_of_eq (congrArg (fun c => c.2.2.2.2.2) h).symm

theorem Fixed.of_linkTerminalRun : Fixed run (run.linkTerminalRun jobID) := by
  unfold Run.linkTerminalRun
  split <;> exact .of_core rfl

variable {evidence : Evidence}

theorem Fixed.of_link : Fixed run (run.link jobID evidence now) := by
  unfold Run.link
  split
  · exact .of_core rfl
  · refine trans ?_ of_linkTerminalRun
    exact .of_core rfl

theorem Quiet.of_core (h : core run' = core run) : Quiet run run' where
  fixed := .of_core (congrArg Core.fixed h)
  outbox :=
    { jobID := congrArg (fun c => c.outbox.1) h
      lastError := congrArg (fun c => c.outbox.2.1) h
      dispatched := congrArg (fun c => c.outbox.2.2.1) h }
  delivery := congrArg (fun c => c.outbox.2.2.2) h
  link := congrArg Core.l1JobID h
  token := congrArg Core.token h
  reason := fun _ => congrArg Core.failureReason h
  finished := fun _ => congrArg Core.finishedNS h
  status := Or.inl (congrArg Core.status h)

/-! ## 2. What each transaction changes -/

section Transactions

variable {admits : APIError → Prop} {success : Prop}

theorem changes_of_quiet (h : Quiet run run') : Changes admits success run run' :=
  ReflTransGen.single (Change.quiet h)

theorem expireToken_expires (run : Run) (expires : Int) (token : RunToken)
    (h : (run.expireToken expires).token = some token) : token.expiresNS.isSome = true := by
  obtain ⟨row, -, rfl⟩ := Option.map_eq_some_iff.mp h
  cases row.expiresNS <;> rfl

theorem failRun_changes : Changes admits success run (run.failRun now grace reason) := by
  unfold Run.failRun
  by_cases h : run.status.terminal = true
  · -- a run that ended keeps its end; only what was staged for it goes
    rw [if_pos h]
    exact ReflTransGen.tail (ReflTransGen.single Change.unstaged)
      (Change.quiet (Quiet.of_core rfl))
  · rw [if_neg h]
    refine ReflTransGen.single (Change.ended ?_)
    refine ⟨.of_core rfl, ⟨rfl, rfl, rfl⟩, rfl, by simpa using h, rfl, ?_, ?_, Or.inl rfl⟩
    · intro hs
      cases hs
    · exact expireToken_expires _ _

theorem acceptEnvelope_changes : Changes admits success run run.acceptEnvelope :=
  changes_of_quiet ⟨⟨rfl, rfl, rfl, Nat.le_succ _, Nat.le_refl _, Nat.le_refl _⟩,
    ⟨rfl, rfl, rfl⟩, rfl, rfl, rfl, fun _ => rfl, fun _ => rfl, Or.inl rfl⟩

theorem acceptGate_changes {failure : Option String} :
    Changes admits success run (run.acceptGate failure now grace) := by
  cases failure with
  | none => exact ReflTransGen.refl
  | some reason =>
    refine ReflTransGen.trans (changes_of_quiet ?_) failRun_changes
    exact ⟨⟨rfl, rfl, rfl, Nat.le_refl _, Nat.le_refl _, Nat.le_succ _⟩,
      ⟨rfl, rfl, rfl⟩, rfl, rfl, rfl, fun _ => rfl, fun _ => rfl, Or.inl rfl⟩

theorem rejectProtocolWrite_changes :
    Changes admits success run (run.rejectProtocolWrite reason now grace) := by
  refine ReflTransGen.trans (changes_of_quiet ?_) failRun_changes
  exact ⟨⟨rfl, rfl, rfl, Nat.le_refl _, Nat.le_succ _, Nat.le_refl _⟩,
    ⟨rfl, rfl, rfl⟩, rfl, rfl, rfl, fun _ => rfl, fun _ => rfl, Or.inl rfl⟩

theorem beginDispatch_changes {held : Bool} {random token : String}
    (h : run.beginDispatch held random now = .ok (token, run')) :
    Changes admits success run run' := by
  refine ReflTransGen.single (Change.begun ?_)
  have hclo := (beginDispatch_ok h).1
  unfold Run.beginDispatch at h
  split at h
  case isFalse => cases h
  case isTrue =>
    unfold Run.ensureRunToken at h
    dsimp only at h
    split at h
    case isTrue => cases h
    case isFalse hdisp =>
      have hdisp : run.outbox.dispatchedNS = none := by simpa using hdisp
      -- the staged bearer or a fresh one: the link columns are the same either way
      split at h
      · cases h
        exact ⟨.of_core rfl, hclo, rfl, hdisp, rfl, rfl, rfl⟩
      · split at h
        case isTrue => cases h
        case isFalse =>
          cases h
          exact ⟨.of_core rfl, hclo, rfl, hdisp, rfl, rfl, rfl⟩

variable {cause : APIError}

theorem recordDispatchError_changes (hcause : Diagnosis admits run cause) :
    Changes admits success run (run.recordDispatchError cause now) := by
  unfold Run.recordDispatchError
  cases run.outbox.dispatchedNS.isNone && !run.jobLinkSettled with
  | false => exact changes_of_quiet (Quiet.of_core rfl)
  | true =>
    exact ReflTransGen.tail (ReflTransGen.single (Change.diagnosed cause hcause))
      (Change.quiet (Quiet.of_core rfl))

theorem failDispatch_changes (hcause : Diagnosis admits run cause) :
    Changes admits success run (run.failDispatch cause now grace) := by
  unfold Run.failDispatch
  refine ReflTransGen.trans ?_ failRun_changes
  by_cases hpend : run.outbox.dispatchedNS.isNone = true
  · rw [if_pos hpend]
    -- a settled diagnosis outlives the refusal
    by_cases hset : run.jobLinkSettled = true
    · rw [if_pos hset]
      exact ReflTransGen.single Change.unstaged
    · rw [if_neg hset]
      exact ReflTransGen.tail (ReflTransGen.single (Change.diagnosed cause hcause)) Change.unstaged
  · rw [if_neg hpend]

theorem completeDispatch_changes {observed : Option Observation}
    (h : run' = run ∨ run.completeDispatch jobID evidence observed now = .ok run') :
    Changes admits success run run' := by
  rcases h.elim .inl completeDispatch_ok with rfl | ⟨hne, hconf, rfl⟩
  · exact ReflTransGen.refl
  · exact ReflTransGen.single (Change.linked jobID evidence now hne hconf)

/-- The cause of a settlement says nothing about a job, or that the acknowledged one is gone. -/
theorem settlementCause_diagnosis (h : run.outbox.jobID.getD "" = item.outboxJobID) :
    Diagnosis admits run (settlementCause item) := by
  unfold settlementCause
  by_cases hid : item.outboxJobID = ""
  · rw [if_neg (by simpa using hid)]
    exact Or.inr (Or.inl ⟨rfl, by decide⟩)
  rw [if_pos hid]
  refine Or.inr (Or.inr ⟨item.outboxJobID, rfl, Or.inr ?_⟩)
  cases hj : run.outbox.jobID with
  | none =>
    rw [hj] at h
    exact absurd h.symm hid
  | some jobID =>
    rw [hj] at h
    exact congrArg some h

theorem settleUnrecordedDispatch_changes {lookupStarted : Int} :
    Changes admits success run (run.settleUnrecordedDispatch item lookupStarted) := by
  unfold Run.settleUnrecordedDispatch
  split
  · rename_i hdue
    have hjob : run.outbox.jobID.getD "" = item.outboxJobID := by
      unfold Run.settlementDue at hdue
      simp only [Bool.and_eq_true, decide_eq_true_eq] at hdue
      exact hdue.1.2
    -- a permanent refusal recorded before stays the diagnosis
    by_cases hretry : run.outbox.lastError.all APIError.retryable = true
    · rw [if_pos hretry]
      exact ((ReflTransGen.single
        (Change.diagnosed _ (settlementCause_diagnosis hjob))).tail Change.unstaged).tail
          (Change.quiet (Quiet.of_core rfl))
    · rw [if_neg hretry]
      exact (ReflTransGen.single Change.unstaged).tail (Change.quiet (Quiet.of_core rfl))
  · exact ReflTransGen.refl

/-- Bookkeeping that is done under a condition. -/
theorem changes_of_ite {c : Prop} [Decidable c] (h : core run' = core run) :
    Changes admits success run (if c then run' else run) := by
  split
  · exact changes_of_quiet (Quiet.of_core h)
  · exact ReflTransGen.refl

theorem linkStoredEvidence_changes (h : run.linkStoredEvidence now = .ok run')
    : Changes admits success run run' := by
  unfold Run.linkStoredEvidence at h
  split at h
  · exact completeDispatch_changes (.inr h)
  · cases h
    exact ReflTransGen.refl

theorem requestRunCancellation_changes (h : run.requestRunCancellation now grace = .ok run') :
    Changes admits success run run' := by
  rcases requestRunCancellation_ok h with rfl | ⟨-, -, rfl⟩ | ⟨linked, hl, rfl⟩
  · exact ReflTransGen.refl
  · exact (failRun_changes).tail (Change.quiet (Quiet.of_core rfl))
  · exact (linkStoredEvidence_changes hl).tail (Change.quiet (Quiet.of_core rfl))

theorem cancelAbsentDispatch_changes {lookupStarted : Int}
    (h : run.cancelAbsentDispatch lookupStarted now grace = .ok run') :
    Changes admits success run run' := by
  unfold Run.cancelAbsentDispatch at h
  split at h
  · cases h
    exact ReflTransGen.refl
  split at h
  · cases h
  · split at h
    · cases h
      exact (failRun_changes).tail (Change.quiet (Quiet.of_core rfl))
    · cases h
      exact ReflTransGen.refl

theorem cancelAbsentStoredIdentity_changes {observed : Observation}
    (h : run.cancelAbsentStoredIdentity observed now = .ok run') :
    Changes admits success run run' := by
  rcases cancelAbsentStoredIdentity_ok h with rfl | ⟨cancellation, hsome, rfl⟩ |
    ⟨cancellation, jobID, hlink, hsome, rfl⟩
  · exact ReflTransGen.refl
  · exact changes_of_quiet (Quiet.of_core rfl)
  · refine ReflTransGen.tail (ReflTransGen.single (Change.diagnosed (l1RegressionCause jobID) ?_))
      (Change.quiet (Quiet.of_core rfl))
    exact Or.inr (Or.inr ⟨jobID, rfl, Or.inl hlink⟩)

theorem deferUnlinkedRunCancellation_changes :
    Changes admits success run (run.deferUnlinkedRunCancellation cause now).2 := by
  unfold Run.deferUnlinkedRunCancellation
  split
  · exact ReflTransGen.refl
  · exact changes_of_quiet (Quiet.of_core rfl)

theorem migrateLegacyLink_changes (h : run.legacyLink = true) :
    Changes admits success run run.migrateLegacyLink := by
  have hjob : run.outbox.jobID.any (· ≠ "") = true := by
    unfold Run.legacyLink at h
    simp only [Bool.and_eq_true] at h
    exact h.1.1.1.1.1.2
  cases hj : run.outbox.jobID with
  | none =>
    rw [hj] at hjob
    cases hjob
  | some jobID =>
    refine ReflTransGen.single (Change.migrated _ ?_)
    rw [hj]
    rfl

theorem failMissingL1Job_changes (run : Run) (projected : ProjectedRun) (now grace : Int) :
    Changes admits success run (run.failMissingL1Job projected now grace) := by
  unfold Run.failMissingL1Job
  split
  · rename_i h
    obtain ⟨-, hlive, hst, hlink, -, hdisp⟩ := h
    rw [← hst] at hlive
    refine ReflTransGen.tail (ReflTransGen.single
      (Change.diagnosed (l1RegressionCause projected.jobID) ?_)) (Change.ended ?_)
    · exact Or.inr (Or.inr ⟨projected.jobID, rfl, Or.inl hlink⟩)
    · refine ⟨.of_core rfl, ⟨rfl, rfl, rfl⟩, rfl, hlive, rfl, ?_, ?_, Or.inr ⟨hdisp, rfl⟩⟩
      · intro hs
        cases hs
      · exact expireToken_expires _ _
  · exact ReflTransGen.refl

end Transactions

/-! ## 3. A projection -/

/-- A projection aims at success only for a job that was observed succeeded, and the ledger's
gates let it through only if nothing was rejected, no gate failed, no child is open or failed,
and a required envelope was accepted. -/
theorem gatedTarget_succeeded {projected : ProjectedRun} {job : JobState}
    {jobFailure : String} {children : Children} {target : RunState}
    (htgt : projectJobState projected.state job = some target)
    (h : run.gatedTarget projected job jobFailure children target = some (.succeeded, reason)) :
    job = .succeeded ∧ run.rejectedWrites = 0 ∧ run.failedGates = 0 ∧ children.failed = 0 ∧
      children.active = 0 ∧ (projected.requiredEnvelope = true → run.acceptedEnvelopes ≠ 0) := by
  unfold Run.gatedTarget at h
  by_cases hjob : job = .succeeded
  · rw [if_pos hjob] at h
    split at h
    case isTrue => cases h
    case isFalse hgates =>
      split at h
      case isTrue =>
        split at h <;> cases h
      case isFalse hactv =>
        simp only [not_or, not_and, Nat.not_lt, Nat.le_zero] at hgates hactv
        exact ⟨hjob, hgates.1, hgates.2.1, hgates.2.2.1, hactv, hgates.2.2.2⟩
  · -- no other job state projects onto success
    rw [if_neg hjob] at h
    have hne : target ≠ .succeeded := projectJobState_ne_succeeded htgt hjob
    split at h
    · cases h
      exact absurd rfl hne
    · cases h
      exact absurd rfl hne

theorem projectJobOutcome_changes {admits : APIError → Prop} {success : Prop} (run : Run)
    (projected : ProjectedRun) (job : JobState) (jobFailure : String) (children : Children)
    (now grace : Int) (hsuccess : job = .succeeded ∧ run.rejectedWrites = 0 ∧ run.failedGates = 0 ∧
      children.failed = 0 ∧ children.active = 0 ∧
      (projected.requiredEnvelope = true → run.acceptedEnvelopes ≠ 0) → success) :
    Changes admits success run
      (run.projectJobOutcome projected job jobFailure children now grace) := by
  unfold Run.projectJobOutcome
  split
  · exact ReflTransGen.refl
  rename_i target reason hgated
  obtain ⟨target₀, htgt, hgate⟩ := Option.bind_eq_some_iff.mp hgated
  by_cases hst : run.status = projected.state
  · have hlive : run.status.terminal = false := by
      rw [hst]
      exact projectJobState_some htgt
    rw [if_neg (by simpa using hst)]
    by_cases hterm : target.terminal = true
    · rw [if_pos hterm]
      refine ReflTransGen.single (Change.ended ?_)
      refine ⟨.of_core rfl, ⟨rfl, rfl, rfl⟩, rfl, hlive, hterm, ?_, expireToken_expires _ _,
        Or.inl rfl⟩
      intro hs
      have hs : target = .succeeded := hs
      rw [hs] at hgate
      exact hsuccess (gatedTarget_succeeded htgt hgate)
    · rw [if_neg hterm]
      have hterm : target.terminal = false := by simpa using hterm
      refine changes_of_quiet ⟨.of_core rfl, ⟨rfl, rfl, rfl⟩, rfl, rfl, rfl, ?_, ?_,
        Or.inr ⟨hlive, hterm⟩⟩
      all_goals
        intro h
        rw [hlive] at h
        cases h
  · rw [if_pos hst]

/-! ## 4. Every transaction -/

structure Passes (ledger : Ledger) (runID : String) (run : Run) : Prop where
  rejected : run.rejectedWrites = 0
  gates : run.failedGates = 0
  failed : (ledger.children runID).failed = 0
  active : (ledger.children runID).active = 0
  envelope : run.requiredEnvelope = true → run.acceptedEnvelopes ≠ 0

end Wefty.LedgerChanges

namespace Wefty.LedgerStore.Txn

open RunJobLink

def projectsSuccess : Txn → Bool
  | .projectJobOutcome _ _ .succeeded _ _ _ => true
  | _ => false

def submitError : Txn → Option APIError
  | .recordDispatchError cause _ | .failDispatch cause _ _ => some cause
  | _ => none

end Wefty.LedgerStore.Txn

namespace Wefty.LedgerChanges

open Relation Tables Rows RunJobLink LinkRules Dispatch DispatchSteps LedgerStore

variable {admits : APIError → Prop} {success : String → Run → Prop} {ledger ledger' : Ledger}
variable {run run' : Run} {runID : String}

/-- **A commit is a sequence of changes.** -/
theorem commit_changes {txn : Txn} (h : txn.commit ledger runID run = .ok run')
    (hcause : ∀ cause, txn.submitError = some cause → admits cause ∨ Plain cause) :
    Changes admits (txn.projectsSuccess = true ∧ Passes ledger runID run) run run' := by
  have hdiagnosis : ∀ cause, txn.submitError = some cause → Diagnosis admits run cause := by
    intro cause hc
    rcases hcause cause hc with ha | hp
    · exact Or.inl ha
    · exact Or.inr (Or.inl hp)
  cases txn with
  | appendEnvelope => cases h; exact acceptEnvelope_changes
  | appendGateResult failure now grace => cases h; exact acceptGate_changes
  | rejectProtocolWrite reason now grace =>
    cases h; exact rejectProtocolWrite_changes
  | beginDispatch random now =>
    have h : (run.beginDispatch ledger.held random now).map Prod.snd = .ok run' := h
    cases hb : run.beginDispatch ledger.held random now with
    | error e =>
      rw [hb] at h
      cases h
    | ok begun =>
      rw [hb] at h
      cases h
      exact beginDispatch_changes hb
  | recordDispatchError cause now =>
    cases h; exact recordDispatchError_changes (hdiagnosis cause rfl)
  | failDispatch cause now grace =>
    cases h; exact failDispatch_changes (hdiagnosis cause rfl)
  | completeDispatch jobID evidence observed now => exact completeDispatch_changes (.inr h)
  | linkUnrecordedDispatch item jobID now =>
    exact completeDispatch_changes (linkUnrecordedDispatch_ok h)
  | acceptRecoveredCancellation item jobID now =>
    exact completeDispatch_changes (acceptRecoveredCancellation_ok h)
  | settleUnrecordedDispatch item lookupStarted =>
    cases h; exact settleUnrecordedDispatch_changes
  | deferUnrecordedDispatch | settleNodeAttribution | recordRunNode =>
    cases h; exact changes_of_ite rfl
  | requestRunCancellation actor now grace =>
    have h : (if ledger.mayCancel runID actor run then run.requestRunCancellation now grace
      else .error .forbidden) = .ok run' := h
    split at h
    · exact requestRunCancellation_changes h
    · cases h
  | cancelAbsentDispatch lookupStarted now grace => exact cancelAbsentDispatch_changes h
  | cancelAbsentStoredIdentity observed now => exact cancelAbsentStoredIdentity_changes h
  | finishRunCancellation | refuseRunCancellation | deferRunCancellation | clearDeliveryFailure =>
    cases h; exact changes_of_quiet (Quiet.of_core rfl)
  | deferUnlinkedRunCancellation cause now =>
    cases h; exact deferUnlinkedRunCancellation_changes
  | projectJobOutcome jobID state job jobFailure now grace =>
    cases h
    apply projectJobOutcome_changes
    rintro ⟨rfl, hrejected, hgates, hfail, hactv, henvelope⟩
    exact ⟨rfl, hrejected, hgates, hfail, hactv, henvelope⟩
  | failMissingL1Job jobID state now grace =>
    cases h
    exact failMissingL1Job_changes run _ now grace

/-! ## 5. Every operation -/

/-- What an operation does to the runs of a ledger: each stays and goes through some changes, and
a run that was not there is a new one whose parent, if it names one, has not ended. An
operation that creates a run ends none as succeeded. -/
structure Evolves (admits : APIError → Prop) (success : String → Run → Prop)
    (ledger ledger' : Ledger) : Prop where
  old : ∀ runID run, ledger.runs.find runID = some run →
    ∃ run', ledger'.runs.find runID = some run' ∧ Changes admits (success runID run) run run'
  new : ∀ runID run', ledger'.runs.find runID = some run' → ledger.runs.find runID = none →
    ∃ request now, run' = newRun request now ∧ ledger.parentLive request.parentRunID = true ∧
      ∀ other run, ¬success other run

theorem Evolves.kept (h : Evolves admits success ledger ledger')
    (hr : ledger.runs.find runID = some run) (hr' : ledger'.runs.find runID = some run') :
    Changes admits (success runID run) run run' := by
  obtain ⟨run'', hr'', hchg⟩ := h.old runID run hr
  cases hr'.symm.trans hr''
  exact hchg

/-- What holds of every new run and survives changes holds of all runs. -/
theorem Evolves.all {P : Run → Prop} (h : Evolves admits success ledger ledger')
    (hnew : ∀ request now, P (newRun request now))
    (hkeep : ∀ {success run run'}, P run → Changes admits success run run' → P run')
    (hall : ∀ runID run, ledger.runs.find runID = some run → P run) (runID : String) (run' : Run)
    (hr' : ledger'.runs.find runID = some run') : P run' := by
  cases hr : ledger.runs.find runID with
  | none =>
    obtain ⟨request, now, rfl, -⟩ := h.new runID run' hr' hr
    exact hnew request now
  | some run => exact hkeep (hall runID run hr) (h.kept hr hr')

theorem Evolves.of_runs (h : ledger'.runs = ledger.runs) :
    Evolves admits success ledger ledger' where
  old := fun _ run hr => ⟨run, by rw [h, hr], ReflTransGen.refl⟩
  new := by
    intro runID run' hr' hn
    rw [h, hn] at hr'
    cases hr'

theorem Evolves.refl (ledger : Ledger) : Evolves admits success ledger ledger :=
  Evolves.of_runs rfl

theorem Change.fixed {success : Prop} (h : Change admits success run run') : Fixed run run' := by
  cases h with
  | quiet h | begun h | ended h => exact h.fixed
  | unstaged | diagnosed => exact .of_core rfl
  | linked jobID evidence now hne h => exact Fixed.of_link
  | migrated jobID h => exact Fixed.of_linkTerminalRun

theorem Changes.fixed {success : Prop} (h : Changes admits success run run') : Fixed run run' := by
  induction h with
  | refl => exact Fixed.refl run
  | tail _ hlast ih => exact ih.trans hlast.fixed

theorem transact_evolves {tx : RunTx}
    (h : ∀ run run', ledger.runs.find runID = some run → tx run = .ok run' →
      Changes admits (success runID run) run run') :
    Evolves admits success ledger (ledger.transact runID tx) := by
  constructor
  · intro other run hr
    by_cases ho : other = runID
    · subst ho
      cases htx : tx run with
      | ok run' =>
        have hc := h run run' hr htx
        exact ⟨run', find_transact_ok hr htx (Changes.fixed hc).runID, hc⟩
      | error e =>
        refine ⟨run, ?_, ReflTransGen.refl⟩
        rw [find_transact, if_pos rfl, hr, Option.map_some]
        unfold committed
        rw [htx]
    · refine ⟨run, ?_, ReflTransGen.refl⟩
      rw [find_transact, if_neg ho]
      exact hr
  · intro other run' hr' hn
    rw [find_transact, hn] at hr'
    simp at hr'

theorem openStore_evolves (store : Store) :
    Evolves admits success store.ledger store.openStore.ledger := by
  constructor
  · intro runID run hr
    have hback : Changes admits (success runID run) run run.backfillDispatchAttempt :=
      changes_of_ite rfl
    unfold Store.openStore Store.migrateLegacyRunJobLinks
    split
    · exact ⟨run.backfillDispatchAttempt, by simp [hr], hback⟩
    refine ⟨if run.backfillDispatchAttempt.legacyLink then
        run.backfillDispatchAttempt.migrateLegacyLink
      else run.backfillDispatchAttempt, by simp [hr], ?_⟩
    split
    · rename_i hlegacy
      exact ReflTransGen.trans hback (migrateLegacyLink_changes hlegacy)
    · exact hback
  · intro runID run' hr' hn
    unfold Store.openStore Store.migrateLegacyRunJobLinks at hr'
    split at hr' <;> simp [hn] at hr'

theorem createRun_evolves {request : CreateRun} {now : Int} (hs : ∀ other run, ¬success other run) :
    Evolves admits success ledger (ledger.createRun request now) := by
  unfold Ledger.createRun
  split
  · exact Evolves.refl ledger
  split
  · rename_i hpar
    constructor
    · intro runID run hr
      exact ⟨run, Table.find_insert_of_some hr, ReflTransGen.refl⟩
    · intro runID run' hr' hn
      exact ⟨request, now, Table.eq_of_find_insert hr' hn, hpar, hs⟩
  · exact Evolves.refl ledger

/-- A validation that finds the linked job gone records its regression; every other verdict
leaves the runs alone. -/
theorem completeMigratedLinkValidation_evolves (store : Store) (item : MigratedLinkValidation)
    (verdict : MigratedLinkVerdict) (now : Int) :
    Evolves admits success store.ledger
      (store.completeMigratedLinkValidation item verdict now).ledger := by
  unfold Store.completeMigratedLinkValidation
  split
  · rename_i row run hrow hrun
    split
    · exact Evolves.refl _
    rename_i hsame
    have hsame : row = item.row := by simpa using hsame
    split
    · exact Evolves.refl _
    rename_i howned
    have hlink : run.l1JobID = some row.jobID := by
      simp only [migratedLinkOwnership, Bool.not_eq_true', Bool.not_eq_false,
        Bool.and_eq_true, decide_eq_true_eq] at howned
      exact howned.1.1.1.1.1.1.2
    split
    · exact Evolves.refl _
    cases verdict with
    | found | retry | retired => exact Evolves.refl _
    | absent =>
      refine transact_evolves fun run₁ run' hr htx => ?_
      cases htx
      -- the row the verdict names is the one the ownership check was made on
      rw [hsame] at hr hlink
      rw [hrun] at hr
      cases hr
      exact ReflTransGen.single (Change.diagnosed _
        (Or.inr (Or.inr ⟨item.row.jobID, rfl, Or.inl hlink⟩)))
  · exact Evolves.refl _

end Wefty.LedgerChanges

namespace Wefty.LedgerStore.Op

open RunJobLink

def projectsSuccess : Op → String → Bool
  | .transact runID txn, other => other = runID && txn.projectsSuccess
  | _, _ => false

def submitError : Op → Option APIError
  | .transact _ txn => txn.submitError
  | _ => none

end Wefty.LedgerStore.Op

namespace Wefty.LedgerChanges

open Relation Tables Rows RunJobLink LinkRules Dispatch DispatchSteps LedgerStore

theorem step_evolves (admits : APIError → Prop) (store : Store) (op : LedgerStore.Op)
    (hcause : ∀ cause, op.submitError = some cause → admits cause ∨ Plain cause) :
    Evolves admits (fun runID run => op.projectsSuccess runID = true ∧
      Passes store.ledger runID run) store.ledger (store.step op).ledger := by
  cases op with
  | openStore => exact openStore_evolves store
  | createRun request now =>
    exact createRun_evolves fun _ _ h => nomatch h.1
  | hold held => exact Evolves.of_runs rfl
  | completeMigratedLinkValidation item verdict now =>
    exact completeMigratedLinkValidation_evolves store item verdict now
  | transact runID txn =>
    refine transact_evolves fun run run' _ htx => ?_
    have hprojects : (LedgerStore.Op.transact runID txn).projectsSuccess runID =
      txn.projectsSuccess := by
      simp [LedgerStore.Op.projectsSuccess]
    rw [hprojects]
    exact commit_changes htx hcause

end Wefty.LedgerChanges
