/-
What a transaction on one attempt can do to its two rows.

`Advances` says it once for all of them: who the attempt belongs to and the job's fence stay; the
job does not become occupied; an attempt that is active afterwards was active before and is
bound as it was; and an attempt that was not active keeps everything but its late evidence,
with the job untouched. Every transaction of [`Wefty.AttemptAuthority`] and
[`Wefty.Completion`] advances, on each of its commits; the invariants of the store use nothing
else about them.
-/
import Wefty.Completion

set_option autoImplicit false

namespace Wefty.AttemptRules

open Rows StoreRows AttemptClock RestartPolicy Transactions AttemptAuthority Completion

variable {a attempt attempt' b : Attempt} {job job' : Job} {state : JobState} {retries : Nat}
variable {attemptID : Nat} {f : ServiceJob → ServiceJob} {ctx : Ctx} {cause : HealthCause}
variable {node : Node} {reason : InterruptionReason} {request : CompletionRequest} {v : Verdict}
variable {next : Option Int}

/-! ## 1. The relation -/

/-- The columns of an attempt that are written by its claim and never again. -/
structure Identity where
  attemptID : Nat
  jobID : Nat
  nodeID : Nat
  bootSessionID : Nat
  authorityGeneration : Nat
  fencingToken : Nat
  createdNS : Int

def identity (attempt : Attempt) : Identity :=
  ⟨attempt.attemptID, attempt.jobID, attempt.nodeID, attempt.bootSessionID,
    attempt.authorityGeneration, attempt.fencingToken, attempt.createdNS⟩

/-- The columns of a job no attempt writes: its key and its fence, the Computer it is for, its
removal, what it was submitted as, its outcome, the restarts it used, and whether it is a
service. -/
structure Lineage where
  jobID : Nat
  fenceCounter : Nat
  computer : Option (Nat × Bool)
  removal : Option Removal
  requestHash : Nat
  spec : JobSpec
  parentJobID : Option Nat
  parentAttemptID : Option Nat
  originatingSubmitter : Option Nat
  spawnDepth : Nat
  createdNS : Int
  canceled : Bool
  cancelSettleByNS : Int
  restartCount : Nat
  service : Bool

def lineage (job : Job) : Lineage where
  jobID := job.jobID
  fenceCounter := job.fenceCounter
  computer := job.projection.map fun p => (p.computerID, p.current)
  removal := job.removal
  requestHash := job.requestHash
  spec := job.spec
  parentJobID := job.parentJobID
  parentAttemptID := job.parentAttemptID
  originatingSubmitter := job.originatingSubmitter
  spawnDepth := job.spawnDepth
  createdNS := job.createdNS
  canceled := job.canceled
  cancelSettleByNS := job.cancelSettleByNS
  restartCount := job.restartCount
  service := job.service.isSome

/-- `attempt'` is `attempt` with other late evidence at most. -/
def LateEvidence (attempt attempt' : Attempt) : Prop :=
  ∃ key hash late, attempt' = withLateEvidence key hash late attempt

/-- The state and the schedule of a job whose attempt goes on. -/
structure Kept (job job' : Job) : Prop where
  state : job'.state = job.state ∨ job.state = .claimed ∧ job'.state = .running
  nextRestartAtNS : job'.nextRestartAtNS = job.nextRestartAtNS
  prestartRetryCount : job'.prestartRetryCount = job.prestartRetryCount

/-- How a job settles when its attempt ends: the state, the restart and the retries it is left
with. -/
inductive Settles (job : Job) (state : JobState) (next : Option Int) (retries : Nat) : Prop
  /-- A restart was granted; only this schedules one. -/
  | recovered (hcanceled : job.canceled = false)
      (hlimit : job.restartCount < maximumOneshotRestarts) (hstate : state.holding = false)
      (hnext : next.isSome) (hretries : job.prestartRetryCount ≤ retries)
  /-- The runtime went away before the start, and the retry was counted. -/
  | retried (hcanceled : job.canceled = false) (hstate : state = .queued)
      (hnext : next = none ∨ next = job.nextRestartAtNS)
      (hretries : job.prestartRetryCount < retries)
  /-- The job is over. -/
  | ended (hstate : state = .failed ∨ job.canceled = false ∧ state = .succeeded)
      (hnext : next = none ∨ next = job.nextRestartAtNS)
      (hretries : job.prestartRetryCount ≤ retries)
  /-- A service does what its policy says. -/
  | policy (hservice : job.service.isSome) (hstate : state.holding = false)
      (hnext : next = none ∨ next = job.nextRestartAtNS)
      (hretries : job.prestartRetryCount ≤ retries)

/-- What a transaction on one attempt can do to the state and the schedule of its job. -/
inductive Moved (job job' : Job) : Prop
  | kept (h : Kept job job')
  | settled (h : Settles job job'.state job'.nextRestartAtNS job'.prestartRetryCount)

structure Advances (job : Job) (attempt : Attempt) (rows : AttemptRows) : Prop where
  lineage_eq : lineage rows.job = lineage job
  identity_eq : identity rows.attempt = identity attempt
  holding : rows.job.state.holding → job.state.holding
  active : rows.attempt.state.active → attempt.state.active ∧
    rows.job.currentAttemptID = job.currentAttemptID ∧
    rows.job.state.holding = job.state.holding
  inert : attempt.state.active = false → rows.job = job ∧ LateEvidence attempt rows.attempt
  moved : Moved job rows.job
  accepted : attempt.completionKey.isSome →
    rows.attempt.completionKey = attempt.completionKey ∧
      rows.attempt.completionHash = attempt.completionHash

theorem LateEvidence.refl (attempt : Attempt) : LateEvidence attempt attempt :=
  ⟨attempt.completionKey, attempt.completionHash, attempt.lateResult, rfl⟩

theorem LateEvidence.trans {c : Attempt} (h : LateEvidence a b) (h' : LateEvidence b c) :
    LateEvidence a c := by
  obtain ⟨_, _, _, rfl⟩ := h
  obtain ⟨key, hash, late, rfl⟩ := h'
  exact ⟨key, hash, late, rfl⟩

theorem LateEvidence.state_eq (h : LateEvidence a b) : b.state = a.state := by
  obtain ⟨_, _, _, rfl⟩ := h
  rfl

theorem LateEvidence.identity_eq (h : LateEvidence a b) : identity b = identity a := by
  obtain ⟨_, _, _, rfl⟩ := h
  rfl

theorem Kept.refl (job : Job) : Kept job job := ⟨.inl rfl, rfl, rfl⟩

theorem Kept.trans {a b c : Job} (h : Kept a b) (h' : Kept b c) : Kept a c where
  state := by
    rcases h.state with hab | ⟨ha, hb⟩
    · rcases h'.state with hbc | ⟨hb, hc⟩
      · exact .inl (hbc.trans hab)
      · exact .inr ⟨hab.symm.trans hb, hc⟩
    · rcases h'.state with hbc | ⟨-, hc⟩
      · exact .inr ⟨ha, hbc.trans hb⟩
      · exact .inr ⟨ha, hc⟩
  nextRestartAtNS := h'.nextRestartAtNS.trans h.nextRestartAtNS
  prestartRetryCount := h'.prestartRetryCount.trans h.prestartRetryCount

/-- What goes on holds execution exactly as before. -/
theorem Kept.holding (h : Kept job job') : job'.state.holding = job.state.holding := by
  rcases h.state with hsame | ⟨hclaim, hrun⟩
  · rw [hsame]
  · rw [hclaim, hrun]
    rfl

theorem Advances.refl (job : Job) (attempt : Attempt) : Advances job attempt ⟨job, attempt⟩ where
  lineage_eq := rfl
  identity_eq := rfl
  holding := id
  active h := ⟨h, rfl, rfl⟩
  inert _ := ⟨rfl, .refl attempt⟩
  moved := .kept (.refl job)
  accepted _ := ⟨rfl, rfl⟩

/-- Late evidence after a transaction is part of it. -/
theorem Advances.late {rows : AttemptRows} (h : Advances job attempt rows)
    (hlate : LateEvidence rows.attempt attempt') (hopen : ¬ attempt.completionKey.isSome) :
    Advances job attempt ⟨rows.job, attempt'⟩ where
  lineage_eq := h.lineage_eq
  identity_eq := hlate.identity_eq.trans h.identity_eq
  holding := h.holding
  active ha := h.active (by rwa [← hlate.state_eq])
  inert ha := ⟨(h.inert ha).1, (h.inert ha).2.trans hlate⟩
  moved := h.moved
  accepted hkey := absurd hkey hopen

structure SameBinding (job job' : Job) : Prop where
  lineage_eq : lineage job' = lineage job
  currentAttemptID : job'.currentAttemptID = job.currentAttemptID
  kept : Kept job job'

theorem SameBinding.refl (job : Job) : SameBinding job job := ⟨rfl, rfl, .refl job⟩

theorem SameBinding.trans {a b c : Job} (h : SameBinding a b) (h' : SameBinding b c) :
    SameBinding a c :=
  ⟨h'.lineage_eq.trans h.lineage_eq, h'.currentAttemptID.trans h.currentAttemptID,
    h.kept.trans h'.kept⟩

/-- A job that keeps its attempt advances with it, while the attempt is active. -/
theorem SameBinding.advances (h : SameBinding job job') (hid : identity attempt' = identity attempt)
    (hcompletion : attempt'.completionKey = attempt.completionKey ∧
      attempt'.completionHash = attempt.completionHash) (hactv : attempt.state.active) :
        Advances job attempt ⟨job', attempt'⟩ where
  lineage_eq := h.lineage_eq
  identity_eq := hid
  holding hh := h.kept.holding ▸ hh
  active _ := ⟨hactv, h.currentAttemptID, h.kept.holding⟩
  inert hi := absurd hactv (by simp [hi])
  moved := .kept h.kept
  accepted _ := hcompletion

/-- A job that settles holds no execution. -/
theorem Settles.holding (h : Settles job state next retries) : state.holding = false := by
  cases h with
  | recovered _ _ hst _ _ => exact hst
  | retried _ hst _ _ => rw [hst]; rfl
  | ended hst _ _ => rcases hst with hst | ⟨-, hst⟩ <;> rw [hst] <;> rfl
  | policy _ hst _ _ => exact hst

/-- **The end of an attempt** advances the rows if the job settles. -/
theorem advances_of_ended (hlin : lineage job' = lineage job)
    (hsets : Settles job job'.state job'.nextRestartAtNS job'.prestartRetryCount)
    (hid : identity attempt' = identity attempt) (hended : attempt'.state.active = false)
    (hcompletion : attempt.completionKey.isSome →
      attempt'.completionKey = attempt.completionKey ∧
        attempt'.completionHash = attempt.completionHash) (hactv : attempt.state.active) :
          Advances job attempt ⟨job', attempt'⟩ where
  lineage_eq := hlin
  identity_eq := hid
  holding hh := absurd hh (by simp [hsets.holding])
  active ha := absurd ha (by simp [hended])
  inert hi := absurd hactv (by simp [hi])
  moved := .settled hsets
  accepted := hcompletion

/-! ## 2. Effects -/

theorem promoteExecution_same {now : Int} :
    SameBinding job (promoteExecution now attemptID job) := by
  unfold promoteExecution
  split
  next h => exact ⟨rfl, rfl, .inr ⟨h.2, rfl⟩, rfl, rfl⟩
  · exact .refl job

theorem lineage_updateService : lineage (job.updateService f) = lineage job := by
  simp [lineage, Job.updateService]

theorem establishHealth_same : SameBinding job (establishHealth ctx cause node job attempt) := by
  unfold establishHealth
  split
  · exact .refl job
  · exact ⟨lineage_updateService, rfl, .inl rfl, rfl, rfl⟩

/-- The health of an attempt that is over is not established. -/
theorem establishHealth_inactive (h : attempt.state.active = false) :
    establishHealth ctx cause node job attempt = job := by
  unfold establishHealth
  split
  · rfl
  · have hnever : ∀ service, healthEstablished ctx node job attempt service = false := by
      intro service
      simp [healthEstablished, h]
    simp [hnever, Job.updateService]

theorem completeOwnershipMigration_same : SameBinding job (completeOwnershipMigration job) := by
  refine ⟨?_, rfl, .inl rfl, rfl, rfl⟩
  have hcomp : (job.projection.map fun p => if p.current then { p with chown := false } else p).map
      (fun p => (p.computerID, p.current)) = job.projection.map fun p =>
        (p.computerID, p.current) := by
    rw [Option.map_map]
    congr 1
    funext p
    dsimp only [Function.comp]
    split <;> rfl
  unfold lineage completeOwnershipMigration
  rw [hcomp]

theorem recoverOneshot_lineage : lineage (recoverOneshot ctx attemptID reason job).1 =
    lineage job := by
  unfold recoverOneshot
  split <;> rfl

/-- A one-shot is restarted within its limit, or is over. -/
theorem recoverOneshot_settles (hcan : job.canceled = false) :
    Settles job (recoverOneshot ctx attemptID reason job).2
      (recoverOneshot ctx attemptID reason job).1.nextRestartAtNS
      (recoverOneshot ctx attemptID reason job).1.prestartRetryCount := by
  unfold recoverOneshot
  split
  · exact .ended (.inl rfl) (.inl rfl) le_rfl
  next hlimit => exact .recovered hcan (Nat.lt_of_not_le hlimit) rfl rfl le_rfl

/-! ## 3. Expiry -/

theorem expiredState_lineage : lineage (expiredState ctx job attempt).1 = lineage job := by
  unfold expiredState
  split
  · exact recoverOneshot_lineage
  · rfl

/-- Expiry settles the job: a restart, what the service's policy says, or failure. -/
theorem expiredState_settles :
    Settles job (expiredState ctx job attempt).2 (expiredState ctx job attempt).1.nextRestartAtNS
      (expiredState ctx job attempt).1.prestartRetryCount := by
  unfold expiredState
  split
  next h => exact recoverOneshot_settles (by simpa using h.1)
  · dsimp only
    split
    next hrequeues =>
      simp only [requeuesAfterExpiry, Bool.and_eq_true] at hrequeues
      refine .policy ?_ rfl (.inr rfl) le_rfl
      exact Option.isSome_of_any hrequeues.1.1.2
    · exact .ended (.inl rfl) (.inr rfl) le_rfl

theorem expiredJob_lineage : lineage (expiredJob ctx job attempt) = lineage job := by
  unfold expiredJob
  rw [lineage_updateService]
  split <;> exact expiredState_lineage

theorem expiredJob_settles :
    Settles job (expiredJob ctx job attempt).state (expiredJob ctx job attempt).nextRestartAtNS
      (expiredJob ctx job attempt).prestartRetryCount := by
  unfold expiredJob
  dsimp only
  split <;> exact expiredState_settles

theorem expiredAttempt_identity : identity (expiredAttempt ctx job attempt) = identity attempt := by
  unfold expiredAttempt
  split <;> rfl

theorem expiredAttempt_state : (expiredAttempt ctx job attempt).state = .lost := by
  unfold expiredAttempt
  split <;> rfl

theorem expiredAttempt_completion :
    (expiredAttempt ctx job attempt).completionKey = attempt.completionKey ∧
      (expiredAttempt ctx job attempt).completionHash = attempt.completionHash := by
  unfold expiredAttempt
  split <;> exact ⟨rfl, rfl⟩

theorem expireAttempt_inactive
    (h : attempt.state.active = false) : expireAttempt ctx job attempt = ⟨job, attempt⟩ := by
  unfold expireAttempt
  rw [if_pos (by simp [h])]

theorem expireAttempt_lost
    (h : attempt.state.active) : (expireAttempt ctx job attempt).attempt.state = .lost := by
  unfold expireAttempt
  rw [if_neg (by simp [h])]
  split
  · rfl
  · exact expiredAttempt_state

/-- **Expiry advances.** The attempt ends, and the job it was current for is queued or failed. -/
theorem expireAttempt_advances : Advances job attempt (expireAttempt ctx job attempt) := by
  cases hactv : attempt.state.active with
  | false =>
    rw [expireAttempt_inactive hactv]
    exact .refl job attempt
  | true =>
    unfold expireAttempt
    rw [if_neg (by simp [hactv])]
    split
    · -- An active attempt its job is no longer bound to: only the attempt is written.
      exact {
        lineage_eq := rfl
        identity_eq := rfl
        holding := id
        active := fun h => nomatch h
        inert := fun h => absurd hactv (by simp [h])
        moved := .kept (.refl job)
        accepted := fun _ => ⟨rfl, rfl⟩ }
    · exact advances_of_ended expiredJob_lineage
        expiredJob_settles expiredAttempt_identity
        (by rw [expiredAttempt_state]; rfl) (fun _ => expiredAttempt_completion)
        hactv

theorem expireInline_advances {expired : Bool} :
    Advances job attempt (expireInline ctx expired job attempt) := by
  unfold expireInline
  split
  · exact expireAttempt_advances
  · exact .refl job attempt

/-- An expiry that has not left the attempt lost has changed nothing. -/
theorem expireInline_of_not_lost {expired : Bool}
    (h : (expireInline ctx expired job attempt).attempt.state ≠ .lost) :
    expireInline ctx expired job attempt = ⟨job, attempt⟩ := by
  unfold expireInline at h ⊢
  split
  next hexp =>
    rw [if_pos hexp] at h
    cases hactv : attempt.state.active with
    | false => exact expireAttempt_inactive hactv
    | true => exact absurd (expireAttempt_lost hactv) h
  · rfl

/-! ## 4. The verdict of a completion

Whatever rule has the last word, the attempt is over and the job is not occupied. -/

structure Settled (job : Job) (v : Verdict) : Prop where
  lineage_eq : lineage v.job = lineage job
  settles : Settles job v.jobState v.job.nextRestartAtNS v.job.prestartRetryCount
  attemptState : v.attemptState.active = false

theorem resultVerdict_settled {result : ProcessResult} :
    Settled job (resultVerdict job result) := by
  obtain ⟨hjob, hatt⟩ := completionStates_settled result
  refine ⟨rfl, .ended ?_ (.inr rfl) le_rfl, hatt⟩
  unfold resultVerdict
  split
  · exact .inl rfl
  next hcan => exact hjob.imp id fun h => ⟨by simpa using hcan, h⟩

theorem resultVerdict_interrupt_settled (ctx : Ctx) (job : Job) (result : ProcessResult)
    (attemptID : Nat) (reason : Option InterruptionReason)
    (hreas : reason.isSome → job.canceled = false) :
    Settled job ((resultVerdict job result).interrupt ctx attemptID reason) := by
  cases reason with
  | none => exact resultVerdict_settled
  | some reason =>
    exact ⟨recoverOneshot_lineage,
      recoverOneshot_settles (hreas rfl), rfl⟩

theorem Settles.override {state' : JobState} (h : Settles job state next retries)
    (hsvc : job.service.isSome) (hst : state'.holding = false)
    : Settles job state' next retries := by
  cases h with
  | recovered hcan hlimit _ hnext hretry =>
    exact .recovered hcan hlimit hst hnext hretry
  | retried _ _ hnext hretry => exact .policy hsvc hst hnext (Nat.le_of_lt hretry)
  | ended _ hnext hretry => exact .policy hsvc hst hnext hretry
  | policy _ _ hnext hretry => exact .policy hsvc hst hnext hretry

/-- The policy of a service overrides the verdict of the result. -/
theorem Settled.service (h : Settled job v) {policy : Option ServiceCompletionPolicy}
    (hpolicy : ∀ p ∈ policy, job.service.isSome ∧ p.jobState.holding = false ∧
      p.attemptState.active = false) : Settled job (v.service policy) := by
  cases policy with
  | none => exact h
  | some policy =>
    obtain ⟨hsvc, hst, hatt⟩ := hpolicy policy rfl
    exact ⟨h.lineage_eq, h.settles.override hsvc hst, hatt⟩

theorem Settles.retry (h : Settles job state next retries) (hcan : job.canceled = false) :
    Settles job .queued next (retries + 1) := by
  cases h with
  | recovered hcan hlimit _ hnext hretry =>
    exact .recovered hcan hlimit rfl hnext (Nat.le_succ_of_le hretry)
  | retried _ _ hnext hretry => exact .retried hcan rfl hnext (Nat.lt_succ_of_lt hretry)
  | ended _ hnext hretry => exact .retried hcan rfl hnext (Nat.lt_succ_of_le hretry)
  | policy _ _ hnext hretry => exact .retried hcan rfl hnext (Nat.lt_succ_of_le hretry)

theorem Settles.exhaust (h : Settles job state next retries)
    : Settles job state next (retries + 1) := by
  cases h with
  | recovered hcan hlimit hst hnext hretry =>
    exact .recovered hcan hlimit hst hnext (Nat.le_succ_of_le hretry)
  | retried hcan hst hnext hretry =>
    exact .retried hcan hst hnext (Nat.lt_succ_of_lt hretry)
  | ended hst hnext hretry => exact .ended hst hnext (Nat.le_succ_of_le hretry)
  | policy hsvc hst hnext hretry =>
    exact .policy hsvc hst hnext (Nat.le_succ_of_le hretry)

/-- A retry before the start is counted, and there is a last one. -/
theorem Settled.prestart (h : Settled job v) (ctx : Ctx) {requeue : Bool}
    (hrequeue : requeue → job.canceled = false) : Settled job (v.prestart ctx requeue) := by
  unfold Verdict.prestart
  split
  · exact h
  next hr =>
    dsimp only
    split
    · exact ⟨h.lineage_eq, h.settles.retry (hrequeue (by simpa using hr)), h.attemptState⟩
    · exact ⟨h.lineage_eq, h.settles.exhaust, h.attemptState⟩

theorem servicePolicy_settled :
    ∀ p ∈ servicePolicy ctx job attempt request,
      job.service.isSome ∧ p.jobState.holding = false ∧ p.attemptState.active = false := by
  intro p hp
  obtain ⟨service, hsvc, rfl⟩ := Option.map_eq_some_iff.mp hp
  exact ⟨by rw [hsvc]; rfl, classifyServiceCompletion_settled job service request _ _ _ _ _ _⟩

/-- **The verdict of a completion** settles the job, whatever the result is. -/
theorem completionVerdict_settled (ctx : Ctx) (job : Job) (attempt : Attempt)
    (request : CompletionRequest) (reason : Option InterruptionReason)
    (hreas : reason.isSome → job.canceled = false) :
    Settled job (completionVerdict ctx job attempt request reason) := by
  have hinterrupted := resultVerdict_interrupt_settled ctx job request.result attempt.attemptID
    reason hreas
  refine (hinterrupted.service servicePolicy_settled).prestart ctx ?_
  intro hrequeue
  simp only [prestartRequeue, Bool.and_eq_true] at hrequeue
  simpa using hrequeue.1.1.1.1

theorem promoted_same (ctx : Ctx) (job : Job) (attempt : Attempt) (v : Verdict) :
    SameBinding v.job
      (if v.attemptState = .succeeded ∧ attempt.state = .claimed ∧ job.spec.kind ≠ .oci then
        promoteExecution ctx.now attempt.attemptID v.job
      else v.job) := by
  split
  · exact promoteExecution_same
  · exact .refl v.job

theorem completedJob_lineage :
    lineage (completedJob ctx job attempt request v) = lineage v.job := by
  have hpromd := promoted_same ctx job attempt v
  unfold completedJob
  dsimp only
  generalize (if v.attemptState = .succeeded ∧ attempt.state = .claimed ∧ job.spec.kind ≠ .oci then
    promoteExecution ctx.now attempt.attemptID v.job else v.job) = promoted at hpromd ⊢
  rw [← hpromd.lineage_eq]
  split
  · split <;> rfl
  · rw [lineage_updateService]
    split <;> rfl

/-- The row a completion writes is settled as its verdict is. -/
theorem completedJob_settles
    (h : Settles job v.jobState v.job.nextRestartAtNS v.job.prestartRetryCount) :
    Settles job (completedJob ctx job attempt request v).state
      (completedJob ctx job attempt request v).nextRestartAtNS
      (completedJob ctx job attempt request v).prestartRetryCount := by
  have hpromd := promoted_same ctx job attempt v
  unfold completedJob
  generalize (if v.attemptState = .succeeded ∧ attempt.state = .claimed ∧ job.spec.kind ≠ .oci then
    promoteExecution ctx.now attempt.attemptID v.job else v.job) = promoted at hpromd ⊢
  rw [← hpromd.kept.nextRestartAtNS, ← hpromd.kept.prestartRetryCount] at h
  split <;> split <;> exact h

/-! ## 5. The transactions -/

section
variable {identityNodeID jobID : Nat} {a : Authority} {fencingToken : Option Nat}

theorem renewLease_advances :
    Ensures (Advances a.job a.attempt) (fun r => Advances a.job a.attempt r.1)
      (renewLease ctx identityNodeID jobID attemptID fencingToken a) := by
  unfold renewLease
  refine .check fun _ _ => .refuseIf fun _ => .refuseIf fun hactv =>
    .check fun expired _ => .settleIf
      (fun _ => expireAttempt_advances) fun _ => .pure ?_
  simp only [Bool.not_eq_true, Bool.not_eq_false] at hactv
  refine SameBinding.advances (.trans ?_ establishHealth_same) rfl ⟨rfl, rfl⟩ hactv
  split
  · exact promoteExecution_same
  · exact .refl a.job

theorem observeAttemptImage_advances {request : ImageObservationRequest} :
    Commits (Advances a.job a.attempt)
      (observeAttemptImage ctx identityNodeID jobID attemptID request a) := by
  unfold observeAttemptImage
  refine .check fun _ _ => .check fun _ _ => .orRefuse fun _ _ =>
    .refuseIf fun _ => .refuseIf fun _ => .refuseIf fun _ =>
    .answerIf fun _ => .refuseIf fun _ => .check fun _ _ =>
    .check fun expired _ => .settleIf
      (fun _ => expireAttempt_advances) fun _ =>
    .refuseIf fun hclaim => .refuseIf fun _ => .pure ?_
  have hactv : a.attempt.state.active := by
    rw [not_not.mp hclaim]
    rfl
  exact SameBinding.advances ⟨rfl, rfl, .inl rfl, rfl, rfl⟩ rfl ⟨rfl, rfl⟩ hactv

theorem startAttempt_advances :
    Commits (Advances a.job a.attempt)
      (startAttempt ctx identityNodeID jobID attemptID fencingToken a) := by
  unfold startAttempt
  refine .refuseIf fun _ => .check fun _ _ => .check fun expired _ =>
    .settleIf (fun _ => expireAttempt_advances) fun _ =>
    .answerIf fun _ => .refuseIf fun _ => .refuseIf fun hph =>
    .refuseIf fun _ => .pure ?_
  have hactv : a.attempt.state.active := by
    by_contra hover
    refine hph ⟨fun h => hover (by rw [h]; rfl), fun h => hover (by rw [h.2]; rfl)⟩
  refine SameBinding.advances ?_ rfl ⟨rfl, rfl⟩ hactv
  exact ((promoteExecution_same).trans
    establishHealth_same).trans completeOwnershipMigration_same

theorem setAttemptPublication_advances {request : PublicationRequest}
    {submitIntentRevision : Option Int} :
    Commits (Advances a.job a.attempt)
      (setAttemptPublication ctx identityNodeID jobID attemptID request
        submitIntentRevision a) := by
  unfold setAttemptPublication
  refine .refuseIf fun _ => .check fun _ _ => .refuseIf fun hactv =>
    .check fun expired _ => .settleIf
      (fun _ => expireAttempt_advances) fun _ =>
    .orRefuse fun service hsvc => .refuseIf fun _ => .check fun _ _ =>
    .check fun _ _ => .pure ?_
  simp only [Bool.not_eq_true, Bool.not_eq_false] at hactv
  have hpub : ∀ row, SameBinding a.job { a.job with updatedNS := ctx.now, service := some row } :=
    fun row => ⟨by simp [lineage, hsvc], rfl, .inl rfl, rfl, rfl⟩
  refine SameBinding.advances ?_ rfl ⟨rfl, rfl⟩ hactv
  split
  · refine .trans ?_ establishHealth_same
    split
    · exact hpub _
    · exact .refl a.job
  · split
    · exact hpub _
    · exact .refl a.job

theorem interruptRestartableAttempt_advances {nodeID : Nat} {request : InterruptRequest} :
    Commits (Advances a.job a.attempt)
      (interruptRestartableAttempt ctx nodeID attemptID request a) := by
  unfold interruptRestartableAttempt
  refine .refuseIf fun _ => .refuseIf fun _ => .refuseIf fun _ =>
    .refuseIf fun _ => .answerIf fun _ => .refuseIf fun _ =>
    .refuseIf fun _ => .check fun _ _ => .refuseIf fun hactv =>
    .refuseIf fun _ => .check fun expired _ => .settleIf
      (fun _ => expireAttempt_advances) fun _ => .pure ?_
  simp only [Bool.not_eq_true, Bool.not_eq_false] at hactv
  exact SameBinding.advances (.refl a.job) rfl ⟨rfl, rfl⟩ hactv

/-- **Log evidence advances.** New events of a lost attempt are kept, and establish nothing. -/
theorem appendLogs_advances {scan : Except ProtocolError Bool} :
    Commits (Advances a.job a.attempt)
      (appendLogs ctx identityNodeID jobID attemptID fencingToken scan a) := by
  unfold appendLogs
  refine .refuseIf fun _ => .refuseIf fun _ => .check fun _ _ =>
    .check fun expired _ => .check fun newEvents _ => .refuseIf fun hterm =>
      ?_
  split
  · exact .pure expireInline_advances
  next hnew =>
    refine .pure ?_
    by_cases hlost : (expireInline ctx expired a.job a.attempt).attempt.state = .lost
    · have hclaim : (expireInline ctx expired a.job a.attempt).attempt.state ≠ .claimed := by
        simp [hlost]
      simp only [hclaim, decide_false, Bool.false_and, Bool.false_eq_true, if_false]
      rw [establishHealth_inactive (by rw [hlost]; rfl), ite_self]
      exact expireInline_advances
    · rw [expireInline_of_not_lost hlost] at hterm ⊢
      have hactv : a.attempt.state.active := by
        by_contra hover
        exact hterm ⟨by simpa using hnew, by rwa [expireInline_of_not_lost hlost] at hlost, hover⟩
      refine SameBinding.advances ?_ ?_ ?_ hactv
      · split
        · refine .trans ?_ establishHealth_same
          split
          · exact promoteExecution_same
          · exact .refl a.job
        · split
          · exact promoteExecution_same
          · exact .refl a.job
      · split <;> rfl
      · split <;> exact ⟨rfl, rfl⟩

theorem completeAttemptOutcome_advances :
    Commits (Advances a.job a.attempt)
      (completeAttemptOutcome ctx identityNodeID jobID attemptID request a) := by
  unfold completeAttemptOutcome
  refine .check fun _ _ => .refuseIf fun _ => .check fun _ _ =>
    .check fun _ _ => .check fun expired _ => .refuseIf fun _ =>
    .refuseIf fun _ => .check fun _ _ => .answerIf fun hopen =>
    .settleIf
      (fun _ => (expireInline_advances).late ⟨_, _, _, rfl⟩ hopen)
      fun hlost => .check fun _ _ => .settleIf (fun _ => ?_) fun _ =>
    .refuseIf fun hactv => .check fun reason hreas => .pure ?_
  · rw [expireInline_of_not_lost hlost]
    exact expireAttempt_advances
  have hcan : reason.isSome → a.job.canceled = false := by
    intro hsome
    by_contra hcan
    rw [if_pos (by simpa using hcan)] at hreas
    cases hreas
    cases hsome
  have hset := completionVerdict_settled ctx a.job a.attempt request reason hcan
  simp only [Bool.not_eq_true, Bool.not_eq_false] at hactv
  exact advances_of_ended ((completedJob_lineage).trans hset.lineage_eq)
    (completedJob_settles hset.settles) rfl
    hset.attemptState (fun hkey => absurd hkey hopen) hactv

end

end Wefty.AttemptRules
