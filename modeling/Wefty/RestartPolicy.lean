/-
What a completed attempt means for its job (`l1/restart_policy.go`; the request checks and
`completionStates` of `l1/store.go`; the delays of `l1/oneshot_restart.go`).

Nothing here reads the store. Agents report facts, and these functions turn one report, with
the job it is about, into the states the completion transaction writes. The three delay
functions differ in their bounds and in where they apply them, so each keeps its own body.
Jitter is drawn from a random source; it is a function argument here.
-/
import Wefty.StoreRows
import Wefty.Substrings

set_option autoImplicit false

namespace Wefty.RestartPolicy

open Rows StoreRows

variable (result : ProcessResult)

/-! ## 1. Requests -/

inductive QuiescenceEvidence
  | attempt
  | noRuntime
  | ociSweep
  | priorBootGuardian
  | priorBootOCISweep
  | computerAttemptAbsent
  | other (text : String)
  deriving DecidableEq

/-- An omitted value is not proof. -/
def validRuntimeQuiescenceEvidence : Option QuiescenceEvidence → Bool
  | some .computerAttemptAbsent | some .attempt | some .noRuntime | some .ociSweep
  | some .priorBootGuardian | some .priorBootOCISweep => true
  | some (.other _) | none => false

/-- An empty token or key is `none`; `bodyHash` is the hash of the encoded request. -/
structure CompletionRequest where
  interruptionReason : Option InterruptionReason
  interruptionRequestKey : Option Nat
  fencingToken : Option Nat
  idempotencyKey : Option Nat
  result : ProcessResult
  runtimeQuiescenceEvidence : Option QuiescenceEvidence
  terminationInitiator : Option TerminationCause
  bodyHash : Nat

def invalidRequest (message : String) : ProtocolError := ⟨.invalidRequest, message⟩

def conflict (message : String) : ProtocolError := ⟨.conflict, message⟩

/-- `strings.TrimSpace(s) == ""`. -/
def blank (s : String) : Bool := Substrings.trimSpace s = ""

def ProcessResult.arms : Nat :=
  result.spawnError.isSome.toNat + result.runtimeFailure.isSome.toNat +
    (result.outputError ≠ "" : Bool).toNat + result.exitCode.isSome.toNat +
    (result.signal ≠ "" : Bool).toNat

/-- The codes whose failure carries byte counts. -/
def resourceFailure (code : SpawnFailureCode) : Bool :=
  code = .insufficientMemory || code = .insufficientDisk

/-- The checks of `validateProcessResult` on a spawn failure. -/
def validateSpawnError (failure : SpawnFailure) : Check := do
  if failure.code = .other "" ∨ blank failure.message then
    throw (invalidRequest "spawn_error code and message are required")
  if resourceFailure failure.code then
    if failure.requestedBytes ≤ 0 ∨ failure.observedAvailableBytes < 0 ∨ failure.nodeID.isSome then
      throw (invalidRequest
        ("insufficient resource failures require positive requested_bytes, " ++
          "non-negative observed_available_bytes, and no caller-supplied node_id"))
  else
    if failure.requestedBytes ≠ 0 ∨ failure.observedAvailableBytes ≠ 0 ∨ failure.nodeID.isSome then
      throw (invalidRequest
        "resource facts are valid only for insufficient_memory or insufficient_disk")

/-- A limit outside the vocabulary cannot be written here. -/
def validateProcessResult : Check := do
  if let some processes := result.stoppedProcesses then
    if processes = [] then
      throw (invalidRequest "stopped_processes must be omitted when empty")
    if processes.any fun p => p.pid ≤ 1 || p.name = "" || p.cwd = "" then
      throw (invalidRequest "stopped_processes requires a pid greater than one, name, and cwd")
  if result.limitReached.isSome ∧ result.spawnError.isSome then
    throw (invalidRequest "limit_reached cannot accompany spawn_error")
  if let some failure := result.spawnError then
    validateSpawnError failure
  if let some failure := result.runtimeFailure then
    if failure.code = .other "" ∨ blank failure.message then
      throw (invalidRequest "runtime_failure code and message are required")
  if result.signal ≠ "" then
    if result.terminationCause.isNone then
      throw (invalidRequest "signal result requires a valid termination_cause")
  else
    if result.terminationCause.isSome then
      throw (invalidRequest "termination_cause requires signal")
  if ProcessResult.arms result ≠ 1 then
    throw (invalidRequest
      ("result must contain exactly one of spawn_error, runtime_failure, output_error, " ++
        "exit_code, or signal"))

def validateTerminationInitiator (request : CompletionRequest) : Check := do
  match request.terminationInitiator with
  | none => return
  | some .spontaneous =>
    throw (invalidRequest "termination_initiator must be agent or guardian")
  | some .agent | some .guardian =>
    if request.result.exitCode.isNone then
      throw (invalidRequest
        ("termination_initiator accompanies only an exit_code result; " ++
          "a signal names its initiator in termination_cause"))

/-- The checks `CompleteAttemptOutcome` makes before it opens a transaction. -/
def validateCompletionRequest (request : CompletionRequest) : Check := do
  if request.fencingToken.isNone ∨ request.idempotencyKey.isNone then
    throw (invalidRequest "fencing_token and idempotency_key are required")
  validateProcessResult request.result
  validateTerminationInitiator request
  if request.runtimeQuiescenceEvidence.isSome ∧
      ¬ validRuntimeQuiescenceEvidence request.runtimeQuiescenceEvidence then
    throw (invalidRequest "runtime_quiescence_evidence is not recognized")

/-! ## 2. Classification -/

inductive FailureClassification
  | terminal
  | restartable
  | infrastructure
  deriving DecidableEq

/-- Every code absent from the table is terminal. -/
def classifySpawnFailure : SpawnFailureCode → FailureClassification
  | .startupReadinessTimeout | .servicePortTaken => .restartable
  | .publishedListener | .runtimeUnavailable => .infrastructure
  | _ => .terminal

def classifyRuntimeFailure : RuntimeFailureCode → FailureClassification
  | .unavailable => .infrastructure
  | .other _ => .terminal

def completionStatesAttempt : AttemptState :=
  if result.exitCode = some 0 then .succeeded else .failed

def completionStates : JobState × AttemptState :=
  if result.limitReached.isNone ∧ result.exitCode = some 0 then (.succeeded, .succeeded)
  else (.failed, .failed)

/-! ## 3. Delays -/

def second : Int := 1000000000

def maximumServiceRestartDelay : Int := 30 * second

def minimumServiceRestartDelay : Int := 500000000

def maximumOneshotRestarts : Nat := 10

def maximumOneshotRestartDelay : Int := 60 * second

def minimumOneshotRestartDelay : Int := 11 * second

def restartLimitReached : String := "restart_limit_reached"

/-- The loop of `prestartRetryDelay`: `n` doublings, each cut at the maximum. -/
def prestartDoubling : Nat → Int → Int
  | 0, delay => delay
  | n + 1, delay =>
    if delay < maximumServiceRestartDelay then
      prestartDoubling n (min (delay * 2) maximumServiceRestartDelay)
    else delay

def prestartRetryDelay (retryCount : Nat) (jitter : Int → Int) : Int :=
  min (jitter (prestartDoubling (max retryCount 1 - 1) second)) maximumServiceRestartDelay

/-- The loop of `serviceRestartDelay`. -/
def serviceDoubling : Nat → Int → Int
  | 0, nominal => nominal
  | n + 1, nominal =>
    if maximumServiceRestartDelay / 2 ≤ nominal then maximumServiceRestartDelay
    else serviceDoubling n (nominal * 2)

/-- `restartStreak` is one-based after the accepted termination. -/
def serviceRestartDelay (restartStreak : Nat) (leaseDuration : Int) (jitter : Int → Int) : Int :=
  let nominal := min (serviceDoubling (restartStreak - 1) second) maximumServiceRestartDelay
  let delay := jitter (min nominal leaseDuration)
  max (min delay leaseDuration) minimumServiceRestartDelay

/-- The loop of `oneshotRestartDelay`: the bound is tested before each doubling only. -/
def oneshotDoubling : Nat → Int → Int
  | 0, delay => delay
  | n + 1, delay =>
    if delay < maximumOneshotRestartDelay then oneshotDoubling n (delay * 2) else delay

def oneshotRestartDelay (restart : Nat) (jitter : Int → Int) : Int :=
  let delay := jitter (min (oneshotDoubling (restart - 1) second) maximumOneshotRestartDelay)
  min (max delay minimumOneshotRestartDelay) maximumOneshotRestartDelay

/-! ## 4. Service policy -/

structure ServiceCompletionPolicy where
  policyStop : Option ProcessResult
  jobState : JobState
  attemptState : AttemptState
  restartStreak : Nat
  lifetimeRestartCount : Nat
  nextRestartNS : Option Int
  lastFailure : Option LastFailure

/-- How the switch of `classifyServiceCompletion` reads a result. -/
inductive Termination
  | terminal
  | restartable
  | infrastructure
  | policyStop

def FailureClassification.termination : FailureClassification → Termination
  | .terminal => .terminal
  | .restartable => .restartable
  | .infrastructure => .infrastructure

/-- The switch of `classifyServiceCompletion`, in the order of its arms. -/
def termination (spec : JobSpec) (completion : CompletionRequest) (restartRequested : Bool) :
    Termination :=
  let result := completion.result
  if isComputerSpec spec ∧ (result.oom ∨ result.diskExhausted) then .terminal
  else match result.spawnError with
  | some failure =>
    if failure.code = .runtimeUnavailable ∧ spec.kind ≠ .oci then .terminal
    else (classifySpawnFailure failure.code).termination
  | none =>
    if result.outputError ≠ "" then .terminal
    else match result.exitCode with
    | some code =>
      -- An exit the agent or its guardian asked for is the payload obeying, not deciding.
      if completion.terminationInitiator.isSome then .infrastructure
      else if code = 0 ∧ (spec.restart = some .onFailure ∨ spec.restart = some .never) ∧
          ¬ restartRequested then .policyStop
      else .restartable
    | none =>
      if result.signal ≠ "" then
        if result.terminationCause = some .spontaneous then .restartable else .infrastructure
      else match result.runtimeFailure with
      | some failure =>
        if spec.kind = .oci ∧ classifyRuntimeFailure failure.code = .infrastructure then
          .infrastructure
        else .terminal
      | none => .terminal

/-- `lastFailure` is what the source encoded as the failure of this completion; the policy's own is
`none` where the stored one stays. -/
def classifyServiceCompletion (job : Job) (service : ServiceJob) (completion : CompletionRequest)
    (lastFailure : LastFailure) (now leaseDuration : Int) (jitter : Int → Int)
    (started restartRequested : Bool) : ServiceCompletionPolicy :=
  let policy : ServiceCompletionPolicy :=
    { policyStop := none
      jobState := .failed
      attemptState := completionStatesAttempt completion.result
      restartStreak := service.restartStreak
      lifetimeRestartCount := service.lifetimeRestartCount
      nextRestartNS := none
      lastFailure := none }
  let failed := { policy with lastFailure := some lastFailure }
  let never := job.spec.restart = some .never
  if service.desiredState = .stopped ∨ job.state = .stopping then
    if validRuntimeQuiescenceEvidence completion.runtimeQuiescenceEvidence then
      { policy with jobState := .stopped }
    else failed
  else match termination job.spec completion restartRequested with
  | .policyStop => { policy with jobState := .stopped, policyStop := some completion.result }
  | .infrastructure =>
    if never ∧ started ∧ ¬ restartRequested then failed
    else
      let count := service.lifetimeRestartCount + 1
      { policy with
        jobState := .queued
        lifetimeRestartCount := count
        nextRestartNS := some (now + prestartRetryDelay count jitter) }
  | .terminal => failed
  | .restartable =>
    if never ∧ ¬ restartRequested then { failed with policyStop := some completion.result }
    else
      let streak := service.restartStreak + 1
      if job.spec.maxRestartStreak.any fun limit => limit ≤ streak then
        { failed with restartStreak := streak }
      else
        { failed with
          jobState := .queued
          restartStreak := streak
          lifetimeRestartCount := service.lifetimeRestartCount + 1
          nextRestartNS := some (now + serviceRestartDelay streak leaseDuration jitter) }

/-- The resource a Computer's workload ran out of. -/
def terminalResourceFailure (spec : JobSpec) (result : ProcessResult) (nodeID : Nat) :
    Option SpawnFailure :=
  match spec.oci with
  | none => none
  | some oci =>
    if spec.kind ≠ .oci then none
    else match oci.computerDisk with
    | none => none
    | some disk =>
      let requested := oci.memoryBytes.getD 0
      if result.oom ∧ 0 < requested then
        some ⟨.insufficientMemory, "workload exceeded its enforced memory cap", some nodeID,
          requested, 0⟩
      else if result.diskExhausted ∧ 0 < disk then
        some ⟨.insufficientDisk, "Computer exhausted its isolated disk budget",
          some nodeID, disk, 0⟩
      else none

/-! ## 5. What a completion can leave

A completed attempt is over, and its job is queued again or at rest. No policy, whatever the
report says, keeps either of them holding execution. -/

theorem completionStatesAttempt_active : (completionStatesAttempt result).active = false := by
  unfold completionStatesAttempt
  split <;> rfl

theorem completionStates_settled :
    ((completionStates result).1 = .failed ∨ (completionStates result).1 = .succeeded) ∧
      (completionStates result).2.active = false := by
  unfold completionStates
  split
  · exact ⟨.inr rfl, rfl⟩
  · exact ⟨.inl rfl, rfl⟩

/-- **A service completion settles.** -/
theorem classifyServiceCompletion_settled (job : Job) (service : ServiceJob)
    (completion : CompletionRequest) (lastFailure : LastFailure) (now leaseDuration : Int)
    (jitter : Int → Int) (started restartRequested : Bool) :
    let policy := classifyServiceCompletion job service completion lastFailure now leaseDuration
      jitter started restartRequested
    policy.jobState.holding = false ∧ policy.attemptState.active = false := by
  have hatt := completionStatesAttempt_active completion.result
  unfold classifyServiceCompletion
  dsimp only
  -- One case per return statement; each of them writes `failed`, `stopped` or `queued`.
  split
  · split <;> exact ⟨rfl, hatt⟩
  split
  · exact ⟨rfl, hatt⟩
  · split <;> exact ⟨rfl, hatt⟩
  · exact ⟨rfl, hatt⟩
  · split
    · exact ⟨rfl, hatt⟩
    · split <;> exact ⟨rfl, hatt⟩

end Wefty.RestartPolicy
