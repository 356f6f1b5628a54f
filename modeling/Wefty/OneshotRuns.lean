/-
One-shots over whole runs: cancellation and the restart budget.

A canceled one-shot is never queued, so it is never claimed, and whatever is left to its last
attempt cannot make it succeed. The budget is an invariant of the row: the fence counts the claims
of a one-shot, and each of them is the first one, a counted restart or a counted retry. The attempts
of a one-shot are never deleted and no two share a token, so their number is bounded by the fence.
-/
import Wefty.Fencing

set_option autoImplicit false

namespace Wefty.OneshotRuns

open Tables Rows StoreRows AttemptClock RestartPolicy Transactions AttemptAuthority
open AttemptRules ControlStore
open Operations StoreRules StoreWrites ClaimRules StoreSteps StoreRuns Fencing

/-- A one-shot: of this class, and not the Job of a Computer. -/
def Oneshot (job : Job) : Prop := job.spec.jobClass = .oneShot ∧ job.computerForJob = none

variable {job : Job}

theorem service_none_of_oneshot (hsound : Sound job) (h : Oneshot job) :
    job.service = none := by
  have hnot : ¬ job.service.isSome := fun hsvc => by
    have hclass := (hsound.kind h.2).mp hsvc
    rw [h.1] at hclass
    cases hclass
  simpa using hnot

/-! ## 1. Cancellation -/

/-- Neither end of a lease is after the settlement deadline: not the one on the wall clock, and not
the one in the boot that grants it, which decides while that boot lasts. -/
structure CappedLease (ctx : Ctx) (settleBy : Int) (attempt : Attempt) : Prop where
  wall : attempt.leaseExpires ≤ settleBy
  elapsed : attempt.leaseBootID = "" ∧ attempt.leaseDeadlineNS = 0 ∨
    attempt.leaseBootID = (currentAttemptClock ctx.clock).boot ∧
      attempt.leaseDeadlineNS ≤ (currentAttemptClock ctx.clock).ns + (settleBy - ctx.now)

theorem attemptLeaseDeadline_le {clock : Clock} {now expires settleBy : Int}
    (h : expires ≤ settleBy) :
    (attemptLeaseDeadline clock now expires).1 = "" ∧
        (attemptLeaseDeadline clock now expires).2 = 0 ∨
      (attemptLeaseDeadline clock now expires).1 = (currentAttemptClock clock).boot ∧
        (attemptLeaseDeadline clock now expires).2 ≤
          (currentAttemptClock clock).ns + (settleBy - now) := by
  unfold attemptLeaseDeadline
  dsimp only
  split
  · exact .inl ⟨rfl, rfl⟩
  · exact .inr ⟨rfl, by dsimp only; omega⟩

variable {jobID : Nat} {fencingToken : Option Nat}

/-- A renewal for a canceled job goes no further than its settlement deadline. -/
theorem renewLease_capped {ctx : Ctx} {identityNodeID attemptID : Nat}
    {a : Authority} (hcan : a.job.canceled) :
    Ensures (fun _ => True) (fun r => CappedLease ctx a.job.cancelSettleByNS r.1.attempt)
      (renewLease ctx identityNodeID jobID attemptID fencingToken a) := by
  refine .check fun _ _ => .refuseIf fun _ => .refuseIf fun _ =>
    .check fun _ _ => .settleIf (fun _ => trivial) fun _ => .pure ?_
  rw [if_pos hcan]
  have hle := min_le_right (ctx.now + ctx.config.leaseDuration) a.job.cancelSettleByNS
  exact ⟨hle, attemptLeaseDeadline_le hle⟩

variable {s : Store}

theorem lease_of_renewal {e : Event} {identityNodeID attemptID : Nat} {retiring : Bool} {id : Nat}
    (hop : e.op = .agent identityNodeID jobID attemptID retiring (.renewLease fencingToken))
    (hacc : Accepted s e) (hjob : s.jobs.find id = some job) (hcan : job.canceled) :
    ∃ ctx opened attempt, openDoor e.config e.door s = some (ctx, opened) ∧
      (step s e).attempts.find attemptID = some attempt ∧
      (attempt.jobID = id → CappedLease ctx job.cancelSettleByNS attempt) := by
  refine step_of_accepted (P := fun _ => True) (Q := fun s' => ∃ ctx opened attempt,
    openDoor e.config e.door s = some (ctx, opened) ∧ s'.attempts.find attemptID = some attempt ∧
      (attempt.jobID = id → CappedLease ctx job.cancelSettleByNS attempt)) hacc
    fun ctx opened hdoor => ?_
  have hopen := hdoor
  obtain ⟨-, ⟨leases, rfl⟩, -⟩ := openDoor_ok hdoor
  rw [hop]
  refine .mono (agent_row (P := fun _ => True)
    (Q := fun attempt => attempt.jobID = id → CappedLease ctx job.cancelSettleByNS attempt)
    List.not_mem_nil fun a ha => ?_) (fun _ _ => trivial)
    fun _ ⟨attempt, hfind, hcap⟩ => ⟨ctx, _, attempt, hopen, hfind, hcap⟩
  obtain ⟨-, hfnd, -⟩ := of_readAttemptAuthority ha
  by_cases hid : a.attempt.jobID = id
  · rw [hid] at hfnd
    have hsame : job = a.job := Option.mem_unique hjob hfnd
    rw [hsame] at hcan ⊢
    exact .bind (renewLease_capped hcan) fun r h => .pure fun _ => h
  · have hadv : Commits (Advances a.job a.attempt) ((AgentCall.renewLease fencingToken).tx ctx
        identityNodeID jobID attemptID { s with leases := leases } a) := agentCall_advances
    refine .mono hadv (fun _ _ => trivial) fun rows h hrow => absurd ?_ hid
    exact (congrArg Identity.jobID h.identity_eq).symm.trans hrow

/-- **Cancellation is sticky.** Once the canceled outcome of a one-shot is on record, the job is not
queued, is never claimed, has no restart scheduled, does not succeed and stays canceled, wherever
the run goes; and no renewal stores a lease end after the settlement deadline, on either clock. -/
theorem cancellation_is_sticky (events later : List Event) {jobID : Nat} {job : Job}
    (hjob : (reached events).jobs.find jobID = some job) (honeshot : Oneshot job)
    (hcan : job.canceled) :
    (∃ job', (reached (events ++ later)).jobs.find jobID = some job' ∧ job'.canceled ∧
      job'.state ≠ .queued ∧ job'.state ≠ .succeeded ∧ job'.nextRestartAtNS = none) ∧
    (∀ e, ¬ Claimed (reached (events ++ later)) e jobID) ∧
    (∀ {e identityNodeID named attemptID retiring fencingToken},
      e.op = .agent identityNodeID named attemptID retiring (.renewLease fencingToken) →
      Accepted (reached (events ++ later)) e →
      ∃ ctx opened attempt, openDoor e.config e.door (reached (events ++ later)) =
          some (ctx, opened) ∧
        (step (reached (events ++ later)) e).attempts.find attemptID = some attempt ∧
        (attempt.jobID = jobID → CappedLease ctx job.cancelSettleByNS attempt)) := by
  have hfol := reached_follows events later
  have hinv := reached_inv (events ++ later)
  have hsvc := service_none_of_oneshot ((reached_inv events).sound hjob) honeshot
  obtain ⟨job', hjob'⟩ := hfol.keepsJob hjob hsvc
  have hrow := hfol.job hjob hjob'
  have hsvc' := service_none_of_origin hrow.origin_eq hsvc
  obtain ⟨hcan', hsettle, -⟩ := hrow.canceled hsvc hcan
  obtain ⟨hnext, hqueue, hsucc⟩ := (hinv.sound hjob').canceled hsvc' hcan'
  refine ⟨⟨job', hjob', hcan', hqueue, hsucc, hnext⟩, fun e hclaim => ?_,
    fun {e _ _ _ _ _} hop hacc => ?_⟩
  · -- A claim takes a queued job.
    obtain ⟨taken, hid, htook⟩ := (reached_outcome (events ++ later) e).took_of_claimed hinv hclaim
    have hfnd := htook.found
    rw [hid, hjob'] at hfnd
    cases hfnd
    exact hqueue htook.queued
  · rw [← hsettle]
    exact lease_of_renewal hop hacc hjob' hcan'

def cancels (now : Int) (jobID : Nat) : Event := at_ now 0 (.cancel jobID (.submitter (some 5)))

/-- A claimed job that is canceled stays so when its lease runs out. -/
theorem canceled_while_claimed :
    ∃ job', (reached ([registers 0, submits 0, claims 0, cancels second 1] ++
      [at_ (40 * second) 0 (.reconcile (fun _ => true) [])])).jobs.find 1 = some job' ∧
      job'.canceled ∧ job'.state ≠ .queued := by
  have hrow : ((reached [registers 0, submits 0, claims 0, cancels second 1]).jobs.find 1).map
      (fun job => (job.spec.jobClass, job.computerForJob, job.canceled)) =
        some (.oneShot, none, true) := by decide +kernel
  obtain ⟨job, hjob, hcols⟩ := Option.map_eq_some_iff.mp hrow
  injection hcols with hclass hrest
  injection hrest with hcomp hcan
  obtain ⟨⟨job', hjob', hcan', hqueue, -⟩, -⟩ := cancellation_is_sticky _
    [at_ (40 * second) 0 (.reconcile (fun _ => true) [])] hjob ⟨hclass, hcomp⟩ hcan
  exact ⟨job', hjob', hcan', hqueue⟩

/-! ## 2. The budget -/

theorem attempts_le_fence (hinv : Inv True s) (hjob : s.jobs.find jobID = some job) :
    (s.attempts.rows.filter fun a => a.jobID = jobID).length ≤ job.fenceCounter := by
  have hrow : ∀ a ∈ s.attempts.rows.filter fun a => a.jobID = jobID,
      s.attempts.find a.attemptID = some a ∧ a.jobID = jobID := by
    intro a ha
    obtain ⟨hmem, hid⟩ := List.mem_filter.mp ha
    exact ⟨Table.mem_rows_iff.mp hmem, by simpa using hid⟩
  -- The tokens are distinct and lie between one and the fence.
  have hnodup : ((s.attempts.rows.filter fun a => a.jobID = jobID).map
      Attempt.fencingToken).Nodup := by
    refine List.Nodup.map_on (fun a ha b hb htoken => ?_) (s.attempts.nodup.of_map.filter _)
    obtain ⟨hfind, hid⟩ := hrow a ha
    obtain ⟨hfind', hid'⟩ := hrow b hb
    have hsame := hinv.distinct hfind hfind' (hid.trans hid'.symm) htoken
    rw [hsame, hfind'] at hfind
    exact (Option.some.inj hfind).symm
  have hsubset : ((s.attempts.rows.filter fun a => a.jobID = jobID).map Attempt.fencingToken) ⊆
      List.range' 1 job.fenceCounter := by
    intro token htoken
    obtain ⟨a, ha, rfl⟩ := List.mem_map.mp htoken
    obtain ⟨hfind, hid⟩ := hrow a ha
    obtain ⟨owner, howner, hpos, hle⟩ := hinv.owned hfind
    rw [hid, hjob] at howner
    cases howner
    rw [List.mem_range'_1]
    omega
  have hlength := (List.subperm_of_subset hnodup hsubset).length_le
  rwa [List.length_map, List.length_range'] at hlength

/-- What one operation does to the count and the schedule of a one-shot. -/
structure Counts (s : Store) (e : Event) (job job' : Job) : Prop where
  consumed : Claimed s e job.jobID → job.nextRestartAtNS.isSome →
    job'.restartCount = job.restartCount + 1
  cleared : Claimed s e job.jobID → job'.nextRestartAtNS = none
  due : Claimed s e job.jobID → ∀ next ∈ job.nextRestartAtNS, next ≤ e.door.now
  uncounted : ¬ (Claimed s e job.jobID ∧ job.nextRestartAtNS.isSome) →
    job'.restartCount = job.restartCount
  pending : ¬ Claimed s e job.jobID → job.nextRestartAtNS.isSome →
    job'.canceled ∨ job'.nextRestartAtNS = job.nextRestartAtNS

theorem step_counts (hinv : Inv True s) (e : Event) {job' : Job}
    (hjob : s.jobs.find job.jobID = some job) (hsvc : job.service = none)
    (hjob' : (step s e).jobs.find job.jobID = some job') : Counts s e job job' := by
  have hout := step_outcome hinv e fun _ => trivial
  by_cases hclaim : Claimed s e job.jobID
  · obtain ⟨taken, hid, htook⟩ := hout.took_of_claimed hinv hclaim
    have hfnd := htook.found
    rw [hid, hjob] at hfnd
    cases hfnd
    obtain ⟨attemptID, row, hrow, hclaimedRow⟩ := htook.row
    rw [hjob'] at hrow
    cases hrow
    refine ⟨fun _ hnext => ?_, fun _ => hclaimedRow.unscheduled, fun _ => htook.due hsvc,
      fun hnot => ?_, fun hnot => absurd hclaim hnot⟩
    · rw [hclaimedRow.restarts, if_pos hnext]
    · rw [hclaimedRow.restarts, if_neg fun hnext => hnot ⟨hclaim, hnext⟩, Nat.add_zero]
  · have hfol := hout.follows_of_unclaimed hinv hjob hjob' hclaim
    refine ⟨fun hc => absurd hc hclaim, fun hc => absurd hc hclaim,
      fun hc => absurd hc hclaim, fun _ => (hfol.unclaimed not_false).1, fun _ hnext => ?_⟩
    have hidle := ((hinv.sound hjob).scheduled hnext).2
    exact (hfol.granted not_false hsvc hnext hidle).imp_right And.left

/-- **The restart budget of a one-shot.** However a run goes, the attempts of a one-shot are at most
one, the restarts it may have and its pre-start retries, and none of them is ever deleted; the
restarts it used never exceed the limit and never go down; one is counted exactly when a claim
takes the job with a restart scheduled, never before its time; a scheduled restart stays until
such a claim or a cancellation; and a one-shot that is over stays as it ended. -/
theorem oneshot_restart_budget (events later : List Event) {jobID : Nat} {job : Job}
    (hjob : (reached events).jobs.find jobID = some job) (honeshot : Oneshot job) :
    ((reached events).attempts.rows.filter fun a => a.jobID = jobID).length ≤
      1 + maximumOneshotRestarts + job.prestartRetryCount ∧
    (∀ attempt ∈ (reached events).attempts.rows, attempt.jobID = jobID →
      ∃ attempt', (reached (events ++ later)).attempts.find attempt.attemptID = some attempt') ∧
    job.restartCount ≤ maximumOneshotRestarts ∧
    (∃ job', (reached (events ++ later)).jobs.find jobID = some job' ∧
      job.restartCount ≤ job'.restartCount ∧
      (terminal job.state → job'.state = job.state)) ∧
    (∀ e, ∃ job', (step (reached events) e).jobs.find jobID = some job' ∧
      Counts (reached events) e job job') := by
  have hinv := reached_inv events
  have hfol := reached_follows events later
  have hsound := hinv.sound hjob
  have hsvc := service_none_of_oneshot hsound honeshot
  have hkey : job.jobID = jobID := Table.key_of_find hjob
  refine ⟨?_, fun attempt hmem hid => ?_, hsound.restarts, ?_, fun e => ?_⟩
  · have hfence := attempts_le_fence hinv hjob
    have hclaims := hsound.claims hsvc
    have hopen : openClaims job ≤ 1 := by
      unfold openClaims
      split <;> omega
    have hlimit := hsound.restarts
    omega
  · exact hfol.keepsAttempt (Table.mem_rows_iff.mp hmem) (by rw [hid]; exact hjob) hsvc
  · obtain ⟨job', hjob'⟩ := hfol.keepsJob hjob hsvc
    have hrow := hfol.job hjob hjob'
    exact ⟨job', hjob', hrow.restarts, hrow.ended hsvc⟩
  · obtain ⟨job', hjob'⟩ := (reached_outcome events e).onward.follows.keepsJob hjob hsvc
    refine ⟨job', hjob', step_counts hinv e ?_ hsvc ?_⟩
    · rw [hkey]
      exact hjob
    · rw [hkey]
      exact hjob'

/-- A restartable one-shot whose first attempt was lost is claimed once more, and counted. -/
theorem claimedAgain_within_budget :
    ((reached claimedAgain).attempts.rows.filter fun a => a.jobID = 1).length = 2 ∧
    ∃ job, (reached claimedAgain).jobs.find 1 = some job ∧ job.restartCount = 1 ∧
      ((reached claimedAgain).attempts.rows.filter fun a => a.jobID = 1).length ≤
        1 + maximumOneshotRestarts + job.prestartRetryCount := by
  refine ⟨by decide +kernel, ?_⟩
  have hrow : ((reached claimedAgain).jobs.find 1).map
      (fun job => (job.spec.jobClass, job.computerForJob, job.restartCount)) =
        some (.oneShot, none, 1) := by decide +kernel
  obtain ⟨job, hjob, hcols⟩ := Option.map_eq_some_iff.mp hrow
  injection hcols with hclass hrest
  injection hrest with hcomp hcount
  exact ⟨job, hjob, hcount, (oneshot_restart_budget claimedAgain [] hjob ⟨hclass, hcomp⟩).1⟩

end Wefty.OneshotRuns
