/-
Bindings and fences over whole runs.

At any time at most one attempt of a job can act for it: the one the job is bound to. And an attempt
that is past this point never acts again, since the fence has moved on or will before another
attempt exists. What is left to it is evidence about itself.

The rows of a job do not even change by accident: a call that commits late evidence commits its door
with it, and the door may credit host sleep to the leases that are active and to the heartbeats of
monitored Nodes. That credit is the one thing such a call can do to a row that is not its own, if it
is not an upload, which prunes the summaries of its service.
-/
import Wefty.StoreRuns

set_option autoImplicit false

namespace Wefty.Fencing

open Tables Rows StoreRows AttemptClock LeaseSleep RestartPolicy Transactions AttemptAuthority
open AttemptRules ControlStore Operations StoreRules StoreWrites ClaimRules StoreSteps StoreRuns

/-! ## 1. Bindings -/

/-- **One attempt acts for a job.** Wherever a run leads, an attempt that is claimed, running or
awaiting input is the current attempt of its job; a queued job has none; and no job has two. -/
theorem active_attempt_is_current (events : List Event) :
    (∀ attempt ∈ (reached events).attempts.rows, attempt.state.active →
      ∃ job, (reached events).jobs.find attempt.jobID = some job ∧
        job.currentAttemptID = some attempt.attemptID) ∧
    (∀ job ∈ (reached events).jobs.rows, job.state = .queued →
      ∀ attempt ∈ (reached events).attempts.rows, attempt.jobID = job.jobID →
        attempt.state.active = false) ∧
    (∀ a ∈ (reached events).attempts.rows, ∀ b ∈ (reached events).attempts.rows,
      a.jobID = b.jobID → a.state.active → b.state.active → a = b) := by
  have hinv := reached_inv events
  generalize reached events = s at hinv
  -- Each attempt belongs to a job, and binds it while it is active.
  have hbnd : ∀ attempt ∈ s.attempts.rows, attempt.state.active →
      ∃ job, s.jobs.find attempt.jobID = some job ∧ Bound job attempt := by
    intro attempt hmem hactv
    have hfind := Table.mem_rows_iff.mp hmem
    obtain ⟨job, hjob, -⟩ := hinv.owned hfind
    exact ⟨job, hjob, hinv.bound hfind hjob hactv⟩
  refine ⟨fun attempt hmem hactv => ?_, fun job hjob hqueue attempt hmem hid => ?_,
    fun a ha b hb hid hactv hactv' => ?_⟩
  · obtain ⟨job, hjob, hb⟩ := hbnd attempt hmem hactv
    exact ⟨job, hjob, hb.current⟩
  · by_contra hactv
    obtain ⟨owner, howner, hb⟩ := hbnd attempt hmem (by simpa using hactv)
    rw [hid, Table.mem_rows_iff.mp hjob] at howner
    cases howner
    have hhold := hb.holding
    rw [hqueue] at hhold
    cases hhold
  · obtain ⟨job, hjob, hbinds⟩ := hbnd a ha hactv
    obtain ⟨job', hjob', hbinds'⟩ := hbnd b hb hactv'
    rw [← hid, hjob] at hjob'
    cases hjob'
    have hsame : a.attemptID = b.attemptID :=
      Option.some.inj (hbinds.current.symm.trans hbinds'.current)
    have hfind := Table.mem_rows_iff.mp ha
    rw [hsame, Table.mem_rows_iff.mp hb] at hfind
    exact (Option.some.inj hfind).symm

/-! ## 2. Tokens -/

theorem fence_lt_token (later : List Event) {s : Store} (hinv : Inv True s) {id : Nat}
    {attempt : Attempt} {job : Job} (hnew : s.attempts.find id = none)
    (hatt : (Runs.exec step s later).attempts.find id = some attempt)
    (hjob : s.jobs.find attempt.jobID = some job) : job.fenceCounter < attempt.fencingToken := by
  induction later using List.reverseRecOn generalizing attempt with
  | nil =>
    rw [Runs.exec_nil, hnew] at hatt
    cases hatt
  | append_singleton later e ih =>
    have hrun := exec_onward later hinv fun _ _ _ => trivial
    rw [Runs.exec_append] at hatt
    generalize Runs.exec step s later = mid at ih hrun hatt
    have hout := step_outcome hrun.inv e fun _ => trivial
    cases hmid : mid.attempts.find id with
    | some old =>
      have hfol := hout.onward.follows.attempt hmid hatt
      rw [hfol.fencingToken_eq]
      exact ih hmid (by rw [← hfol.jobID_eq]; exact hjob)
    | none =>
      obtain ⟨taken, hid, htook⟩ :=
        hout.took_of_claimed hrun.inv ⟨id, attempt, hatt, rfl, hmid⟩
      rw [htook.token hatt hmid]
      have hfnd := htook.found
      rw [hid] at hfnd
      exact Nat.lt_succ_of_le (hrun.follows.job hjob hfnd).fence

/-- Two attempts of one job, whenever they are seen, have one token only if they are one. -/
theorem eq_of_token_eq (later : List Event) {s : Store} (hinv : Inv True s) {i j : Nat}
    {a b : Attempt} (ha : s.attempts.find i = some a)
    (hb : (Runs.exec step s later).attempts.find j = some b) (hjob : a.jobID = b.jobID)
    (htoken : a.fencingToken = b.fencingToken) : i = j := by
  obtain ⟨job, hfnd, -, hle⟩ := hinv.owned ha
  cases hold : s.attempts.find j with
  | none =>
    have hlt := fence_lt_token later hinv hold hb (by rw [← hjob]; exact hfnd)
    omega
  | some old =>
    have hfol :=
      (exec_onward later hinv fun _ _ _ => trivial).follows.attempt hold hb
    exact hinv.distinct ha hold (hjob.trans hfol.jobID_eq)
      (htoken.trans hfol.fencingToken_eq)

/-! ## 3. Past attempts -/

/-- The attempt is past acting for its job: it has left the active states, or an attempt of the job
was claimed after it. -/
def Superseded (s : Store) (attempt : Attempt) : Prop :=
  attempt.state.active = false ∨ ∃ id successor, s.attempts.find id = some successor ∧
    successor.jobID = attempt.jobID ∧ attempt.fencingToken < successor.fencingToken

/-- An attempt with a successor has ended: an active one carries the last token that was given. -/
theorem inactive_of_superseded {copies : Prop} {s : Store} (hinv : Inv copies s) {id : Nat}
    {attempt : Attempt} (hfind : s.attempts.find id = some attempt)
    (h : Superseded s attempt) : attempt.state.active = false := by
  rcases h with hended | ⟨_, successor, hsuccessor, hjob, hlt⟩
  · exact hended
  · by_contra hactv
    obtain ⟨job, hfnd, -, hle⟩ := hinv.owned hsuccessor
    have hbnd := hinv.bound hfind (hjob ▸ hfnd) (by simpa using hactv)
    have htoken := hbnd.token
    omega

/-- `s'` is `s` with other late evidence for an attempt. -/
def WithLateEvidence (attemptID : Nat) (s s' : Store) : Prop :=
  ∃ attempt attempt', s.attempts.find attemptID = some attempt ∧ LateEvidence attempt attempt' ∧
    s' = s.withAttempts (s.attempts.replace attempt')

/-- The rows of a past attempt go back as they were, but for its late evidence. -/
theorem onAttempt_inert {s : Store} {attemptID : Nat} {retiring : Bool} {Q : Prop}
    {f : Authority → AttemptTx AttemptRows} (hf : ∀ a, Commits (Advances a.job a.attempt) (f a))
    (hq : ∀ a, a.attempt.state.active = false → Ensures (fun _ => True) (fun _ => Q) (f a))
    (hended : ∀ {attempt}, s.attempts.find attemptID = some attempt →
      attempt.state.active = false) :
    Ensures (WithLateEvidence attemptID s) (fun s' => WithLateEvidence attemptID s s' ∧ Q)
      (onAttempt s attemptID retiring f) := by
  unfold onAttempt
  refine .orRefuse fun a ha => ?_
  obtain ⟨hatt, hjob, hid⟩ := of_readAttemptAuthority ha
  rw [hid] at hatt
  have hinert : ∀ rows, Advances a.job a.attempt rows →
      WithLateEvidence attemptID s (s.setRows rows) := by
    intro rows hadv
    obtain ⟨hsame, hlate⟩ := hadv.inert (hended hatt)
    refine ⟨a.attempt, rows.attempt, hatt, hlate, ?_⟩
    have hself : s.jobs.find a.job.jobID = some a.job := by
      rw [Table.key_of_find hjob]
      exact hjob
    have hkept : s.setJob a.job = s := by
      unfold Store.setJob
      rw [Table.replace_self hself]
    unfold Store.setRows
    rw [hsame, hkept]
  have hboth := (hf a).and (hq a (hended hatt))
  exact .bind (hboth.within fun rows h => hinert rows h.1) fun rows h => .pure
    ⟨hinert rows h.1, h.2⟩

/-- A completion is not accepted of an attempt that has ended. -/
theorem completeAttemptOutcome_inert {ctx : Ctx} {identityNodeID jobID attemptID : Nat}
    {request : CompletionRequest} {a : Authority}
    (hended : a.attempt.state.active = false) :
    Ensures (fun _ => True) (fun _ => False)
      (Completion.completeAttemptOutcome ctx identityNodeID jobID attemptID request a) := by
  unfold Completion.completeAttemptOutcome
  refine .check fun _ _ => .refuseIf fun _ => .check fun _ _ => .check fun _ _ =>
    .check fun expired _ => .refuseIf fun _ => .refuseIf fun _ => .check fun _ _ =>
    .answerIf fun _ => .settleIf (fun _ => trivial) fun _ => .check fun _ _ =>
    .settleIf (fun _ => trivial) fun _ => .refuseIf fun hactv => absurd ?_ hactv
  rw [hended]
  exact Bool.false_ne_true

/-- The store is what it was, or what the door of the call left of it but for late evidence of the
attempt. Only an upload that brings new log events also prunes summaries, as every upload does. -/
def LateOnly (s : Store) (e : Event) (attemptID : Nat) (call : AgentCall) : Prop :=
  step s e = s ∨ ∃ ctx opened evidenced, openDoor e.config e.door s = some (ctx, opened) ∧
    opened.attempts.find attemptID = s.attempts.find attemptID ∧
    WithLateEvidence attemptID opened evidenced ∧
    (step s e = evidenced ∨ ∃ fencingToken listed,
      call = .appendLogs fencingToken (.ok true) listed ∧
        step s e = evidenced.pruneListedAttemptSummaries ctx listed)

theorem pruneListedAttemptSummaries_nil (s : Store) (ctx : Ctx) :
    s.pruneListedAttemptSummaries ctx [] = s := by
  unfold Store.pruneListedAttemptSummaries
  rw [Table.deleteWhere_eq_self (by simp)]
  rfl

section
variable {s : Store} {e : Event} {identityNodeID jobID attemptID : Nat} {retiring : Bool}
  {call : AgentCall}

/-- **One call** on behalf of an attempt that is past, whatever it asks and whatever it presents. -/
theorem agent_lateOnly (hop : e.op = .agent identityNodeID jobID attemptID retiring call)
    (hended : ∀ {attempt}, s.attempts.find attemptID = some attempt →
      attempt.state.active = false) : LateOnly s e attemptID call := by
  rcases step_cases s e with hsame | ⟨ctx, opened, hdoor, hcom⟩
  · exact .inl hsame
  rw [hop] at hcom
  -- The door credits active leases only, so the row of the attempt is what it was.
  have hrow : opened.attempts.find attemptID = s.attempts.find attemptID := by
    obtain ⟨boot, gap, hcredt⟩ := find_attempts_openDoor hdoor
    rw [hcredt attemptID]
    cases hfind : s.attempts.find attemptID with
    | none => rfl
    | some attempt => simp [hended hfind]
  have hq : ∀ a : Authority, a.attempt.state.active = false → Ensures (fun _ => True)
      (fun _ => ∀ request listed, call ≠ .completeAttemptOutcome request listed)
      (call.tx ctx identityNodeID jobID attemptID opened a) := by
    intro a hpast
    cases call with
    | completeAttemptOutcome request listed =>
      exact (completeAttemptOutcome_inert hpast).mono (fun _ _ => trivial) fun _ h => h.elim
    | _ => exact agentCall_advances.mono (fun _ _ => trivial) fun _ _ _ _ => nofun
  have hleft : Commits (fun s' => ∃ evidenced, WithLateEvidence attemptID opened evidenced ∧
      (s' = evidenced ∨ ∃ fencingToken listed,
        call = .appendLogs fencingToken (.ok true) listed ∧
          s' = evidenced.pruneListedAttemptSummaries ctx listed))
      ((Op.agent identityNodeID jobID attemptID retiring call).tx ctx opened) := by
    show Ensures _ _ (onAttempt opened attemptID retiring _ >>= _)
    refine .bind (.mono (onAttempt_inert (fun _ => agentCall_advances) hq
      fun h => hended (hrow ▸ h)) (fun s' h => ⟨s', h, .inl rfl⟩) fun _ h => h)
        fun s' hs' => .pure ?_
    refine ⟨s', hs'.1, ?_⟩
    have hnone : call.pruned attemptID = [] →
        s'.pruneListedAttemptSummaries ctx (call.pruned attemptID) = s' := by
      intro hnil
      rw [hnil, pruneListedAttemptSummaries_nil]
    cases call with
    | completeAttemptOutcome request listed => exact absurd rfl (hs'.2 request listed)
    | appendLogs fencingToken scan listed =>
      rcases scan with _ | _ | _
      · exact .inl (hnone rfl)
      · exact .inl (hnone rfl)
      · exact .inr ⟨fencingToken, listed, rfl, rfl⟩
    | _ => exact .inl (hnone rfl)
  obtain ⟨evidenced, hlate, hleft⟩ := hleft.committed hcom
  exact .inr ⟨ctx, opened, evidenced, hdoor, hrow, hlate, hleft⟩

theorem LateOnly.jobs_eq (h : LateOnly s e attemptID call) : (step s e).jobs = s.jobs := by
  rcases h with hsame | ⟨ctx, opened, evidenced, hdoor, -, ⟨_, _, -, -, rfl⟩, hleft⟩
  · rw [hsame]
  · obtain ⟨-, ⟨leases, rfl⟩, -⟩ := openDoor_ok hdoor
    rcases hleft with hleft | ⟨_, _, -, hleft⟩ <;> rw [hleft] <;> rfl

end

/-- **Fences.** The fence of a job never goes back; the token of every attempt is larger than those
of the attempts before it, so no two attempts ever share one; and once an attempt has left the
active states, or a successor was claimed, a call that presents it leaves what its door left, which
has credited the host's sleep as every door does, with other late evidence of the attempt. -/
theorem past_attempts_are_fenced (events later : List Event) :
    (∀ {id job job'}, (reached events).jobs.find id = some job →
      (reached (events ++ later)).jobs.find id = some job' →
      job.fenceCounter ≤ job'.fenceCounter) ∧
    (∀ {i j a b}, (reached events).attempts.find i = some a →
      (reached events).attempts.find j = none →
      (reached (events ++ later)).attempts.find j = some b → a.jobID = b.jobID →
      a.fencingToken < b.fencingToken) ∧
    (∀ {i j a b}, (reached events).attempts.find i = some a →
      (reached (events ++ later)).attempts.find j = some b → a.jobID = b.jobID →
      a.fencingToken = b.fencingToken → i = j) ∧
    (∀ {attemptID attempt}, (reached events).attempts.find attemptID = some attempt →
      Superseded (reached events) attempt →
      ∀ {e : Event} {identityNodeID jobID : Nat} {retiring : Bool} {call : AgentCall},
        e.op = .agent identityNodeID jobID attemptID retiring call →
        LateOnly (reached (events ++ later)) e attemptID call) := by
  have hinv := reached_inv events
  have hfol := reached_follows events later
  have happend := reached_append events later
  refine ⟨fun hjob hjob' => (hfol.job hjob hjob').fence, fun ha hnew hb hjob => ?_,
    fun ha hb hjob htoken => ?_, fun {attemptID attempt} hfind hpast => ?_⟩
  · obtain ⟨job, hfnd, -, hle⟩ := hinv.owned ha
    rw [happend] at hb
    exact lt_of_le_of_lt hle (fence_lt_token later hinv hnew hb (by rw [← hjob]; exact hfnd))
  · rw [happend] at hb
    exact eq_of_token_eq later hinv ha hb hjob htoken
  · intro e identityNodeID jobID retiring call hop
    refine agent_lateOnly hop fun {attempt'} hfind' => ?_
    have hended := inactive_of_superseded hinv hfind hpast
    rw [(hfol.attempt hfind hfind').ended hended]
    exact hended

/-! ## 4. The credit of a door

A run in which a lost attempt reports late, after its job was claimed again. -/

def settings : Config where
  leaseDuration := 30 * second
  lateEvidenceWindow := 600 * second
  prestartInfrastructureBudget := 600 * second
  nodeStaleAfter := 600 * second
  nodeDeadAfter := 900 * second
  serviceStabilityWindow := 60 * second

/-- An operation at some time of a host that has slept for some time since its boot. -/
def at_ (now slept : Int) (op : Op) : Event where
  config := settings
  door := {
    reads := ⟨now, true, .ok (now - slept), some ("boot", now), .ok (now - slept)⟩
    now := now
    jitter := id }
  op := op

def host : Node where
  nodeID := 1
  identityNodeID := 1
  bootSessionID := 1
  state := .alive
  lastHeartbeat := 0
  heartbeatSleep := 0
  authorityGeneration := 1
  rootInstanceID := 1
  claimsEnabled := true
  intentRevision := 0
  maxOneshotSlots := 1
  maxServiceSlots := 1
  tags := []
  capabilities := []

def registers (now : Int) : Event :=
  at_ now 0 (.node (Table.empty.insert host) fun _ _ => false)

def oneshot : JobSpec where
  dispatchKey := 7
  kind := .process
  jobClass := .oneShot
  restartable := true

def submission (spec : JobSpec) : Submissions.Submission where
  spec
  requestHash := 9
  origin := ⟨some 5, none⟩
  retiring := false
  wellFormed := .ok ()
  admission := .ok ()
  seatRun := .ok ()

def submits (now : Int) (spec : JobSpec := oneshot) : Event :=
  at_ now 0 (.submit [submission spec])

def claimRequest (jobClass : JobClass) : Claims.ClaimRequest where
  identityNodeID := 1
  nodeID := 1
  bootSessionID := 1
  jobClass
  excludedJobIDs := []
  enrolled := false
  resident := fun _ => false
  listed := []

def claims (now : Int) (jobClass : JobClass := .oneShot) : Event :=
  at_ now 0 (.claim (claimRequest jobClass))

/-- The first attempt, on record as 2, is lost, and the job is claimed again as 3. -/
def claimedAgain : List Event :=
  [registers 0, submits 0, claims 0, at_ (40 * second) 0 (.reconcile (fun _ => true) []),
    claims (60 * second)]

def completes (now slept : Int) (attemptID fencingToken : Nat) : Event :=
  at_ now slept (.agent 1 1 attemptID false (.completeAttemptOutcome {
    interruptionReason := none
    interruptionRequestKey := none
    fencingToken := some fencingToken
    idempotencyKey := some 3
    result := { exitCode := some 0 }
    runtimeQuiescenceEvidence := none
    terminationInitiator := none
    bodyHash := 4 } []))

/-- The report of the lost attempt moves the lease of its successor, by the five seconds the host
slept before the report came. -/
theorem late_report_moves_successor_lease :
    (∃ lost, (reached claimedAgain).attempts.find 2 = some lost ∧
      Superseded (reached claimedAgain) lost) ∧
    ((reached claimedAgain).attempts.find 3).map (fun a => (a.jobID, a.leaseExpires)) =
      some (1, 90 * second) ∧
    ((step (reached claimedAgain) (completes (61 * second) (5 * second) 2 1)).attempts.find 3).map
      (fun a => a.leaseExpires) = some (95 * second) := by
  refine ⟨?_, by decide +kernel, by decide +kernel⟩
  have hst : ((reached claimedAgain).attempts.find 2).map (fun a => a.state.active) =
      some false := by decide +kernel
  obtain ⟨lost, hfind, hended⟩ := Option.map_eq_some_iff.mp hst
  exact ⟨lost, hfind, .inl hended⟩

end Wefty.Fencing
