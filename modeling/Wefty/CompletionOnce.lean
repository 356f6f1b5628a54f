/-
A completion takes effect once.

A call of `CompleteAttemptOutcome` that commits anything leaves its attempt ended: accepted, or lost
because the lease had run out. From then on the attempt is past, and [`Wefty.Fencing`] says what is
left to it. And once a completion is on record, whether accepted or late, the next call finds it
before it writes anything: it is answered from the record or refused.
-/
import Wefty.Fencing

set_option autoImplicit false

namespace Wefty.CompletionOnce

open Tables Rows StoreRows RestartPolicy Transactions AttemptAuthority AttemptRules Completion
open ControlStore Operations StoreRules StoreWrites StoreSteps StoreRuns Fencing

/-! ## 1. The transaction -/

section
variable {ctx : Ctx} {identityNodeID jobID attemptID : Nat} {a : Authority}

/-- Whatever a completion commits ends the attempt; one that is accepted is on record. -/
theorem completeAttemptOutcome_ends (request : CompletionRequest) :
    Ensures (fun rows => rows.attempt.state.active = false)
      (fun rows => rows.attempt.state.active = false ∧ rows.attempt.completionKey.isSome ∧
        rows.attempt.completionKey = request.idempotencyKey ∧
        rows.attempt.completionHash = some request.bodyHash)
      (completeAttemptOutcome ctx identityNodeID jobID attemptID request a) := by
  unfold completeAttemptOutcome
  refine .check fun _ hvalid => .refuseIf fun _ => .check fun _ _ =>
    .check fun _ _ => .check fun expired _ => .refuseIf fun _ =>
    .refuseIf fun _ => .check fun _ _ => .answerIf fun _ =>
    .settleIf (fun hlost => ?_) fun hlost => .check fun _ _ =>
    .settleIf (fun _ => ?_) fun _ => .refuseIf fun hactv =>
    .check fun reason hreas => .pure ⟨?_, ?_, rfl, rfl⟩
  · show (withLateEvidence _ _ _ _).state.active = false
    rw [withLateEvidence, hlost]
    rfl
  · rw [expireInline_of_not_lost hlost]
    by_cases hactv : a.attempt.state.active
    · rw [expireAttempt_lost hactv]
      rfl
    · rw [expireAttempt_inactive (by simpa using hactv)]
      simpa using hactv
  · have hcan : reason.isSome → a.job.canceled = false := by
      intro hsome
      by_contra hcan
      rw [if_pos (by simpa using hcan)] at hreas
      cases hreas
      cases hsome
    exact (completionVerdict_settled ctx a.job a.attempt request reason hcan).attemptState
  · unfold validateCompletionRequest at hvalid
    dsimp only at hvalid
    obtain ⟨hpresent, -⟩ := guard_eq_ok_iff.mp hvalid
    rw [not_or] at hpresent
    show request.idempotencyKey.isSome
    simpa [Option.isSome_iff_ne_none] using hpresent.2

theorem completeAttemptOutcome_replayed (request : CompletionRequest)
    (h : a.attempt.completionKey.isSome) :
    Replayed (a.attempt.completionKey = request.idempotencyKey ∧
        a.attempt.completionHash = some request.bodyHash) (fun _ => False) (fun _ => False)
      (completeAttemptOutcome ctx identityNodeID jobID attemptID request a) := by
  unfold completeAttemptOutcome
  refine .check fun _ _ => .refuseIf fun _ => .check fun _ _ =>
    .check fun _ _ => .check fun _ _ => .compare (fun hoth => ⟨h, not_and_or.mp hoth⟩) ?_
  exact .refuseIf fun _ => .check fun _ _ => .answerIf fun hopen => absurd h hopen

end

/-! ## 2. The call -/

def Completes (e : Event) (attemptID : Nat) (request : CompletionRequest) : Prop :=
  ∃ identityNodeID jobID retiring listed,
    e.op = .agent identityNodeID jobID attemptID retiring (.completeAttemptOutcome request listed)

/-- The operation changes a job, or the state of the attempt. -/
def Decides (s : Store) (e : Event) (attemptID : Nat) : Prop :=
  (step s e).jobs ≠ s.jobs ∨
    ((step s e).attempts.find attemptID).map Attempt.state ≠
      (s.attempts.find attemptID).map Attempt.state

variable {listed : List Nat}

section
variable {s : Store} {e : Event} {attemptID : Nat} {request : CompletionRequest}

theorem not_mem_pruned :
    attemptID ∉ (AgentCall.completeAttemptOutcome request listed).pruned attemptID := by
  simp [AgentCall.pruned]

theorem step_of_completes (h : Completes e attemptID request) : step s e = s ∨
    ∃ attempt, (step s e).attempts.find attemptID = some attempt ∧
      attempt.state.active = false := by
  obtain ⟨identityNodeID, jobID, retiring, listed, hop⟩ := h
  rcases step_cases s e with hsame | ⟨ctx, opened, hdoor, hcom⟩
  · exact .inl hsame
  · rw [hop] at hcom
    refine .inr (Ensures.committed (P := fun s' => ∃ attempt,
      s'.attempts.find attemptID = some attempt ∧ attempt.state.active = false) ?_ hcom)
    exact agent_row not_mem_pruned fun a _ =>
      (completeAttemptOutcome_ends request).mono (fun _ h => h) fun _ h => h.1

variable {opened : Store} {attempt : Attempt}

theorem recorded_of_openDoor {ctx : Ctx} (hdoor : openDoor e.config e.door s = some (ctx, opened))
    (hfind : s.attempts.find attemptID = some attempt) :
    ∃ attempt', opened.attempts.find attemptID = some attempt' ∧
      attempt'.completionKey = attempt.completionKey ∧
      attempt'.completionHash = attempt.completionHash := by
  obtain ⟨boot, gap, hcredt⟩ := find_attempts_openDoor hdoor
  refine ⟨_, (hcredt attemptID).trans (by rw [hfind]; rfl), ?_⟩
  dsimp only
  split <;> exact ⟨rfl, rfl⟩

/-- A completion of an attempt that has one on record is the same one, or is refused. -/
theorem replayed_of_recorded (h : Completes e attemptID request) {ctx : Ctx}
    (hfind : s.attempts.find attemptID = some attempt)
    (hkey : attempt.completionKey.isSome)
    (hdoor : openDoor e.config e.door s = some (ctx, opened)) :
    Replayed (attempt.completionKey = request.idempotencyKey ∧
      attempt.completionHash = some request.bodyHash) (fun _ => False) (fun _ => False)
      (e.op.tx ctx opened) := by
  obtain ⟨identityNodeID, jobID, retiring, listed, hop⟩ := h
  obtain ⟨attempt', hfind', hkey', hhash'⟩ := recorded_of_openDoor hdoor hfind
  rw [← hkey'] at hkey ⊢
  rw [hop, ← hhash']
  show Replayed _ _ _ (onAttempt opened attemptID retiring
    (completeAttemptOutcome ctx identityNodeID jobID attemptID request) >>= _)
  refine .bind (Q := fun _ => False) ?_ fun _ h => h.elim
  unfold onAttempt
  refine .orRefuse fun a ha => ?_
  obtain ⟨hatt, -, hid⟩ := of_readAttemptAuthority ha
  rw [hid, hfind'] at hatt
  cases hatt
  exact .within (completeAttemptOutcome_replayed request hkey) (fun _ h => h) fun _ h => h.elim

theorem step_of_recorded (h : Completes e attemptID request)
    (hfind : s.attempts.find attemptID = some attempt) (hkey : attempt.completionKey.isSome) :
    step s e = s := by
  rcases step_cases s e with hsame | ⟨ctx, opened, hdoor, hcom⟩
  · exact hsame
  · rw [committed_of_ensures (replayed_of_recorded h hfind hkey hdoor).ensures] at hcom
    cases hcom

theorem recorded_of_accepted (h : Completes e attemptID request) (hacc : Accepted s e) :
    ∃ attempt, (step s e).attempts.find attemptID = some attempt ∧
      attempt.completionKey.isSome ∧ attempt.completionKey = request.idempotencyKey ∧
      attempt.completionHash = some request.bodyHash := by
  obtain ⟨identityNodeID, jobID, retiring, listed, hop⟩ := h
  refine step_of_accepted (P := fun _ => True) (Q := fun s' => ∃ attempt,
    s'.attempts.find attemptID = some attempt ∧ attempt.completionKey.isSome ∧
      attempt.completionKey = request.idempotencyKey ∧
      attempt.completionHash = some request.bodyHash) hacc fun ctx opened hdoor => ?_
  rw [hop]
  exact .mono (agent_row (P := fun _ => True) not_mem_pruned fun a _ =>
    (completeAttemptOutcome_ends request).mono (fun _ _ => trivial) fun _ h => h.2)
    (fun _ _ => trivial) fun _ h => h

end

/-! ## 3. Runs -/

/-- Late evidence does not move the state of the attempt it is about. -/
theorem map_state_of_lateOnly {s : Store} {e : Event} {attemptID : Nat}
    {request : CompletionRequest}
    (h : LateOnly s e attemptID (.completeAttemptOutcome request listed)) :
    ((step s e).attempts.find attemptID).map Attempt.state =
      (s.attempts.find attemptID).map Attempt.state := by
  rcases h with hsame | ⟨ctx, opened, evidenced, -, hrow, ⟨attempt, attempt', hfind, hlate, rfl⟩,
    hleft | ⟨_, _, hcall, -⟩⟩
  · rw [hsame]
  · have hkey : attempt.attemptID = attemptID := Table.key_of_find hfind
    have hid : attempt'.attemptID = attemptID :=
      (congrArg Identity.attemptID hlate.identity_eq).trans hkey
    have hown := (Table.find_replace opened.attempts attempt' attemptID).trans (if_pos hid)
    rw [hfind] at hown
    rw [hleft, ← hrow, hfind]
    exact (congrArg (Option.map Attempt.state) hown).trans (congrArg some hlate.state_eq)
  · cases hcall

/-- **A completion takes effect once.** Of all calls about one attempt at most one changes a job or
the state of the attempt. An accepted completion stays on record as it was presented. While one
is on record every call changes nothing, and a call that differs from it is refused. And the
completion of a lost attempt changes no job. -/
theorem completion_takes_effect_once (events later : List Event) :
    (∀ {first second attemptID request request'}, Completes first attemptID request →
      Completes second attemptID request' → Decides (reached events) first attemptID →
      ¬ Decides (reached (events ++ first :: later)) second attemptID) ∧
    (∀ {e attemptID request}, Completes e attemptID request → Accepted (reached events) e →
      ∀ {attempt}, (reached (events ++ e :: later)).attempts.find attemptID = some attempt →
        attempt.completionKey = request.idempotencyKey ∧
          attempt.completionHash = some request.bodyHash ∧ attempt.completionKey.isSome) ∧
    (∀ {e attemptID request attempt}, Completes e attemptID request →
      (reached events).attempts.find attemptID = some attempt → attempt.completionKey.isSome →
      step (reached events) e = reached events ∧
        (attempt.completionKey ≠ request.idempotencyKey ∨
          attempt.completionHash ≠ some request.bodyHash → Refused (reached events) e)) ∧
    (∀ {e attemptID request attempt}, Completes e attemptID request →
      (reached events).attempts.find attemptID = some attempt → attempt.state = .lost →
      (step (reached events) e).jobs = (reached events).jobs) := by
  have hinv := reached_inv events
  refine ⟨fun {first second attemptID request request'} hfst hsnd hdecides => ?_,
    fun {e attemptID request} h hacc {attempt} hfind => ?_,
    fun {e attemptID request attempt} h hfind hkey => ?_,
    fun {e attemptID request attempt} h hfind hlost => ?_⟩
  · -- The first call ended the attempt, so at the second it is past.
    have hended : ∃ made, (step (reached events) first).attempts.find attemptID = some made ∧
        made.state.active = false := by
      rcases step_of_completes (s := reached events) hfst with hsame | hended
      · rcases hdecides with hjobs | hst
        · exact absurd (by rw [hsame]) hjobs
        · exact absurd (by rw [hsame]) hst
      · exact hended
    obtain ⟨made, hmade, hended⟩ := hended
    have hstep := (reached_outcome events first).onward
    have hfol := (exec_onward later hstep.inv fun _ _ _ => trivial).follows
    obtain ⟨identityNodeID, jobID, retiring, listed, hop⟩ := hsnd
    have hlate := agent_lateOnly (s := reached (events ++ first :: later)) hop
      fun {attempt'} hfind' => by
        rw [reached_cons] at hfind'
        rw [(hfol.attempt hmade hfind').ended hended]
        exact hended
    rintro (hjobs | hst)
    · exact hjobs hlate.jobs_eq
    · exact hst (map_state_of_lateOnly hlate)
  · obtain ⟨made, hmade, hsome, hkey, hhash⟩ := recorded_of_accepted h hacc
    have hstep := (reached_outcome events e).onward
    have hfol := (exec_onward later hstep.inv fun _ _ _ => trivial).follows
    rw [reached_cons] at hfind
    obtain ⟨hkey', hhash'⟩ := (hfol.attempt hmade hfind).accepted hsome
    exact ⟨hkey'.trans hkey, hhash'.trans hhash, by rwa [hkey']⟩
  · refine ⟨step_of_recorded h hfind hkey, fun hdiff ctx opened hdoor => ?_⟩
    exact (replayed_of_recorded h hfind hkey hdoor).refuses (not_and_or.mpr hdiff)
  obtain ⟨identityNodeID, jobID, retiring, listed, hop⟩ := h
  have hlate := agent_lateOnly (s := reached events) hop
    fun {attempt'} hfind' => by
      rw [hfind] at hfind'
      cases hfind'
      rw [hlost]
      rfl
  exact hlate.jobs_eq

end Wefty.CompletionOnce
