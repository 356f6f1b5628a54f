/-
Runs of the L1 store.

Every operation keeps the invariant, and what it leaves follows what it found. From a fresh database
both hold over any list of operations: the invariant in the store it ends with, and `Follows`
between the stores at any two points of it. The results about the store read one or the other off.
-/
import Wefty.StorageSteps

set_option autoImplicit false

namespace Wefty.StoreRuns

open Tables StoreRows Transactions AttemptAuthority AttemptRules ControlStore Operations StoreRules
open StoreWrites ClaimRules StoreSteps StorageSteps

/-! ## 1. One operation -/

theorem inv_openStore (copies : Prop) : Inv copies Store.openStore where
  sound h := by cases h
  owned h := by cases h
  bound h := by cases h
  distinct h := by cases h
  fresh := ⟨nofun, nofun, nofun, nofun, nofun⟩
  keys := by
    refine ⟨nofun, nofun, fun _ _ _ _ _ _ hi => ?_, fun _ _ _ => nofun⟩
    cases hi with
    | job _ hfind => cases hfind
    | tombstone _ hfind => cases hfind
  layout := ⟨nofun, nofun, nofun, nofun, nofun⟩

/-- What an operation that is no claim has leave for. -/
def opLeave : Op → Nat → Leave
  | .submit _ => spawnLeave
  | .service jobID call => leaveOf jobID call
  | _ => noLeave

theorem opLeave_claim (op : Op) (id : Nat) : ¬ (opLeave op id).claim := by
  cases op with
  | service jobID call => cases call <;> exact not_false
  | _ => exact not_false

/-- **Every operation but a claim** keeps the invariant and claims nothing. -/
theorem op_keeps {copies : Prop} {s : Store} (hinv : Inv copies s) (ctx : Ctx) {op : Op}
    (hop : ∀ request, op ≠ .claim request) (hcopies : op.copies → copies) :
    KeepsUnder copies (opLeave op) s (op.tx ctx s) := by
  cases op with
  | submit => exact submit_keeps hinv
  | cancel => exact cancelJob_keeps hinv
  | claim request => exact absurd rfl (hop request)
  | agent => exact agent_keeps hinv
  | service => exact serviceCall_keeps hinv
  | computer => exact computerCall_keeps hinv
  | createComputer => exact createComputer_keeps hinv
  | cloneComputer => exact beginComputerClone_keeps hinv (hcopies rfl)
  | importComputer => exact beginComputerCustodyImport_keeps hinv (hcopies rfl)
  | reconcile => exact reconcile_keeps hinv
  | node nodes unstable =>
    have hnodes := onward_withNodes hinv nodes
    exact .pure (hnodes.trans hinv (onward_updateServices hnodes.inv unstable _))

/-- A transaction commits what its door and then its statements left, or nothing. -/
theorem runTx_cases (config : Config) (door : Door) (tx : Ctx → Store → StoreTx Store) (s : Store) :
    runTx config door tx s = s ∨ ∃ ctx opened, openDoor config door s = some (ctx, opened) ∧
      committed (tx ctx opened) = some (runTx config door tx s) := by
  unfold runTx
  split
  next ctx opened hdoor =>
    cases hcom : committed (tx ctx opened) with
    | none => exact .inl rfl
    | some rows => exact .inr ⟨ctx, opened, hdoor, hcom⟩
  · exact .inl rfl

theorem step_cases (s : Store) (e : Event) : step s e = s ∨ ∃ ctx opened,
    openDoor e.config e.door s = some (ctx, opened) ∧
      committed (e.op.tx ctx opened) = some (step s e) := runTx_cases e.config e.door e.op.tx s

inductive Outcome (copies : Prop) (s : Store) (e : Event) : Prop
  | kept (h : Onward copies (opLeave e.op) s (step s e))
  | took (ctx : Ctx) (opened : Store) (job : Job)
      (hdoor : openDoor e.config e.door s = some (ctx, opened))
      (htaken : Taken ctx opened (step s e) job)
      (h : Onward copies (claimOf job.jobID) s (step s e))

theorem step_outcome {copies : Prop} {s : Store} (hinv : Inv copies s) (e : Event)
    (hcopies : e.op.copies → copies) : Outcome copies s e := by
  rcases step_cases s e with hsame | ⟨ctx, opened, hdoor, hcom⟩
  · refine .kept ?_
    rw [hsame]
    exact .refl hinv
  · have hopd := onward_openDoor hinv hdoor
    by_cases hclaim : ∃ request, e.op = .claim request
    · obtain ⟨request, hreq⟩ := hclaim
      have hout : ClaimOutcome copies ctx opened (step s e) := by
        refine Ensures.committed ?_ hcom
        rw [hreq]
        exact claimJob_outcome hopd.inv
      cases hout with
      | waited h => exact .kept (hopd.trans hinv h).weaken
      | took job htaken h => exact .took ctx opened job hdoor htaken (hopd.weaken.trans hinv h)
    · have hkeeps := op_keeps hopd.inv ctx (fun request hop => hclaim ⟨request, hop⟩) hcopies
      exact .kept (hopd.weaken.trans hinv (Ensures.committed hkeeps hcom))

theorem Outcome.onward {copies : Prop} {s : Store} {e : Event} (h : Outcome copies s e) :
    Onward copies (fun _ => .all) s (step s e) := by
  cases h with
  | kept h => exact h.mono fun id => Leave.within_all _
  | took ctx opened job hdoor htaken h => exact h.mono fun id => Leave.within_all _

def Accepted (s : Store) (e : Event) : Prop :=
  ∃ ctx opened s', openDoor e.config e.door s = some (ctx, opened) ∧ e.op.tx ctx opened = .ok s'

instance (s : Store) (e : Event) : Decidable (Accepted s e) :=
  match hdoor : openDoor e.config e.door s with
  | none => .isFalse fun ⟨_, _, _, hsome, _⟩ => by rw [hdoor] at hsome; cases hsome
  | some (ctx, opened) =>
    match htx : e.op.tx ctx opened with
    | .ok s' => .isTrue ⟨ctx, opened, s', hdoor, htx⟩
    | .error _ => .isFalse fun ⟨_, _, _, hsome, hok⟩ => by
      cases hdoor.symm.trans hsome
      rw [htx] at hok
      cases hok

def Refused (s : Store) (e : Event) : Prop :=
  ∀ ctx opened, openDoor e.config e.door s = some (ctx, opened) → Refuses (e.op.tx ctx opened)

/-- What the transaction of an accepted operation ensures at its end holds after it. -/
theorem step_of_accepted {s : Store} {e : Event} {P Q : Store → Prop} (hacc : Accepted s e)
    (h : ∀ ctx opened, openDoor e.config e.door s = some (ctx, opened) →
      Ensures P Q (e.op.tx ctx opened)) : Q (step s e) := by
  obtain ⟨ctx, opened, s', hdoor, hok⟩ := hacc
  have hens := h ctx opened hdoor
  have hstep : step s e = s' := by
    unfold step runTx
    rw [hdoor]
    dsimp only
    rw [hok]
    rfl
  rw [hok] at hens
  rw [hstep]
  exact hens

/-! ## 2. Claims -/

def Claimed (s : Store) (e : Event) (jobID : Nat) : Prop :=
  ∃ id attempt, (step s e).attempts.find id = some attempt ∧ attempt.jobID = jobID ∧
    s.attempts.find id = none

/-- What a claim of a job found and what it left. -/
structure TookJob (s : Store) (e : Event) (job : Job) : Prop where
  found : s.jobs.find job.jobID = some job
  queued : job.state = .queued
  canceled : job.canceled = false
  due : job.service = none → ∀ next ∈ job.nextRestartAtNS, next ≤ e.door.now
  published : ∀ computerID ∈ job.computerForJob, Published s computerID
  row : ∃ attemptID job', (step s e).jobs.find job.jobID = some job' ∧
    ClaimedRow attemptID job job'
  token : ∀ {id attempt}, (step s e).attempts.find id = some attempt →
    s.attempts.find id = none → attempt.fencingToken = job.fenceCounter + 1

section
variable {copies : Prop} {s : Store} {e : Event}

theorem Outcome.took_of_claimed (hinv : Inv copies s) (h : Outcome copies s e) {jobID : Nat}
    (hclaim : Claimed s e jobID) : ∃ job, job.jobID = jobID ∧ TookJob s e job := by
  obtain ⟨id, attempt, hatt, hjob, hnew⟩ := hclaim
  cases h with
  | kept h =>
    obtain ⟨old, hold⟩ := h.follows.oldAttempt hatt (.inr (opLeave_claim e.op _))
    rw [hnew] at hold
    cases hold
  | took ctx opened job hdoor htaken h =>
    have hopd := onward_openDoor hinv hdoor
    obtain ⟨hnow, ⟨leases, rfl⟩, -⟩ := openDoor_ok hdoor
    -- What was not there before is the attempt the claim made.
    have hmade : ∀ {id attempt}, (step s e).attempts.find id = some attempt →
        s.attempts.find id = none → attempt.jobID = job.jobID ∧
          attempt.fencingToken = job.fenceCounter + 1 := by
      intro id attempt hatt hnew
      rcases htaken.only hatt with rfl | ⟨old, hold⟩
      · obtain ⟨made, hfind, hjobID, htoken, -⟩ := htaken.attempt
        rw [hatt] at hfind
        cases hfind
        exact ⟨hjobID, htoken⟩
      · obtain ⟨older, holder⟩ := hopd.follows.oldAttempt hold (.inr not_false)
        rw [hnew] at holder
        cases holder
    obtain ⟨job', hjob', hrow⟩ := htaken.row
    refine ⟨job, (hmade hatt hnew).1.symm.trans hjob, htaken.found, htaken.queued,
      htaken.canceled, fun hs next hnext => ?_, htaken.published, ⟨_, job', hjob', hrow⟩,
      fun ha hn => (hmade ha hn).2⟩
    rw [← hnow]
    exact htaken.due hs next hnext

/-- What a job that is not claimed has in common with the row before. -/
theorem Outcome.follows_of_unclaimed (hinv : Inv copies s) (h : Outcome copies s e)
    {job job' : Job} {id : Nat} (hjob : s.jobs.find id = some job)
    (hjob' : (step s e).jobs.find id = some job') (hn : ¬ Claimed s e id) :
    JobFollows .unclaimed job job' := by
  cases h with
  | kept h =>
    exact (h.follows.job hjob hjob').mono (Leave.within_unclaimed (opLeave_claim e.op id))
  | took ctx opened taken hdoor htaken h =>
    refine (h.follows.job hjob hjob').mono (Leave.within_unclaimed fun hid => hn ?_)
    obtain ⟨attempt, hfind, hatt, -⟩ := htaken.attempt
    obtain ⟨-, ⟨leases, rfl⟩, -⟩ := openDoor_ok hdoor
    refine ⟨s.nextID, attempt, hfind, hatt.trans hid.symm, ?_⟩
    by_contra hsome
    obtain ⟨old, hold⟩ := Option.ne_none_iff_exists'.mp hsome
    exact absurd (hinv.fresh.attempts hold) (lt_irrefl _)

end

/-! ## 3. Runs -/

/-- **From any sound store** the invariant holds at the end of a run, and the end follows the
start. -/
theorem exec_onward {copies : Prop} (events : List Event) :
    ∀ {s : Store}, Inv copies s → (∀ e ∈ events, e.op.copies → copies) →
      Onward copies (fun _ => .all) s (Runs.exec step s events) := by
  induction events with
  | nil =>
    intro s hinv _
    exact .refl hinv
  | cons e events ih =>
    intro s hinv hcopies
    have hstep := (step_outcome hinv e (hcopies e List.mem_cons_self)).onward
    exact hstep.trans hinv (ih hstep.inv fun e' he' => hcopies e' (List.mem_cons_of_mem e he'))

theorem reached_inv (events : List Event) : Inv True (reached events) :=
  (exec_onward events (inv_openStore True) fun _ _ _ => trivial).inv

theorem reached_append (events later : List Event) :
    reached (events ++ later) = Runs.exec step (reached events) later :=
  Runs.exec_append step Store.openStore events later

theorem reached_cons (events later : List Event) (e : Event) :
    reached (events ++ e :: later) = Runs.exec step (step (reached events) e) later := by
  rw [reached_append, Runs.exec_cons]

theorem reached_concat (events : List Event) (e : Event) :
    reached (events ++ [e]) = step (reached events) e := reached_cons events [] e

/-- **Any later store follows** any earlier one. -/
theorem reached_follows (events later : List Event) :
    Follows True (fun _ => .all) (reached events) (reached (events ++ later)) := by
  rw [reached_append]
  exact (exec_onward later (reached_inv events) fun _ _ _ => trivial).follows

theorem reached_outcome (events : List Event) (e : Event) : Outcome True (reached events) e :=
  step_outcome (reached_inv events) e fun _ => trivial

end Wefty.StoreRuns
