/-
The transactions on jobs, attempts and services keep the invariant of the store, and what they
commit follows the store they found.

A transaction is a list of lines, and the rules of [`Wefty.Transactions`] take them one by one. The
lines that read or refuse need no argument. Those that write are writes of [`Wefty.StoreWrites`],
and what has to be shown for them is said per row: `Steers` for a job of a service whose binding
stays, `Moves` where it does not. The two loops of the pass that settles what nobody reported go by
induction on what is left of their list.
-/
import Wefty.Operations
import Wefty.ClaimRules

set_option autoImplicit false

namespace Wefty.StoreSteps

open Tables Rows StoreRows AttemptClock Transactions AttemptAuthority AttemptRules Completion
open ControlStore Submissions Services Removals Recovery Operations StoreRules StoreWrites
open ComputerWrites

variable {retiring : Bool} {ctx : Ctx} {desired : DesiredState} {now : Int} {job job' : Job}
variable {outcome : RemovalOutcome} {status : JobState}
variable {next : JobState} {attemptID id jobID : Nat} {removal removal' : Removal}
variable {submission : Submission} {tombstone : Tombstone}

/-- What a transaction commits follows the store it found, with this leave. -/
def KeepsUnder (copies : Prop) (leave : Nat → Leave) (s : Store) (t : StoreTx Store) : Prop :=
  Ensures (Onward copies leave s) (Onward copies leave s) t

abbrev Keeps (copies : Prop) (s : Store) (t : StoreTx Store) : Prop :=
  KeepsUnder copies noLeave s t

section
variable {copies : Prop} {s : Store} {actor : Check} {identityNodeID : Nat}
variable {bound : Int} {request : RemovalAcknowledgement}

/-! ## 1. Calls about one attempt -/

variable {a : Authority}

theorem of_readAttemptAuthority (h : s.readAttemptAuthority attemptID retiring = some a) :
    s.attempts.find a.attempt.attemptID = some a.attempt ∧
      s.jobs.find a.attempt.jobID = some a.job ∧ a.attempt.attemptID = attemptID := by
  unfold Store.readAttemptAuthority at h
  obtain ⟨attempt, hatt, h⟩ := Option.bind_eq_some_iff.mp h
  obtain ⟨job, hjob, h⟩ := Option.bind_eq_some_iff.mp h
  obtain ⟨node, -, h⟩ := Option.bind_eq_some_iff.mp h
  cases h
  have hid : attempt.attemptID = attemptID := Table.key_of_find hatt
  exact ⟨by rw [hid]; exact hatt, hjob, hid⟩

variable {f : Authority → AttemptTx AttemptRows}

theorem onAttempt_keeps (hinv : Inv copies s) (hf : ∀ a, Commits (Advances a.job a.attempt) (f a)) :
    Keeps copies s (onAttempt s attemptID retiring f) := by
  unfold onAttempt
  refine .orRefuse fun a ha => ?_
  obtain ⟨hatt, hjob, -⟩ := of_readAttemptAuthority ha
  have honw : ∀ rows, Advances a.job a.attempt rows → Onward copies noLeave s (s.setRows rows) :=
    fun rows h => onward_setRows hinv hatt hjob h
  exact .bind (.within (hf a) honw) fun rows h => .pure (honw rows h)

theorem find_setRows {rows : AttemptRows}
    (hfind : s.attempts.find attemptID = some a.attempt) (hadv : Advances a.job a.attempt rows) :
    (s.setRows rows).attempts.find attemptID = some rows.attempt := by
  have hkey : a.attempt.attemptID = attemptID := Table.key_of_find hfind
  have hid : rows.attempt.attemptID = attemptID :=
    (congrArg Identity.attemptID hadv.identity_eq).trans hkey
  have hown := (Table.find_replace s.attempts rows.attempt attemptID).trans (if_pos hid)
  rw [hfind] at hown
  exact hown

theorem onAttempt_row {P Q : Attempt → Prop} (hf : ∀ a, Commits (Advances a.job a.attempt) (f a))
    (hrow : ∀ a, s.readAttemptAuthority attemptID retiring = some a →
      Ensures (fun rows => P rows.attempt) (fun rows => Q rows.attempt) (f a)) :
    Ensures (fun s' => ∃ attempt, s'.attempts.find attemptID = some attempt ∧ P attempt)
      (fun s' => ∃ attempt, s'.attempts.find attemptID = some attempt ∧ Q attempt)
      (onAttempt s attemptID retiring f) := by
  unfold onAttempt
  refine .orRefuse fun a ha => ?_
  obtain ⟨hatt, -, hid⟩ := of_readAttemptAuthority ha
  rw [hid] at hatt
  have hboth := Ensures.and (hf a) (hrow a ha)
  exact .bind
    (.within hboth fun rows h => ⟨rows.attempt, find_setRows hatt h.1, h.2⟩)
    fun rows h => .pure ⟨rows.attempt, find_setRows hatt h.1, h.2⟩

variable {call : AgentCall}

theorem agentCall_advances :
    Commits (Advances a.job a.attempt) (call.tx ctx identityNodeID jobID attemptID s a) := by
  cases call with
  | renewLease => exact .bind renewLease_advances fun _ h => .pure h
  | observeAttemptImage => exact observeAttemptImage_advances
  | startAttempt => exact startAttempt_advances
  | setAttemptPublication => exact setAttemptPublication_advances
  | interruptRestartableAttempt => exact interruptRestartableAttempt_advances
  | appendLogs => exact appendLogs_advances
  | completeAttemptOutcome => exact completeAttemptOutcome_advances

theorem agent_keeps (hinv : Inv copies s) :
    Keeps copies s ((Op.agent identityNodeID jobID attemptID retiring call).tx ctx s) := by
  show Keeps copies s (onAttempt s attemptID retiring _ >>= _)
  refine .bind (onAttempt_keeps hinv fun _ => agentCall_advances) fun s' hs' => .pure ?_
  exact hs'.trans hinv (onward_pruneListedAttemptSummaries hs'.inv ctx _)

/-- The row an agent's call leaves of its own attempt, if it prunes others only. -/
theorem agent_row {P Q : Attempt → Prop} (hpruned : attemptID ∉ call.pruned attemptID)
    (hrow : ∀ a, s.readAttemptAuthority attemptID retiring = some a →
      Ensures (fun rows => P rows.attempt) (fun rows => Q rows.attempt)
        (call.tx ctx identityNodeID jobID attemptID s a)) :
    Ensures (fun s' => ∃ attempt, s'.attempts.find attemptID = some attempt ∧ P attempt)
      (fun s' => ∃ attempt, s'.attempts.find attemptID = some attempt ∧ Q attempt)
      ((Op.agent identityNodeID jobID attemptID retiring call).tx ctx s) := by
  show Ensures _ _ (onAttempt s attemptID retiring _ >>= _)
  refine .bind (onAttempt_row (fun _ => agentCall_advances) hrow) fun s' hs' => .pure ?_
  obtain ⟨attempt, hfind, hq⟩ := hs'
  have hkey : attempt.attemptID = attemptID := Table.key_of_find hfind
  refine ⟨attempt, Table.find_deleteWhere.trans ?_, hq⟩
  rw [show s'.leases.attempts.find attemptID = some attempt from hfind]
  exact Option.filter_eq_some_iff.mpr ⟨rfl, by simp [hkey, hpruned]⟩

/-! ## 2. Submission -/

theorem replayDispatchKey_none (h : replayDispatchKey s submission = .ok none) :
    s.tombstoneByDispatchKey submission.spec.dispatchKey = none := by
  unfold replayDispatchKey at h
  split at h
  · split at h <;> cases h
  · split at h
    · split at h <;> cases h
    · assumption

/-- What a submission passed that is answered with a job, or may create one. -/
structure LookedUp (ctx : Ctx) (s : Store) (submission : Submission)
    (found : Option Nat) : Prop where
  checked : checkSubmission submission = .ok ()
  live : ∀ parent ∈ submission.origin.parent,
    revalidateAttemptCredential ctx s parent submission.retiring = .ok ()
  replayed : replayDispatchKey s submission = .ok found
  free : found = none → checkParent s submission = .ok () ∧ submission.admission = .ok ()

theorem lookupSubmission_ok {found : Option Nat}
    (h : lookupSubmission ctx s submission = .ok found) : LookedUp ctx s submission found := by
  unfold lookupSubmission at h
  obtain ⟨⟨⟩, hcheck, h⟩ := ok_of_bind h
  obtain ⟨hlive, held, hheld, h⟩ : (∀ parent ∈ submission.origin.parent,
      revalidateAttemptCredential ctx s parent submission.retiring = .ok ()) ∧ ∃ held,
      replayDispatchKey s submission = .ok held ∧ _ := by
    split at h
    next parent hpar =>
      obtain ⟨⟨⟩, hlive, h⟩ := ok_of_bind h
      rw [hpar]
      refine ⟨?_, ok_of_bind h⟩
      rintro _ ⟨⟩
      exact hlive
    next hnone =>
      rw [hnone]
      exact ⟨nofun, ok_of_bind h⟩
  cases held with
  | none =>
    obtain ⟨⟨⟩, hpar, h⟩ := ok_of_bind h
    obtain ⟨⟨⟩, hadmn, h⟩ := ok_of_bind h
    cases h
    exact ⟨hcheck, hlive, hheld, fun _ => ⟨hpar, hadmn⟩⟩
  | some jobID =>
    cases h
    exact ⟨hcheck, hlive, hheld, nofun⟩

variable {before : Store}

/-- A key that was free when it was looked up is no tombstone's, while the tombstones stay. -/
theorem LookedUp.unburied (h : LookedUp ctx before submission none)
    (htombs : s.tombstones = before.tombstones) :
    s.tombstoneByDispatchKey submission.spec.dispatchKey = none := by
  have hfree := replayDispatchKey_none h.replayed
  unfold Store.tombstoneByDispatchKey at hfree ⊢
  rw [htombs]
  exact hfree

theorem not_holds_of_free {dispatchKey requestHash : Nat}
    (hjobs : s.jobByDispatchKey dispatchKey = none)
    (htombs : s.tombstoneByDispatchKey dispatchKey = none) :
    ¬ Holds s dispatchKey requestHash id := by
  intro h
  cases h with
  | job job hfind hkey _ =>
    have hfree := List.find?_eq_none.mp hjobs job (Table.mem_of_find hfind)
    simp [hkey] at hfree
  | tombstone tombstone hfind hkey _ =>
    have hfree := List.find?_eq_none.mp htombs tombstone (Table.mem_of_find hfind)
    simp [hkey] at hfree

theorem submittedJob_sound : Sound (submittedJob ctx jobID submission) where
  kind _ := by
    unfold submittedJob
    split <;> simp [*]
  computer h := by cases h
  removal h := by cases h
  verified _ h := by cases h
  canceled _ h := by cases h
  scheduled h := by cases h
  restarts := Nat.zero_le _
  claims _ := Nat.zero_le _

theorem insertSubmission_onward (hinv : Inv copies s)
    (hfree : s.tombstoneByDispatchKey submission.spec.dispatchKey = none) :
    Onward copies spawnLeave s (insertSubmission ctx s submission).1 ∧
      (insertSubmission ctx s submission).1.tombstones = s.tombstones := by
  unfold insertSubmission
  split
  · exact ⟨.refl hinv, rfl⟩
  next hjobs =>
    split
    · exact ⟨.refl hinv, rfl⟩
    · refine ⟨onward_insertJob hinv rfl submittedJob_sound rfl (.inr trivial)
        fun _ _ _ => ?_, rfl⟩
      exact not_holds_of_free (Option.not_isSome_iff_eq_none.mp hjobs) hfree

variable {submissions : List Submission}

/-- Submissions that were looked up in `before` and are inserted one after another: the tombstones
stay what they were when the keys were looked up. -/
theorem createJobs_onward :
    ∀ s : Store, Inv copies s → s.tombstones = before.tombstones →
      Onward copies spawnLeave s (createJobs ctx before s submissions).1 := by
  induction submissions with
  | nil => exact fun s hinv _ => .refl hinv
  | cons submission rest ih =>
    intro s hinv htombs
    unfold createJobs
    cases hlook : lookupSubmission ctx before submission with
    | error err => exact ih s hinv htombs
    | ok found =>
      cases found with
      | some jobID => exact ih s hinv htombs
      | none =>
        obtain ⟨hins, hsame⟩ := insertSubmission_onward hinv
          ((lookupSubmission_ok hlook).unburied htombs)
        exact hins.trans hinv (ih _ hins.inv (hsame.trans htombs))

theorem submit_keeps (hinv : Inv copies s) :
    KeepsUnder copies spawnLeave s (submit ctx submissions s) := by
  unfold submit
  exact .answerIf fun _ => .pure (createJobs_onward s hinv rfl)

/-! ## 3. Cancellation -/

theorem removal_none_of_sound (h : Sound job) (hst : removing job.state = false) :
    job.removal = none := by
  by_contra hrem
  have hremg := (h.removal (Option.isSome_iff_ne_none.mpr hrem)).1
  rw [hst] at hremg
  cases hremg

theorem moves_cancelQueued (hqueue : job.state = .queued) :
    Moves .none s job (cancelQueued now job) where
  follows := {
    origin_eq := rfl
    fence := le_rfl
    restarts := le_rfl
    canceled := fun _ _ => ⟨rfl, rfl, rfl⟩
    ended := fun _ h => by
      rw [hqueue] at h
      cases h
    unclaimed := fun _ => ⟨rfl, fun _ => rfl⟩
    granted := fun _ _ _ _ => .inl rfl
    removal := .refl .none job.removal }
  sound h := {
    kind := h.kind
    computer := h.computer
    removal := fun hr => by
      have hnone : job.removal = none := removal_none_of_sound h (by rw [hqueue]; rfl)
      have hsome : job.removal.isSome := hr
      rw [hnone] at hsome
      cases hsome
    verified := h.verified
    canceled := fun _ _ => ⟨rfl, by simp [cancelQueued], by simp [cancelQueued]⟩
    scheduled := fun hs => by cases hs
    restarts := h.restarts
    claims := fun hs => by
      have hclaims := h.claims hs
      have hone : openClaims (cancelQueued now job) = 1 :=
        openClaims_of_ne_queued (by simp [cancelQueued])
      have hle : openClaims job ≤ 1 := by
        unfold openClaims
        split <;> omega
      rw [hone]
      simp only [cancelQueued]
      omega }
  holding h := by cases h
  removes h := .inl h
  beside _ hbeside := hbeside.of_eq rfl rfl

theorem moves_reserveCanceled (hhold : job.state.holding) (hcan : job.canceled = false) :
    Moves .none s job (reserveCanceled now job) where
  follows := {
    origin_eq := rfl
    fence := le_rfl
    restarts := le_rfl
    canceled := fun _ h => by
      rw [hcan] at h
      cases h
    ended := fun _ _ => rfl
    unclaimed := fun _ => ⟨rfl, fun _ => rfl⟩
    granted := fun _ _ _ _ => .inl rfl
    removal := .refl .none job.removal }
  sound h := {
    kind := h.kind
    computer := h.computer
    removal := h.removal
    verified := h.verified
    canceled := fun _ _ => by
      have hnext : job.nextRestartAtNS = none := unscheduled_of_holding h hhold
      have hqueue : job.state ≠ .queued := ne_queued_of_holding hhold
      refine ⟨hnext, hqueue, fun hsucc => ?_⟩
      have hst : job.state = .succeeded := hsucc
      rw [hst] at hhold
      cases hhold
    scheduled := h.scheduled
    restarts := h.restarts
    claims := h.claims }
  holding := .inl
  removes h := .inl h
  beside _ hbeside := hbeside.of_eq rfl rfl

theorem canceledJob_moves (h : canceledJob now job = .ok job') :
    Moves .none s job job' ∧ Rebinds s job job' := by
  have hactv : ∀ {written : Job}, (if job.spec.jobClass ≠ .oneShot then
      (.error ⟨.cancelNotQueued, "only one-shots support active cancellation"⟩ :
        Except ProtocolError Job)
      else .ok (if job.canceled then job else reserveCanceled now job)) = .ok written →
      job.state.holding → Moves .none s job written ∧ Rebinds s job written := by
    intro written hwrit hhold
    split at hwrit
    · cases hwrit
    cases hwrit
    split
    · exact ⟨.refl .none s job, Rebinds.refl s job⟩
    next hcan =>
      have hreb : Rebinds s job (reserveCanceled now job) := by
        apply rebinds_of_same
        · rfl
        · exact id
        · rfl
      exact ⟨moves_reserveCanceled hhold (by simpa using hcan), hreb⟩
  unfold canceledJob at h
  split at h
  · cases h
    exact ⟨.refl .none s job, Rebinds.refl s job⟩
  · cases h
    exact ⟨.refl .none s job, Rebinds.refl s job⟩
  next hqueue =>
    split at h
    · cases h
    · cases h
      exact ⟨moves_cancelQueued hqueue, rebinds_of_idle (by rw [hqueue]; rfl)⟩
  next hst => exact hactv h (by rw [hst]; rfl)
  next hst => exact hactv h (by rw [hst]; rfl)
  next hst => exact hactv h (by rw [hst]; rfl)
  all_goals cases h

theorem find_self (h : s.jobs.find id = some job) : s.jobs.find job.jobID = some job := by
  rw [Table.key_of_find h]
  exact h

theorem find_setJob_self (hjob : s.jobs.find id = some job) (hid : job'.jobID = id)
    : (s.setJob job').jobs.find id = some job' := by
  show (s.jobs.replace job').find id = _
  rw [Table.find_replace, if_pos hid, hjob]
  rfl

theorem cancelJob_keeps (hinv : Inv copies s) {caller : CancelCaller} :
    Keeps copies s (cancelJob ctx jobID caller s) := by
  unfold cancelJob
  refine .check fun _ _ => ?_
  split
  · exact .orRefuse fun _ _ => .check fun _ _ => .refuse _
  next job hfind =>
    refine .check fun _ _ => .refuseIf fun _ => .refuseIf fun _ =>
      .check fun written hwrit => .pure ?_
    obtain ⟨hmvs, hreb⟩ := canceledJob_moves hwrit
    exact onward_setJob hinv (fun _ => not_false) (find_self hfind) hmvs hreb

/-! ## 4. Services -/

/-- A write to the job of a service that leaves its binding alone. -/
structure Steers (job job' : Job) : Prop where
  service : job.service.isSome
  origin_eq : origin job' = origin job
  fence : job'.fenceCounter = job.fenceCounter
  count : job'.restartCount = job.restartCount
  next : job'.nextRestartAtNS = job.nextRestartAtNS
  removal_eq : job'.removal = job.removal
  removed : removing job.state → removing job'.state
  holding : job'.state.holding → job.state.holding
  bound : job.state.holding → job'.state.holding ∧ job'.currentAttemptID = job.currentAttemptID

theorem Steers.refl (h : job.service.isSome) : Steers job job :=
  ⟨h, rfl, rfl, rfl, rfl, rfl, id, id, fun hh => ⟨hh, rfl⟩⟩

theorem Steers.trans {a b c : Job} (h : Steers a b) (h' : Steers b c) : Steers a c where
  service := h.service
  origin_eq := h'.origin_eq.trans h.origin_eq
  fence := h'.fence.trans h.fence
  count := h'.count.trans h.count
  next := h'.next.trans h.next
  removal_eq := h'.removal_eq.trans h.removal_eq
  removed hr := h'.removed (h.removed hr)
  holding hc := h.holding (h'.holding hc)
  bound ha := by
    obtain ⟨hb, hab⟩ := h.bound ha
    obtain ⟨hc, hbc⟩ := h'.bound hb
    exact ⟨hc, hbc.trans hab⟩

theorem steers_updateService (hsvc : job.service.isSome)
    (h : ∃ updatedNS service, service.isSome = job.service.isSome ∧
      job' = { job with updatedNS := updatedNS, service := service }) : Steers job job' := by
  obtain ⟨updatedNS, service, hsome, rfl⟩ := h
  refine ⟨hsvc, ?_, rfl, rfl, rfl, rfl, id, id, fun hh => ⟨hh, rfl⟩⟩
  unfold origin Job.computerForJob
  simp only [hsome]

theorem Steers.updateService (h : Steers job job') (f : ServiceJob → ServiceJob)
    : Steers job (job'.updateService f) := by
  have hsvc : job'.service.isSome := by
    have hsome : job'.service.isSome = job.service.isSome := congrArg Origin.service h.origin_eq
    rw [hsome]
    exact h.service
  exact h.trans (steers_updateService hsvc ⟨_, _, Option.isSome_map, rfl⟩)

theorem Steers.moves (s : Store) (h : Steers job job') : Moves .none s job job' :=
  moves_service h.service ⟨h.origin_eq, h.fence.ge, h.count, h.next⟩ h.holding
    (.of_eq h.removal_eq fun hsound hr => h.removed (hsound.removal hr).1)

theorem Steers.rebinds (s : Store) (h : Steers job job') : Rebinds s job job' := by
  intro _ _ _ _ _ hbnd
  obtain ⟨hhold, hcur⟩ := h.bound hbnd.holding
  exact ⟨hcur.trans hbnd.current, hhold, hbnd.token.trans h.fence.symm⟩

theorem onward_steer (hinv : Inv copies s) (hfind : s.jobs.find job.jobID = some job)
    (h : Steers job job') : Onward copies noLeave s (s.setJob job') :=
  onward_setJob hinv (fun _ => not_false) hfind (h.moves s) (h.rebinds s)

/-- What a transition of a service does: a removal that was requested stays requested. -/
theorem transitionServiceJob_ok (h : transitionServiceJob now desired next job = .ok job') :
    job.service.isSome ∧ next ∈ serviceJobTransitions job.state ∧
      ∃ service, job' = { job with state := next, updatedNS := now, service := some service } := by
  unfold transitionServiceJob at h
  split at h
  · cases h
  next hsvc =>
    split at h
    · cases h
    next hnext =>
      split at h
      · cases h
      · cases h
        exact ⟨by rw [hsvc]; rfl, not_not.mp hnext, _, rfl⟩

variable {state : JobState}

theorem removing_of_transition (h : next ∈ serviceJobTransitions state)
    (hr : removing state) : removing next := by
  cases state <;> simp [removing, serviceJobTransitions] at h hr ⊢ <;>
    rcases h with rfl | rfl | rfl <;> rfl

/-- A transition to a state that is as much held as the one before keeps the binding. -/
theorem steers_transition (h : transitionServiceJob now desired next job = .ok job')
    (hhold : next.holding = job.state.holding) : Steers job job' := by
  obtain ⟨hsvc, hnext, service, rfl⟩ := transitionServiceJob_ok h
  refine ⟨hsvc, ?_, rfl, rfl, rfl, rfl, removing_of_transition hnext, ?_, ?_⟩
  · unfold origin Job.computerForJob
    simp only [hsvc, Option.isSome_some]
  · rw [hhold]
    exact id
  · rw [hhold]
    exact fun hh => ⟨hh, rfl⟩

theorem stoppedJob_steers (hsvc : job.service.isSome) (h : stoppedJob now job = .ok job')
    : Steers job job' := by
  unfold stoppedJob at h
  split at h
  next hst => exact steers_transition h (by rw [hst]; rfl)
  next hst => exact steers_transition h (by rw [hst]; rfl)
  next hst => exact steers_transition h (by rw [hst]; rfl)
  · cases h
    exact steers_updateService hsvc ⟨_, _, Option.isSome_map, rfl⟩
  · split at h
    · cases h
      exact .refl hsvc
    · cases h
      exact steers_updateService hsvc ⟨_, _, Option.isSome_map, rfl⟩
  · cases h
    exact .refl hsvc

theorem desiredJob_steers (hsvc : job.service.isSome)
    (h : desiredJob now desired job = .ok job') : Steers job job' := by
  have hqueue : ∀ {f : ServiceJob → ServiceJob}, job.state.holding = false →
      (do
        let queued ← transitionServiceJob now .running .queued job
        return queued.updateService f) = (.ok job' : Except ProtocolError Job) →
      Steers job job' := by
    intro f hidle hwrit
    obtain ⟨queued, hqueue, hwrit⟩ := ok_of_bind hwrit
    cases hwrit
    exact (steers_transition hqueue (by rw [hidle]; rfl)).updateService f
  have hstop : (do
        let stopped ← stoppedJob now job
        return stopped.updateService fun service => { service with nextRestartAt := none }) =
      (.ok job' : Except ProtocolError Job) → Steers job job' := by
    intro hwrit
    obtain ⟨stopped, hstop, hwrit⟩ := ok_of_bind hwrit
    cases hwrit
    exact (stoppedJob_steers hsvc hstop).updateService _
  unfold desiredJob at h
  split at h
  · split at h
    next hst => exact hqueue (by rw [hst]; rfl) h
    next hst => exact hqueue (by rw [hst]; rfl) h
    · cases h
      exact .refl hsvc
  · exact hstop h
  · exact hstop h

theorem of_serviceJob (h : serviceJob s jobID = some job) :
    s.jobs.find jobID = some job ∧ job.service.isSome :=
  Option.filter_eq_some_iff.mp h

theorem setServiceDesiredState_keeps (hinv : Inv copies s) :
    Keeps copies s (setServiceDesiredState ctx jobID desired actor s) := by
  unfold setServiceDesiredState
  refine .refuseIf fun _ => .orRefuse fun job hjob => .check fun _ _ =>
    .check fun written hwrit => .pure ?_
  obtain ⟨hfind, hsvc⟩ := of_serviceJob hjob
  exact onward_steer hinv (find_self hfind) (desiredJob_steers hsvc hwrit)

theorem restartedJob_steers {createdNS : Int} {request : ServiceRestartRequest}
    (hsvc : job.service.isSome) (h : restartedJob now createdNS request job = .ok job') :
    Steers job job' := by
  have hqueue : ∀ {queued : Job} {f : ServiceJob → ServiceJob}, Steers job queued →
      Steers job ({ queued with updatedNS := now }.updateService f) := by
    intro queued f hsteer
    have hsome : queued.service.isSome :=
      (congrArg Origin.service hsteer.origin_eq).trans hsvc
    exact hsteer.trans (steers_updateService hsome ⟨_, _, Option.isSome_map, rfl⟩)
  unfold restartedJob at h
  split at h
  next hst =>
    obtain ⟨queued, htransition, h⟩ := ok_of_bind h
    cases h
    exact hqueue (steers_transition htransition (by rw [hst]; rfl))
  next hst =>
    obtain ⟨queued, htransition, h⟩ := ok_of_bind h
    cases h
    exact hqueue (steers_transition htransition (by rw [hst]; rfl))
  · cases h
    exact hqueue (.refl hsvc)

theorem restartService_keeps (hinv : Inv copies s) {request : ServiceRestartRequest} :
    Keeps copies s (restartService ctx jobID request actor s) := by
  unfold restartService
  refine .orRefuse fun job hjob => .check fun _ _ => .refuseIf fun _ =>
    .answerIf fun _ => .answerIf fun _ => .refuseIf fun _ =>
    .check fun _ _ => .check fun createdNS _ => .check fun written hwrit =>
    .pure ?_
  obtain ⟨hfind, hsvc⟩ := of_serviceJob hjob
  exact onward_steer hinv (find_self hfind) (restartedJob_steers hsvc hwrit)

/-! ## 5. The image latch -/

theorem onward_release (hinv : Inv copies s) (ctx : Ctx) {p : Attempt → Bool}
    (hfind : s.jobs.find job.jobID = some job) (hmvs : Moves .none s job job')
    (hp : ∀ {id attempt}, s.attempts.find id = some attempt → attempt.jobID = job.jobID →
      attempt.state.active → p attempt) :
    Onward copies noLeave s ((s.invalidateAttempts ctx p).setJob job') := by
  have hrevk := onward_invalidateAttempts hinv ctx p
  refine hrevk.trans hinv (onward_setJob hrevk.inv (fun _ => not_false) hfind ?_
    (rebinds_of_inactive ?_))
  · exact ⟨hmvs.follows, hmvs.sound, hmvs.holding, hmvs.removes, hmvs.beside⟩
  intro id attempt hatt hjobID
  by_contra hactv
  have hactv : attempt.state.active := by simpa using hactv
  rw [find_invalidateAttempts, Option.map_eq_some_iff] at hatt
  obtain ⟨old, hold, rfl⟩ := hatt
  have hfol := revoke_follows ctx p old
  have hwas := hfol.active hactv
  rw [hp hold (hfol.jobID_eq.symm.trans hjobID) hwas, hwas, Bool.and_self,
    if_pos rfl] at hactv
  unfold revoke at hactv
  dsimp only at hactv
  split at hactv <;> cases hactv

theorem latchService_keeps (hinv : Inv copies s) {request : ImageReconciliationFailure} :
    Keeps copies s (latchServiceImageReconciliationFailure ctx identityNodeID jobID request s) := by
  unfold latchServiceImageReconciliationFailure
  refine .refuseIf fun _ => .check fun _ _ => .check fun _ _ =>
    .orRefuse fun job hfind => .refuseIf fun hbnd => .check fun failed hfail =>
    .pure ?_
  have hself := find_self hfind
  have hsvc : job.service.isSome := by
    by_contra hnone
    refine hbnd ?_
    rw [Option.not_isSome_iff_eq_none] at hnone
    simp [boundNode, hnone]
  -- Only a job that is not being removed can be failed already, or fail now.
  have hfail' : ∃ updatedNS service, service.isSome = job.service.isSome ∧
      removing job.state = false ∧
      failed = { job with state := .failed, updatedNS := updatedNS, service := service } := by
    split at hfail
    next hst =>
      cases hfail
      refine ⟨job.updatedNS, job.service, rfl, by rw [hst]; rfl, ?_⟩
      rw [← hst]
    · obtain ⟨hsome, hnext, service, rfl⟩ := transitionServiceJob_ok hfail
      refine ⟨ctx.now, some service, by rw [hsome]; rfl, ?_, rfl⟩
      by_contra hremg
      have := removing_of_transition hnext (by simpa using hremg)
      cases this
  obtain ⟨updatedNS, service, hsome, hst, rfl⟩ := hfail'
  refine onward_release hinv ctx hself (moves_service hsvc
    ⟨origin_updateService.trans ?_, le_rfl, rfl, rfl⟩ nofun (.of_eq rfl ?_)) ?_
  · simp only [origin, detachAttempt, Job.computerForJob, hsome]
  · intro hsound hr
    have hnone := removal_none_of_sound hsound hst
    have hr : job.removal.isSome := hr
    rw [hnone] at hr
    cases hr
  · intro id attempt hatt hjobID hactv
    have hjob : s.jobs.find attempt.jobID = some job := by
      rw [hjobID]
      exact hself
    simp [(hinv.bound hatt hjob hactv).current]

/-! ## 6. Removals -/

theorem insertTombstone_ok {s' : Store} (h : insertTombstone s tombstone = .ok s') :
    s.tombstones.find tombstone.jobID = none ∧ s' = s.insertServiceTombstone tombstone := by
  unfold insertTombstone at h
  split at h
  · cases h
  next hfree =>
    cases h
    rw [not_or] at hfree
    exact ⟨by simpa using hfree.1, rfl⟩

theorem insertTombstone_bury (hinv : Inv copies s) {s' : Store}
    (hjob : s.jobs.find tombstone.jobID = some job) (hsvc : job.service.isSome)
    (hbur : Buries .none job tombstone) (h : insertTombstone s tombstone = .ok s') :
    Onward copies noLeave s (s'.deleteServiceRows tombstone.jobID) := by
  obtain ⟨hfree, rfl⟩ := insertTombstone_ok h
  exact onward_bury hinv hjob hsvc hbur hfree

theorem removes_of_service (hinv : Inv copies s) (hfind : s.jobs.find job.jobID = some job)
    (hcomp : job.computerForJob = none) :
    ∀ {k computer}, s.computers.find k = some computer → computer.currentJobID = job.jobID →
      computer.phase = .removing := by
  intro k computer hc hcur
  have hprojected := (hinv.layout.placed hc (by rw [hcur]; exact hfind)).projected
  rw [hcomp] at hprojected
  cases hprojected

theorem serviceActionDecision_service {verb : ServiceVerb}
    (h : serviceActionDecision s actor verb job = .ok ()) : job.computerForJob = none := by
  unfold serviceActionDecision at h
  obtain ⟨_, hauth, -⟩ := ok_of_bind h
  unfold serviceActionAuthority at hauth
  obtain ⟨_, -, hauth⟩ := ok_of_bind hauth
  cases hcomp : job.computerForJob with
  | none => rfl
  | some computerID =>
    rw [hcomp] at hauth
    dsimp only at hauth
    split at hauth
    · cases hauth
    · split at hauth <;> cases hauth

theorem removalMoves_of_request (hnone : job.removal = none) (hrem : job'.removal = some removal)
    (hstat : removal.status = .removalPending) (hcleanup : removal.cleanupStatus = .pending)
    (hst : removing job'.state) (hremoves : ∀ {k computer}, s.computers.find k = some computer →
      computer.currentJobID = job.jobID → computer.phase = .removing) :
    RemovalMoves .none s job job' where
  state _ _ := hst
  retires := by
    rw [hnone, hrem]
    refine ⟨fun _ => nofun, fun _ r' hr' hwaiv => ?_, fun _ r' hr' hprov => ?_⟩
    · rw [← Option.mem_some_iff.mp hr', hstat] at hwaiv
      cases hwaiv
    · rw [← Option.mem_some_iff.mp hr', hcleanup] at hprov
      cases hprov
  verified _ r hr hver := by
    rw [hrem] at hr
    rw [← Option.mem_some_iff.mp hr, hstat] at hver
    cases hver
  removes _ := .inr hremoves
  label _ hlab := by
    rw [hnone] at hlab
    obtain ⟨_, hr, -⟩ := hlab
    cases hr

theorem removeService_keeps (hinv : Inv copies s) :
    Keeps copies s (removeService ctx jobID actor s) := by
  unfold removeService
  split
  · exact .refuseIf fun _ => .check fun _ _ => .answer
  next job hserviceJob =>
    obtain ⟨hfind, hsvc⟩ := of_serviceJob hserviceJob
    have hself := find_self hfind
    have hid : job.jobID = jobID := Table.key_of_find hfind
    refine .check fun _ hdec => ?_
    have hcomp := serviceActionDecision_service hdec
    split
    · exact .pure (.refl hinv)
    next hrem =>
      have hnone : job.removal = none := by simpa using hrem
      have hmvs : Moves .none s job (scrubbedJob ctx.now job) :=
        moves_service hsvc ⟨origin_updateService, Nat.le_succ _, rfl, rfl⟩ nofun
          (.of_eq rfl fun _ _ => rfl)
      have hrevk := onward_release hinv ctx (p := fun a => a.jobID = jobID) hself hmvs
        fun _ hjobID _ => by simp [hjobID, hid]
      have hscrub : ((s.invalidateAttempts ctx fun a => a.jobID = jobID).setJob
          (scrubbedJob ctx.now job)).jobs.find job.jobID = some (scrubbedJob ctx.now job) :=
        find_setJob_self hself rfl
      have hsvc' : (scrubbedJob ctx.now job).service.isSome := Option.isSome_map.trans hsvc
      have hnone' : (scrubbedJob ctx.now job).removal = none := hnone
      split
      · refine .check fun buried hburied => .pure ?_
        -- Nothing was requested before, so there is no label to keep and nothing to prove.
        have hbur : Buries .none (scrubbedJob ctx.now job)
            (unboundTombstone (scrubbedJob ctx.now job)) :=
          ⟨rfl, rfl, fun _ => by simp [hnone'], fun _ _ => by simp [hnone']⟩
        rw [← hid]
        rw [← hid] at hrevk hscrub hburied
        exact hrevk.trans hinv (insertTombstone_bury hrevk.inv hscrub hsvc' hbur
          hburied)
      next nodeID _ =>
        refine .orRefuse fun root _ => .pure ?_
        have hmvs' : Moves .none ((s.invalidateAttempts ctx fun a => a.jobID = jobID).setJob
            (scrubbedJob ctx.now job)) (scrubbedJob ctx.now job)
            { scrubbedJob ctx.now job with
              removal := some (requestedRemoval ctx.now nodeID root s.nextID) } :=
          moves_service hsvc' ⟨rfl, le_rfl, rfl, rfl⟩ id
            (removalMoves_of_request hnone' rfl rfl rfl rfl
              (removes_of_service hinv hself hcomp))
        have hreqd : Onward copies noLeave _ _ := onward_setJob hrevk.inv
          (fun _ => not_false) hscrub hmvs' (rebinds_of_idle rfl)
        exact (hrevk.trans hinv hreqd).trans hinv
          (onward_nextID hreqd.inv (Nat.le_succ _))

theorem idle_of_removing (h : removing state) : state.holding = false := by
  cases state <;> first | rfl | cases h

/-- What a write may do to a removal that stands. -/
structure RemovalRowMoves (leave : Leave) (s : Store) (job : Job) (removal removal' : Removal) :
    Prop where
  follows : RemovalFollows leave removal removal'
  waived : ¬ leave.waive → removal'.status = .forgottenCleanupUnverified →
    removal.status = .forgottenCleanupUnverified
  proved : ¬ leave.acknowledge → removal'.cleanupStatus = .acknowledged →
    removal.cleanupStatus = .acknowledged
  verified : removal'.status = .removedVerified →
    removal'.cleanupStatus = .acknowledged ∧ job.computerForJob.isSome
  label : ∀ {tombstone}, s.tombstones.find job.jobID = some tombstone →
    removal.status = tombstone.outcome.state → removal'.status = tombstone.outcome.state

theorem RemovalRowMoves.removalMoves {leave : Leave}
    (h : RemovalRowMoves leave s job removal removal') (hrem : job.removal = some removal)
    (hrem' : job'.removal = some removal') (hst : removing job'.state) :
    RemovalMoves leave s job job' where
  state _ _ := hst
  retires := by
    rw [hrem, hrem']
    refine ⟨fun r hr => ?_, fun hn r' hr' hwaiv => ?_, fun hn r' hr' hprov => ?_⟩
    · rw [← Option.mem_some_iff.mp hr]
      exact ⟨removal', rfl, h.follows⟩
    · rw [← Option.mem_some_iff.mp hr'] at hwaiv
      exact ⟨removal, rfl, h.waived hn hwaiv⟩
    · rw [← Option.mem_some_iff.mp hr'] at hprov
      exact ⟨removal, rfl, h.proved hn hprov⟩
  verified _ r hr hver := by
    rw [hrem'] at hr
    rw [← Option.mem_some_iff.mp hr] at hver ⊢
    exact h.verified hver
  removes _ := .inl (by rw [hrem]; rfl)
  label ht hlab := by
    rw [hrem] at hlab
    obtain ⟨r, hr, hstat⟩ := hlab
    rw [← Option.mem_some_iff.mp hr] at hstat
    exact ⟨removal', hrem', h.label ht hstat⟩

theorem moves_removing {leave : Leave} (hinv : Inv copies s)
    (hfind : s.jobs.find job.jobID = some job) (hrem : job.removal = some removal)
    (hrem' : job'.removal = some removal') (hcourse : Course job job')
    (hst : removing job'.state) (h : RemovalRowMoves leave s job removal removal') :
    Moves leave s job job' ∧ job.state.holding = false := by
  obtain ⟨hremg, hsvc⟩ := (hinv.sound hfind).removal (by rw [hrem]; rfl)
  refine ⟨moves_service hsvc hcourse ?_ (h.removalMoves hrem hrem' hst), idle_of_removing hremg⟩
  rw [idle_of_removing hst]
  exact nofun

variable {leave : Nat → Leave}

theorem onward_removing (hinv : Inv copies s)
    (hwaive : ∀ id, ¬ (leave id).waive) (hfind : s.jobs.find job.jobID = some job)
    (hrem : job.removal = some removal) (hrem' : job'.removal = some removal')
    (hcourse : Course job job') (hst : removing job'.state)
    (h : RemovalRowMoves (leave job.jobID) s job removal removal') :
    Onward copies leave s (s.setJob job') := by
  obtain ⟨hmvs, hidle⟩ := moves_removing hinv hfind hrem hrem' hcourse hst h
  exact onward_setJob hinv hwaive hfind hmvs (rebinds_of_idle hidle)

theorem forgetService_keeps (hinv : Inv copies s) :
    KeepsUnder copies (waiveOf jobID) s (forgetService ctx jobID s) := by
  unfold forgetService
  refine .orRefuse fun job hfind => .orRefuse fun removal hrem =>
    .check fun buried hburied => .pure ?_
  have hid : job.jobID = jobID := Table.key_of_find hfind
  obtain ⟨hfree, rfl⟩ := insertTombstone_ok hburied
  -- With leave to waive nothing is said of the label, and a tombstone there is none to agree with.
  have hrow : RemovalRowMoves (waiveOf jobID job.jobID) s job removal
      { removal with status := .forgottenCleanupUnverified, removedNS := some ctx.now } :=
    { follows := ⟨⟨rfl, rfl, rfl⟩, fun hn => absurd hid hn, fun _ => rfl, fun _ => rfl,
        fun _ => rfl⟩
      waived := fun hn => absurd hid hn
      proved := fun _ h => h
      verified := nofun
      label := fun ht => by
        rw [show s.tombstones.find job.jobID = none from hfree] at ht
        cases ht }
  obtain ⟨hmvs, hidle⟩ : Moves (waiveOf jobID job.jobID) s job { job with
      state := .forgottenCleanupUnverified
      updatedNS := ctx.now
      removal := some { removal with
        status := .forgottenCleanupUnverified
        removedNS := some ctx.now } } ∧ job.state.holding = false :=
    moves_removing hinv (find_self hfind) hrem rfl ⟨rfl, le_rfl, rfl, rfl⟩ rfl hrow
  exact onward_forget hinv (find_self hfind) hmvs hidle ⟨rfl, rfl, _, rfl, rfl⟩ hfree

theorem of_removalRow
    (h : ((s.jobs.find jobID).bind fun job => job.removal.map fun removal => (job, removal)) =
      some (job, removal)) : s.jobs.find jobID = some job ∧ job.removal = some removal := by
  obtain ⟨found, hfind, hmap⟩ := Option.bind_eq_some_iff.mp h
  obtain ⟨row, hrow, hpair⟩ := Option.map_eq_some_iff.mp hmap
  cases hpair
  exact ⟨hfind, hrow⟩

theorem removalOver_state : removalOver outcome.state := by
  cases outcome <;> rfl

theorem recordServiceRemovalStall_keeps (hinv : Inv copies s)
    (hwaive : ∀ id, ¬ (leave id).waive) (hfind : s.jobs.find job.jobID = some job)
    (hrem : job.removal = some removal) {stall : Check × Nat} :
    KeepsUnder copies leave s
      (recordServiceRemovalStall ctx bound s job removal request stall) := by
  unfold recordServiceRemovalStall
  refine .refuseIf fun _ => .refuseIf fun _ => .refuseIf fun _ =>
    .refuseIf fun _ => .check fun _ _ => .refuseIf fun _ =>
    .refuseIf fun _ => ?_
  split
  · exact .pure (.refl hinv)
  next hfst =>
    refine .refuseIf fun hpend => .pure ?_
    have hpend := not_not.mp hpend
    have hopen : removalOver removal.status = false := by
      rw [hpend]
      rfl
    refine onward_removing hinv hwaive hfind hrem rfl ⟨origin_updateService, le_rfl, rfl, rfl⟩ rfl
      { follows := ⟨⟨rfl, rfl, rfl⟩, fun _ hover => ?_, fun _ => rfl,
        fun hstall => ?_, fun _ => rfl⟩
        waived := fun _ => nofun
        proved := fun _ h => h
        verified := nofun
        label := fun _ hlab => ?_ }
    · rw [hopen] at hover
      cases hover
    · exact absurd hstall hfst
    · rw [hlab, removalOver_state] at hopen
      cases hopen

/-- A removal that a cleanup can still be proved for: its label, if it has one, is no proof. -/
theorem cleanedStatus_of_acknowledgeable (h : acknowledgeable status) :
    (removalOver status → cleanedStatus status = status) ∧
      cleanedStatus status ≠ .removedVerified ∧
      (cleanedStatus status = .forgottenCleanupUnverified →
        status = .forgottenCleanupUnverified) := by
  revert h
  cases status <;> decide

theorem acknowledgeable_of_validate
    (h : validateMutableAcknowledgement s identityNodeID request removal = .ok ()) :
    acknowledgeable removal.status := by
  unfold validateMutableAcknowledgement at h
  split at h
  · cases h
  next hstat => exact not_not.mp hstat

theorem acknowledgeMutable_keeps (hinv : Inv copies s)
    (hfind : s.jobs.find job.jobID = some job) (hrem : job.removal = some removal) :
    KeepsUnder copies (acknowledgeOf job.jobID) s
      (acknowledgeMutable ctx bound identityNodeID request job removal s) := by
  have hsome : job.removal.isSome := by rw [hrem]; rfl
  have hwaive : ∀ id, ¬ (acknowledgeOf job.jobID id).waive := fun _ => not_false
  unfold acknowledgeMutable
  refine .check fun _ hvalid => ?_
  have hstat := acknowledgeable_of_validate hvalid
  split
  · exact recordServiceRemovalStall_keeps hinv hwaive hfind hrem
  refine .refuseIf fun _ => .refuseIf fun hpend => ?_
  split
  next hquar =>
    refine .refuseIf fun _ => .check fun _ _ => .refuseIf fun _ => ?_
    split
    · exact .pure (.refl hinv)
    next hfst =>
      refine .pure (onward_removing hinv hwaive hfind hrem rfl ⟨rfl, le_rfl, rfl, rfl⟩
        ((hinv.sound hfind).removal hsome).1
        { follows := ⟨⟨rfl, rfl, rfl⟩, fun _ _ => rfl, fun _ => rfl, fun _ => rfl,
            fun hreceipt => absurd hreceipt hfst⟩
          waived := fun _ h => h
          proved := fun _ => nofun
          verified := fun hver => ?_
          label := fun _ hlab => hlab })
      -- Only a removal that is pending is quarantined.
      refine absurd ⟨by rw [hquar]; rfl, ?_⟩ hpend
      rw [show removal.status = .removedVerified from hver]
      decide
  · refine .check fun _ _ => .refuseIf fun _ => .answerIf fun hfst =>
      .pure ?_
    obtain ⟨hkept, hunverified, hforg⟩ := cleanedStatus_of_acknowledgeable hstat
    refine onward_removing hinv hwaive hfind hrem rfl ⟨rfl, le_rfl, rfl, rfl⟩
      (by cases removal.status <;> rfl)
      { follows := ⟨⟨rfl, rfl, rfl⟩, fun _ => hkept, fun hacc => ?_, fun _ => rfl, fun _ => rfl⟩
        waived := fun _ => hforg
        proved := fun hn => absurd rfl hn
        verified := fun hver => absurd hver hunverified
        label := fun _ hlab => ?_ }
    · exact absurd hacc hfst
    · exact (hkept (by rw [hlab]; exact removalOver_state)).trans hlab

/-- **What an acknowledgement commits**, it commits of a removal that is not over. Of one that is
over, it is only answered. -/
theorem acknowledgeServiceRemoval_commits {P : Store → Prop}
    (h : ∀ job removal, s.jobs.find job.jobID = some job → job.jobID = jobID →
      job.removal = some removal →
      ¬ (removal.removedNS.isSome ∧ removal.agentCleanedNS.isSome ∧ job.computerForJob.isSome) →
      Commits P (acknowledgeMutable ctx bound identityNodeID request job removal s)) :
    Commits P (acknowledgeServiceRemoval ctx bound identityNodeID jobID request s) := by
  unfold acknowledgeServiceRemoval
  split
  · exact .orRefuse fun _ _ => .check fun _ _ => .answer
  next job removal hrow =>
    obtain ⟨hfind, hrem⟩ := of_removalRow hrow
    split
    · exact .orRefuse fun _ _ => .refuseIf fun _ => .refuseIf fun _ =>
        .refuseIf fun _ => .refuseIf fun _ => .answer
    next hopen => exact h job removal (find_self hfind) (Table.key_of_find hfind) hrem hopen

theorem acknowledgeServiceRemoval_keeps (hinv : Inv copies s) :
    KeepsUnder copies (acknowledgeOf jobID) s
      (acknowledgeServiceRemoval ctx bound identityNodeID jobID request s) :=
  acknowledgeServiceRemoval_commits fun _ _ hfind hid hrem _ =>
    hid ▸ acknowledgeMutable_keeps hinv hfind hrem

theorem of_finalizable (h : finalizable removal) :
    removal.cleanupStatus = .acknowledged ∧
      (removal.status = .agentCleaned ∨ removal.status = .forgottenCleanupUnverified ∨
        removal.status = .stalledCleanupUnverified) := by
  simp only [finalizable, Bool.and_eq_true, Bool.or_eq_true, decide_eq_true_eq] at h
  refine ⟨h.1, ?_⟩
  rcases h.2 with hcleaned | ⟨hlab, -⟩
  · exact .inl hcleaned
  · exact .inr hlab

theorem terminalStatus_of_finalizable (h : finalizable removal) :
    removing (terminalStatus removal.status) ∧
      (removalOver removal.status → terminalStatus removal.status = removal.status) ∧
      (terminalStatus removal.status = .forgottenCleanupUnverified →
        removal.status = .forgottenCleanupUnverified) := by
  rcases (of_finalizable h).2 with hs | hs | hs <;> rw [hs] <;> decide

/-- The tombstone of a removal that is made final: without a waiver it says what the row said. -/
theorem buries_finalizedTombstone (hrem : job.removal = some removal) (hfinal : finalizable removal)
    (hforg : removal.status ≠ .forgottenCleanupUnverified) :
    Buries .none job (finalizedTombstone job removal) := by
  obtain ⟨hprov, hstat⟩ := of_finalizable hfinal
  refine ⟨rfl, rfl, fun _ r hr hover => ?_, fun _ _ r hr => ?_⟩
  · rw [hrem] at hr
    rw [← Option.mem_some_iff.mp hr] at hover ⊢
    unfold finalizedTombstone
    rcases hstat with hs | hs | hs
    · rw [hs] at hover
      cases hover
    · exact absurd hs hforg
    · rw [hs]
      rfl
  · rw [hrem] at hr
    rw [← Option.mem_some_iff.mp hr]
    exact hprov

theorem buries_of_beside (hrem : job.removal = some removal) (hfinal : finalizable removal)
    (h : Beside job tombstone) : Buries .none job tombstone := by
  obtain ⟨r, hr, hlab⟩ := h.label
  refine ⟨h.dispatchKey_eq, h.requestHash_eq, fun _ r' hr' _ => ?_, fun _ _ r' hr' => ?_⟩
  · rw [Option.mem_unique hr' hr]
    exact hlab.symm
  · rw [Option.mem_unique hr' hrem]
    exact (of_finalizable hfinal).1

theorem finalizeServiceRemovalTx_onward (hinv : Inv copies s) {finalized : Option Store}
    (h : finalizeServiceRemovalTx ctx jobID s = .ok finalized) :
    Onward copies noLeave s (finalized.getD s) := by
  unfold finalizeServiceRemovalTx at h
  split at h
  · split at h <;> cases h
    exact .refl hinv
  next job removal hrow =>
    obtain ⟨hfind, hrem⟩ := of_removalRow hrow
    have hself := find_self hfind
    have hid : job.jobID = jobID := Table.key_of_find hfind
    have hsvc := ((hinv.sound hfind).removal (by rw [hrem]; rfl)).2
    split at h
    · cases h
      exact .refl hinv
    next hfinal =>
      have hfinal := not_not.mp hfinal
      obtain ⟨hprov, -⟩ := of_finalizable hfinal
      obtain ⟨hremg, hkept, hforg⟩ := terminalStatus_of_finalizable hfinal
      split at h
      next hcomp =>
        split at h
        · cases h
          exact .refl hinv
        cases h
        refine onward_removing hinv (fun _ => not_false) hself hrem rfl
          ⟨origin_updateService, le_rfl, rfl, rfl⟩ hremg
          { follows := ⟨⟨rfl, rfl, rfl⟩, fun _ => hkept, fun _ => rfl, fun _ => rfl, fun _ => rfl⟩
            waived := fun _ => hforg
            proved := fun _ h => h
            verified := fun _ => ⟨hprov, hcomp⟩
            label := fun _ hlab =>
              (hkept (by rw [hlab]; exact removalOver_state)).trans hlab }
      · split at h
        next hburied =>
          cases h
          obtain ⟨tombstone, htomb⟩ := Option.isSome_iff_exists.mp hburied
          have hack : Onward copies noLeave s _ := onward_acknowledgeTombstone hinv jobID
            removal.agentCleanedNS removal.acknowledgement
          refine hack.trans hinv (onward_deleteServiceRows hack.inv (fun {other} hoth => ?_)
            fun {other} hoth _ => ?_)
          · have hsame : some job = some other := hfind.symm.trans hoth
            cases hsame
            exact hsvc
          · have hsame : some job = some other := hfind.symm.trans hoth
            cases hsame
            obtain ⟨t, ht, -⟩ := hack.follows.tombstone htomb
            exact ⟨t, ht, buries_of_beside hrem hfinal (hack.inv.keys.buried ht hfind)⟩
        next hburied =>
          obtain ⟨buried, hinsr, h⟩ := ok_of_bind h
          cases h
          rw [← hid] at hburied ⊢
          refine insertTombstone_bury hinv hself hsvc
            (buries_finalizedTombstone hrem hfinal fun hstat => hburied ?_) hinsr
          obtain ⟨t, ht⟩ := hinv.keys.forgotten hself removal hrem hstat
          rw [ht]
          rfl

theorem finalizeServiceRemoval_keeps (hinv : Inv copies s) :
    Keeps copies s (finalizeServiceRemoval ctx jobID s) := by
  unfold finalizeServiceRemoval
  refine .check fun finalized hfinalized => ?_
  have honw := finalizeServiceRemovalTx_onward hinv hfinalized
  cases finalized with
  | none => exact .answer
  | some s' => exact .pure honw

/-- What a call about a service has leave for: a forced forget waives the proof of its removal, and
an acknowledgement may record it. -/
def leaveOf (jobID : Nat) : ServiceCall → Nat → Leave
  | .forget => waiveOf jobID
  | .acknowledgeRemoval _ _ _ => acknowledgeOf jobID
  | _ => noLeave

theorem serviceCall_keeps (hinv : Inv copies s) {call : ServiceCall} :
    KeepsUnder copies (leaveOf jobID call) s (call.tx ctx jobID s) := by
  cases call with
  | setDesiredState => exact setServiceDesiredState_keeps hinv
  | restart => exact restartService_keeps hinv
  | latchImageFailure => exact latchService_keeps hinv
  | remove => exact removeService_keeps hinv
  | forget => exact forgetService_keeps hinv
  | acknowledgeRemoval => exact acknowledgeServiceRemoval_keeps hinv
  | finalizeRemoval => exact finalizeServiceRemoval_keeps hinv

/-! ## 7. Reconciliation -/

theorem onward_updateServices (hinv : Inv copies s) (p : Job → ServiceJob → Bool)
    (f : ServiceJob → ServiceJob) : Onward copies noLeave s (updateServices s p f) := by
  have hfind : ∀ id, (updateServices s p f).jobs.find id = (s.jobs.find id).map fun job =>
      if job.service.any (p job) then job.updateService f else job :=
    fun id => Table.find_updateWhere s.jobs (fun job => job.service.any (p job))
      (fun job => job.updateService f) (fun _ => rfl) id
  refine (Changes.jobs hinv (fun _ => not_false)
    (fun {id job} hj => ⟨_, (hfind id).trans (by rw [hj]; rfl)⟩)
    (fun {id job'} hj => ?_)).onward hinv
  obtain ⟨job, hjob, rfl⟩ := Option.map_eq_some_iff.mp ((hfind id).symm.trans hj)
  refine ⟨job, hjob, ?_⟩
  split
  next hany =>
    have hsvc : job.service.isSome := by
      cases hs : job.service with
      | none =>
        rw [hs] at hany
        cases hany
      | some _ => rfl
    have hsteer : Steers job (job.updateService f) := (Steers.refl hsvc).updateService f
    exact ⟨hsteer.moves s, hsteer.rebinds s⟩
  · exact ⟨.refl .none s job, Rebinds.refl s job⟩

/-- The loop over the attempts that ran out: each is settled on the rows it has by then. -/
theorem expireAttempts_onward {attempts : List Nat} :
    ∀ {s s' : Store}, Inv copies s → expireAttempts ctx attempts s = .ok s' →
      Onward copies noLeave s s' := by
  induction attempts with
  | nil =>
    intro s s' hinv h
    cases h
    exact .refl hinv
  | cons attemptID rest ih =>
    intro s s' hinv h
    unfold expireAttempts at h
    split at h
    · cases h
    next a ha =>
      obtain ⟨hatt, hjob, -⟩ := of_readAttemptAuthority ha
      have hone : Onward copies noLeave s (s.setRows (expireAttempt ctx a.job a.attempt)) :=
        onward_setRows hinv hatt hjob expireAttempt_advances
      exact hone.trans hinv (ih hone.inv h)

theorem finalizeRemovals_onward {jobs : List Nat} :
    ∀ {s s' : Store}, Inv copies s → finalizeRemovals ctx jobs s = .ok s' →
      Onward copies noLeave s s' := by
  induction jobs with
  | nil =>
    intro s s' hinv h
    cases h
    exact .refl hinv
  | cons jobID rest ih =>
    intro s s' hinv h
    unfold finalizeRemovals at h
    split at h
    · cases h
    next finalized hfinalized =>
      have hone := finalizeServiceRemovalTx_onward hinv hfinalized
      exact hone.trans hinv (ih hone.inv h)

theorem reconcile_keeps (hinv : Inv copies s) {checked : Nat → Bool} {listed : List Nat} :
    Keeps copies s (reconcile ctx checked listed s) := by
  have hnodes : Onward copies noLeave s (sweepNodes ctx s) := onward_withNodes hinv _
  have hstab : Onward copies noLeave s (reconcileStability ctx checked (sweepNodes ctx s)) := by
    unfold reconcileStability
    have hinterrupted := hnodes.trans hinv
      (onward_updateServices hnodes.inv (serviceHealthLost (sweepNodes ctx s) checked)
        fun service =>
        { service with healthySinceNS := none })
    exact hinterrupted.trans hinv (onward_updateServices hinterrupted.inv _ _)
  unfold reconcile
  refine .check fun settled hset => ?_
  have hexp := hstab.trans hinv (expireAttempts_onward hstab.inv hset)
  have hpruned := hexp.trans hinv
    (onward_pruneListedAttemptSummaries hexp.inv ctx listed)
  exact .checked fun final hfinal =>
    hpruned.trans hinv (finalizeRemovals_onward hpruned.inv hfinal)

end

end Wefty.StoreSteps
