/-
What a removal ends with.

The label of a removal is read off its row while the job is there, and off the tombstone afterwards.
Over any run it is final once it says how the removal ended, with one exception. A forced forget is
two transactions: it asks for the removal, and it waives the proof on the strength of what the first
one answered. A declaration that the cleanup stalled may be accepted between the two, and the second
one overwrites it. The guarantee is therefore about runs in which no forget of the job commits that
late.

Whatever the run, `removed_verified` is only ever reached through an acknowledgement that named the
directive, and an acknowledgement that is sent again changes nothing.
-/
import Wefty.Fencing

set_option autoImplicit false

namespace Wefty.RemovalLabels

open Tables Rows StoreRows RestartPolicy Transactions AttemptAuthority ControlStore Services
open Removals Operations StoreRules StoreWrites StoreSteps StoreRuns Fencing Runs

variable {e : Event} {job : Job} {status : JobState} {events : List Event}
variable {ctx : Ctx} {actor : Check} {later : List Event}
variable {identityNodeID jobID : Nat} {removal : Removal} {request : RemovalAcknowledgement}
variable {s : Store}

/-! ## 1. Labels -/

/-- The label reported for the removal of a job: that of its row (`applyServiceRemoval`), or of the
tombstone where the job is gone. -/
def label (s : Store) (jobID : Nat) : Option JobState :=
  match s.jobs.find jobID with
  | some job => job.removal.map fun removal => removal.status
  | none => (s.tombstones.find jobID).map fun tombstone => tombstone.outcome.state

theorem label_of_job (hjob : s.jobs.find jobID = some job) :
    label s jobID = job.removal.map fun removal => removal.status := by
  unfold label
  rw [hjob]

theorem label_of_none (hjob : s.jobs.find jobID = none) :
    label s jobID = (s.tombstones.find jobID).map fun tombstone => tombstone.outcome.state := by
  unfold label
  rw [hjob]

variable {copies : Prop} {leave : Nat → Leave}

theorem gone_of_tombstone {s' : Store} (hinv : Inv copies s)
    (h : Follows copies leave s s') {tombstone : Tombstone} (hjob : s.jobs.find jobID = none)
    (htomb : s.tombstones.find jobID = some tombstone) : s'.jobs.find jobID = none := by
  by_contra hsome
  obtain ⟨job', hjob'⟩ := Option.ne_none_iff_exists'.mp hsome
  obtain ⟨job, hold⟩ := h.oldJob hjob' (hinv.fresh.tombstones htomb)
  rw [hjob] at hold
  cases hold

/-- **A final label stays** wherever no proof is waived. -/
theorem label_of_follows {s' : Store} (hinv : Inv copies s)
    (h : Follows copies leave s s') (hwaive : ¬ (leave jobID).waive)
    (hlab : label s jobID = some status) (hover : removalOver status)
    : label s' jobID = some status := by
  cases hjob : s.jobs.find jobID with
  | some job =>
    rw [label_of_job hjob] at hlab
    obtain ⟨removal, hrem, rfl⟩ := Option.map_eq_some_iff.mp hlab
    cases hjob' : s'.jobs.find jobID with
    | some job' =>
      obtain ⟨removal', hrem', hrow⟩ := (h.job hjob hjob').removal.kept removal hrem
      rw [label_of_job hjob', hrem']
      exact congrArg some (hrow.final hwaive hover)
    | none =>
      obtain ⟨tombstone, htomb, hbur⟩ := h.gone hjob hjob' (by rw [hrem]; rfl)
      rw [label_of_none hjob', htomb]
      exact congrArg some (hbur.final hwaive removal hrem hover)
  | none =>
    rw [label_of_none hjob] at hlab
    obtain ⟨tombstone, htomb, rfl⟩ := Option.map_eq_some_iff.mp hlab
    obtain ⟨tombstone', htomb', hstd⟩ := h.tombstone htomb
    rw [label_of_none (gone_of_tombstone hinv h hjob htomb), htomb']
    exact congrArg (fun outcome => some outcome.state) hstd.outcome_eq

/-! ## 2. Forced forgets -/

/-- The run has accepted a request for the removal, as the first transaction of `ForceForgetService`
makes it. -/
def Asked (jobID : Nat) (events : List Event) : Prop :=
  ∃ before e after actor, events = before ++ e :: after ∧
    e.op = .service jobID (.remove actor) ∧ Accepted (reached before) e

/-- The job whose proof of cleanup an operation waives. -/
def waived : Op → Option Nat
  | .service jobID .forget => some jobID
  | _ => none

/-- A forget of the job that commits is of a service, as one is that its own call asked for, and
finds no cleanup that the Node has declared stalled. -/
def InTime (jobID : Nat) (s : Store) (e : Event) : Prop :=
  waived e.op = some jobID → Accepted s e →
    (∀ job ∈ s.jobs.find jobID, job.computerForJob = none) ∧
      label s jobID ≠ some .stalledCleanupUnverified

instance (jobID : Nat) (s : Store) (e : Event) : Decidable (InTime jobID s e) :=
  inferInstanceAs (Decidable (_ → _ → _ ∧ _))

theorem removeService_service :
    Ensures (fun _ => True)
      (fun _ => ∃ job, s.jobs.find jobID = some job ∧ job.computerForJob = none)
      (removeService ctx jobID actor s) := by
  unfold removeService
  split
  · exact .refuseIf fun _ => .check fun _ _ => .answer
  next job hsvc =>
    refine .check fun _ hdec => ?_
    have hfnd : ∃ job, s.jobs.find jobID = some job ∧ job.computerForJob = none :=
      ⟨job, (Option.filter_eq_some_iff.mp hsvc).1, serviceActionDecision_service hdec⟩
    split
    · exact .pure hfnd
    · split
      · exact .check fun _ _ => .pure hfnd
      · exact .orRefuse fun _ _ => .pure hfnd

theorem service_of_asked (hasked : Asked jobID events)
    (hjob : (reached events).jobs.find jobID = some job) : job.computerForJob = none := by
  obtain ⟨before, e, after, actor, rfl, hop, hacc⟩ := hasked
  obtain ⟨asked, hfnd, hcomp⟩ := step_of_accepted hacc (P := fun _ => True)
    (Q := fun _ => ∃ asked, (reached before).jobs.find jobID = some asked ∧
      asked.computerForJob = none) fun ctx opened hdoor => by
    obtain ⟨-, ⟨leases, rfl⟩, -⟩ := openDoor_ok hdoor
    rw [hop]
    exact removeService_service
  exact ((reached_follows before (e :: after)).job hfnd hjob).computerForJob_eq.trans hcomp

theorem forgetService_found :
    Ensures (fun _ => False)
      (fun _ => ∃ job removal, s.jobs.find jobID = some job ∧ job.removal = some removal ∧
        s.tombstones.find jobID = none)
      (forgetService ctx jobID s) := by
  unfold forgetService
  refine .orRefuse fun job hjob => .orRefuse fun removal hrem =>
    .check fun buried hburied => .pure ⟨job, removal, hjob, hrem, ?_⟩
  have hid : job.jobID = jobID := Table.key_of_find hjob
  rw [← hid]
  exact (insertTombstone_ok hburied).1

theorem waived_iff {op : Op} : waived op = some jobID ↔ op = .service jobID .forget := by
  refine ⟨fun h => ?_, fun h => by rw [h]; rfl⟩
  unfold waived at h
  split at h
  · rw [Option.some.inj h]
  · cases h

theorem waived_of_leave {op : Op} (h : (opLeave op jobID).waive) : waived op = some jobID := by
  cases op with
  | service id call =>
    cases call with
    | forget =>
      have hid : jobID = id := h
      rw [hid]
      rfl
    | _ => cases h
  | _ => cases h

/-- A forget that changes the store was accepted, and found the removal without a tombstone. -/
theorem step_forget (hop : waived e.op = some jobID) : step s e = s ∨ Accepted s e ∧
    ∃ job removal, s.jobs.find jobID = some job ∧ job.removal = some removal ∧
      s.tombstones.find jobID = none := by
  rcases step_cases s e with hsame | ⟨ctx, opened, hdoor, hcom⟩
  · exact .inl hsame
  have hfound : Ensures (fun _ => False) (fun _ => ∃ job removal,
      opened.jobs.find jobID = some job ∧ job.removal = some removal ∧
        opened.tombstones.find jobID = none) (e.op.tx ctx opened) := by
    rw [waived_iff.mp hop]
    exact forgetService_found
  cases htx : e.op.tx ctx opened with
  | ok s' =>
    rw [htx] at hfound
    refine .inr ⟨⟨ctx, opened, s', hdoor, htx⟩, ?_⟩
    obtain ⟨-, ⟨leases, rfl⟩, -⟩ := openDoor_ok hdoor
    exact hfound
  | error exit =>
    rw [htx] at hfound hcom
    cases exit with
    | settled => exact hfound.elim
    | _ => cases hcom

/-- **A forget in time** finds no label that is final: one that was verified is a Computer's, one
that was forgotten has a tombstone, and one that stalled would be too late. -/
theorem forget_finds_open (hop : waived e.op = some jobID) (htime : InTime jobID (reached events) e)
    (hlab : label (reached events) jobID = some status) (hover : removalOver status) :
    step (reached events) e = reached events := by
  refine (step_forget hop).resolve_right ?_
  rintro ⟨hacc, job, removal, hjob, hrem, hfree⟩
  have hinv := reached_inv events
  obtain ⟨hsvc, hstall⟩ := htime hop hacc
  rw [label_of_job hjob, hrem] at hlab hstall
  cases hlab
  simp only [removalOver, Bool.or_eq_true, decide_eq_true_eq] at hover
  rcases hover with (hver | hforg) | hstalled
  · have hcomp := ((hinv.sound hjob).verified removal hrem hver).2
    rw [hsvc job hjob] at hcomp
    cases hcomp
  · obtain ⟨tombstone, htomb⟩ := hinv.keys.forgotten hjob removal hrem hforg
    rw [hfree] at htomb
    cases htomb
  · exact hstall (congrArg some hstalled)

theorem step_label (htime : InTime jobID (reached events) e)
    (hlab : label (reached events) jobID = some status) (hover : removalOver status) :
    label (step (reached events) e) jobID = some status := by
  have hinv := reached_inv events
  by_cases hop : waived e.op = some jobID
  · rw [forget_finds_open hop htime hlab hover]
    exact hlab
  · cases reached_outcome events e with
    | kept h =>
      exact label_of_follows hinv h.follows (fun hw => hop (waived_of_leave hw)) hlab hover
    | took ctx opened job hdoor htaken h =>
      exact label_of_follows hinv h.follows not_false hlab hover

theorem run_label (hadm : Admitted (InTime jobID) step (reached events) later)
    (hlab : label (reached events) jobID = some status) (hover : removalOver status) :
    label (reached (events ++ later)) jobID = some status := by
  induction later generalizing events with
  | nil =>
    rw [List.append_nil]
    exact hlab
  | cons e later ih =>
    have hstep := step_label hadm.1 hlab hover
    rw [← reached_concat] at hstep
    rw [List.append_cons]
    refine ih ?_ hstep
    rw [reached_concat]
    exact hadm.2

/-! ## 3. Proofs of cleanup -/

/-- The acknowledgement names the removal: its Node, its generation, its cleanup fence and the
managed root it was requested for. -/
structure Names (request : RemovalAcknowledgement) (removal : Removal) : Prop where
  node : request.nodeID = removal.boundNodeID
  generation : request.removalGeneration = initialServiceRemovalGeneration
  fence : request.cleanupFence = removal.cleanupFence
  root : request.rootInstanceID = removal.rootInstanceID

theorem names_of_validate
    (h : validateMutableAcknowledgement s identityNodeID request removal = .ok ()) :
    Names request removal := by
  unfold validateMutableAcknowledgement at h
  obtain ⟨-, h⟩ := guard_eq_ok_iff.mp h
  split at h
  · cases h
  · obtain ⟨hnode, h⟩ := guard_eq_ok_iff.mp h
    obtain ⟨-, h⟩ := guard_eq_ok_iff.mp h
    obtain ⟨hdir, -⟩ := guard_eq_ok_iff.mp h
    simp only [not_or, not_not] at hnode hdir
    exact ⟨hnode.2, hdir.1, hdir.2.1, hdir.2.2.1⟩

def Proves (request : RemovalAcknowledgement) (jobID : Nat) (s s' : Store) : Prop :=
  ∃ job removal job' removal', s.jobs.find jobID = some job ∧ job.removal = some removal ∧
    Names request removal ∧ s'.jobs.find jobID = some job' ∧ job'.removal = some removal' ∧
    removal'.acknowledgement = some (request.idempotencyKey, request.bodyHash) ∧
    removal'.cleanupStatus = .acknowledged

def Proved (events : List Event) (jobID : Nat) : Prop :=
  ∃ before e after bound identityNodeID request, events = before ++ e :: after ∧
    e.op = .service jobID (.acknowledgeRemoval bound identityNodeID request) ∧
    Proves request jobID (reached before) (step (reached before) e)

theorem Proved.append (h : Proved events jobID) (later : List Event)
    : Proved (events ++ later) jobID := by
  obtain ⟨before, e, after, bound, identityNodeID, request, rfl, hop, hprvs⟩ := h
  refine ⟨before, e, after ++ later, bound, identityNodeID, request, ?_, hop, hprvs⟩
  rw [List.append_assoc, List.cons_append]

/-- What an acknowledgement leaves of a job: the row stays, and that the cleanup was proved is old
or is what it just stored. -/
def Acknowledges (request : RemovalAcknowledgement) (jobID : Nat) (s s' : Store) : Prop :=
  ∃ job', s'.jobs.find jobID = some job' ∧ ∀ removal' ∈ job'.removal,
    removal'.cleanupStatus = .acknowledged →
      (∃ job removal, s.jobs.find jobID = some job ∧ job.removal = some removal ∧
        removal.cleanupStatus = .acknowledged) ∨ Proves request jobID s s'

section
variable {job' : Job} {removal' : Removal}

theorem acknowledges_refl (hjob : s.jobs.find job.jobID = some job) :
    Acknowledges request job.jobID s s :=
  ⟨job, hjob, fun removal hrem hprov => .inl ⟨job, removal, hjob, hrem, hprov⟩⟩

theorem acknowledges_setJob (hjob : s.jobs.find job.jobID = some job)
    (hrem : job.removal = some removal) (hid : job'.jobID = job.jobID)
    (hrem' : job'.removal = some removal')
    (hproof : removal'.cleanupStatus = .acknowledged → removal.cleanupStatus = .acknowledged) :
    Acknowledges request job.jobID s (s.setJob job') := by
  refine ⟨job', find_setJob_self hjob hid, fun r hr hprov => .inl ⟨job, removal, hjob, hrem,
    hproof ?_⟩⟩
  rw [hrem'] at hr
  cases hr
  exact hprov

theorem acknowledgeMutable_acknowledges {bound : Int} (hjob : s.jobs.find job.jobID = some job)
    (hrem : job.removal = some removal) :
    Commits (Acknowledges request job.jobID s)
      (acknowledgeMutable ctx bound identityNodeID request job removal s) := by
  unfold acknowledgeMutable
  refine .check fun _ hvalid => ?_
  split
  · unfold recordServiceRemovalStall
    refine .refuseIf fun _ => .refuseIf fun _ => .refuseIf fun _ =>
      .refuseIf fun _ => .check fun _ _ => .refuseIf fun _ =>
      .refuseIf fun _ => ?_
    split
    · exact .pure (acknowledges_refl hjob)
    · exact .refuseIf fun _ => .pure
        (acknowledges_setJob hjob hrem rfl rfl fun hprov => hprov)
  · refine .refuseIf fun _ => .refuseIf fun _ => ?_
    split
    · refine .refuseIf fun _ => .check fun _ _ => .refuseIf fun _ => ?_
      split
      · exact .pure (acknowledges_refl hjob)
      · exact .pure (acknowledges_setJob hjob hrem rfl rfl (by rintro ⟨⟩))
    · refine .check fun _ _ => .refuseIf fun _ => .answerIf fun _ =>
        .pure ⟨_, find_setJob_self hjob rfl, fun removal' hrem' _ => .inr ?_⟩
      exact ⟨job, removal, _, _, hjob, hrem, names_of_validate hvalid,
        find_setJob_self hjob rfl, rfl, rfl, rfl⟩

end

theorem acknowledgeServiceRemoval_acknowledges (ctx : Ctx) (bound : Int)
    (identityNodeID jobID : Nat) (request : RemovalAcknowledgement) (s : Store) :
    Commits (Acknowledges request jobID s)
      (acknowledgeServiceRemoval ctx bound identityNodeID jobID request s) :=
  acknowledgeServiceRemoval_commits fun _ _ hjob hid hrem _ =>
    hid ▸ acknowledgeMutable_acknowledges hjob hrem

theorem step_acknowledges {bound : Int}
    (hop : e.op = .service jobID (.acknowledgeRemoval bound identityNodeID request)) :
    step s e = s ∨ Acknowledges request jobID s (step s e) := by
  rcases step_cases s e with hsame | ⟨ctx, opened, hdoor, hcom⟩
  · exact .inl hsame
  · obtain ⟨-, ⟨leases, rfl⟩, -⟩ := openDoor_ok hdoor
    rw [hop] at hcom
    have hens := acknowledgeServiceRemoval_acknowledges ctx bound identityNodeID jobID request
      { s with leases := leases }
    exact .inr (Ensures.committed hens hcom)

theorem acknowledgement_of_leave {op : Op} (h : (opLeave op jobID).acknowledge) :
    ∃ bound identityNodeID request,
      op = .service jobID (.acknowledgeRemoval bound identityNodeID request) := by
  cases op with
  | service id call =>
    cases call with
    | acknowledgeRemoval bound identityNodeID request =>
      have hid : jobID = id := h
      exact ⟨bound, identityNodeID, request, by rw [hid]⟩
    | _ => cases h
  | _ => cases h

/-- The next operation acknowledges the removal of a job, or has no leave to record a proof. -/
theorem acknowledges_or_follows : (∃ bound identityNodeID request,
      e.op = .service jobID (.acknowledgeRemoval bound identityNodeID request)) ∨
    ∃ leave : Nat → Leave, Follows True leave (reached events) (step (reached events) e) ∧
      ¬ (leave jobID).acknowledge := by
  cases reached_outcome events e with
  | kept h =>
    by_cases hleave : (opLeave e.op jobID).acknowledge
    · exact .inl (acknowledgement_of_leave hleave)
    · exact .inr ⟨opLeave e.op, h.follows, hleave⟩
  | took ctx opened job hdoor htaken h => exact .inr ⟨claimOf job.jobID, h.follows, not_false⟩

/-- **A proof on record was stored by an acknowledgement** of the run. -/
theorem proved_of_acknowledged
    (hjob : (reached events).jobs.find jobID = some job) (hrem : job.removal = some removal)
    (hprov : removal.cleanupStatus = .acknowledged) : Proved events jobID := by
  induction events using List.reverseRecOn generalizing job removal with
  | nil => cases hjob
  | append_singleton events e ih =>
    rw [reached_concat] at hjob
    rcases acknowledges_or_follows with ⟨bound, identityNodeID, request, hop⟩ |
      ⟨leave, hfol, hleave⟩
    · rcases step_acknowledges (s := reached events) hop with hsame | ⟨job', hjob', hrow⟩
      · rw [hsame] at hjob
        exact (ih hjob hrem hprov).append [e]
      · rw [hjob'] at hjob
        cases hjob
        rcases hrow removal hrem hprov with ⟨old, older, hold, holder, hbef⟩ | hnow
        · exact (ih hold holder hbef).append [e]
        · exact ⟨events, e, [], bound, identityNodeID, request, rfl, hop, hnow⟩
    · cases hold : (reached events).jobs.find jobID with
      | none => exact absurd hprov (hfol.newJob hjob hold hleave removal hrem)
      | some old =>
        obtain ⟨older, holder, hbef⟩ :=
          (hfol.job hold hjob).removal.proved hleave removal hrem hprov
        exact (ih hold holder hbef).append [e]

/-- At some point of the run a removal of the job was on record, as it is for a service that had a
Node when it was asked to go. -/
def Requested (events : List Event) (jobID : Nat) : Prop :=
  ∃ before after job, events = before ++ after ∧ (reached before).jobs.find jobID = some job ∧
    job.removal.isSome

/-- The removal of a job is on record, and where there was none before it waits for the Node. -/
def RemovalStands (jobID nodeID : Nat) (job : Job) (s' : Store) : Prop :=
  ∃ job' removal, s'.jobs.find jobID = some job' ∧ job'.removal = some removal ∧
    (job.removal = none → removal.boundNodeID = nodeID ∧ removal.status = .removalPending)

theorem removeService_requested {nodeID : Nat}
    (hjob : s.jobs.find jobID = some job) (hbnd : boundNode job = some nodeID) :
    Ensures (fun _ => True) (RemovalStands jobID nodeID job) (removeService ctx jobID actor s) := by
  have hself : s.jobs.find job.jobID = some job := find_self hjob
  have hid : job.jobID = jobID := Table.key_of_find hjob
  have hsvc : job.service.isSome := by
    cases hrow : job.service with
    | none =>
      unfold boundNode at hbnd
      rw [hrow] at hbnd
      cases hbnd
    | some service => rfl
  have hfnd : serviceJob s jobID = some job := Option.filter_eq_some_iff.mpr ⟨hjob, hsvc⟩
  unfold removeService
  rw [hfnd]
  refine .check fun _ _ => ?_
  split
  next hsome =>
    obtain ⟨removal, hrem⟩ := Option.isSome_iff_exists.mp hsome
    refine .pure ⟨job, removal, hjob, hrem, fun hnone => ?_⟩
    rw [hnone] at hrem
    cases hrem
  · rw [hbnd]
    refine .orRefuse fun root _ => .pure ?_
    rw [← hid]
    refine ⟨{ scrubbedJob ctx.now job with
      removal := some (requestedRemoval ctx.now nodeID root s.nextID) }, _, ?_, rfl,
      fun _ => ⟨rfl, rfl⟩⟩
    have hscrub : ((s.invalidateAttempts ctx fun a => a.jobID = job.jobID).setJob
        (scrubbedJob ctx.now job)).jobs.find job.jobID = some (scrubbedJob ctx.now job) :=
      find_setJob_self hself rfl
    exact find_setJob_self hscrub rfl

/-- **A removal that was on record is verified by a proof only**: in its row it says so itself, and
the tombstone takes it over from the row. -/
theorem proved_of_verified (hreqd : Requested events jobID)
    (hlab : label (reached events) jobID = some .removedVerified) : Proved events jobID := by
  induction events using List.reverseRecOn with
  | nil =>
    obtain ⟨before, after, job, hnil, hjob, -⟩ := hreqd
    rw [(List.nil_eq_append_iff.mp hnil).1] at hjob
    cases hjob
  | append_singleton events e ih =>
    cases hjob : (reached (events ++ [e])).jobs.find jobID with
    | some job =>
      rw [label_of_job hjob] at hlab
      obtain ⟨removal, hrem, hver⟩ := Option.map_eq_some_iff.mp hlab
      have hproof := ((reached_inv (events ++ [e])).sound hjob).verified removal hrem hver
      exact proved_of_acknowledged hjob hrem hproof.1
    | none =>
      obtain ⟨before, after, asked, hsplit, hasked, hrem⟩ := hreqd
      rcases List.eq_nil_or_concat' after with rfl | ⟨after, last, rfl⟩
      · rw [List.append_nil] at hsplit
        rw [← hsplit, hjob] at hasked
        cases hasked
      · rw [← List.append_assoc] at hsplit
        obtain ⟨rfl, -⟩ := List.append_inj' hsplit rfl
        have hrun := reached_follows before after
        cases hmid : (reached (before ++ after)).jobs.find jobID with
        | none =>
          -- The tombstone is older than the operation, and so is what it says.
          obtain ⟨tombstone, htomb, -⟩ := hrun.gone hasked hmid hrem
          obtain ⟨tombstone', htomb', hstd⟩ :=
            (reached_follows (before ++ after) [e]).tombstone htomb
          rw [label_of_none hjob, htomb', Option.map_some, hstd.outcome_eq] at hlab
          have hbef : label (reached (before ++ after)) jobID = some .removedVerified := by
            rw [label_of_none hmid, htomb]
            exact hlab
          exact (ih ⟨before, after, asked, rfl, hasked, hrem⟩ hbef).append [e]
        | some job =>
          obtain ⟨removal, hasked'⟩ := Option.isSome_iff_exists.mp hrem
          obtain ⟨removal', hrem', -⟩ := (hrun.job hasked hmid).removal.kept removal hasked'
          rw [reached_concat] at hjob hlab
          rcases acknowledges_or_follows with
            ⟨bound, identityNodeID, request, hop⟩ | ⟨leave, hfol, hleave⟩
          · rcases step_acknowledges (s := reached (before ++ after)) hop with
              hsame | ⟨job', hjob', -⟩
            · rw [hsame, hmid] at hjob
              cases hjob
            · rw [hjob'] at hjob
              cases hjob
          · obtain ⟨tombstone, htomb, hbur⟩ :=
              hfol.gone hmid hjob (Option.isSome_iff_exists.mpr ⟨_, hrem'⟩)
            rw [label_of_none hjob, htomb, Option.map_some] at hlab
            have hout : tombstone.outcome = .verifiedRemoved := by
              have hst := Option.some.inj hlab
              revert hst
              cases tombstone.outcome <;> decide
            have hproof := hbur.proved hleave hout removal' hrem'
            exact (proved_of_acknowledged hmid hrem' hproof).append [e]

/-! ## 4. Acknowledgements that are sent again -/

/-- The removal of a Computer whose Job was kept and is final. -/
def Retained (job : Job) (removal : Removal) : Prop :=
  removal.removedNS.isSome ∧ removal.agentCleanedNS.isSome ∧ job.computerForJob.isSome

/-- What an acknowledgement of a removal comes to where one of its kind was accepted before. While
the removal stands, the same one leaves the rows of jobs and tombstones as they are, and another
is refused. A removal that is final is not written to at all. -/
structure Replays (s : Store) (e : Event) (request : RemovalAcknowledgement) (jobID : Nat) :
    Prop where
  bare : ∀ {job removal accepted}, s.jobs.find jobID = some job → job.removal = some removal →
    ¬ Retained job removal → removal.acknowledgement = some accepted →
    request.cleanupStall = none → request.cleanupQuarantine = none →
    (accepted = (request.idempotencyKey, request.bodyHash) → step s e = s) ∧
    (accepted ≠ (request.idempotencyKey, request.bodyHash) → Refused s e)
  stall : ∀ {job removal accepted stall}, s.jobs.find jobID = some job →
    job.removal = some removal → ¬ Retained job removal → removal.stall = some accepted →
    request.cleanupStall = some stall →
    (accepted = (request.idempotencyKey, stall.2) →
      (step s e).jobs = s.jobs ∧ (step s e).tombstones = s.tombstones) ∧
    (accepted ≠ (request.idempotencyKey, stall.2) → Refused s e)
  quarantine : ∀ {job removal accepted quarantine}, s.jobs.find jobID = some job →
    job.removal = some removal → ¬ Retained job removal →
    removal.cleanupQuarantine = some accepted → request.cleanupStall = none →
    request.cleanupQuarantine = some quarantine →
    (accepted = quarantine.2 →
      (step s e).jobs = s.jobs ∧ (step s e).tombstones = s.tombstones) ∧
    (accepted ≠ quarantine.2 → Refused s e)
  final : (∀ {job removal}, s.jobs.find jobID = some job → job.removal = some removal →
    Retained job removal) → step s e = s

section
variable (ctx : Ctx) (bound : Int) (identityNodeID : Nat)

theorem acknowledge_of_row (hjob : s.jobs.find jobID = some job) (hrem : job.removal = some removal)
    (hopen : ¬ Retained job removal) :
    acknowledgeServiceRemoval ctx bound identityNodeID jobID request s =
      acknowledgeMutable ctx bound identityNodeID request job removal s := by
  unfold acknowledgeServiceRemoval
  rw [hjob]
  simp only [Option.bind_some, hrem, Option.map_some]
  exact if_neg hopen

variable {accepted : Nat × Nat}

theorem acknowledgeMutable_bare
    (hacc : removal.acknowledgement = some accepted) (hstall : request.cleanupStall = none)
    (hquar : request.cleanupQuarantine = none) :
    Replayed (accepted = (request.idempotencyKey, request.bodyHash)) (fun _ => False)
      (fun _ => False) (acknowledgeMutable ctx bound identityNodeID request job removal s) := by
  unfold acknowledgeMutable
  rw [hstall]
  refine .check fun _ _ => .refuseIf fun _ => .refuseIf fun _ => ?_
  rw [hquar]
  refine .check fun _ _ => .compare ?_ (.answerIf fun hn => absurd ?_ hn)
  · rw [hacc]
    exact decide_eq_true
  · rw [hacc]
    rfl

theorem acknowledgeMutable_stall {stall : Check × Nat}
    (hacc : removal.stall = some accepted) (hstall : request.cleanupStall = some stall) :
    Replayed (accepted = (request.idempotencyKey, stall.2)) (fun s' => s' = s) (fun s' => s' = s)
      (acknowledgeMutable ctx bound identityNodeID request job removal s) := by
  unfold acknowledgeMutable
  rw [hstall]
  refine .check fun _ _ => ?_
  unfold recordServiceRemovalStall
  refine .refuseIf fun _ => .refuseIf fun _ => .refuseIf fun _ =>
    .refuseIf fun _ => .check fun _ _ => .refuseIf fun _ => ?_
  rw [hacc]
  exact .compare decide_eq_true (.pure rfl)

theorem acknowledgeMutable_quarantine {quarantine : Check × Nat}
    {accepted : Nat} (hacc : removal.cleanupQuarantine = some accepted)
    (hstall : request.cleanupStall = none) (hquar : request.cleanupQuarantine = some quarantine) :
    Replayed (accepted = quarantine.2) (fun s' => s' = s) (fun s' => s' = s)
      (acknowledgeMutable ctx bound identityNodeID request job removal s) := by
  unfold acknowledgeMutable
  rw [hstall]
  refine .check fun _ _ => .refuseIf fun _ => .refuseIf fun _ => ?_
  rw [hquar]
  refine .refuseIf fun _ => .check fun _ _ => ?_
  rw [hacc]
  exact .compare decide_eq_true (.pure rfl)

theorem acknowledgeServiceRemoval_final
    (hfinal : ∀ {job removal}, s.jobs.find jobID = some job → job.removal = some removal →
      Retained job removal) :
    Commits (fun _ => False)
      (acknowledgeServiceRemoval ctx bound identityNodeID jobID request s) :=
  acknowledgeServiceRemoval_commits fun _ _ hjob hid hrem hopen =>
    absurd (hfinal (hid ▸ hjob) hrem) hopen

end

theorem step_of_uncommitted (h : ∀ ctx leases, Commits (fun _ => False)
      (e.op.tx ctx { s with leases := leases })) : step s e = s := by
  rcases step_cases s e with hsame | ⟨ctx, opened, hdoor, hcom⟩
  · exact hsame
  · obtain ⟨-, ⟨leases, rfl⟩, -⟩ := openDoor_ok hdoor
    rw [committed_of_ensures (h ctx leases)] at hcom
    cases hcom

theorem refused_of_replayed {same : Prop} {P : Store → Store → Prop} (h : ∀ ctx leases,
      Replayed same (P { s with leases := leases }) (P { s with leases := leases })
        (e.op.tx ctx { s with leases := leases })) (hoth : ¬ same) : Refused s e := by
  intro ctx opened hdoor
  obtain ⟨-, ⟨leases, rfl⟩, -⟩ := openDoor_ok hdoor
  exact (h ctx leases).refuses hoth

theorem step_of_replayed {same : Prop} (h : ∀ ctx leases,
      Replayed same (fun s' => s' = { s with leases := leases })
        (fun s' => s' = { s with leases := leases }) (e.op.tx ctx { s with leases := leases })) :
    (same → (step s e).jobs = s.jobs ∧ (step s e).tombstones = s.tombstones) ∧
      (¬ same → Refused s e) := by
  refine ⟨fun _ => ?_, refused_of_replayed (P := fun s s' => s' = s) h⟩
  rcases step_cases s e with hsame | ⟨ctx, opened, hdoor, hcom⟩
  · rw [hsame]
    exact ⟨rfl, rfl⟩
  · obtain ⟨-, ⟨leases, rfl⟩, -⟩ := openDoor_ok hdoor
    rw [Ensures.committed (h ctx leases).ensures hcom]
    exact ⟨rfl, rfl⟩

/-- **Acknowledgements are replayed or refused.** -/
theorem replays (s : Store) {bound : Int}
    (hop : e.op = .service jobID (.acknowledgeRemoval bound identityNodeID request)) :
    Replays s e request jobID := by
  have htx : ∀ ctx s, e.op.tx ctx s =
      acknowledgeServiceRemoval ctx bound identityNodeID jobID request s := by
    intro ctx s
    rw [hop]
    rfl
  have hrow : ∀ {job removal}, s.jobs.find jobID = some job → job.removal = some removal →
      ¬ Retained job removal → ∀ ctx leases, e.op.tx ctx { s with leases := leases } =
        acknowledgeMutable ctx bound identityNodeID request job removal
          { s with leases := leases } := by
    intro job removal hjob hrem hopen ctx leases
    rw [htx]
    exact acknowledge_of_row ctx bound identityNodeID hjob hrem hopen
  constructor
  · intro job removal accepted hjob hrem hopen hacc hstall hquar
    have hbare : ∀ ctx leases, Replayed (accepted = (request.idempotencyKey, request.bodyHash))
        (fun _ => False) (fun _ => False) (e.op.tx ctx { s with leases := leases }) := by
      intro ctx leases
      rw [hrow hjob hrem hopen]
      exact acknowledgeMutable_bare ctx bound identityNodeID hacc hstall hquar
    exact ⟨fun _ => step_of_uncommitted fun ctx leases => (hbare ctx leases).ensures,
      refused_of_replayed (P := fun _ _ => False) hbare⟩
  · intro job removal accepted stall hjob hrem hopen hacc hstall
    refine step_of_replayed fun ctx leases => ?_
    rw [hrow hjob hrem hopen]
    exact acknowledgeMutable_stall ctx bound identityNodeID hacc hstall
  · intro job removal accepted quarantine hjob hrem hopen hacc hstall hquar
    refine step_of_replayed fun ctx leases => ?_
    rw [hrow hjob hrem hopen]
    exact acknowledgeMutable_quarantine ctx bound identityNodeID hacc hstall hquar
  · intro hfinal
    refine step_of_uncommitted fun ctx leases => ?_
    rw [htx]
    exact acknowledgeServiceRemoval_final ctx bound identityNodeID hfinal

theorem accepted_stands {job' : Job} {removal' : Removal}
    (hjob : (reached events).jobs.find jobID = some job) (hrem : job.removal = some removal)
    (hjob' : (reached (events ++ later)).jobs.find jobID = some job')
    (hrem' : job'.removal = some removal') :
    (removal.acknowledgement.isSome → removal'.acknowledgement = removal.acknowledgement) ∧
    (removal.stall.isSome → removal'.stall = removal.stall) ∧
    (removal.cleanupQuarantine.isSome →
      removal'.cleanupQuarantine = removal.cleanupQuarantine) := by
  have hfol := ((reached_follows events later).job hjob hjob').removal
  obtain ⟨row, hrow, hrows⟩ := hfol.kept removal hrem
  rw [hrem'] at hrow
  cases hrow
  exact ⟨hrows.accepted, hrows.stalled, hrows.quarantined⟩

/-! ## 5. The guarantee -/

/-- **The label of a removal is final** from any point of a run after which no forget of the job
commits that is a Computer's or comes after a stall was declared. And whatever the run: what a
forced forget asked to remove is no Computer's; a service that had a Node when it was asked to go
has a removal on record that names it; such a removal is verified only after an acknowledgement
that named it was stored; and what was accepted stands, is replayed, and is not replaced. -/
theorem removal_label_is_final (events later : List Event) (jobID : Nat) :
    (Admitted (InTime jobID) step (reached events) later →
      ∀ status, label (reached events) jobID = some status → removalOver status →
        label (reached (events ++ later)) jobID = some status) ∧
    (Asked jobID events → ∀ job, (reached events).jobs.find jobID = some job →
      job.computerForJob = none) ∧
    (∀ e actor job nodeID, e.op = .service jobID (.remove actor) → Accepted (reached events) e →
      (reached events).jobs.find jobID = some job → boundNode job = some nodeID →
      RemovalStands jobID nodeID job (step (reached events) e)) ∧
    (Requested events jobID → label (reached events) jobID = some .removedVerified →
      Proved events jobID) ∧
    (∀ e bound identityNodeID request,
      e.op = .service jobID (.acknowledgeRemoval bound identityNodeID request) →
      Replays (reached events) e request jobID) ∧
    (∀ job job' removal removal', (reached events).jobs.find jobID = some job →
      job.removal = some removal → (reached (events ++ later)).jobs.find jobID = some job' →
      job'.removal = some removal' →
      (removal.acknowledgement.isSome → removal'.acknowledgement = removal.acknowledgement) ∧
      (removal.stall.isSome → removal'.stall = removal.stall) ∧
      (removal.cleanupQuarantine.isSome →
        removal'.cleanupQuarantine = removal.cleanupQuarantine)) := by
  refine ⟨fun hadm status => run_label hadm, fun hasked job => service_of_asked hasked, ?_,
    proved_of_verified, fun e bound identityNodeID request hop => replays _ hop, ?_⟩
  · intro e actor job nodeID hop hacc hjob hbnd
    refine step_of_accepted hacc (P := fun _ => True) fun ctx opened hdoor => ?_
    obtain ⟨-, ⟨leases, rfl⟩, -⟩ := openDoor_ok hdoor
    rw [hop]
    exact removeService_requested hjob hbnd
  · intro job job' removal removal' hjob hrem hjob' hrem'
    exact accepted_stands hjob hrem hjob' hrem'

/-! ## 6. A forget that comes too late -/

def container : JobSpec where
  dispatchKey := 7
  kind := .oci
  jobClass := .service
  oci := some ⟨1, some 1, none, none⟩

def claimed : List Event := [registers 0, submits 0 container, claims 0 .service]

def removes (now : Int) : Event := at_ now 0 (.service 1 (.remove (.ok ())))

def acknowledges (now : Int) (stall : Option (Check × Nat)) : Event :=
  at_ now 0 (.service 1 (.acknowledgeRemoval (30 * second) 1 {
    nodeID := 1
    bootSessionID := 1
    removalGeneration := 1
    cleanupFence := 3
    rootInstanceID := 1
    idempotencyKey := 5
    bodyHash := 6
    cleanupQuarantine := none
    cleanupStall := stall
    backups := .ok () }))

def finalizes (now : Int) : Event := at_ now 0 (.service 1 .finalizeRemoval)

def forgets (now : Int) : Event := at_ now 0 (.service 1 .forget)

def asked : List Event := claimed ++ [removes second]

def stalled : List Event := asked ++ [acknowledges (40 * second) (some (.ok (), 8))]

theorem asked_asked (later : List Event) : Asked 1 (asked ++ later) :=
  ⟨claimed, removes second, later, .ok (), rfl, rfl, by decide +kernel⟩

/-- The Node's declaration is accepted between the two transactions of a forced forget, and the
second one puts the operator's label in its place. -/
theorem late_forget_rewrites_label :
    Asked 1 stalled ∧
    label (reached asked) 1 = some .removalPending ∧
    label (reached stalled) 1 = some .stalledCleanupUnverified ∧
    label (reached (stalled ++ [forgets (41 * second)])) 1 = some .forgottenCleanupUnverified :=
  ⟨asked_asked _, by decide +kernel, by decide +kernel, by decide +kernel⟩

def cleaned : List Event := asked ++ [acknowledges (40 * second) none]

/-- A service that was forgotten in time, cleaned up and forgotten again in vain, and one that is
cleaned up and buried. -/
theorem removal_label_is_final_here :
    label (reached (asked ++ [forgets (2 * second)] ++
      [acknowledges (40 * second) none, forgets (41 * second)])) 1 =
        some .forgottenCleanupUnverified ∧
    (∃ job, RemovalStands 1 1 job (reached asked)) ∧
    Proved (cleaned ++ [finalizes (41 * second)]) 1 ∧
    step (reached cleaned) (acknowledges (50 * second) none) = reached cleaned := by
  refine ⟨?_, ?_, ?_, ?_⟩
  · exact (removal_label_is_final (asked ++ [forgets (2 * second)])
      [acknowledges (40 * second) none, forgets (41 * second)] 1).1 (by decide +kernel) _
      (by decide +kernel) rfl
  · have hnode : ((reached claimed).jobs.find 1).map
        boundNode = some (some 1) := by decide +kernel
    obtain ⟨job, hjob, hbnd⟩ := Option.map_eq_some_iff.mp hnode
    exact ⟨job, (removal_label_is_final claimed [] 1).2.2.1
      (removes second) (.ok ()) job 1 rfl (by decide +kernel) hjob hbnd⟩
  · have hsome : ((reached asked).jobs.find 1).map (fun job => job.removal.isSome) = some true := by
      decide +kernel
    obtain ⟨job, hjob, hrem⟩ := Option.map_eq_some_iff.mp hsome
    exact (removal_label_is_final (cleaned ++ [finalizes (41 * second)]) [] 1).2.2.2.1
      ⟨asked, _, job, rfl, hjob, hrem⟩ (by decide +kernel)
  · have hrow : ((reached cleaned).jobs.find 1).map
        (fun job => job.removal.map fun removal => (removal.acknowledgement, removal.removedNS)) =
        some (some (some (5, 6), none)) := by decide +kernel
    obtain ⟨job, hjob, hrem⟩ := Option.map_eq_some_iff.mp hrow
    obtain ⟨removal, hrem, hcols⟩ := Option.map_eq_some_iff.mp hrem
    injection hcols with hacc hremd
    have hreplays := (removal_label_is_final cleaned [] 1).2.2.2.2.1
      (acknowledges (50 * second) none) (30 * second) 1 _ rfl
    refine (hreplays.bare hjob hrem (fun hretn => ?_) hacc rfl rfl).1 rfl
    rw [Retained, hremd] at hretn
    cases hretn.1

end Wefty.RemovalLabels
