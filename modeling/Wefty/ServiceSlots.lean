/-
Service slots: who counts them, and who may take one.

A Node takes a bounded number of services. Which services occupy a slot of it is said three times
in the source: by `ServiceJob.HoldsSlot`, by the subquery of the claim statement and by the one of
`ensureBoundServiceCapacity`. The three agree, so there is one number of held slots.

The number goes up in two ways. A claim may bind a service that was bound nowhere; the claim query
asks for a free slot first. And an operator may start, or start over, a bound service that had
given its slot back; the decision asks for a free slot first. A claim of a service that is bound
already asks for nothing, and need not: it is queued and is to run, so it holds the slot that the
claimed service will hold.
-/
import Wefty.Fencing

set_option autoImplicit false

namespace Wefty.ServiceSlots

open Tables Rows StoreRows LeaseSleep Transactions AttemptAuthority ControlStore Claims Services
open Computers Operations StoreRules StoreWrites ClaimRules StoreSteps ComputerSteps StoreRuns

variable {job : Job} {s s' : Store}
variable {nodeID jobID computerID : Nat} {ctx : Ctx} {request : ServiceRestartRequest}
variable {actor : Check}

/-! ## 1. One number -/

/-- The services bound to a Node for which `HoldsSlot` is true. -/
def heldSlots (s : Store) (nodeID : Nat) : Nat :=
  s.jobs.count fun job => boundNode job = some nodeID && holdsSlot job

theorem occupiesServiceSlot_eq :
    occupiesServiceSlot nodeID job = (decide (boundNode job = some nodeID) && holdsSlot job) := by
  unfold occupiesServiceSlot holdsSlot boundNode ServiceJob.holdsSlot
  cases job.service with
  | none => rfl
  | some service =>
    simp only [Option.any_some, Option.bind_some]
    by_cases hbnd : service.boundNodeID = some nodeID
    · simp only [hbnd]
      cases job.state <;> simp
    · simp [hbnd]

/-- **The claim query counts the held slots.** -/
theorem count_occupiesServiceSlot (s : Store) (nodeID : Nat) :
    s.jobs.count (occupiesServiceSlot nodeID) = heldSlots s nodeID := by
  unfold heldSlots
  congr 1
  funext job
  exact occupiesServiceSlot_eq

def Roomy (s : Store) (job : Job) : Prop :=
  ∀ nodeID, boundNode job = some nodeID →
    ∃ node, s.nodes.find nodeID = some node ∧ heldSlots s nodeID < node.maxServiceSlots

/-- `ensureBoundServiceCapacity` lets a bound service pass only where there is a free slot. -/
theorem roomy_of_ensureBoundServiceCapacity (h : ensureBoundServiceCapacity s job = .ok ())
    : Roomy s job := by
  intro nodeID hbnd
  unfold ensureBoundServiceCapacity at h
  rw [hbnd] at h
  dsimp only at h
  split at h
  · cases h
  next node hnode =>
    rw [count_occupiesServiceSlot] at h
    by_cases hfull : node.maxServiceSlots ≤ heldSlots s nodeID
    · rw [if_pos hfull] at h
      cases h
    · exact ⟨node, hnode, by omega⟩

/-! ## 2. The door

A door credits leases. It moves no attempt and changes no Node's number of slots. -/

section Door
variable {opened : Store} {config : Config} {door : Door}

theorem count_activeOneshot_openDoor (h : openDoor config door s = some (ctx, opened))
    (nodeID : Nat) : opened.attempts.count (activeOneshot opened nodeID) =
      s.attempts.count (activeOneshot s nodeID) := by
  obtain ⟨-, ⟨leases, rfl⟩, boot, gap, -, hatts, -⟩ := openDoor_ok h
  rw [hatts]
  unfold credit
  split
  · exact Table.count_updateWhere (creditAttempt_attemptID boot gap)
      fun a _ => rfl
  · rfl

theorem find_node_openDoor (h : openDoor config door s = some (ctx, opened)) {nodeID : Nat}
    {node : Node} (hnode : opened.nodes.find nodeID = some node) :
    ∃ before, s.nodes.find nodeID = some before ∧ before.nodeID = node.nodeID ∧
      before.maxServiceSlots = node.maxServiceSlots ∧
      before.maxOneshotSlots = node.maxOneshotSlots := by
  obtain ⟨-, -, boot, gap, hgap, -, hnodes⟩ := openDoor_ok h
  rw [hnodes, find_nodes_credit _ boot hgap] at hnode
  obtain ⟨before, hbef, rfl⟩ := Option.map_eq_some_iff.mp hnode
  refine ⟨before, hbef, ?_⟩
  split <;> exact ⟨rfl, rfl, rfl⟩

end Door

/-! ## 3. A claim -/

/-- What a claim that made an attempt had found. A one-shot had a free slot; the service was one
the query admits, and its row is the only one that changed. -/
structure SlotTaken (ctx : Ctx) (request : ClaimRequest) (s s' : Store) (job : Job) (node : Node) :
    Prop where
  registered : s.nodes.find request.nodeID = some node
  found : s.jobs.find job.jobID = some job
  queued : job.state = .queued
  made : ∀ {id attempt}, s'.attempts.find id = some attempt → s.attempts.find id = none →
    attempt.jobID = job.jobID
  oneshot : request.jobClass = .oneShot → job.service = none ∧
    s.attempts.count (activeOneshot s node.nodeID) < node.maxOneshotSlots
  service : request.jobClass = .service → serviceClaimable ctx s node job ∧
    s'.jobs = s.jobs.replace (claimedJob ctx s.nextID request job)

/-- How a claim ends: it made no attempt, or it took a job with a slot for it. -/
def SlotOutcome (ctx : Ctx) (request : ClaimRequest) (s s' : Store) : Prop :=
  (∀ {id attempt}, s'.attempts.find id = some attempt → s.attempts.find id = some attempt) ∨
    ∃ job node, SlotTaken ctx request s s' job node

theorem claimJob_slots {request : ClaimRequest} :
    Commits (SlotOutcome ctx request s) (claimJob ctx request s) := by
  refine claimJob_commits (fun _ => .inl id) (fun picked hpicked => .inl fun h => ?_)
    fun node job picked bound listed hnode hpicked hcandidate hbnd => .inr ?_
  · rw [hpicked.attempts] at h
    exact h
  obtain ⟨hmem, helig⟩ := List.mem_filter.mp (mem_of_firstJob hcandidate)
  simp only [eligible, Bool.and_eq_true, decide_eq_true_eq] at helig
  obtain ⟨⟨⟨⟨⟨⟨⟨hqueue, -⟩, -⟩, harm⟩, -⟩, -⟩, -⟩, -⟩ := helig
  refine ⟨job, node, hnode, hpicked.queued (Table.mem_rows_iff.mp hmem) hqueue, hqueue,
    fun {id attempt} hmade hnew => ?_, fun hclass => ?_, fun hclass => ?_⟩
  · have hmade : bound.leases.attempts.find id = some attempt :=
      find_of_pruneListedAttemptSummaries hmade
    rw [hbnd.leases] at hmade
    rcases Table.find_insert_cases hmade with hold | hins
    · have hold' : picked.attempts.find id = some attempt := hold
      rw [hpicked.attempts, hnew] at hold'
      cases hold'
    · rw [hins]
      rfl
  · rw [hclass] at harm
    simp only [oneshotClaimable, Bool.and_eq_true, decide_eq_true_eq,
      Option.isNone_iff_eq_none] at harm
    rw [hpicked.attempts, hpicked.oneshots] at harm
    exact ⟨harm.1.1.1.1, harm.2⟩
  · rw [hclass] at harm
    have hcount : serviceClaimable ctx picked node job = serviceClaimable ctx s node job := by
      unfold serviceClaimable
      rw [hpicked.services hclass]
    refine ⟨hcount ▸ harm, ?_⟩
    show bound.jobs = _
    rw [hbnd.jobs, ← hpicked.services hclass, ← hpicked.nextID]
    rfl

/-! ### What the claimed row is counted as -/

theorem occupies_claimedJob {attemptID : Nat} {request : ClaimRequest}
    {service : ServiceJob} (hclass : request.jobClass = .service)
    (hsvc : job.service = some service) :
    occupiesServiceSlot nodeID (claimedJob ctx attemptID request job) =
      decide ((service.boundNodeID <|> some request.nodeID) = some nodeID) := by
  have hrow : (claimedJob ctx attemptID request job).service =
      some (claimedService request.nodeID service) := by
    unfold claimedJob
    rw [if_pos hclass]
    split
    · simp [Job.updateService, hsvc]
    · simp [Job.updateService, hsvc]
  unfold occupiesServiceSlot
  rw [hrow, (claimedJob_row ctx attemptID request job).state]
  simp [claimedService]

theorem occupies_queued {service : ServiceJob} (hsvc : job.service = some service)
    (hqueue : job.state = .queued) (hdes : service.desiredState = .running) :
    occupiesServiceSlot nodeID job = decide (service.boundNodeID = some nodeID) := by
  unfold occupiesServiceSlot
  simp [hsvc, hqueue, hdes]

/-- What a claim's slots come to, in the stores before and after it. -/
structure ClaimAccount (s s' : Store) (job : Job) (node : Node) : Prop where
  oneshot : job.service = none →
    s.attempts.count (activeOneshot s node.nodeID) < node.maxOneshotSlots
  unbound : job.service.isSome → boundNode job = none →
    heldSlots s node.nodeID < node.maxServiceSlots ∧
      heldSlots s' node.nodeID ≤ node.maxServiceSlots
  bound : job.service.isSome → boundNode job ≠ none →
    boundNode job = some node.nodeID ∧ ∀ nodeID, heldSlots s' nodeID = heldSlots s nodeID

/-- **The account of a claim.** -/
theorem SlotTaken.account {request : ClaimRequest} {node : Node}
    (h : SlotTaken ctx request s s' job node) : ClaimAccount s s' job node := by
  have hnodeID : node.nodeID = request.nodeID := Table.key_of_find h.registered
  cases hclass : request.jobClass with
  | oneShot =>
    obtain ⟨hsvc, hslots⟩ := h.oneshot hclass
    refine ⟨fun _ => hslots, fun hsome => ?_, fun hsome => ?_⟩
    · rw [hsvc] at hsome
      cases hsome
    · rw [hsvc] at hsome
      cases hsome
  | service =>
    obtain ⟨hclm, hjobs⟩ := h.service hclass
    obtain ⟨service, hsvc, hclm⟩ := (Option.any_eq_true _ _).mp hclm
    simp only [Bool.and_eq_true, Bool.or_eq_true, decide_eq_true_eq, Option.isNone_iff_eq_none]
      at hclm
    obtain ⟨⟨⟨⟨hdes, hbnd⟩, -⟩, -⟩, hcapacity⟩ := hclm
    have hboundNode : boundNode job = service.boundNodeID := by rw [boundNode, hsvc]; rfl
    -- One row changes: the number moves by what it counted before and counts now.
    have hmvd : ∀ nodeID,
        (heldSlots s' nodeID + if service.boundNodeID = some nodeID then 1 else 0) =
          heldSlots s nodeID +
            if (service.boundNodeID <|> some request.nodeID) = some nodeID then 1 else 0 := by
      intro nodeID
      have hid : (claimedJob ctx s.nextID request job).jobID = job.jobID :=
        congrArg Origin.jobID (claimedJob_row ctx s.nextID request job).origin_eq
      have hcount := Table.count_replace (hid ▸ h.found) (occupiesServiceSlot nodeID)
      rw [← hjobs, occupies_queued hsvc h.queued hdes,
        occupies_claimedJob hclass hsvc, count_occupiesServiceSlot,
        count_occupiesServiceSlot] at hcount
      simpa only [decide_eq_true_eq] using hcount
    refine ⟨fun hnone => ?_, fun _ hunb => ?_, fun _ hsome => ?_⟩
    · rw [hsvc] at hnone
      cases hnone
    · rw [hboundNode] at hunb
      rw [hunb, count_occupiesServiceSlot] at hcapacity
      have hfree : heldSlots s node.nodeID < node.maxServiceSlots :=
        hcapacity.resolve_left fun hn => by cases hn
      have hone := hmvd node.nodeID
      have htaken : (none <|> some request.nodeID) = some request.nodeID := rfl
      rw [hunb, hnodeID, if_neg (by simp), if_pos htaken] at hone
      rw [hnodeID] at hfree ⊢
      exact ⟨hfree, by omega⟩
    · rw [hboundNode] at hsome
      have hhere : service.boundNodeID = some node.nodeID := hbnd.resolve_left hsome
      refine ⟨hboundNode.trans hhere, fun nodeID => ?_⟩
      have hsame := hmvd nodeID
      rw [hhere] at hsame
      simpa using hsame

/-! ## 4. An operator -/

def startsOrRestarts : Op → Bool
  | .service _ (.setDesiredState .running _) => true
  | .service _ (.restart _ _) => true
  | .computer _ (.setDesiredState .running _) => true
  | .computer _ (.restart _ _) => true
  | _ => false

/-- A service that had no slot and is left queued by another row found a free one. -/
def QueuesWithRoom (s s' : Store) : Prop :=
  ∀ id job job', s.jobs.find id = some job → s'.jobs.find id = some job' → job' ≠ job →
    holdsSlot job = false → job'.state = .queued → Roomy s job

theorem queuesWithRoom_of_jobs (h : s'.jobs = s.jobs) : QueuesWithRoom s s' := by
  intro id job job' hjob hjob' hne
  rw [h, hjob] at hjob'
  cases hjob'
  exact absurd rfl hne

theorem queuesWithRoom_setJob {written : Job} (hfind : s.jobs.find job.jobID = some job)
    (hid : written.jobID = job.jobID)
    (hroom : written ≠ job → holdsSlot job = false → written.state = .queued → Roomy s job) :
    QueuesWithRoom s (s.setJob written) := by
  intro id old job' hold hjob' hne hholds hqueue
  obtain ⟨heq, rfl⟩ | ⟨-, hset⟩ := Table.find_replace_cases hjob'
  · rw [← heq, hid, hfind] at hold
    cases hold
    exact hroom hne hholds hqueue
  · rw [hold] at hset
    cases hset
    exact absurd rfl hne

section Operator
variable {written : Job}

theorem startDecision_roomy (h : startDecision s job = .ok ())
    (hst : job.state = .failed ∨ job.state = .stopped) (hholds : holdsSlot job = false) :
    Roomy s job := by
  apply roomy_of_ensureBoundServiceCapacity
  have hn : ¬ holdsSlot job = true := by simp [hholds]
  unfold startDecision at h
  rcases hst with hst | hst
  all_goals
    rw [hst] at h
    obtain ⟨resumable, -, h⟩ := ok_of_bind h
    rw [if_pos hn] at h
    split at h
    · cases h
    · exact h

theorem restartDecision_roomy (h : restartDecision s job = .ok ())
    (hholds : holdsSlot job = false) :
    Roomy s job := by
  apply roomy_of_ensureBoundServiceCapacity
  unfold restartDecision at h
  rw [if_pos (by simp [hholds])] at h
  obtain ⟨⟨⟩, hroom, -⟩ := ok_of_bind h
  exact hroom

theorem setServiceDesiredState_room :
    Commits (QueuesWithRoom s) (setServiceDesiredState ctx jobID .running actor s) := by
  unfold setServiceDesiredState
  refine .refuseIf fun _ => .orRefuse fun job hjob => .check fun _ hdec =>
    .check fun written hwrit => .pure ?_
  obtain ⟨hfind, -⟩ := of_serviceJob hjob
  have hself := find_self hfind
  obtain ⟨⟨⟩, -, hdec⟩ := ok_of_bind hdec
  obtain ⟨⟨⟩, -, hstart⟩ := ok_of_bind hdec
  unfold desiredJob at hwrit
  dsimp only at hwrit
  by_cases hst : job.state = .failed ∨ job.state = .stopped
  · have hqueue : ∃ queued, transitionServiceJob ctx.now .running .queued job = .ok queued ∧
        written.jobID = queued.jobID := by
      rcases hst with hst | hst
      all_goals
        rw [hst] at hwrit
        obtain ⟨queued, hqueue, hwrit⟩ := ok_of_bind hwrit
        cases hwrit
        exact ⟨queued, hqueue, rfl⟩
    obtain ⟨queued, hqueue, hid⟩ := hqueue
    obtain ⟨-, -, service, rfl⟩ := transitionServiceJob_ok hqueue
    exact queuesWithRoom_setJob hself hid fun _ hholds _ => startDecision_roomy hstart hst hholds
  · -- In every other state a start that is not refused changes nothing.
    have hsame : written = job := by
      push Not at hst
      split at hwrit
      · exact absurd ‹_› hst.1
      · exact absurd ‹_› hst.2
      · cases hwrit
        rfl
    exact queuesWithRoom_setJob hself (congrArg Job.jobID hsame) fun hne _ _ => absurd hsame hne

theorem restartService_room :
    Commits (QueuesWithRoom s) (restartService ctx jobID request actor s) := by
  unfold restartService
  refine .orRefuse fun job hjob => .check fun _ _ => ?_
  refine .refuseIf fun _ => .answerIf fun _ => .answerIf fun _ =>
    .refuseIf fun _ => .check fun _ hdec => .check fun createdNS _ =>
    .check fun written hwrit => .pure ?_
  obtain ⟨hfind, hsvc⟩ := of_serviceJob hjob
  obtain ⟨⟨⟩, -, hdec⟩ := ok_of_bind hdec
  obtain ⟨⟨⟩, -, hrestart⟩ := ok_of_bind hdec
  exact queuesWithRoom_setJob (find_self hfind)
    (congrArg Origin.jobID (restartedJob_steers hsvc hwrit).origin_eq) fun _ hholds _ =>
      restartDecision_roomy hrestart hholds

theorem roomy_of_queued (hqueue : job.state = .queued) (hdesires : desires job .running)
    (hholds : holdsSlot job = false) : Roomy s job := by
  intro nodeID hbnd
  obtain ⟨service, hsvc, hdes⟩ := (Option.any_eq_true _ _).mp hdesires
  rw [boundNode, hsvc, Option.bind_some] at hbnd
  simp only [holdsSlot, hsvc, Option.any_some, ServiceJob.holdsSlot, hbnd, hqueue] at hholds
  simp [of_decide_eq_true hdes] at hholds

theorem setComputerDesiredState_room {request : Precondition} :
    Commits (QueuesWithRoom s) (setComputerDesiredState ctx computerID .running request s) := by
  unfold setComputerDesiredState
  refine .refuseIf fun _ => .orRefuse fun ⟨computer, job⟩ hread =>
    .check fun _ _ => .check fun _ _ => .answerIf fun _ =>
    .check fun _ hdec => .check fun written hwrit => .pure ?_
  have hfind := (of_readComputerAuthority hread).1.job_find
  unfold computerDesiredJob at hwrit
  dsimp only at hwrit
  show QueuesWithRoom s (s.setJob _)
  unfold computerServiceDesiredDecision at hdec
  dsimp only at hdec
  split at hdec
  · cases hdec
  by_cases hstop : job.state = .stopped
  · rw [if_pos hstop] at hwrit
    obtain ⟨moved, hmvd, hwrit⟩ := ok_of_bind hwrit
    cases hwrit
    rw [hstop] at hdec
    obtain ⟨-, -, service, rfl⟩ := transitionServiceJob_ok hmvd
    refine queuesWithRoom_setJob hfind rfl fun _ hholds _ => ?_
    dsimp only at hdec
    rw [if_neg (by simp [hholds])] at hdec
    exact roomy_of_ensureBoundServiceCapacity hdec
  · rw [if_neg hstop] at hwrit
    obtain ⟨moved, hmvd, hwrit⟩ := ok_of_bind hwrit
    cases hwrit
    cases hmvd
    refine queuesWithRoom_setJob hfind rfl fun _ hholds hqueue => ?_
    have hqueue : job.state = .queued := hqueue
    rw [hqueue] at hdec
    dsimp only at hdec
    split at hdec
    next hdesires => exact roomy_of_queued hqueue hdesires hholds
    · cases hdec

theorem restartComputer_room {precondition : Precondition} :
    Commits (QueuesWithRoom s) (restartComputer ctx computerID request precondition s) := by
  unfold restartComputer
  refine .orRefuse fun ⟨computer, job⟩ hread => ?_
  dsimp only
  refine .refuseIf fun _ => .answerIf fun _ => .check fun _ _ =>
    .check fun _ hdec => .check fun createdNS _ =>
    .check fun written hwrit => .pure ?_
  have hfind := (of_readComputerAuthority hread).1.job_find
  unfold restartedComputerJob at hwrit
  dsimp only at hwrit
  show QueuesWithRoom s (s.setJob _)
  by_cases hactv : activeRestart computer job
  · -- A live attempt is asked to stop first.
    rw [if_pos hactv] at hwrit
    obtain ⟨moved, hmvd, hwrit⟩ := ok_of_bind hwrit
    cases hwrit
    cases hmvd
    exact queuesWithRoom_setJob hfind rfl fun _ _ hqueue => by cases hqueue
  · rw [if_neg hactv] at hwrit
    obtain ⟨moved, hmvd, hwrit⟩ := ok_of_bind hwrit
    cases hwrit
    obtain ⟨-, -, service, rfl⟩ := transitionServiceJob_ok hmvd
    refine queuesWithRoom_setJob hfind rfl fun _ hholds _ => ?_
    apply roomy_of_ensureBoundServiceCapacity
    unfold computerRestartDecision at hdec
    dsimp only at hdec
    rw [if_pos (show ¬ activeRestart computer job = true ∧ ¬ holdsSlot job = true from
      ⟨hactv, by simp [hholds]⟩)] at hdec
    split at hdec
    · cases hdec
    split at hdec
    · cases hdec
    obtain ⟨⟨⟩, -, hdec⟩ := ok_of_bind hdec
    split at hdec
    · cases hdec
    · exact hdec

theorem startsOrRestarts_room {op : Op} (hop : startsOrRestarts op) :
    Commits (QueuesWithRoom s) (op.tx ctx s) := by
  unfold startsOrRestarts at hop
  split at hop
  next jobID actor => exact setServiceDesiredState_room
  next jobID request actor => exact restartService_room
  next computerID precondition => exact setComputerDesiredState_room
  next computerID request precondition =>
    exact restartComputer_room
  · cases hop

end Operator

/-! ## 5. Runs -/

theorem account_of_claimed {copies : Prop} (hinv : Inv copies s) {e : Event}
    (hcopies : e.op.copies → copies) (hclaimed : Claimed s e jobID) :
    ∃ request job node, e.op = .claim request ∧ s.jobs.find jobID = some job ∧
      s.nodes.find request.nodeID = some node ∧ ClaimAccount s (step s e) job node := by
  obtain ⟨id, attempt, hatt, hjob, hnew⟩ := hclaimed
  rcases step_cases s e with hsame | ⟨ctx, opened, hdoor, hcom⟩
  · rw [hsame, hnew] at hatt
    cases hatt
  have hopd := onward_openDoor hinv hdoor
  have hnone : opened.attempts.find id = none := by
    by_contra hsome
    obtain ⟨old, hold⟩ := Option.ne_none_iff_exists'.mp hsome
    obtain ⟨older, holder⟩ := hopd.follows.oldAttempt hold (.inr not_false)
    rw [hnew] at holder
    cases holder
  by_cases hclaim : ∃ request, e.op = .claim request
  · obtain ⟨request, hreq⟩ := hclaim
    have hout : SlotOutcome ctx request opened (step s e) := by
      refine Ensures.committed ?_ hcom
      rw [hreq]
      exact claimJob_slots
    rcases hout with hwait | ⟨job, node, htaken⟩
    · rw [hwait hatt] at hnone
      cases hnone
    obtain ⟨before, hbef, hid, hservices, honeshots⟩ :=
      find_node_openDoor hdoor htaken.registered
    have hcount := count_activeOneshot_openDoor hdoor node.nodeID
    have haccount := htaken.account
    have hmade := htaken.made hatt hnone
    obtain ⟨-, ⟨leases, rfl⟩, -⟩ := openDoor_ok hdoor
    refine ⟨request, job, before, hreq, ?_, hbef, ?_⟩
    · rw [← hjob, hmade]
      exact htaken.found
    refine ⟨fun hsvc => ?_, fun hsvc hunb => ?_, fun hsvc hbnd => ?_⟩
    · rw [hid, honeshots, ← hcount]
      exact haccount.oneshot hsvc
    · rw [hid, hservices]
      exact haccount.unbound hsvc hunb
    · rw [hid]
      exact haccount.bound hsvc hbnd
  · have hkeeps := op_keeps hopd.inv ctx (fun request hop => hclaim ⟨request, hop⟩) hcopies
    obtain ⟨old, hold⟩ := (Ensures.committed hkeeps hcom).follows.oldAttempt hatt
      (.inr (opLeave_claim e.op _))
    rw [hnone] at hold
    cases hold

theorem step_room {e : Event} (hop : startsOrRestarts e.op) : QueuesWithRoom s (step s e) := by
  rcases step_cases s e with hsame | ⟨ctx, opened, hdoor, hcom⟩
  · exact queuesWithRoom_of_jobs (by rw [hsame])
  have hroom : QueuesWithRoom opened (step s e) :=
    Ensures.committed (startsOrRestarts_room hop) hcom
  intro id job job' hjob hjob' hne hholds hqueue nodeID hbnd
  have hnodes := fun {nodeID node} => @find_node_openDoor s ctx opened _ _ hdoor nodeID node
  obtain ⟨-, ⟨leases, rfl⟩, -⟩ := openDoor_ok hdoor
  obtain ⟨node, hnode, hfree⟩ := hroom id job job' hjob hjob' hne hholds hqueue nodeID hbnd
  obtain ⟨before, hbef, -, hslots, -⟩ := hnodes hnode
  exact ⟨before, hbef, hslots ▸ hfree⟩

/-- **Slot accounting.** In every store the claim statement counts the services bound to the Node
that hold a slot. In every run, a claim takes a one-shot only while the Node has fewer active
one-shots than slots, and a service that is bound nowhere only while the held slots are fewer
than the slots, so that they are no more than the slots afterwards; a claim of a bound service
leaves the number as it was. And an operator's start or restart puts a bound service that held
no slot into the queue only where `ensureBoundServiceCapacity` counted fewer held slots than
slots. -/
theorem slots_are_accounted_for : (∀ (s : Store) (nodeID : Nat),
      s.jobs.count (occupiesServiceSlot nodeID) = heldSlots s nodeID) ∧
    (∀ (events : List Event) (e : Event) (jobID : Nat), Claimed (reached events) e jobID →
      ∃ request job node, e.op = .claim request ∧ (reached events).jobs.find jobID = some job ∧
        (reached events).nodes.find request.nodeID = some node ∧
        ClaimAccount (reached events) (step (reached events) e) job node) ∧
    ∀ (events : List Event) (e : Event), startsOrRestarts e.op →
      QueuesWithRoom (reached events) (step (reached events) e) := by
  refine ⟨count_occupiesServiceSlot, fun events e jobID hclaim => ?_, fun events e hop => ?_⟩
  · exact account_of_claimed (reached_inv events) (fun _ => trivial) hclaim
  · exact step_room hop

end Wefty.ServiceSlots
