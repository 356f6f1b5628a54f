/-
What a claim does to the store.

A claim is the only transaction that makes an attempt. It takes a job that is queued, so nothing
is bound to the job, and moves the fence past every token an attempt of the job ever had. What
else the transaction does (the Node's state, the one-shots that waited too long, the binding of a
Computer, the summaries it prunes) is made of writes that are no claim.
-/
import Wefty.ComputerWrites

set_option autoImplicit false

namespace Wefty.ClaimRules

open Tables Rows StoreRows AttemptClock Transactions AttemptAuthority AttemptRules ControlStore
open StoreRules StoreWrites ComputerWrites Claims

variable {attempt : Attempt} {id nodeID : Nat}

/-! ## 1. The claimed row -/

structure ClaimedRow (attemptID : Nat) (job job' : Job) : Prop where
  origin_eq : origin job' = origin job
  state : job'.state = .claimed
  current : job'.currentAttemptID = some attemptID
  fence : job'.fenceCounter = job.fenceCounter + 1
  restarts : job'.restartCount = job.restartCount + if job.nextRestartAtNS.isSome then 1 else 0
  unscheduled : job'.nextRestartAtNS = none
  retries : job'.prestartRetryCount = job.prestartRetryCount
  removal : job'.removal = job.removal
  canceled : job'.canceled = job.canceled

theorem claimedJob_row (ctx : Ctx) (attemptID : Nat) (request : ClaimRequest) (job : Job) :
    ClaimedRow attemptID job (claimedJob ctx attemptID request job) := by
  unfold claimedJob
  dsimp only
  split <;> split <;> exact {
    origin_eq := by simp [origin, Job.updateService, Job.computerForJob]
    state := rfl
    current := rfl
    fence := rfl
    restarts := rfl
    unscheduled := rfl
    retries := rfl
    removal := rfl
    canceled := rfl }

section
variable {attemptID : Nat} {job job' : Job}

theorem ClaimedRow.follows (h : ClaimedRow attemptID job job') (hqueue : job.state = .queued)
    (hcan : job.canceled = false) : JobFollows (claimOf job.jobID job.jobID) job job' where
  origin_eq := h.origin_eq
  fence := by rw [h.fence]; exact Nat.le_succ _
  restarts := by rw [h.restarts]; exact Nat.le_add_right _ _
  canceled _ hc := by
    rw [hcan] at hc
    cases hc
  ended _ ht := by
    rw [hqueue] at ht
    cases ht
  unclaimed hn := absurd rfl hn
  granted hn := absurd rfl hn
  removal := .of_eq _ h.removal

/-- A scheduled restart is within the limit, so the claim that counts it is too; and a claim of a
job that waits for nothing is the one its counters leave room for. -/
theorem ClaimedRow.sound (h : ClaimedRow attemptID job job') (hsound : Sound job)
    (hqueue : job.state = .queued) (hcan : job.canceled = false) : Sound job' := by
  have hsvc : job'.service.isSome = job.service.isSome := congrArg Origin.service h.origin_eq
  have hcomp : job'.computerForJob = job.computerForJob :=
    congrArg Origin.computer h.origin_eq
  have hspec : job'.spec = job.spec := congrArg Origin.spec h.origin_eq
  refine ⟨?_, ?_, ?_, ?_, ?_, ?_, ?_, ?_⟩
  · rw [hcomp, hsvc, hspec]
    exact hsound.kind
  · rw [hcomp, hsvc]
    exact hsound.computer
  · -- A queued job is not being removed.
    rw [h.removal]
    intro hr
    have hremg := (hsound.removal hr).1
    rw [hqueue] at hremg
    cases hremg
  · rw [h.removal, hcomp]
    exact hsound.verified
  · intro _ hc
    rw [h.canceled, hcan] at hc
    cases hc
  · intro hn
    rw [h.unscheduled] at hn
    cases hn
  · rw [h.restarts]
    split
    next hsched => exact (hsound.scheduled hsched).1
    · exact hsound.restarts
  · intro hn
    have hbudget := hsound.claims (by simpa [hn] using hsvc.symm)
    have hopen : openClaims job' = 1 := openClaims_of_ne_queued (by simp [h.state])
    rw [hopen, h.fence, h.restarts, h.retries]
    unfold openClaims at hbudget
    by_cases hnext : job.nextRestartAtNS = none
    · rw [if_pos ⟨hqueue, hnext⟩] at hbudget
      simp only [hnext, Option.isSome_none, Bool.false_eq_true, if_false]
      omega
    · rw [if_neg fun hq => hnext hq.2] at hbudget
      rw [if_pos (Option.isSome_iff_ne_none.mpr hnext)]
      omega

end

/-! ## 2. The binding -/

/-- A Computer has Storage to run on: the generation it names is current. -/
def Published (s : Store) (computerID : Nat) : Prop :=
  ∃ computer, s.computers.find computerID = some computer ∧
    ∃ g ∈ computer.generations, g.storageGeneration = computer.storageGeneration ∧
      g.phase = .current

structure Claimable (ctx : Ctx) (s : Store) (job : Job) : Prop where
  found : s.jobs.find job.jobID = some job
  queued : job.state = .queued
  canceled : job.canceled = false
  due : job.service = none → ∀ next ∈ job.nextRestartAtNS, next ≤ ctx.now
  stable : ∀ {k computer}, s.computers.find k = some computer →
    computer.currentJobID = job.jobID → computer.phase = .stable
  published : ∀ computerID ∈ job.computerForJob, Published s computerID

section
variable {copies : Prop} {s : Store} {job : Job}

section
variable (ctx : Ctx) (request : ClaimRequest) (node : Node)

theorem find_jobs_bindAttempt (hfnd : s.jobs.find job.jobID = some job) (id : Nat) :
    (bindAttempt ctx request node job s).jobs.find id =
      if job.jobID = id then some (claimedJob ctx s.nextID request job) else s.jobs.find id :=
  Table.find_replace_of_find hfnd
    (congrArg Origin.jobID (claimedJob_row ctx s.nextID request job).origin_eq) id

theorem find_attempts_bindAttempt (taken : Job) (hinv : Inv copies s) (id : Nat) :
    (bindAttempt ctx request node taken s).attempts.find id =
      if s.nextID = id then some (claimedAttempt ctx s request node taken)
      else s.attempts.find id := by
  refine Table.find_insert s.attempts (claimedAttempt ctx s request node taken) ?_ id
  by_contra hsome
  obtain ⟨old, hold⟩ := Option.ne_none_iff_exists'.mp hsome
  exact absurd (hinv.fresh.attempts hold) (lt_irrefl _)

end

variable {ctx : Ctx}

/-- **A claim goes onward**, and claims its job alone. -/
theorem onward_bindAttempt (request : ClaimRequest) (node : Node) (hinv : Inv copies s)
    (h : Claimable ctx s job) :
    Onward copies (claimOf job.jobID) s (bindAttempt ctx request node job s) := by
  have hrow := claimedJob_row ctx s.nextID request job
  have hfol := hrow.follows h.queued h.canceled
  have hidle : job.state.holding = false := by
    rw [h.queued]
    rfl
  have hmvs : Moves (claimOf job.jobID job.jobID) s job (claimedJob ctx s.nextID request job) := {
    follows := hfol
    sound := fun hsound => hrow.sound hsound h.queued h.canceled
    holding := fun _ => .inr h.stable
    removes := fun hrem => .inl (hrow.removal ▸ hrem)
    beside := fun _ hbeside => hbeside.of_eq hfol.origin_eq hrow.removal }
  have hset := Changes.setJob hinv (fun _ => not_false) h.found hmvs (rebinds_of_idle hidle)
  have hleft := find_jobs_bindAttempt ctx request node h.found job.jobID
  have hchg : Changes copies (claimOf job.jobID) s
      { s.leases with attempts := s.attempts.insert (claimedAttempt ctx s request node job) }
      (s.jobs.replace (claimedJob ctx s.nextID request job)) s.tombstones (s.nextID + 1) := {
    hset with
    next := Nat.le_succ _
    job := fun hj => (hset.job hj).imp_right fun hnew => absurd hnew.2.1 (lt_irrefl _)
    attempt := fun {id attempt'} ha => by
      rw [show (s.attempts.insert _).find id = _ from
        find_attempts_bindAttempt ctx request node job hinv id] at ha
      split at ha
      next heq =>
        cases ha
        refine .inr ⟨heq.symm, Nat.lt_succ_self _, job, _, rfl, h.found, hleft.trans (if_pos rfl),
          ⟨hrow.current, by rw [hrow.state]; rfl, hrow.fence.symm⟩, Nat.lt_succ_self _⟩
      · exact .inl ⟨_, ha, .refl _⟩
    keepsAttempt := fun ha _ _ => ⟨_, Table.find_insert_of_some ha⟩
    owned := fun _ hj => Table.exists_find_replace hj _
    bound := fun {id attempt' old job'} ha hj hj' hactv hbnd => by
      obtain ⟨hid, rfl⟩ | ⟨-, hj'⟩ := Table.find_replace_cases hj'
      · -- Nothing is bound to a job that is queued.
        rw [← hid, hfol.jobID_eq, h.found] at hj
        cases hj
        cases hidle.symm.trans hbnd.holding
      · cases hj.symm.trans hj'
        exact hbnd }
  exact hchg.onward hinv

end

/-! ## 3. Eligibility -/

theorem mem_of_firstJob {before : Job → Job → Bool} {job : Job} :
    ∀ {jobs : List Job}, firstJob before jobs = some job → job ∈ jobs
  | [], h => by cases h
  | first :: rest, h => by
    unfold firstJob at h
    split at h
    · cases h
      exact List.mem_cons_self
    next other hoth =>
      split at h
      · cases h
        exact List.mem_cons_of_mem _ (mem_of_firstJob hoth)
      · cases h
        exact List.mem_cons_self

section
variable {copies : Prop} {s : Store} {ctx : Ctx} {request : ClaimRequest} {node : Node} {job : Job}

theorem stable_of_projectionClaimable (h : projectionClaimable s nodeID job) {computer : Computer}
    (hfind : s.computers.find computer.computerID = some computer)
    (hjob : job.computerForJob = some computer.computerID) : computer.phase = .stable := by
  obtain ⟨projection, hproj, hid⟩ := Option.map_eq_some_iff.mp hjob
  simp only [projectionClaimable, hproj, hid, hfind, Option.any_some, Bool.and_eq_true,
    decide_eq_true_eq] at h
  exact h.2.1.1.2

theorem published_of_projectionClaimable (h : projectionClaimable s nodeID job) {computerID : Nat}
    (hjob : job.computerForJob = some computerID) : Published s computerID := by
  obtain ⟨projection, hproj, hid⟩ := Option.map_eq_some_iff.mp hjob
  simp only [projectionClaimable, hproj, hid, Bool.and_eq_true, Option.any_eq_true,
    List.any_eq_true, decide_eq_true_eq] at h
  obtain ⟨-, computer, hfind, -, g, hg, hnum, hcur⟩ := h
  exact ⟨computer, hfind, g, hg, hnum, hcur⟩

theorem claimable_of_candidate (hinv : Inv copies s)
    (h : candidate ctx s request node = some job) : Claimable ctx s job := by
  obtain ⟨hmem, helig⟩ := List.mem_filter.mp (mem_of_firstJob h)
  simp only [eligible, Bool.and_eq_true, decide_eq_true_eq, Bool.not_eq_true'] at helig
  obtain ⟨⟨⟨⟨⟨⟨⟨hqueue, hcan⟩, hproj⟩, hclass⟩, -⟩, -⟩, -⟩, -⟩ := helig
  refine ⟨Table.mem_rows_iff.mp hmem, hqueue, hcan, fun hsvc next hnext => ?_,
    fun {k computer} hc hjob => ?_, fun _ => published_of_projectionClaimable hproj⟩
  · -- The service arm takes no one-shot.
    split at hclass
    · simp only [oneshotClaimable, Bool.and_eq_true] at hclass
      have hdue := hclass.1.1.1.2
      rw [Option.mem_def.mp hnext] at hdue
      simpa using hdue
    · simp [serviceClaimable, hsvc] at hclass
  · have hfind := Table.key_of_find hc ▸ hc
    have hplace := hinv.layout.placed hc (hjob ▸ Table.mem_rows_iff.mp hmem)
    exact stable_of_projectionClaimable hproj hfind hplace.projected

/-! ## 4. The transaction -/

theorem moves_expirePrestart (hexp : prestartExpired ctx job) :
    Moves .none s job (expirePrestart ctx job) := by
  simp only [prestartExpired, Bool.and_eq_true, decide_eq_true_eq, Option.isNone_iff_eq_none]
    at hexp
  obtain ⟨⟨hqueue, -⟩, hsvc⟩ := hexp
  refine ⟨?_, fun hsound => ?_, (nomatch ·), .inl, fun _ hbeside => hbeside.of_eq rfl rfl⟩
  · exact {
      origin_eq := rfl
      fence := le_rfl
      restarts := le_rfl
      canceled := fun _ hc => ⟨hc, rfl, rfl⟩
      ended := fun _ ht => by
        rw [hqueue] at ht
        cases ht
      unclaimed := fun _ => ⟨rfl, fun _ => rfl⟩
      granted := fun _ _ _ _ => .inr ⟨rfl, rfl⟩
      removal := .refl .none job.removal }
  · exact {
      kind := hsound.kind
      computer := hsound.computer
      removal := fun hr => by
        have hsome : job.service.isSome := (hsound.removal hr).2
        rw [hsvc] at hsome
        cases hsome
      verified := hsound.verified
      canceled := fun hs hc => absurd hqueue (hsound.canceled hs hc).2.1
      scheduled := fun hn => ⟨(hsound.scheduled hn).1, rfl⟩
      restarts := hsound.restarts
      claims := fun hs => by
        have hbudget := hsound.claims hs
        have hle : openClaims job ≤ 1 := by unfold openClaims; split <;> omega
        have hopen : openClaims (expirePrestart ctx job) = 1 := if_neg fun hq => by cases hq.1
        rw [hopen]
        show job.fenceCounter ≤ job.restartCount + job.prestartRetryCount + 1
        omega }

theorem find_expireWaiting (id : Nat) : (expireWaiting ctx s).jobs.find id =
    (s.jobs.find id).map fun job =>
      if prestartExpired ctx job then expirePrestart ctx job else job :=
  Table.find_updateWhere s.jobs (prestartExpired ctx) (expirePrestart ctx) (fun _ => rfl) id

theorem onward_expireWaiting (hinv : Inv copies s) :
    Onward copies noLeave s (expireWaiting ctx s) := by
  refine (Changes.jobs hinv (fun _ => not_false) (fun {id job} hj => ?_)
    (fun {id job'} hj => ?_)).onward hinv
  · exact ⟨_, (find_expireWaiting id).trans (by rw [hj]; rfl)⟩
  obtain ⟨job, hfind, rfl⟩ := Option.map_eq_some_iff.mp ((find_expireWaiting id).symm.trans hj)
  refine ⟨job, hfind, ?_⟩
  split
  next hexp =>
    refine ⟨moves_expirePrestart hexp, rebinds_of_idle ?_⟩
    simp only [prestartExpired, Bool.and_eq_true, decide_eq_true_eq] at hexp
    rw [hexp.1.1]
    rfl
  · exact ⟨.refl .none s job, Rebinds.refl s job⟩

theorem find_of_expireWaiting (hfind : (expireWaiting ctx s).jobs.find job.jobID = some job)
    (hqueue : job.state = .queued) : s.jobs.find job.jobID = some job := by
  obtain ⟨old, hold, heq⟩ := Option.map_eq_some_iff.mp ((find_expireWaiting _).symm.trans hfind)
  split at heq
  · rw [← heq] at hqueue
    cases hqueue
  · rw [← heq] at hold ⊢
    exact hold

/-- A Computer's Job is bound to the Node with its Computer, which changes no other row. -/
structure Binds (s s' : Store) : Prop where
  jobs : s'.jobs = s.jobs
  leases : s'.leases = s.leases
  onward : ∀ {copies}, Inv copies s → Onward copies noLeave s s'

theorem Binds.refl (s : Store) : Binds s s := ⟨rfl, rfl, .refl⟩

theorem binds_of_bindComputer {s' : Store} (h : bindComputer nodeID job s = .ok s') :
    Binds s s' := by
  unfold bindComputer at h
  split at h
  · cases h
    exact .refl s
  next computerID _ =>
    split at h
    · cases h
    next computer hfind =>
      split at h
      · cases h
        have hself : s.computers.find computer.computerID = some computer := by
          rw [Table.key_of_find hfind]
          exact hfind
        refine ⟨rfl, rfl, fun hinv => onward_setComputer hinv hself rfl
          ⟨rfl, le_rfl, fun g hg => ⟨g, hg, rfl, ages_refl g.phase⟩⟩
          (fun hstore => ⟨hstore.numbers, hstore.current, hstore.unfilled⟩)
          (fun _ hplace => ?_) (fun _ _ hlink => ?_) (fun _ _ _ _ hrun => ?_)⟩
        · exact ⟨hplace.projected, hplace.removal, hplace.waiting⟩
        · exact ⟨hlink.revision, hlink.job, hlink.restored⟩
        · exact ⟨hrun.phase, hrun.job, hrun.revision⟩
      · cases h

theorem activeOneshot_expireWaiting :
    activeOneshot (expireWaiting ctx s) nodeID = activeOneshot s nodeID := by
  funext attempt
  unfold activeOneshot
  rw [find_expireWaiting]
  cases s.jobs.find attempt.jobID with
  | none => rfl
  | some job =>
    rw [Option.map_some, Option.any_some, Option.any_some]
    split <;> rfl

/-- The store a claim picks a job from: the Node's state is on record, and the one-shots that waited
too long are over. -/
structure Picked (request : ClaimRequest) (s picked : Store) : Prop where
  attempts : picked.attempts = s.attempts
  nextID : picked.nextID = s.nextID
  computers : picked.computers = s.computers
  services : request.jobClass = .service → picked.jobs = s.jobs
  queued : ∀ {job : Job}, picked.jobs.find job.jobID = some job → job.state = .queued →
    s.jobs.find job.jobID = some job
  oneshots : ∀ nodeID, activeOneshot picked nodeID = activeOneshot s nodeID
  onward : ∀ {copies}, Inv copies s → Onward copies noLeave s picked

/-- **What a claim commits**: the Node's state, if the Node may not claim; what it picked from, if
it found nothing; or the job it picked, bound to a new attempt, with old summaries pruned. -/
theorem claimJob_commits {P : Store → Prop} (hstale : ∀ nodes, P (s.withNodes nodes))
    (hidle : ∀ picked, Picked request s picked → P picked)
    (htook : ∀ node job picked bound listed, s.nodes.find request.nodeID = some node →
      Picked request s picked → candidate ctx picked request node = some job →
      Binds (bindAttempt ctx request node job picked) bound →
      P (bound.pruneListedAttemptSummaries ctx listed)) :
    Commits P (claimJob ctx request s) := by
  unfold claimJob
  refine .refuseIf fun _ => .orRefuse fun node hnode => .refuseIf fun _ => .refuseIf fun _ =>
    .settleIf (fun _ => hstale _) fun _ => .answerIf fun _ => ?_
  dsimp only
  have hpicked : Picked request s (if request.jobClass = .oneShot then
      expireWaiting ctx (s.withNodes
      (s.nodes.replace { node with state := reconcileClaimingNode ctx node })) else s.withNodes
      (s.nodes.replace { node with state := reconcileClaimingNode ctx node })) := by
    split
    next hclass =>
      refine ⟨rfl, rfl, rfl, fun hsvc => ?_, find_of_expireWaiting,
        fun _ => activeOneshot_expireWaiting, fun hinv => ?_⟩
      · rw [hclass] at hsvc
        cases hsvc
      · have hnodes := onward_withNodes hinv
          (s.nodes.replace { node with state := reconcileClaimingNode ctx node })
        exact hnodes.trans hinv (onward_expireWaiting hnodes.inv)
    · exact ⟨rfl, rfl, rfl, fun _ => rfl, fun hfind _ => hfind, fun _ => rfl,
        fun hinv => onward_withNodes hinv _⟩
  split
  · exact .pure (hidle _ hpicked)
  next job hcandidate =>
    refine .refuseIf fun _ => .check fun _ _ => .check fun bound hbnd =>
      .pure (htook node job _ bound _ hnode hpicked hcandidate ?_)
    split at hbnd
    · exact binds_of_bindComputer hbnd
    · cases hbnd
      exact .refl _

structure Taken (ctx : Ctx) (s s' : Store) (job : Job) : Prop where
  found : s.jobs.find job.jobID = some job
  queued : job.state = .queued
  canceled : job.canceled = false
  due : job.service = none → ∀ next ∈ job.nextRestartAtNS, next ≤ ctx.now
  published : ∀ computerID ∈ job.computerForJob, Published s computerID
  row : ∃ job', s'.jobs.find job.jobID = some job' ∧ ClaimedRow s.nextID job job'
  attempt : ∃ attempt, s'.attempts.find s.nextID = some attempt ∧ attempt.jobID = job.jobID ∧
    attempt.fencingToken = job.fenceCounter + 1 ∧ attempt.state = .claimed
  only : ∀ {id attempt}, s'.attempts.find id = some attempt →
    id = s.nextID ∨ ∃ old, s.attempts.find id = some old

inductive ClaimOutcome (copies : Prop) (ctx : Ctx) (s s' : Store) : Prop
  | waited (h : Onward copies noLeave s s')
  | took (job : Job) (htaken : Taken ctx s s' job)
      (h : Onward copies (claimOf job.jobID) s s')

theorem find_pruneListedAttemptSummaries_of_active (listed : List Nat)
    (hfind : s.attempts.find id = some attempt) (hactv : attempt.state.active) :
    (s.pruneListedAttemptSummaries ctx listed).attempts.find id = some attempt := by
  have hfilter : (s.pruneListedAttemptSummaries ctx listed).attempts.find id =
      (s.attempts.find id).filter fun a => !(a.attemptID ∈ listed && s.prunable ctx a) :=
    Table.find_deleteWhere
  rw [hfilter, Option.filter_eq_some_iff]
  exact ⟨hfind, by simp [Store.prunable, hactv]⟩

theorem find_of_pruneListedAttemptSummaries {listed : List Nat}
    (h : (s.pruneListedAttemptSummaries ctx listed).attempts.find id = some attempt) :
    s.attempts.find id = some attempt := by
  have hfilter : (s.pruneListedAttemptSummaries ctx listed).attempts.find id =
      (s.attempts.find id).filter fun a => !(a.attemptID ∈ listed && s.prunable ctx a) :=
    Table.find_deleteWhere
  exact (Option.filter_eq_some_iff.mp (hfilter.symm.trans h)).1

theorem claimJob_outcome (hinv : Inv copies s) :
    Commits (ClaimOutcome copies ctx s) (claimJob ctx request s) := by
  refine claimJob_commits (fun _ => .waited (onward_withNodes hinv _))
    (fun _ hpicked => .waited (hpicked.onward hinv))
    fun node job s₂ s₄ listed _ hpicked hcandidate hbnd => ?_
  have hwait : Onward copies noLeave s s₂ := hpicked.onward hinv
  have hclm := claimable_of_candidate hwait.inv hcandidate
  have hbind := onward_bindAttempt request node hwait.inv hclm
  have hrow := claimedJob_row ctx s₂.nextID request job
  have hjob := find_jobs_bindAttempt ctx request node hclm.found job.jobID
  have hatts := find_attempts_bindAttempt ctx request node job hwait.inv
  rw [if_pos rfl] at hjob
  rw [hpicked.nextID] at hrow hjob hatts
  generalize bindAttempt ctx request node job s₂ = s₃ at hbind hjob hatts hbnd
  refine .took job ⟨hpicked.queued hclm.found hclm.queued, hclm.queued, hclm.canceled, hclm.due, ?_,
    ⟨_, ?_, hrow⟩, ⟨claimedAttempt ctx s₂ request node job, ?_, rfl, rfl, rfl⟩,
    fun {id attempt} ha => ?_⟩ ?_
  · have hpub := hclm.published
    unfold Published at hpub ⊢
    rwa [hpicked.computers] at hpub
  · show s₄.jobs.find job.jobID = _
    rw [hbnd.jobs, hjob]
  · refine find_pruneListedAttemptSummaries_of_active _ ?_ rfl
    show s₄.leases.attempts.find s.nextID = _
    rw [hbnd.leases]
    exact (hatts s.nextID).trans (if_pos rfl)
  · have hfnd : s₄.leases.attempts.find id = some attempt :=
      find_of_pruneListedAttemptSummaries ha
    rw [hbnd.leases, hatts] at hfnd
    split at hfnd
    next hid => exact .inl hid.symm
    · exact .inr (hwait.follows.oldAttempt hfnd (.inr not_false))
  · have hbound := hbnd.onward hbind.inv
    have hpruned := onward_pruneListedAttemptSummaries hbound.inv ctx listed
    exact (hwait.weaken.trans hinv hbind).trans hinv
      (hbound.weaken.trans hbind.inv hpruned.weaken)

end

end Wefty.ClaimRules
