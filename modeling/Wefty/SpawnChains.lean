/-
Spawn chains never widen authority ([`Wefty.Spawns`]).

The argument is an induction over the spawn tree, but nothing in the store is a tree: a child is
checked against its parent alone, once, when it is inserted, and both may be gone by the time
anyone asks. So the tree is the one of the records, and the invariant `Lineage` says of each of
them what its insertion established. A credential and a scope in flight speak of a record, not of
a row: that is why a scope that was resolved long ago still cannot widen anything, and why only the
liveness of the attempt has to be proved again when the child is written.
-/
import Wefty.Spawns
import Wefty.Fencing

set_option autoImplicit false

namespace Wefty.SpawnChains

open Tables Rows StoreRows AttemptClock Transactions AttemptAuthority ControlStore Submissions
open Claims Computers StorageCopies Operations StoreRules StoreWrites ComputerWrites StoreSteps
open ComputerSteps StorageSteps StoreRuns Spawns
open Wefty.Substrings (trimSpace)

variable {birth : Birth} {ctx : Ctx} {document : Document} {job : Job} {spawn : Prop}
variable {config : Config} {request : ProjectionRequest} {computerID tokenHash : Nat}
variable {scope : Scope} {s : Store} {name : String} {submission : Submission} {system : System}

/-! ## 1. What becomes of jobs -/

/-- What a later store has in common with an earlier one, as far as the origin of jobs goes. A
Computer may have another Job. -/
structure Goes (spawn : Prop) (s s' : Store) : Prop where
  inv : Inv True s'
  nextID : s.nextID ≤ s'.nextID
  origin_eq : ∀ {id job job'}, s.jobs.find id = some job → s'.jobs.find id = some job' →
    origin job' = origin job
  oldJob : ∀ {id job'}, s'.jobs.find id = some job' → id < s.nextID →
    ∃ job, s.jobs.find id = some job
  root : ¬ spawn → ∀ {id job'}, s'.jobs.find id = some job' → s.jobs.find id = none →
    job'.parentJobID = none
  attempt : ∀ {id attempt'}, s'.attempts.find id = some attempt' → id < s.nextID →
    ∃ attempt, s.attempts.find id = some attempt ∧ AttemptFollows attempt attempt'

variable {tx : Ctx → Store → StoreTx Store}

section
variable {s' s'' : Store} {door : Door}

theorem Goes.of_onward {leave : Nat → Leave} (h : Onward True leave s s')
    (hspawn : ∀ id, (leave id).spawn → spawn) : Goes spawn s s' where
  inv := h.inv
  nextID := h.follows.nextID
  origin_eq hjob hjob' := (h.follows.job hjob hjob').origin_eq
  oldJob := h.follows.oldJob
  root hn _ _ hjob' hnone := h.follows.root hjob' hnone fun hs => hn (hspawn _ hs)
  attempt ha' hlt := by
    obtain ⟨attempt, ha⟩ := h.follows.oldAttempt ha' (.inl hlt)
    exact ⟨attempt, ha, h.follows.attempt ha ha'⟩

/-- As far as nothing is said about parents. -/
theorem Goes.spawning (h : Goes spawn s s') : Goes True s s' :=
  { h with root := fun hn => absurd trivial hn }

theorem Goes.refl (hinv : Inv True s) : Goes spawn s s :=
  .of_onward (Onward.refl hinv : Onward True noLeave s s) fun _ => False.elim

theorem Goes.trans (hinv : Inv True s) (h : Goes spawn s s') (h' : Goes spawn s' s'') :
    Goes spawn s s'' where
  inv := h'.inv
  nextID := h.nextID.trans h'.nextID
  origin_eq hs hs'' := by
    obtain ⟨job, hs'⟩ := h'.oldJob hs'' (lt_of_lt_of_le (hinv.fresh.jobs hs) h.nextID)
    exact (h'.origin_eq hs' hs'').trans (h.origin_eq hs hs')
  oldJob hs'' hlt := by
    obtain ⟨job, hs'⟩ := h'.oldJob hs'' (lt_of_lt_of_le hlt h.nextID)
    exact h.oldJob hs' hlt
  root hn id _ hs'' hs := by
    cases hs' : s'.jobs.find id with
    | none => exact h'.root hn hs'' hs'
    | some job =>
      exact (congrArg Origin.parentJobID (h'.origin_eq hs' hs'')).trans (h.root hn hs' hs)
  attempt ha'' hlt := by
    obtain ⟨attempt', ha', hfol'⟩ := h'.attempt ha'' (lt_of_lt_of_le hlt h.nextID)
    obtain ⟨attempt, ha, hfol⟩ := h.attempt ha' hlt
    exact ⟨attempt, ha, hfol.trans hfol'⟩

theorem runTx_goes (hinv : Inv True s) (h : ∀ ctx opened, Inv True opened →
      Commits (Goes spawn opened) (tx ctx opened)) : Goes spawn s (runTx config door tx s) := by
  rcases runTx_cases config door tx s with hsame | ⟨ctx, opened, hdoor, hcom⟩
  · rw [hsame]
    exact .refl hinv
  · have hopd := onward_openDoor hinv hdoor
    exact (Goes.of_onward hopd fun _ => False.elim).trans hinv
      (Ensures.committed (h ctx opened hopd.inv) hcom)

end

/-! ## 2. Projections -/

section

theorem retiredProjection_steers (now : Int) (hsvc : job.service.isSome) :
    Steers job (retiredProjection now job) := by
  refine ⟨hsvc, ?_, rfl, rfl, rfl, rfl, id, id, fun hhold => ⟨hhold, rfl⟩⟩
  simp [origin, retiredProjection, Job.computerForJob, Option.map_map, Function.comp_def]

/-- The staged Job was stopped, so that there is no binding to keep. That it is not the Job that was
just retired is nothing the argument needs. -/
theorem publishedProjection_steers (now : Int) (computer : Computer) {row : Job}
    (h : Steers job row) (hst : row.state = .stopped) :
    Steers row (publishedProjection now computer job) := by
  have hidle : (publishedProjection now computer job).state.holding = false := by
    unfold publishedProjection
    split <;> rfl
  refine ⟨(congrArg Origin.service h.origin_eq).trans h.service, ?_, h.fence.symm, h.count.symm,
    h.next.symm, h.removal_eq.symm, ?_, ?_, ?_⟩
  · rw [h.origin_eq]
    simp [origin, publishedProjection, Job.computerForJob, Option.map_map, Function.comp_def]
  · rw [hst]
    exact fun h => by cases h
  · rw [hidle]
    exact fun h => by cases h
  · rw [hst]
    exact fun h => by cases h

/-- **A projection is published**: the Computer has another Job, and no job is new. -/
theorem finalizeComputerProjection_goes (hinv : Inv True s) (ctx : Ctx)
    (computerID stagingJobID : Nat) {phase : ReconfigurationPhase} (hph : phase ≠ .importing) :
    Commits (fun s' => Goes False s s' ∧ s'.nextID = s.nextID)
      (finalizeComputerProjection ctx computerID stagingJobID phase s) := by
  unfold finalizeComputerProjection
  refine .orRefuse fun ⟨computer, job⟩ hread => ?_
  obtain ⟨hreads, hcomputerID⟩ := of_readComputerAuthority hread
  refine .refuseIf fun hown => .orRefuse fun staged hstage =>
    .refuseIf fun _ => .check fun _ _ => .pure ?_
  rw [not_or, not_not] at hown
  obtain ⟨hfind, hunpublished⟩ := Option.filter_eq_some_iff.mp hstage
  rw [Bool.and_eq_true, decide_eq_true_iff] at hunpublished
  obtain ⟨hstop, hproj⟩ := hunpublished
  have hcomp : staged.computerForJob = some computer.computerID := by
    cases hp : staged.projection with
    | none =>
      rw [hp] at hproj
      cases hproj
    | some p =>
      rw [hp, Option.any_some] at hproj
      simp only [Bool.and_eq_true, decide_eq_true_iff] at hproj
      rw [hcomputerID, ← hproj.1.1, Job.computerForJob, hp, Option.map_some]
  have hstagedID : staged.jobID = stagingJobID := Table.key_of_find hfind
  have hsvc : staged.service.isSome := (hinv.sound hfind).computer (by rw [hcomp]; rfl)
  -- The Job that was current is retired, and then the staged one is published.
  have hretd := onward_steer hinv hreads.job_find
    (retiredProjection_steers ctx.now (hreads.service hinv))
  obtain ⟨row, hrow, hsteer, hst⟩ : ∃ row,
      (s.setJob (retiredProjection ctx.now job)).jobs.find stagingJobID = some row ∧
        Steers staged row ∧ row.state = .stopped := by
    by_cases hsame : job.jobID = stagingJobID
    · have hjob := hreads.job_find
      rw [hsame, hfind] at hjob
      rw [← Option.some.inj hjob]
      exact ⟨_, find_setJob_self hfind hstagedID, retiredProjection_steers ctx.now hsvc, hstop⟩
    · refine ⟨staged, ?_, .refl hsvc, hstop⟩
      show (s.jobs.replace (retiredProjection ctx.now job)).find stagingJobID = _
      rw [Table.find_replace, if_neg (by exact hsame), hfind]
  have hpub := hretd.trans hinv (onward_steer hretd.inv (find_self hrow)
    (publishedProjection_steers ctx.now computer hsteer hst))
  -- The Computer's row, which names another Job now.
  have hfindJob : ((s.setJob (retiredProjection ctx.now job)).setJob
      (publishedProjection ctx.now computer staged)).jobs.find stagingJobID =
        some (publishedProjection ctx.now computer staged) := find_setJob_self hrow hstagedID
  have hrem : staged.removal = none :=
    removal_none_of_sound (hinv.sound hfind) (by rw [hstop]; rfl)
  have hplace : ∀ {found}, ((s.setJob (retiredProjection ctx.now job)).setJob
      (publishedProjection ctx.now computer staged)).jobs.find stagingJobID = some found →
      Placed (projectedComputer computer stagingJobID) found := by
    intro found hfnd
    rw [hfindJob] at hfnd
    rw [← Option.some.inj hfnd]
    have hsame := publishedProjection_steers ctx.now computer (.refl hsvc) hstop
    have hfor : (publishedProjection ctx.now computer staged).computerForJob =
        staged.computerForJob := congrArg Origin.computer hsame.origin_eq
    exact ⟨hfor.trans hcomp, fun _ => hrem, fun h => by rcases h with h | h <;> cases h⟩
  have hstore : Stored computer → Stored (projectedComputer computer stagingJobID) := fun h =>
    ⟨h.numbers, h.current, fun hfill => by rcases hfill with h | h <;> cases h⟩
  have hinv' := inv_transferComputer hpub.inv hreads.computer_find
    (show (projectedComputer computer stagingJobID).computerID = computer.computerID from rfl)
    hstore hplace
    (fun _ _ hlink => ⟨hlink.revision, fun _ h => (by cases h), fun _ h => (by cases h)⟩)
    (hpub.inv.fresh.jobs hfindJob) (by rw [hown.1]; exact hph)
  have hgoes : Goes False s _ := .of_onward hpub fun _ => False.elim
  exact ⟨⟨hinv', hgoes.nextID, hgoes.origin_eq, hgoes.oldJob, hgoes.root, hgoes.attempt⟩, rfl⟩

theorem Goes.not_new {s' : Store} (h : Goes spawn s s') (hnext : s'.nextID = s.nextID) {id : Nat}
    (hjob : s'.jobs.find id = some job) : s.jobs.find id ≠ none := by
  have hlt := h.inv.fresh.jobs hjob
  rw [hnext] at hlt
  obtain ⟨old, hold⟩ := h.oldJob hjob hlt
  rw [hold]
  exact Option.some_ne_none old

variable {computer : Computer}

theorem stagedJob_sound {now : Int} :
    Sound (stagedJob s now computer request) where
  kind h := by cases h
  computer _ := rfl
  removal h := by cases h
  verified _ h := by cases h
  canceled h := by cases h
  scheduled h := by cases h
  restarts := Nat.zero_le _
  claims h := by cases h

theorem computerProjectionDecision_ok
    (h : computerProjectionDecision computer request document = .ok ()) :
    computer.phase = .stable ∧
      (request.reimage = false → runIdentityLabels document = []) := by
  unfold computerProjectionDecision at h
  obtain ⟨hph, h⟩ := guard_eq_ok_iff.mp h
  refine ⟨not_not.mp hph, fun hproject => ?_⟩
  by_contra hnamed
  rw [hproject] at h
  simp only [Bool.false_eq_true, if_false, refuseComputerRunIdentity, if_neg hnamed] at h
  cases h

/-- What an install that leaves a new Job established: the specification names no run, unless it is
the Computer's own. -/
def Staged (s : Store) (request : ProjectionRequest) (document : Document) (s' : Store) : Prop :=
  Goes False s s' ∧ ∀ {id job}, s'.jobs.find id = some job → s.jobs.find id = none →
    request.reimage = false → runIdentityLabels document = []

theorem phase_ne_importing (request : ProjectionRequest) : request.phase ≠ .importing := by
  unfold ProjectionRequest.phase
  split <;> decide

theorem installComputerProjection_staged (hinv : Inv True s) :
    Commits (Staged s request document)
      (installComputerProjection ctx computerID request document s) := by
  unfold installComputerProjection
  refine .check fun _ _ => .refuseIf fun _ =>
    .orRefuse fun ⟨computer, job⟩ hread => ?_
  obtain ⟨hreads, hcomputerID⟩ := of_readComputerAuthority hread
  refine .refuseIf fun _ => .refuseIf fun _ => .refuseIf fun _ => ?_
  by_cases hpend : computer.phase = request.phase
  · rw [if_pos hpend]
    refine .check fun _ _ => .answerIf fun _ => .answerIf fun _ => ?_
    have hfinal := finalizeComputerProjection_goes hinv ctx computerID request.stagingJobID
      (phase_ne_importing request)
    have hstage : ∀ s', Goes False s s' ∧ s'.nextID = s.nextID → Staged s request document s' :=
      fun s' ⟨hgoes, hnext⟩ => ⟨hgoes, fun hjob hnone => absurd hnone (hgoes.not_new hnext hjob)⟩
    exact .mono hfinal hstage hstage
  · rw [if_neg hpend]
    refine .check fun _ hdec => .refuseIf fun _ => .refuseIf fun _ =>
      .check fun _ _ => .check fun quiesced hquies => ?_
    obtain ⟨hstab, hnames⟩ := computerProjectionDecision_ok hdec
    -- The staged Job, the quiesced one, and the phase.
    have hins : Onward True noLeave s (s.insertJob (stagedJob s ctx.now computer request)) :=
      onward_insertJob hinv rfl stagedJob_sound rfl (.inl rfl)
        fun hn => absurd trivial hn
    have hjob := onward_steer hins.inv (find_insertJob_of_some hreads.job_find)
      (quiescedJob_steers (hreads.service hinv) hquies)
    have hidle : copying (projectingComputer computer request).phase = false := by
      show copying (if request.reimage then _ else _) = false
      split <;> rfl
    have hstage : Onward True noLeave s _ := (hins.trans hinv hjob).trans hinv
      (onward_retouch hjob.inv hreads.computer_find
        (show Retouched computer (projectingComputer computer request) from
          ⟨rfl, rfl, Nat.le_succ _, rfl, rfl⟩)
        (.inr (free_of_phase hstab (by decide))) (.inr hidle))
    have hgoes : Goes False s _ := .of_onward hstage fun _ => False.elim
    by_cases hquiet : (job.state = .queued ∨ job.state = .stopped ∨ job.state = .failed) ∧
        ¬ request.reimage
    · rw [if_pos hquiet]
      have hfinal := finalizeComputerProjection_goes hgoes.inv ctx computerID s.nextID
        (phase_ne_importing request)
      exact .mono hfinal (fun s' h => ⟨hgoes.trans hinv h.1, fun _ _ => hnames⟩)
        fun s' h => ⟨hgoes.trans hinv h.1, fun _ _ => hnames⟩
    · rw [if_neg hquiet]
      exact .pure ⟨hgoes, fun _ _ => hnames⟩

end

/-! ## 3. Names -/

variable {value : String}

theorem mem_runIdentityLabels : (name, value) ∈ runIdentityLabels document ↔
      (name = labelRunID ∨ name = labelHandoffOwnerRunID) ∧ value = document.label name ∧
        value ≠ "" := by
  unfold runIdentityLabels
  rw [List.mem_filterMap]
  constructor
  · rintro ⟨label, hlab, hsome⟩
    by_cases hblank : document.label label ≠ ""
    · rw [if_pos hblank] at hsome
      cases hsome
      exact ⟨by simpa using hlab, rfl, hblank⟩
    · rw [if_neg hblank] at hsome
      cases hsome
  · rintro ⟨hlab, rfl, hblank⟩
    exact ⟨name, by simpa using hlab, if_pos hblank⟩

theorem mem_runNames_of_label (hlab : name = labelRunID ∨ name = labelHandoffOwnerRunID)
    (hblank : document.label name ≠ "") : document.label name ∈ runNames document :=
  List.mem_map_of_mem (f := Prod.snd) (mem_runIdentityLabels.mpr ⟨hlab, rfl, hblank⟩)

theorem handoffOwnerKey_mem (h : handoffOwnerKey document ≠ "") :
    handoffOwnerKey document ∈ runNames document := by
  unfold handoffOwnerKey at h ⊢
  by_cases howner : document.label labelHandoffOwnerRunID ≠ ""
  · rw [if_pos howner]
    exact mem_runNames_of_label (.inr rfl) howner
  · rw [if_neg howner] at h ⊢
    exact mem_runNames_of_label (.inl rfl) h

/-- **What a child is entitled to, its parent names.** -/
theorem mem_runNames_of_entitled {parent : Document}
    (h : value ∈ entitled parent name) (hblank : value ≠ "") : value ∈ runNames parent := by
  have hcases : value = parent.label labelRunID ∨ value = handoffOwnerKey parent := by
    unfold entitled at h
    by_cases hname : name = labelRunID
    · rw [if_pos hname] at h
      exact .inl (List.mem_singleton.mp h)
    · rw [if_neg hname] at h
      simpa using h
  rcases hcases with rfl | rfl
  · exact mem_runNames_of_label (.inl rfl) hblank
  · exact handoffOwnerKey_mem hblank

theorem executionHandoffOwnerKey_of_nameless {spec : JobSpec} {jobID : String}
    (h : runNames document = []) :
    executionHandoffOwnerKey spec document jobID = jobID ∨
      executionHandoffOwnerKey spec document jobID = "" := by
  have hblank : ¬ handoffOwnerKey document ≠ "" := by
    intro hkey
    have hmem := handoffOwnerKey_mem hkey
    rw [h] at hmem
    cases hmem
  unfold executionHandoffOwnerKey
  rw [if_neg hblank]
  split
  · exact .inl rfl
  · exact .inr rfl

theorem runNames_eq_nil (h : runIdentityLabels document = []) : runNames document = [] := by
  rw [runNames, h, List.map_nil]

theorem authorizeRunIdentity_root {runLedger : Bool}
    (h : system.authorizeRunIdentity document runLedger none = .ok ()) :
    runLedger = true ∨ runNames document = [] := by
  unfold System.authorizeRunIdentity at h
  split at h
  next hfree => exact hfree.symm.imp_right runNames_eq_nil
  · cases h

theorem authorizeRunIdentity_child
    (h : system.authorizeRunIdentity document false (some scope) = .ok ()) :
    ∀ name ∈ runNames document, name ∈ runNames (system.documentOf scope.jobID) := by
  intro name hname
  obtain ⟨named, hnamed, rfl⟩ := List.mem_map.mp hname
  unfold System.authorizeRunIdentity at h
  split at h
  next hfree =>
    rcases hfree with hnone | hledger
    · rw [hnone] at hnamed
      cases hnamed
    · cases hledger
  · dsimp only at h
    split at h
    · cases h
    split at h
    next hall =>
      have hentitled := List.find?_eq_none.mp hall named hnamed
      simp only [Bool.not_eq_true', Bool.not_eq_false, List.contains_iff_mem] at hentitled
      exact mem_runNames_of_entitled hentitled (mem_runIdentityLabels.mp hnamed).2.2
    · cases h

/-! ## 4. Submissions -/

theorem spawnDepth_of_checkSubmission {parent : Scope}
    (hpar : submission.origin.parent = some parent)
    (h : checkSubmission submission = .ok ()) : parent.spawnDepth + 1 ≤ maxSpawnDepth := by
  unfold checkSubmission at h
  obtain ⟨-, -, h⟩ := ok_of_bind h
  by_contra hdeep
  rw [hpar] at h
  dsimp only at h
  rw [if_pos (by omega)] at h
  cases h

/-- What a submission on its own commits: the insert of its job, where it may create. -/
def Creates (ctx : Ctx) (submission : Submission) (s s' : Store) : Prop :=
  lookupSubmission ctx s submission = .ok none ∧
    s' = s.insertJob (submittedJob ctx s.nextID submission)

theorem submit_one :
    Commits (Creates ctx submission s) (Submissions.submit ctx [submission] s) := by
  unfold Submissions.submit createJobs
  cases hlook : lookupSubmission ctx s submission with
  | error err => exact trivial
  | ok found =>
    cases found with
    | some jobID => exact trivial
    | none =>
      dsimp only [createJobs]
      unfold insertSubmission
      split
      · unfold concurrentSubmit
        split <;> exact trivial
      · split
        · exact trivial
        · exact ⟨hlook, rfl⟩

/-- The attempt holds authority for the job in this store, and nobody asked to cancel the job: the
attempt is the job's current one, it has not ended, its lease runs, and the Node it was claimed
by is still in the session and generation of the claim, or retires that one. -/
def HoldsAuthority (ctx : Ctx) (s : Store) (retiring : Bool) (jobID attemptID : Nat) : Prop :=
  ∃ attempt job node, s.attempts.find attemptID = some attempt ∧ s.jobs.find jobID = some job ∧
    s.nodes.find attempt.nodeID = some node ∧ attempt.jobID = jobID ∧
    job.currentAttemptID = some attemptID ∧ job.canceled = false ∧ attempt.state.active ∧
    leaseExpiredAt ctx attempt = .ok false ∧
    (retiring ∨ attempt.bootSessionID = node.bootSessionID ∧
      attempt.authorityGeneration = node.authorityGeneration)

theorem validateAttemptCredentialAuthority_eq_ok_iff {a : Authority} :
    validateAttemptCredentialAuthority ctx scope a = .ok () ↔
      a.node.identityNodeID = scope.identityNodeID ∧ a.attempt.jobID = scope.jobID ∧
      a.attempt.attemptID = scope.attemptID ∧ a.job.currentAttemptID = some scope.attemptID ∧
      (a.retiringSessionAuthorized = true ∨ a.attempt.bootSessionID = a.node.bootSessionID ∧
        a.attempt.authorityGeneration = a.node.authorityGeneration) ∧
      a.attempt.state.active ∧ leaseExpiredAt ctx a.attempt = .ok false := by
  unfold validateAttemptCredentialAuthority
  simp only [guard_eq_ok_iff, not_or, not_not, not_and_or, and_assoc, ne_eq]
  rcases leaseExpiredAt ctx a.attempt with err | _ | _ <;> simp

theorem checkParent_ok (hpar : submission.origin.parent = some scope)
    (hjob : s.jobs.find scope.jobID = some job) (h : checkParent s submission = .ok ())
    : job.canceled = false := by
  unfold checkParent at h
  rw [hpar] at h
  dsimp only at h
  rw [hjob] at h
  dsimp only at h
  by_contra hcan
  rw [if_pos (by simpa using hcan)] at h
  cases h

/-- **What the credential of a parent is checked for** when the child is written. -/
theorem holdsAuthority_of_checks (hpar : submission.origin.parent = some scope)
    (hlive : revalidateAttemptCredential ctx s scope submission.retiring = .ok ())
    (hcanl : checkParent s submission = .ok ()) :
    HoldsAuthority ctx s submission.retiring scope.jobID scope.attemptID := by
  unfold revalidateAttemptCredential at hlive
  split at hlive
  · cases hlive
  next a ha =>
    obtain ⟨-, hjobID, -, hcur, hsess, hactv, hlease⟩ :=
      validateAttemptCredentialAuthority_eq_ok_iff.mp hlive
    unfold Store.readAttemptAuthority at ha
    obtain ⟨attempt, hatt, ha⟩ := Option.bind_eq_some_iff.mp ha
    obtain ⟨job, hjob, ha⟩ := Option.bind_eq_some_iff.mp ha
    obtain ⟨node, hnode, ha⟩ := Option.bind_eq_some_iff.mp ha
    cases ha
    rw [hjobID] at hjob
    exact ⟨attempt, job, node, hatt, hjob, hnode, hjobID, hcur,
      checkParent_ok hpar hjob hcanl, hactv, hlease, hsess⟩

/-! ## 5. Records -/

/-- A record speaks for a job with this submitter and this depth. -/
def Vouched (births : Table Birth.jobID) (jobID : Nat) (submitter : Option Nat) (depth : Nat) :
    Prop :=
  ∃ birth, births.find jobID = some birth ∧ birth.originatingSubmitter = submitter ∧
    birth.spawnDepth = depth

structure Child (parent birth : Birth) : Prop where
  later : parent.jobID < birth.jobID
  depth : birth.spawnDepth = parent.spawnDepth + 1
  capped : birth.spawnDepth ≤ maxSpawnDepth
  submitter : birth.originatingSubmitter = parent.originatingSubmitter
  classified : birth.submittedByRunLedger = false
  names : ∀ name ∈ runNames birth.document, name ∈ runNames parent.document

/-- What a record says of who submitted its job: a root that is not the run ledger's names no run,
and a child has a parent on record. -/
structure Warranted (births : Table Birth.jobID) (birth : Birth) : Prop where
  root : birth.parentJobID = none →
    birth.submittedByRunLedger = true ∨ runNames birth.document = []
  child : ∀ parentID, birth.parentJobID = some parentID →
    ∃ parent, births.find parentID = some parent ∧ Child parent birth

def Extends (births births' : Table Birth.jobID) : Prop :=
  ∀ id birth, births.find id = some birth → births'.find id = some birth

theorem Vouched.mono {births births' : Table Birth.jobID} (hext : Extends births births')
    {jobID depth : Nat} {submitter : Option Nat} (h : Vouched births jobID submitter depth) :
    Vouched births' jobID submitter depth := by
  obtain ⟨birth, hfind, hsame⟩ := h
  exact ⟨birth, hext _ _ hfind, hsame⟩

theorem Warranted.mono {births births' : Table Birth.jobID} (hext : Extends births births')
    (h : Warranted births birth) : Warranted births' birth := by
  refine ⟨h.root, fun parentID hpar => ?_⟩
  obtain ⟨parent, hfind, hchild⟩ := h.child parentID hpar
  exact ⟨parent, hext _ _ hfind, hchild⟩

/-- **The invariant.** Every job has a record that says the same; every credential, and every scope
a request holds, speaks of a record; and a Computer's Job names no run. -/
structure Lineage (system : System) : Prop where
  inv : Inv True system.store
  recorded : ∀ {id job}, system.store.jobs.find id = some job →
    ∃ document submittedByRunLedger,
      system.births.find id = some (birthOf document submittedByRunLedger job)
  dated : ∀ {id birth}, system.births.find id = some birth → id < system.store.nextID
  minted : ∀ {tokenHash credential}, system.credentials.find tokenHash = some credential →
    Vouched system.births credential.jobID credential.originatingSubmitter credential.spawnDepth
  held : ∀ scope ∈ system.resolved,
    Vouched system.births scope.jobID scope.originatingSubmitter scope.spawnDepth
  read : ∀ read ∈ system.reads, runNames read.2 = []
  warranted : ∀ {id birth}, system.births.find id = some birth → Warranted system.births birth
  nameless : ∀ {id job}, system.store.jobs.find id = some job → job.computerForJob.isSome →
    runNames (system.documentOf id) = []
  ours : ∀ {tokenHash credential}, system.credentials.find tokenHash = some credential →
    credential.attemptID < system.store.nextID ∧ ∀ attempt,
      system.store.attempts.find credential.attemptID = some attempt →
        attempt.jobID = credential.jobID

theorem lineage_start : Lineage System.start where
  inv := inv_openStore True
  recorded h := by cases h
  dated h := by cases h
  minted h := by cases h
  held _ h := by cases h
  read _ h := by cases h
  warranted h := by cases h
  nameless h := by cases h
  ours h := by cases h

section
variable {after : Store} {submittedByRunLedger : Bool} {id : Nat}

theorem birthOf_congr {job' : Job} (h : origin job' = origin job) :
    birthOf document submittedByRunLedger job' = birthOf document submittedByRunLedger job :=
  congrArg (fun o : Origin => (⟨o.jobID, o.parentJobID, o.parentAttemptID, o.originatingSubmitter,
    o.spawnDepth, submittedByRunLedger, document⟩ : Birth)) h

theorem documentOf_of_find (h : system.births.find id = some birth) :
    system.documentOf id = birth.document := by
  unfold System.documentOf
  rw [h]
  rfl

theorem commit_extends (system : System) (after : Store) (document : Document)
    (submittedByRunLedger : Bool) :
    Extends system.births (system.commit after document submittedByRunLedger).births :=
  fun _ _ h => Table.find_foldl_insert_of_some (birthOf document submittedByRunLedger) _ h

theorem mem_inserted {before : Store} :
    job ∈ inserted before after ↔
      after.jobs.find job.jobID = some job ∧ before.jobs.find job.jobID = none := by
  unfold inserted
  rw [List.mem_filter, Table.mem_rows_iff, Option.isNone_iff_eq_none]

theorem find_commit_cases
    (h : (system.commit after document submittedByRunLedger).births.find id = some birth) :
    system.births.find id = some birth ∨ ∃ job, after.jobs.find id = some job ∧
      system.store.jobs.find id = none ∧ birth = birthOf document submittedByRunLedger job := by
  rcases Table.find_foldl_insert_cases h with
    hold | ⟨job, hmem, hbirth⟩
  · exact .inl hold
  obtain ⟨hfind, hnone⟩ := mem_inserted.mp hmem
  have hid : job.jobID = id := by
    have hkey : birth.jobID = id := Table.key_of_find h
    rw [← hkey, hbirth]
    rfl
  rw [hid] at hfind hnone
  exact .inr ⟨job, hfind, hnone, hbirth⟩

theorem find_commit_of_new (h : Lineage system) (hgoes : Goes spawn system.store after)
    (hjob : after.jobs.find id = some job) (hnone : system.store.jobs.find id = none) :
    (system.commit after document submittedByRunLedger).births.find id =
      some (birthOf document submittedByRunLedger job) := by
  have hid : job.jobID = id := Table.key_of_find hjob
  have hmem : job ∈ inserted system.store after := by
    rw [mem_inserted, hid]
    exact ⟨hjob, hnone⟩
  have hnodup : ((inserted system.store after).map fun job => job.jobID).Nodup :=
    after.jobs.nodup.sublist (List.filter_sublist.map Job.jobID)
  have hfree : ∀ job ∈ inserted system.store after, system.births.find job.jobID = none := by
    intro new hnew
    obtain ⟨hfind, habsent⟩ := mem_inserted.mp hnew
    by_contra hsome
    obtain ⟨birth, hbirth⟩ := Option.ne_none_iff_exists'.mp hsome
    -- A record has an identifier that was given, and a new job one that was not.
    obtain ⟨old, hold⟩ := hgoes.oldJob hfind (h.dated hbirth)
    rw [habsent] at hold
    cases hold
  rw [← hid]
  exact Table.find_foldl_insert_of_mem (birthOf document submittedByRunLedger) hnodup hfree hmem

/-- **One transaction**: what it inserts has to be warranted, and Computers' Jobs to be nameless. -/
theorem commit_lineage (h : Lineage system) (hgoes : Goes spawn system.store after)
    (hnew : ∀ {id job}, after.jobs.find id = some job → system.store.jobs.find id = none →
      (job.computerForJob.isSome → runNames document = []) ∧
        Warranted system.births (birthOf document submittedByRunLedger job)) :
    Lineage (system.commit after document submittedByRunLedger) := by
  have hext := commit_extends system after document submittedByRunLedger
  exact {
    inv := hgoes.inv
    recorded := fun {id job} hjob => by
      cases hold : system.store.jobs.find id with
      | none => exact ⟨document, submittedByRunLedger, find_commit_of_new h hgoes hjob hold⟩
      | some old =>
        obtain ⟨document', ledger', hbirth⟩ := h.recorded hold
        refine ⟨document', ledger', hext _ _ ?_⟩
        rw [hbirth, birthOf_congr (hgoes.origin_eq hold hjob)]
    dated := fun hbirth => by
      rcases find_commit_cases hbirth with hold | ⟨job, hjob, -, -⟩
      · exact lt_of_lt_of_le (h.dated hold) hgoes.nextID
      · exact hgoes.inv.fresh.jobs hjob
    minted := fun hcred => (h.minted hcred).mono hext
    held := fun scope hscope => (h.held scope hscope).mono hext
    read := h.read
    warranted := fun hbirth => by
      rcases find_commit_cases hbirth with hold | ⟨job, hjob, hnone, rfl⟩
      · exact (h.warranted hold).mono hext
      · exact (hnew hjob hnone).2.mono hext
    nameless := fun {id job} hjob hcomp => by
      cases hold : system.store.jobs.find id with
      | none =>
        rw [documentOf_of_find (find_commit_of_new h hgoes hjob hold)]
        exact (hnew hjob hold).1 hcomp
      | some old =>
        obtain ⟨document', ledger', hbirth⟩ := h.recorded hold
        have hfor : job.computerForJob = old.computerForJob :=
          congrArg Origin.computer (hgoes.origin_eq hold hjob)
        have hdoc := h.nameless hold (by rw [← hfor]; exact hcomp)
        rw [documentOf_of_find hbirth] at hdoc
        rw [documentOf_of_find (hext _ _ hbirth)]
        exact hdoc
    ours := fun hcred => by
      obtain ⟨hlt, hjob⟩ := h.ours hcred
      refine ⟨lt_of_lt_of_le hlt hgoes.nextID, fun attempt' ha' => ?_⟩
      obtain ⟨attempt, ha, hsame⟩ := hgoes.attempt ha' hlt
      exact hsame.jobID_eq.trans (hjob attempt ha) }

/-- What a step leaves: the invariant, a store that goes on, and the records of one transaction or
those there were. Only a step that may spawn inserts a job with a parent. -/
structure Stepped (spawn : Prop) (system system' : System) : Prop where
  lineage : Lineage system'
  goes : Goes True system.store system'.store
  births : system'.births = system.births ∨ ∃ after document submittedByRunLedger,
    system'.births = (system.commit after document submittedByRunLedger).births ∧
      (¬ spawn → Goes False system.store after)

theorem commit_nameless (h : Lineage system) (hgoes : Goes False system.store after)
    (hnames : ∀ {id job}, after.jobs.find id = some job → system.store.jobs.find id = none →
      runNames document = []) :
    Stepped spawn system (system.commit after document submittedByRunLedger) := by
  refine ⟨commit_lineage h hgoes fun {id job} hjob hnone => ?_, hgoes.spawning,
    .inr ⟨_, _, _, rfl, fun _ => hgoes⟩⟩
  refine ⟨fun _ => hnames hjob hnone, fun _ => .inr (hnames hjob hnone), fun parentID hpar => ?_⟩
  have hroot : job.parentJobID = none := hgoes.root not_false hjob hnone
  have hsome : job.parentJobID = some parentID := hpar
  rw [hroot] at hsome
  cases hsome

end

/-! ## 6. Events -/

section
variable {door : Door} {id : Nat}

theorem step_goes (hinv : Inv True s) {e : Operations.Event}
    (hop : ∀ submissions, e.op ≠ .submit submissions) : Goes False s (Operations.step s e) := by
  cases step_outcome hinv e fun _ => trivial with
  | kept h =>
    refine .of_onward h fun jobID => ?_
    cases hcall : e.op with
    | submit submissions => exact absurd hcall (hop submissions)
    | service serviceID call => cases call <;> exact not_false
    | _ => exact not_false
  | took ctx opened job hdoor htaken h => exact .of_onward h fun _ => False.elim

/-- The Job of a Computer names no run, so what is copied from it does not either. -/
theorem runNames_computerDocument (h : Lineage system) :
    runNames (system.computerDocument computerID) = [] := by
  unfold System.computerDocument
  split
  next computer job hread =>
    obtain ⟨hreads, -⟩ := of_readComputerAuthority hread
    exact h.nameless hreads.job_find (by rw [(hreads.placed h.inv).projected]; rfl)
  · rfl

theorem refuseComputerRunIdentity_ok {admission : Check}
    (h : (do refuseComputerRunIdentity document; admission : Check) = .ok ()) :
    runNames document = [] := by
  obtain ⟨⟨⟩, hrefuse, -⟩ := ok_of_bind h
  unfold refuseComputerRunIdentity at hrefuse
  split at hrefuse
  next hnone => exact runNames_eq_nil hnone
  · cases hrefuse

theorem createComputer_admitted {request : CreateComputer} :
    Commits (fun _ => request.admission = .ok ()) (Computers.createComputer ctx request s) := by
  unfold Computers.createComputer
  exact .check fun _ _ => .refuseIf fun _ => .refuseIf fun _ =>
    .refuseIf fun _ => .refuseIf fun _ => .answerIf fun _ =>
    .refuseIf fun _ => .refuseIf fun _ => .check fun _ hadmn =>
    .refuseIf fun _ => .checked fun _ _ => hadmn

theorem importComputer_admitted {request : ImportRequest} :
    Commits (fun _ => request.admission = .ok ()) (beginComputerCustodyImport ctx request s) := by
  unfold beginComputerCustodyImport
  exact .check fun _ _ => .refuseIf fun _ => .refuseIf fun _ =>
    .answerIf fun _ => .check fun _ hadmn => .orRefuse fun _ _ =>
    .refuseIf fun _ => .refuseIf fun _ => .checked fun _ _ => hadmn

theorem of_new {P : Store → Store → Prop}
    (hens : ∀ ctx opened, opened.jobs = s.jobs → openDoor config door s = some (ctx, opened) →
      Commits (P opened) (tx ctx opened))
    (hjob : (runTx config door tx s).jobs.find id = some job) (hnone : s.jobs.find id = none) :
    ∃ opened, opened.jobs = s.jobs ∧ P opened (runTx config door tx s) := by
  rcases runTx_cases config door tx s with hsame | ⟨ctx, opened, hdoor, hcom⟩
  · rw [hsame, hnone] at hjob
    cases hjob
  · have hjobs : opened.jobs = s.jobs := by
      obtain ⟨-, ⟨leases, rfl⟩, -⟩ := openDoor_ok hdoor
      rfl
    exact ⟨opened, hjobs, Ensures.committed (hens ctx opened hjobs hdoor) hcom⟩

theorem stepped_refl (h : Lineage system) : Stepped spawn system system :=
  ⟨h, .refl h.inv, .inl rfl⟩

theorem projectComputer_steps (h : Lineage system) :
    Stepped spawn system (system.projectComputer config door computerID request document) := by
  unfold System.projectComputer
  split
  · exact stepped_refl h
  next document hdoc =>
    refine commit_nameless h (runTx_goes h.inv fun ctx _ hopd =>
      .mono (installComputerProjection_staged hopd)
        (fun _ h => h.1) fun _ h => h.1) fun hjob hnone => ?_
    unfold System.projectedDocument at hdoc
    by_cases hreimage : request.reimage = true
    · rw [if_pos hreimage] at hdoc
      obtain ⟨read, hread, rfl⟩ := Option.map_eq_some_iff.mp hdoc
      exact h.read read (List.mem_of_getElem? (Option.filter_eq_some_iff.mp hread).1)
    · obtain ⟨opened, hjobs, hstage⟩ := of_new (fun ctx opened _ hdoor =>
        installComputerProjection_staged (onward_openDoor h.inv hdoor).inv)
        hjob hnone
      rw [← hjobs] at hnone
      exact runNames_eq_nil (hstage.2 hjob hnone (by simpa using hreimage))

/-- **A submission that inserts** was looked up behind its door, and the row is the one it asks
for. -/
theorem submit_new (hinv : Inv True system.store)
    (hjob : (Operations.step system.store ⟨config, door, .submit [submission]⟩).jobs.find id =
      some job) (hnone : system.store.jobs.find id = none) :
    ∃ ctx opened, openDoor config door system.store = some (ctx, opened) ∧
      lookupSubmission ctx opened submission = .ok none ∧
      job = submittedJob ctx system.store.nextID submission ∧ id = system.store.nextID := by
  rcases step_cases system.store ⟨config, door, .submit [submission]⟩ with
    hsame | ⟨ctx, opened, hdoor, hcom⟩
  · rw [hsame, hnone] at hjob
    cases hjob
  obtain ⟨hlook, hstep⟩ := Ensures.committed submit_one hcom
  rw [hstep, find_insertJob (onward_openDoor hinv hdoor).inv rfl] at hjob
  obtain ⟨-, ⟨leases, hopd⟩, -⟩ := openDoor_ok hdoor
  have hnext : opened.nextID = system.store.nextID := by rw [hopd]
  have hjobs : opened.jobs = system.store.jobs := by rw [hopd]
  refine ⟨ctx, opened, hdoor, hlook, ?_⟩
  by_cases hid : opened.nextID = id
  · rw [if_pos hid] at hjob
    rw [← hnext]
    exact ⟨(Option.some.inj hjob).symm, hid.symm⟩
  · rw [if_neg hid, hjobs, hnone] at hjob
    cases hjob

variable {origin : JobOrigin} {ledger : Bool}

theorem submission_admission {request : SubmitRequest}
    (h : (system.submission request origin ledger).admission = .ok ()) :
    system.authorizeRunIdentity request.document ledger origin.parent = .ok () := by
  obtain ⟨⟨⟩, -, h⟩ := ok_of_bind h
  obtain ⟨⟨⟩, hauthd, -⟩ := ok_of_bind h
  exact hauthd

/-- What a submission that may create is entitled to. -/
theorem submission_warranted (h : Lineage system) {opened : Store} {request : SubmitRequest}
    (horig : system.origin request.principal = some (origin, ledger))
    (hlook : lookupSubmission ctx opened (system.submission request origin ledger) = .ok none) :
    Warranted system.births (birthOf request.document ledger
      (submittedJob ctx system.store.nextID (system.submission request origin ledger))) := by
  obtain ⟨hcheck, -, -, hfree⟩ := lookupSubmission_ok hlook
  have hauthd := submission_admission (hfree rfl).2
  cases hprincipal : request.principal with
  | client submitter runLedger =>
    rw [hprincipal] at horig
    cases horig
    exact ⟨fun _ => authorizeRunIdentity_root hauthd, fun parentID hpar => nomatch hpar⟩
  | attempt index =>
    rw [hprincipal] at horig
    obtain ⟨scope, hscope, hpair⟩ := Option.map_eq_some_iff.mp horig
    cases hpair
    obtain ⟨birth, hbirth, hsub, hdepth⟩ :=
      h.held scope (List.mem_of_getElem? hscope)
    have hcapped := spawnDepth_of_checkSubmission rfl hcheck
    have hnames := authorizeRunIdentity_child hauthd
    rw [documentOf_of_find hbirth] at hnames
    refine ⟨fun hroot => (nomatch hroot), fun parentID hpar => ?_⟩
    cases hpar
    refine ⟨birth, hbirth, ?_, ?_, hcapped, hsub.symm, rfl, hnames⟩
    · rw [show birth.jobID = scope.jobID from Table.key_of_find hbirth]
      exact h.dated hbirth
    · show scope.spawnDepth + 1 = birth.spawnDepth + 1
      rw [hdepth]

theorem submit_steps (hspawn : spawn) (h : Lineage system) {request : SubmitRequest} :
    Stepped spawn system (system.submit config door request) := by
  unfold System.submit
  split
  · exact stepped_refl h
  next origin ledger horig =>
    have hgoes : Goes True system.store _ := .of_onward
      (step_outcome h.inv ⟨config, door, .submit [system.submission request origin ledger]⟩
        fun _ => trivial).onward fun _ _ => trivial
    refine ⟨commit_lineage h hgoes fun hjob hnone => ?_, hgoes,
      .inr ⟨_, _, _, rfl, fun hn => absurd hspawn hn⟩⟩
    obtain ⟨ctx, opened, -, hlook, rfl, -⟩ := submit_new h.inv hjob hnone
    exact ⟨fun hcomp => (nomatch hcomp), submission_warranted h horig hlook⟩

/-- Credentials may be deleted. -/
theorem Lineage.pruned (credentials : Table Credential.tokenHash) {p : Credential → Bool}
    (h : Lineage { system with credentials }) :
    Lineage { system with credentials := credentials.deleteWhere p } := by
  have hkept : ∀ {tokenHash credential}, (credentials.deleteWhere p).find tokenHash =
      some credential → credentials.find tokenHash = some credential := by
    intro tokenHash credential hcred
    rw [Table.find_deleteWhere] at hcred
    exact (Option.filter_eq_some_iff.mp hcred).1
  exact { h with
    minted := fun hfind => h.minted (hkept hfind)
    ours := fun hfind => h.ours (hkept hfind) }

theorem claim_steps (h : Lineage system) {request : ClaimRequest} :
    Stepped spawn system (system.claim config door request tokenHash) := by
  obtain ⟨hcommit, hgoes, hbirths⟩ : Stepped spawn system (system.commit
      (Operations.step system.store ⟨config, door, .claim request⟩) ⟨[], ""⟩ false) :=
    commit_nameless h (step_goes h.inv nofun) fun _ _ => rfl
  refine ⟨?_, hgoes, hbirths⟩
  unfold System.claim
  dsimp only
  split
  · exact hcommit
  refine Lineage.pruned _ ?_
  -- A new credential says what the rows of its job and its attempt say.
  refine { hcommit with minted := fun hcred => ?_, ours := fun hcred => ?_ }
  · rcases Table.find_foldl_insert_cases hcred with hold | ⟨credential, hmem, rfl⟩
    · exact hcommit.minted hold
    · obtain ⟨attempt, -, hatt⟩ := List.mem_filterMap.mp hmem
      obtain ⟨job, hjob, rfl⟩ := Option.map_eq_some_iff.mp hatt
      obtain ⟨document, ledger, hbirth⟩ := hcommit.recorded hjob
      exact ⟨_, hbirth, rfl, rfl⟩
  · rcases Table.find_foldl_insert_cases hcred with hold | ⟨credential, hmem, rfl⟩
    · exact hcommit.ours hold
    obtain ⟨attempt, hclaim, hatt⟩ := List.mem_filterMap.mp hmem
    obtain ⟨job, -, rfl⟩ := Option.map_eq_some_iff.mp hatt
    have hfind := Table.mem_rows_iff.mp (List.mem_filter.mp hclaim).1
    refine ⟨hcommit.inv.fresh.attempts hfind, fun attempt' ha' => ?_⟩
    have hsame : some attempt = some attempt' := hfind.symm.trans ha'
    rw [Option.some.inj hsame]

theorem resolve_steps (h : Lineage system) {identityNodeID : Nat} {retiring : Bool} :
    Stepped spawn system (system.resolve ctx tokenHash identityNodeID retiring) := by
  unfold System.resolve
  split
  · exact stepped_refl h
  next credential hcred =>
    split
    · exact stepped_refl h
    · refine ⟨{ h with held := fun scope hscope => ?_ }, .refl h.inv, .inl rfl⟩
      rcases List.mem_append.mp hscope with hold | hnew
      · exact h.held scope hold
      · rw [List.mem_singleton.mp hnew]
        exact h.minted hcred

def Submits (e : Spawns.Event) : Prop := ∃ config door request, e = .submit config door request

theorem step_steps (h : Lineage system) (e : Spawns.Event) :
    Stepped (Submits e) system (system.step e) := by
  cases e with
  | submit config door request =>
    exact submit_steps ⟨config, door, request, rfl⟩ h
  | claim config door request tokenHash => exact claim_steps h
  | resolve ctx tokenHash identityNodeID retiring =>
    exact resolve_steps h
  | createComputer config door request document =>
    refine commit_nameless h (step_goes h.inv nofun) fun hjob hnone => ?_
    obtain ⟨-, -, hadm⟩ := of_new (P := fun _ _ => _)
      (fun ctx opened _ _ => createComputer_admitted) hjob hnone
    exact refuseComputerRunIdentity_ok hadm
  | importComputer config door request document =>
    refine commit_nameless h (step_goes h.inv nofun) fun hjob hnone => ?_
    obtain ⟨-, -, hadm⟩ := of_new (P := fun _ _ => _)
      (fun ctx opened _ _ => importComputer_admitted) hjob hnone
    exact refuseComputerRunIdentity_ok hadm
  | cloneComputer config door request =>
    refine commit_nameless h (step_goes h.inv nofun) fun _ _ => ?_
    split
    · exact runNames_computerDocument h
    · rfl
  | projectComputer config door computerID request document =>
    exact projectComputer_steps h
  | publishReimage config door computerID stagingJobID =>
    exact commit_nameless h (runTx_goes h.inv fun ctx _ hopd =>
      .mono (finalizeComputerProjection_goes hopd ctx computerID stagingJobID nofun)
        (fun _ h => h.1) fun _ h => h.1) fun _ _ => rfl
  | getComputer computerID =>
    refine ⟨{ h with read := fun read hread => ?_ }, .refl h.inv, .inl rfl⟩
    rcases List.mem_append.mp hread with hold | hnew
    · exact h.read read hold
    · rw [List.mem_singleton.mp hnew]
      exact runNames_computerDocument h
  | reconcile config door checked listed tokens =>
    obtain ⟨hcommit, hgoes, hbirths⟩ : Stepped _ system (system.commit
        (Operations.step system.store ⟨config, door, .reconcile checked listed⟩) ⟨[], ""⟩ false) :=
      commit_nameless h (step_goes h.inv nofun) fun _ _ => rfl
    exact ⟨Lineage.pruned system.credentials hcommit, hgoes, hbirths⟩
  | other e =>
    show Stepped _ _ (if named e.op then system else _)
    split
    · exact stepped_refl h
    next hoth =>
      refine commit_nameless h (step_goes h.inv fun submissions hop => hoth ?_) fun _ _ => rfl
      rw [hop]
      rfl

theorem reached_lineage (events : List Spawns.Event) : Lineage (System.reached events) :=
  Runs.exec_invariant (P := Lineage) (fun _ e h => (step_steps h e).lineage) lineage_start events

end

/-! ## 7. The insertion of a record -/

theorem step_extends (h : Lineage system) (e : Spawns.Event) :
    Extends system.births (system.step e).births := by
  rcases (step_steps h e).births with hsame | ⟨after, document, ledger, hcommit, -⟩
  · rw [hsame]
    exact fun _ _ hfind => hfind
  · rw [hcommit]
    exact commit_extends _ _ _ _

theorem reached_concat (events : List Spawns.Event) (e : Spawns.Event) :
    System.reached (events ++ [e]) = (System.reached events).step e :=
  Runs.exec_append _ _ _ _

section
variable {e : Spawns.Event} {id : Nat}

theorem exists_insertion (events : List Spawns.Event)
    (h : (System.reached events).births.find id = some birth) :
    ∃ before e later, events = before ++ e :: later ∧
      (System.reached before).births.find id = none ∧
      ((System.reached before).step e).births.find id = some birth := by
  induction events using List.reverseRecOn with
  | nil => cases h
  | append_singleton events e ih =>
    cases hold : (System.reached events).births.find id with
    | none =>
      rw [reached_concat] at h
      exact ⟨events, e, [], rfl, hold, h⟩
    | some old =>
      have hkept := step_extends (reached_lineage events) e _ _ hold
      rw [reached_concat, hkept] at h
      cases h
      obtain ⟨before, e', later, rfl, hbef⟩ := ih hold
      exact ⟨before, e', later ++ [e], by simp, hbef⟩

/-- **What is not submitted has no parent.** -/
theorem root_of_step (h : Lineage system) (he : ¬ Submits e)
    (hnone : system.births.find id = none) (hbirth : (system.step e).births.find id = some birth)
    : birth.parentJobID = none := by
  rcases (step_steps h e).births with hsame | ⟨after, document, ledger, hcommit, hgoes⟩
  · rw [hsame, hnone] at hbirth
    cases hbirth
  · rw [hcommit] at hbirth
    rcases find_commit_cases hbirth with hold | ⟨job, hjob, habsent, rfl⟩
    · rw [hnone] at hold
      cases hold
    · exact (hgoes he).root not_false hjob habsent

/-- The event is a submission, which found the attempt in authority for the parent. -/
def SubmitsUnder (system : System) (parentID attemptID : Nat) (e : Spawns.Event) : Prop :=
  ∃ config door request ctx opened, e = .submit config door request ∧
    openDoor config door system.store = some (ctx, opened) ∧
    HoldsAuthority ctx opened request.retiring parentID attemptID

/-- **What has a parent was submitted under it.** -/
theorem submitsUnder_of_step (h : Lineage system) {parentID : Nat}
    (hnone : system.births.find id = none) (hbirth : (system.step e).births.find id = some birth)
    (hpar : birth.parentJobID = some parentID) :
    ∃ attemptID, birth.parentAttemptID = some attemptID ∧
      SubmitsUnder system parentID attemptID e := by
  by_cases he : Submits e
  case neg =>
    rw [root_of_step h he hnone hbirth] at hpar
    cases hpar
  case pos =>
    obtain ⟨config, door, request, rfl⟩ := he
    change (system.submit config door request).births.find id = some birth at hbirth
    unfold System.submit at hbirth
    split at hbirth
    · rw [hnone] at hbirth
      cases hbirth
    next origin ledger horig =>
      rcases find_commit_cases hbirth with hold | ⟨job, hjob, habsent, rfl⟩
      · rw [hnone] at hold
        cases hold
      obtain ⟨ctx, opened, hdoor, hlook, rfl, -⟩ := submit_new h.inv hjob habsent
      obtain ⟨-, hlive, -, hfree⟩ := lookupSubmission_ok hlook
      obtain ⟨scope, hscope, rfl⟩ := Option.map_eq_some_iff.mp hpar
      refine ⟨scope.attemptID, ?_, config, door, request, ctx, opened, rfl, hdoor,
        holdsAuthority_of_checks hscope (hlive scope hscope) (hfree rfl).1⟩
      show (system.submission request origin ledger).origin.parent.map _ = _
      rw [hscope]
      rfl

end

/-! ## 8. Chains -/

/-- The nearest ancestor that the run ledger submitted: the job itself, if the ledger did, and
otherwise the nearest one of its parent. -/
inductive Nearest (births : Table Birth.jobID) : Birth → Birth → Prop
  | here {birth : Birth} (h : birth.submittedByRunLedger = true) : Nearest births birth birth
  | above {birth parent root : Birth} {parentID : Nat} (h : birth.submittedByRunLedger = false)
      (hparent : birth.parentJobID = some parentID) (hfind : births.find parentID = some parent)
      (hroot : Nearest births parent root) : Nearest births birth root

/-- Names are handed down, so the whole chain names what its head names. -/
theorem names_of_nearest (h : Lineage system) {root : Birth}
    (hnearest : Nearest system.births birth root) :
    ∀ {id}, system.births.find id = some birth →
      ∀ name ∈ runNames birth.document, name ∈ runNames root.document := by
  induction hnearest with
  | here _ => exact fun _ _ hname => hname
  | above _ hpar hfind _ ih =>
    intro id hbirth name hname
    obtain ⟨parent', hfind', hchild⟩ := (h.warranted hbirth).child _ hpar
    rw [hfind] at hfind'
    rw [← Option.some.inj hfind'] at hchild
    exact ih hfind name (hchild.names name hname)

/-- **Without such an ancestor** there is nothing to hand down. The induction is on the identifier:
a parent is older than its child. -/
theorem nameless_of_unled (h : Lineage system) :
    ∀ (id : Nat) (birth : Birth), system.births.find id = some birth →
      (∀ root, ¬ Nearest system.births birth root) → runNames birth.document = [] := by
  intro id
  induction id using Nat.strong_induction_on with
  | _ id ih =>
    intro birth hbirth hunled
    have hwarranted := h.warranted hbirth
    have hledger : birth.submittedByRunLedger = false := by
      by_contra hledger
      exact hunled birth (.here (by simpa using hledger))
    cases hpar : birth.parentJobID with
    | none =>
      rcases hwarranted.root hpar with hled | hnames
      · rw [hledger] at hled
        cases hled
      · exact hnames
    | some parentID =>
      obtain ⟨parent, hfind, hchild⟩ := hwarranted.child parentID hpar
      have hlater := hchild.later
      rw [show parent.jobID = parentID from Table.key_of_find hfind,
        show birth.jobID = id from Table.key_of_find hbirth] at hlater
      have hparentNames := ih parentID hlater parent hfind fun root hroot =>
        hunled root (.above hledger hpar hfind hroot)
      refine List.eq_nil_iff_forall_not_mem.mpr fun name hname => ?_
      have hmem := hchild.names name hname
      rw [hparentNames] at hmem
      cases hmem

/-- **Spawn chains never widen authority.** Whatever the events, every job has a record of how it
was submitted, and of every record, also of a job that was removed since: if it has a parent, then
the parent is on record, the job is exactly one deeper, within the cap, and has the parent's
submitter, and it was inserted while the parent attempt it names held authority for a job that
nobody had asked to cancel; it names only runs that the nearest ancestor of the run ledger
names; and without such an ancestor it names none, so that what it hands off is kept under its
own identifier or under none. -/
theorem spawn_chains_never_widen (events : List Spawns.Event) :
    (∀ id job, (System.reached events).store.jobs.find id = some job →
      ∃ document submittedByRunLedger, (System.reached events).births.find id =
        some (birthOf document submittedByRunLedger job)) ∧
    ∀ id birth, (System.reached events).births.find id = some birth →
      (∀ parentID, birth.parentJobID = some parentID →
        (∃ parent, (System.reached events).births.find parentID = some parent ∧
          birth.spawnDepth = parent.spawnDepth + 1 ∧ birth.spawnDepth ≤ maxSpawnDepth ∧
          birth.originatingSubmitter = parent.originatingSubmitter) ∧
        ∃ attemptID before e later, birth.parentAttemptID = some attemptID ∧
          events = before ++ e :: later ∧
          (System.reached before).births.find id = none ∧
          (System.reached (before ++ [e])).births.find id = some birth ∧
          SubmitsUnder (System.reached before) parentID attemptID e) ∧
      (∀ root, Nearest (System.reached events).births birth root →
        ∀ name ∈ runNames birth.document, name ∈ runNames root.document) ∧
      ((∀ root, ¬ Nearest (System.reached events).births birth root) →
        runNames birth.document = [] ∧ ∀ spec jobID,
          executionHandoffOwnerKey spec birth.document jobID = jobID ∨
            executionHandoffOwnerKey spec birth.document jobID = "") := by
  have hlin := reached_lineage events
  refine ⟨fun id job hjob => hlin.recorded hjob, fun id birth hbirth =>
    ⟨fun parentID hpar => ⟨?_, ?_⟩, fun root hroot => names_of_nearest hlin hroot hbirth,
      fun hunled => ?_⟩⟩
  · obtain ⟨parent, hfind, hchild⟩ := (hlin.warranted hbirth).child parentID hpar
    exact ⟨parent, hfind, hchild.depth, hchild.capped, hchild.submitter⟩
  · obtain ⟨before, e, later, rfl, hnone, hstep⟩ := exists_insertion events hbirth
    obtain ⟨attemptID, hatt, hunder⟩ :=
      submitsUnder_of_step (reached_lineage before) hnone hstep hpar
    refine ⟨attemptID, before, e, later, hatt, rfl, hnone, ?_, hunder⟩
    rw [reached_concat]
    exact hstep
  · have hnames := nameless_of_unled hlin id birth hbirth hunled
    exact ⟨hnames, fun spec jobID => executionHandoffOwnerKey_of_nameless hnames⟩

def door : Door := (Fencing.registers 0).door

def submits (principal : Principal) (dispatchKey : Nat) (runID : String) : Spawns.Event :=
  .submit Fencing.settings door {
    spec := { Fencing.oneshot with dispatchKey }
    document := ⟨[(labelRunID, runID)], ""⟩
    requestHash := dispatchKey
    principal := principal
    retiring := false
    wellFormed := .ok ()
    instanceKey := .ok ()
    seatRun := .ok () }

/-- The ledger dispatches a run, whose job is claimed and resolves its credential; of the two
children it then asks for, the second one names another run. -/
def spawns : List Spawns.Event :=
  [.other (Fencing.registers 0),
    submits (.client (some 5) true) 7 "run-1",
    .claim Fencing.settings door (Fencing.claimRequest .oneShot) 77,
    .resolve ⟨Fencing.settings, 0, withAttemptClock door.reads, id⟩ 77 1 false,
    submits (.attempt 0) 8 " run-1 ",
    submits (.attempt 0) 9 "run-2"]

example : (System.reached spawns).births.rows.map
    (fun birth => (birth.jobID, birth.parentJobID, birth.spawnDepth, runNames birth.document)) =
      [(1, none, 0, ["run-1"]), (3, some 1, 1, ["run-1"])] := by decide +kernel

end Wefty.SpawnChains
