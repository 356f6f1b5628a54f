/-
What every transaction of the L1 store keeps, and what it can change.

`Inv` is the invariant of the store. Its centre is the binding: an attempt that can hold
execution authority is the current attempt of its job, under the job's fence. The other parts
are there because some transaction needs them to keep the binding. A removal that clears a
job's state relies on the job not being occupied; a Storage copy that publishes relies on the
Job of its Computer waiting for it; and all of it relies on identifiers being given once.

`Follows` compares two stores of one run. It says what a later row has in common with the
earlier one, which rows are never lost, and which rows can be new. It is transitive, and a
transaction is a sequence of writes, so each kind of write is looked at once, in
[`Wefty.StoreWrites`], and a transaction is the list of its writes.

`copies` allows Computer clones and Custody imports, which insert a job without asking the
tombstones for its key, and of which a failed import deletes its job without a tombstone. `leave`
says which jobs may be claimed, and in which removals the proof of the cleanup may be waived or
recorded.
-/
import Wefty.Removals

set_option autoImplicit false

namespace Wefty.StoreRules

open Tables Rows StoreRows AttemptClock RestartPolicy AttemptRules ControlStore Removals

variable {a b : Attempt} {job : Job}

/-! ## 1. Jobs -/

/-- The columns of a job that are written once, when it is submitted, with the Computer it is for
and whether it is a service. -/
structure Origin where
  jobID : Nat
  requestHash : Nat
  spec : JobSpec
  parentJobID : Option Nat
  parentAttemptID : Option Nat
  originatingSubmitter : Option Nat
  spawnDepth : Nat
  createdNS : Int
  computer : Option Nat
  service : Bool

def origin (job : Job) : Origin where
  jobID := job.jobID
  requestHash := job.requestHash
  spec := job.spec
  parentJobID := job.parentJobID
  parentAttemptID := job.parentAttemptID
  originatingSubmitter := job.originatingSubmitter
  spawnDepth := job.spawnDepth
  createdNS := job.createdNS
  computer := job.computerForJob
  service := job.service.isSome

theorem origin_updateService {f : ServiceJob → ServiceJob} :
    origin (job.updateService f) = origin job := by
  simp only [origin, Job.updateService, Job.computerForJob, Option.isSome_map]

/-- What an operation has leave to do to a job, beyond what any operation may do: to claim it, to
waive the proof its removal waits for, to record that proof, and to create it under a
parent. -/
structure Leave where
  claim : Prop
  waive : Prop
  acknowledge : Prop
  spawn : Prop

variable {leave : Leave}

abbrev Leave.none : Leave := ⟨False, False, False, False⟩

abbrev Leave.all : Leave := ⟨True, True, True, True⟩

abbrev Leave.unclaimed : Leave := ⟨False, True, True, True⟩

/-- The second leave allows what the first one allows. -/
structure Leave.Within (leave leave' : Leave) : Prop where
  claim : leave.claim → leave'.claim
  waive : leave.waive → leave'.waive
  acknowledge : leave.acknowledge → leave'.acknowledge
  spawn : leave.spawn → leave'.spawn

theorem Leave.within_all (leave : Leave) : leave.Within .all :=
  ⟨fun _ => trivial, fun _ => trivial, fun _ => trivial, fun _ => trivial⟩

theorem Leave.within_unclaimed (h : ¬ leave.claim) : leave.Within .unclaimed :=
  ⟨h, fun _ => trivial, fun _ => trivial, fun _ => trivial⟩

/-- What a later row of a removal has in common with an earlier one: the directive and what was
accepted from the Node stand, and a label is final unless the proof is waived. -/
structure RemovalFollows (leave : Leave) (removal removal' : Removal) : Prop where
  directive : removal'.boundNodeID = removal.boundNodeID ∧
    removal'.cleanupFence = removal.cleanupFence ∧
    removal'.rootInstanceID = removal.rootInstanceID
  final : ¬ leave.waive → removalOver removal.status → removal'.status = removal.status
  accepted : removal.acknowledgement.isSome → removal'.acknowledgement = removal.acknowledgement
  stalled : removal.stall.isSome → removal'.stall = removal.stall
  quarantined : removal.cleanupQuarantine.isSome →
    removal'.cleanupQuarantine = removal.cleanupQuarantine

theorem RemovalFollows.refl (leave : Leave) (removal : Removal) :
    RemovalFollows leave removal removal :=
  ⟨⟨rfl, rfl, rfl⟩, fun _ _ => rfl, fun _ => rfl, fun _ => rfl, fun _ => rfl⟩

/-- A label that is final in between is final. -/
theorem RemovalFollows.trans {a b c : Removal} (h : RemovalFollows leave a b)
    (h' : RemovalFollows leave b c) : RemovalFollows leave a c where
  directive := by
    obtain ⟨hnode, hfence, hroot⟩ := h.directive
    obtain ⟨hnode', hfence', hroot'⟩ := h'.directive
    exact ⟨hnode'.trans hnode, hfence'.trans hfence, hroot'.trans hroot⟩
  final hn ha := by
    have hab := h.final hn ha
    exact (h'.final hn (by rwa [hab])).trans hab
  accepted ha := by
    have hab := h.accepted ha
    exact (h'.accepted (by rwa [hab])).trans hab
  stalled ha := by
    have hab := h.stalled ha
    exact (h'.stalled (by rwa [hab])).trans hab
  quarantined ha := by
    have hab := h.quarantined ha
    exact (h'.quarantined (by rwa [hab])).trans hab

/-- What the removal of a job, if there is one, has in common with the one before: it is never
withdrawn, it is forgotten by a waiver only, and that the cleanup was proved is recorded by an
acknowledgement only. -/
structure Retires (leave : Leave) (removal removal' : Option Removal) : Prop where
  kept : ∀ r ∈ removal, ∃ r' ∈ removal', RemovalFollows leave r r'
  waived : ¬ leave.waive → ∀ r' ∈ removal', r'.status = .forgottenCleanupUnverified →
    ∃ r ∈ removal, r.status = .forgottenCleanupUnverified
  proved : ¬ leave.acknowledge → ∀ r' ∈ removal', r'.cleanupStatus = .acknowledged →
    ∃ r ∈ removal, r.cleanupStatus = .acknowledged

theorem Retires.refl (leave : Leave) (removal : Option Removal) : Retires leave removal removal :=
  ⟨fun r hr => ⟨r, hr, .refl leave r⟩, fun _ r hr hwaiv => ⟨r, hr, hwaiv⟩,
    fun _ r hr hprov => ⟨r, hr, hprov⟩⟩

theorem Retires.of_eq (leave : Leave) {removal removal' : Option Removal} (h : removal' = removal) :
    Retires leave removal removal' := by
  rw [h]
  exact .refl leave removal

/-- Removals go on along any two steps. -/
theorem Retires.trans {a b c : Option Removal} (h : Retires leave a b) (h' : Retires leave b c)
    : Retires leave a c where
  kept r hr := by
    obtain ⟨r', hr', hfol⟩ := h.kept r hr
    obtain ⟨r'', hr'', hfol'⟩ := h'.kept r' hr'
    exact ⟨r'', hr'', hfol.trans hfol'⟩
  waived hn r'' hr'' hwaiv := by
    obtain ⟨r', hr', hwaiv'⟩ := h'.waived hn r'' hr'' hwaiv
    exact h.waived hn r' hr' hwaiv'
  proved hn r'' hr'' hprov := by
    obtain ⟨r', hr', hprov'⟩ := h'.proved hn r'' hr'' hprov
    exact h.proved hn r' hr' hprov'

theorem Retires.mono {leave' : Leave} {removal removal' : Option Removal}
    (h : Retires leave removal removal') (hwith : leave.Within leave') :
    Retires leave' removal removal' where
  kept r hr := by
    obtain ⟨r', hr', hfol⟩ := h.kept r hr
    exact ⟨r', hr', hfol.directive, fun hn => hfol.final fun hw => hn (hwith.waive hw),
      hfol.accepted, hfol.stalled, hfol.quarantined⟩
  waived hn := h.waived fun hw => hn (hwith.waive hw)
  proved hn := h.proved fun ha => hn (hwith.acknowledge ha)

def removing : JobState → Bool
  | .removalPending | .agentCleaned | .removedVerified | .forgottenCleanupUnverified
  | .stalledCleanupUnverified => true
  | _ => false

def terminal : JobState → Bool
  | .succeeded | .failed => true
  | _ => false

/-- The claims a job has had beyond those its counters account for: the one it is in, or the one
that a scheduled restart follows. -/
def openClaims (job : Job) : Nat :=
  if job.state = .queued ∧ job.nextRestartAtNS = none then 0 else 1

/-- What a row of `jobs` satisfies on its own. -/
structure Sound (job : Job) : Prop where
  kind : job.computerForJob = none → (job.service.isSome ↔ job.spec.jobClass = .service)
  computer : job.computerForJob.isSome → job.service.isSome
  removal : job.removal.isSome → removing job.state ∧ job.service.isSome
  verified : ∀ removal ∈ job.removal, removal.status = .removedVerified →
    removal.cleanupStatus = .acknowledged ∧ job.computerForJob.isSome
  canceled : job.service = none → job.canceled →
    job.nextRestartAtNS = none ∧ job.state ≠ .queued ∧ job.state ≠ .succeeded
  scheduled : job.nextRestartAtNS.isSome →
    job.restartCount < maximumOneshotRestarts ∧ job.state.holding = false
  restarts : job.restartCount ≤ maximumOneshotRestarts
  claims : job.service = none →
    job.fenceCounter ≤ job.restartCount + job.prestartRetryCount + openClaims job

/-- What a later row of a job has in common with an earlier one. A restart that was granted to a
one-shot stays granted until the job is claimed, or is canceled. -/
structure JobFollows (leave : Leave) (job job' : Job) : Prop where
  origin_eq : origin job' = origin job
  fence : job.fenceCounter ≤ job'.fenceCounter
  restarts : job.restartCount ≤ job'.restartCount
  canceled : job.service = none → job.canceled → job'.canceled ∧
    job'.cancelSettleByNS = job.cancelSettleByNS ∧ job'.fenceCounter = job.fenceCounter
  ended : job.service = none → terminal job.state → job'.state = job.state
  unclaimed : ¬ leave.claim → job'.restartCount = job.restartCount ∧
    (job.service = none → job'.fenceCounter = job.fenceCounter)
  granted : ¬ leave.claim → job.service = none → job.nextRestartAtNS.isSome →
    job.state.holding = false → job'.canceled ∨
      job'.nextRestartAtNS = job.nextRestartAtNS ∧ job'.state.holding = false
  removal : Retires leave job.removal job'.removal

theorem service_none_of_origin {job' : Job} (h : origin job' = origin job)
    (hsvc : job.service = none) : job'.service = none := by
  have hsome : job'.service.isSome = job.service.isSome := congrArg Origin.service h
  simpa [hsvc] using hsome

theorem JobFollows.refl (leave : Leave) (job : Job) : JobFollows leave job job where
  origin_eq := rfl
  fence := le_rfl
  restarts := le_rfl
  canceled _ h := ⟨h, rfl, rfl⟩
  ended _ _ := rfl
  unclaimed _ := ⟨rfl, fun _ => rfl⟩
  granted _ _ _ hidle := .inr ⟨rfl, hidle⟩
  removal := .refl leave job.removal

/-- **Jobs follow along two steps**: each column is kept, or moves the way it may. -/
theorem JobFollows.trans {a b c : Job} (h : JobFollows leave a b) (h' : JobFollows leave b c)
    : JobFollows leave a c where
  origin_eq := h'.origin_eq.trans h.origin_eq
  fence := h.fence.trans h'.fence
  restarts := h.restarts.trans h'.restarts
  canceled hs hc := by
    obtain ⟨hcan, hsettle, hfence⟩ := h.canceled hs hc
    obtain ⟨hcan', hsettle', hfence'⟩ :=
      h'.canceled (service_none_of_origin h.origin_eq hs) hcan
    exact ⟨hcan', hsettle'.trans hsettle, hfence'.trans hfence⟩
  ended hs ht := by
    have hab := h.ended hs ht
    exact (h'.ended (service_none_of_origin h.origin_eq hs) (by rwa [hab])).trans hab
  unclaimed hn := by
    obtain ⟨hrestarts, hfence⟩ := h.unclaimed hn
    obtain ⟨hrestarts', hfence'⟩ := h'.unclaimed hn
    refine ⟨hrestarts'.trans hrestarts, fun hs => ?_⟩
    exact (hfence' (service_none_of_origin h.origin_eq hs)).trans (hfence hs)
  granted hn hs hnext hidle := by
    have hs' := service_none_of_origin h.origin_eq hs
    rcases h.granted hn hs hnext hidle with hcan | ⟨hsame, hidle'⟩
    · exact .inl (h'.canceled hs' hcan).1
    · rcases h'.granted hn hs' (by rwa [hsame]) hidle' with hcan | ⟨hsame', hidle''⟩
      · exact .inl hcan
      · exact .inr ⟨hsame'.trans hsame, hidle''⟩
  removal := h.removal.trans h'.removal

section
variable {job' : Job} (h : JobFollows leave job job')
include h

theorem JobFollows.jobID_eq : job'.jobID = job.jobID :=
  congrArg Origin.jobID h.origin_eq

theorem JobFollows.spec_eq : job'.spec = job.spec :=
  congrArg Origin.spec h.origin_eq

theorem JobFollows.requestHash_eq : job'.requestHash = job.requestHash :=
  congrArg Origin.requestHash h.origin_eq

theorem JobFollows.computerForJob_eq : job'.computerForJob = job.computerForJob :=
  congrArg Origin.computer h.origin_eq

theorem JobFollows.isService : job'.service.isSome = job.service.isSome :=
  congrArg Origin.service h.origin_eq

end

/-- A step that may do more allows what a step that may do less has done. -/
theorem JobFollows.mono {leave' : Leave} {job' : Job} (h : JobFollows leave job job')
    (hwith : leave.Within leave') : JobFollows leave' job job' where
  origin_eq := h.origin_eq
  fence := h.fence
  restarts := h.restarts
  canceled := h.canceled
  ended := h.ended
  unclaimed hn := h.unclaimed fun hc => hn (hwith.claim hc)
  granted hn := h.granted fun hc => hn (hwith.claim hc)
  removal := h.removal.mono hwith

/-! ## 2. Attempts -/

/-- What a later row of an attempt has in common with an earlier one: an attempt that ended stays
as it ended, and an accepted completion is never replaced. -/
structure AttemptFollows (attempt attempt' : Attempt) : Prop where
  identity_eq : identity attempt' = identity attempt
  ended : attempt.state.active = false → attempt'.state = attempt.state
  accepted : attempt.completionKey.isSome →
    attempt'.completionKey = attempt.completionKey ∧
      attempt'.completionHash = attempt.completionHash

theorem AttemptFollows.refl (attempt : Attempt) : AttemptFollows attempt attempt :=
  ⟨rfl, fun _ => rfl, fun _ => ⟨rfl, rfl⟩⟩

/-- An attempt that is active was active before. -/
theorem AttemptFollows.active (h : AttemptFollows a b) (hb : b.state.active) : a.state.active := by
  by_contra ha
  rw [h.ended (by simpa using ha)] at hb
  exact ha hb

theorem AttemptFollows.trans {c : Attempt} (h : AttemptFollows a b) (h' : AttemptFollows b c)
    : AttemptFollows a c where
  identity_eq := h'.identity_eq.trans h.identity_eq
  ended ha := by
    have hab := h.ended ha
    exact (h'.ended (by rw [hab, ha])).trans hab
  accepted ha := by
    obtain ⟨hkey, hhash⟩ := h.accepted ha
    obtain ⟨hkey', hhash'⟩ := h'.accepted (by rwa [hkey])
    exact ⟨hkey'.trans hkey, hhash'.trans hhash⟩

theorem AttemptFollows.jobID_eq (h : AttemptFollows a b) : b.jobID = a.jobID :=
  congrArg Identity.jobID h.identity_eq

theorem AttemptFollows.fencingToken_eq (h : AttemptFollows a b) :
    b.fencingToken = a.fencingToken := congrArg Identity.fencingToken h.identity_eq

structure Bound (job : Job) (attempt : Attempt) : Prop where
  current : job.currentAttemptID = some attempt.attemptID
  holding : job.state.holding
  token : attempt.fencingToken = job.fenceCounter

/-- A later row of the attempt is bound as the earlier one was. -/
theorem Bound.of_follows (h : Bound job a) (hab : AttemptFollows a b) : Bound job b := by
  have hid : b.attemptID = a.attemptID := congrArg Identity.attemptID hab.identity_eq
  exact ⟨by rw [hid]; exact h.current, h.holding, by rw [hab.fencingToken_eq]; exact h.token⟩

/-! ## 3. Keys, Computers and copies -/

/-- The identifier a dispatch key with a request hash belongs to, in the jobs or in the
tombstones. -/
inductive Holds (s : Store) (dispatchKey requestHash jobID : Nat) : Prop
  | job (job : Job) (hfind : s.jobs.find jobID = some job)
      (hkey : job.spec.dispatchKey = dispatchKey) (hhash : job.requestHash = requestHash)
  | tombstone (tombstone : Tombstone) (hfind : s.tombstones.find jobID = some tombstone)
      (hkey : tombstone.dispatchKey = dispatchKey) (hhash : tombstone.requestHash = requestHash)

/-- A tombstone that stands beside its job: the job is being removed, and the two say the same. -/
structure Beside (job : Job) (tombstone : Tombstone) : Prop where
  dispatchKey_eq : tombstone.dispatchKey = job.spec.dispatchKey
  requestHash_eq : tombstone.requestHash = job.requestHash
  label : ∃ removal ∈ job.removal, removal.status = tombstone.outcome.state

/-- A tombstone that takes the place of a job: it keeps the key and a label that was final, and it
says that the cleanup was verified only where that was proved. -/
structure Buries (leave : Leave) (job : Job) (tombstone : Tombstone) : Prop where
  dispatchKey_eq : tombstone.dispatchKey = job.spec.dispatchKey
  requestHash_eq : tombstone.requestHash = job.requestHash
  final : ¬ leave.waive → ∀ removal ∈ job.removal, removalOver removal.status →
    tombstone.outcome.state = removal.status
  proved : ¬ leave.acknowledge → tombstone.outcome = .verifiedRemoved →
    ∀ removal ∈ job.removal, removal.cleanupStatus = .acknowledged

/-- What a later row of a tombstone has in common with an earlier one. -/
structure Stands (tombstone tombstone' : Tombstone) : Prop where
  dispatchKey_eq : tombstone'.dispatchKey = tombstone.dispatchKey
  requestHash_eq : tombstone'.requestHash = tombstone.requestHash
  outcome_eq : tombstone'.outcome = tombstone.outcome

theorem Stands.refl (tombstone : Tombstone) : Stands tombstone tombstone := ⟨rfl, rfl, rfl⟩

theorem Stands.trans {a b c : Tombstone} (h : Stands a b) (h' : Stands b c) : Stands a c :=
  ⟨h'.dispatchKey_eq.trans h.dispatchKey_eq, h'.requestHash_eq.trans h.requestHash_eq,
    h'.outcome_eq.trans h.outcome_eq⟩

section
variable {leave' : Leave} {job' : Job} {tombstone tombstone' : Tombstone}

theorem Beside.of_stands (h : Beside job tombstone) (hstd : Stands tombstone tombstone') :
    Beside job tombstone' := by
  refine ⟨hstd.dispatchKey_eq.trans h.dispatchKey_eq,
    hstd.requestHash_eq.trans h.requestHash_eq, ?_⟩
  rw [hstd.outcome_eq]
  exact h.label

theorem Buries.of_stands (h : Buries leave job tombstone) (hstd : Stands tombstone tombstone') :
    Buries leave job tombstone' := by
  refine ⟨hstd.dispatchKey_eq.trans h.dispatchKey_eq,
    hstd.requestHash_eq.trans h.requestHash_eq, ?_, ?_⟩
  · rw [hstd.outcome_eq]
    exact h.final
  · rw [hstd.outcome_eq]
    exact h.proved

theorem Beside.of_eq (h : Beside job tombstone) (horig : origin job' = origin job)
    (hrem : job'.removal = job.removal) : Beside job' tombstone := by
  have hspec : job'.spec = job.spec := congrArg Origin.spec horig
  have hhash : job'.requestHash = job.requestHash := congrArg Origin.requestHash horig
  refine ⟨h.dispatchKey_eq.trans (by rw [hspec]), h.requestHash_eq.trans hhash.symm, ?_⟩
  rw [hrem]
  exact h.label

/-- What a tombstone says of the later row it says of the earlier one. -/
theorem Buries.of_follows (h : Buries leave job' tombstone) (hfol : JobFollows leave job job') :
    Buries leave job tombstone := by
  refine ⟨h.dispatchKey_eq.trans (by rw [hfol.spec_eq]),
    h.requestHash_eq.trans hfol.requestHash_eq, fun hn removal hrem hover => ?_,
    fun hn hout removal hrem => ?_⟩
  · obtain ⟨removal', hrem', hrow⟩ := hfol.removal.kept removal hrem
    have hlab := hrow.final hn hover
    rw [h.final hn removal' hrem' (by rwa [hlab]), hlab]
  · obtain ⟨removal', hrem', -⟩ := hfol.removal.kept removal hrem
    obtain ⟨r, hr, hprov⟩ :=
      hfol.removal.proved hn removal' hrem' (h.proved hn hout removal' hrem')
    rw [Option.mem_unique hrem hr]
    exact hprov

theorem Buries.mono (h : Buries leave job tombstone) (hwith : leave.Within leave') :
    Buries leave' job tombstone :=
  ⟨h.dispatchKey_eq, h.requestHash_eq, fun hn => h.final fun hw => hn (hwith.waive hw),
    fun hn => h.proved fun ha => hn (hwith.acknowledge ha)⟩

end

/-- A tombstone that stands beside its job says the same, and a removal that was forgotten has one.
Without copies no key has two jobs, and nothing was imported that could be taken back. -/
structure Keys (copies : Prop) (s : Store) : Prop where
  buried : ∀ {id tombstone job}, s.tombstones.find id = some tombstone →
    s.jobs.find id = some job → Beside job tombstone
  forgotten : ∀ {id job}, s.jobs.find id = some job → ∀ removal ∈ job.removal,
    removal.status = .forgottenCleanupUnverified →
    ∃ tombstone, s.tombstones.find id = some tombstone
  unique : ¬ copies → ∀ {key hash hash' i j}, Holds s key hash i → Holds s key hash' j → i = j
  imported : ¬ copies → ∀ {k copy}, s.copies.find k = some copy → copy.operation ≠ .custodyImport

/-- A Computer with its current Job. The Job of a Computer that is being filled waits, and only the
Computer's own removal removes it. -/
structure Placed (computer : Computer) (job : Job) : Prop where
  projected : job.computerForJob = some computer.computerID
  removal : computer.phase ≠ .removing → job.removal = none
  waiting : computer.phase = .cloning ∨ computer.phase = .importing → job.state.holding = false

def copying : ReconfigurationPhase → Bool
  | .restoring | .cloning | .importing => true
  | _ => false

/-- A copy with the Computer it is into: the copy of the running operation is into the current
Job, and what a Computer is restored by is a restore. -/
structure Linked (copy : StorageCopy) (computer : Computer) : Prop where
  revision : copy.operationRevision ≤ computer.intentRevision
  job : copy.operationRevision = computer.intentRevision → copying computer.phase →
    copy.jobID = computer.currentJobID
  restored : copy.operationRevision = computer.intentRevision → computer.phase = .restoring →
    copy.operation = .restore

/-- A Custody import that is running, with the Computer it is into. -/
structure Importing (copy : StorageCopy) (computer : Computer) : Prop where
  phase : computer.phase = .importing
  job : copy.jobID = computer.currentJobID
  revision : copy.operationRevision = computer.intentRevision

/-- The order in which a Storage generation goes through its phases. -/
def ages : GenerationPhase → GenerationPhase → Bool
  | .staging, _ => true
  | .current, .current => true
  | .current, .retired => true
  | .retired, .retired => true
  | _, _ => false

theorem ages_refl (phase : GenerationPhase) : ages phase phase := by cases phase <;> rfl

/-- Generations age in one direction. -/
theorem ages_trans {a b c : GenerationPhase} (h : ages a b) (h' : ages b c) : ages a c := by
  revert h h'
  cases a <;> cases b <;> cases c <;> decide

/-- The Storage of a Computer: the numbers of its generations are given once, and the current one is
the one the Computer names. A Computer that is being filled has none. -/
structure Stored (computer : Computer) : Prop where
  numbers : (computer.generations.map StorageGeneration.storageGeneration).Nodup
  current : ∀ g ∈ computer.generations, g.phase = .current →
    g.storageGeneration = computer.storageGeneration
  unfilled : computer.phase = .cloning ∨ computer.phase = .importing →
    computer.storageGeneration = 1 ∧ ∀ g ∈ computer.generations, g.phase ≠ .current

/-- What a later row of a Computer has in common with an earlier one. -/
structure ComputerFollows (computer computer' : Computer) : Prop where
  currentJobID_eq : computer'.currentJobID = computer.currentJobID
  intentRevision : computer.intentRevision ≤ computer'.intentRevision
  generation : ∀ g ∈ computer.generations, ∃ g' ∈ computer'.generations,
    g'.storageGeneration = g.storageGeneration ∧ ages g.phase g'.phase

theorem ComputerFollows.refl (computer : Computer) : ComputerFollows computer computer :=
  ⟨rfl, le_rfl, fun g hg => ⟨g, hg, rfl, ages_refl g.phase⟩⟩

theorem ComputerFollows.trans {a b c : Computer} (h : ComputerFollows a b)
    (h' : ComputerFollows b c) : ComputerFollows a c where
  currentJobID_eq := h'.currentJobID_eq.trans h.currentJobID_eq
  intentRevision := h.intentRevision.trans h'.intentRevision
  generation ga hga := by
    obtain ⟨gb, hgb, hnum, hages⟩ := h.generation ga hga
    obtain ⟨gc, hgc, hnum', hages'⟩ := h'.generation gb hgb
    exact ⟨gc, hgc, hnum'.trans hnum, ages_trans hages hages'⟩

/-- The Computers and the copies, and how they stand to the jobs. -/
structure Layout (s : Store) : Prop where
  stored : ∀ {id computer}, s.computers.find id = some computer → Stored computer
  placed : ∀ {id computer job}, s.computers.find id = some computer →
    s.jobs.find computer.currentJobID = some job → Placed computer job
  linked : ∀ {k copy computer}, s.copies.find k = some copy →
    s.computers.find copy.destinationComputerID = some computer → Linked copy computer
  copied : ∀ {k copy job}, s.copies.find k = some copy → s.jobs.find copy.jobID = some job →
    job.service.isSome
  importing : ∀ {k copy}, s.copies.find k = some copy → copy.operation = .custodyImport →
    copy.status = .reserved →
    ∃ computer, s.computers.find copy.destinationComputerID = some computer ∧
      Importing copy computer

structure Fresh (s : Store) : Prop where
  jobs : ∀ {id job}, s.jobs.find id = some job → id < s.nextID
  attempts : ∀ {id attempt}, s.attempts.find id = some attempt → id < s.nextID
  tombstones : ∀ {id tombstone}, s.tombstones.find id = some tombstone → id < s.nextID
  computers : ∀ {id computer}, s.computers.find id = some computer →
    id < s.nextID ∧ computer.currentJobID < s.nextID
  copies : ∀ {k copy}, s.copies.find k = some copy →
    copy.destinationComputerID < s.nextID ∧ copy.jobID < s.nextID

/-! ## 4. The store -/

structure Inv (copies : Prop) (s : Store) : Prop where
  sound : ∀ {id job}, s.jobs.find id = some job → Sound job
  owned : ∀ {id attempt}, s.attempts.find id = some attempt →
    ∃ job, s.jobs.find attempt.jobID = some job ∧
      0 < attempt.fencingToken ∧ attempt.fencingToken ≤ job.fenceCounter
  bound : ∀ {id attempt job}, s.attempts.find id = some attempt →
    s.jobs.find attempt.jobID = some job → attempt.state.active → Bound job attempt
  distinct : ∀ {i j a b}, s.attempts.find i = some a → s.attempts.find j = some b →
    a.jobID = b.jobID → a.fencingToken = b.fencingToken → i = j
  fresh : Fresh s
  keys : Keys copies s
  layout : Layout s

/-- No job is claimed, no proof waived and none recorded. -/
abbrev noLeave (_ : Nat) : Leave := .none

abbrev claimOf (jobID id : Nat) : Leave := { Leave.none with claim := id = jobID }

abbrev waiveOf (jobID id : Nat) : Leave := { Leave.none with waive := id = jobID }

abbrev acknowledgeOf (jobID id : Nat) : Leave := { Leave.none with acknowledge := id = jobID }

/-- A job may be created under a parent. -/
abbrev spawnLeave (_ : Nat) : Leave := { Leave.none with spawn := True }

/-- What a later store has in common with an earlier one, where `leave` says what may have been done
between. One-shots and their attempts are never deleted, and no removal goes without a trace. -/
structure Follows (copies : Prop) (leave : Nat → Leave) (s s' : Store) : Prop where
  nextID : s.nextID ≤ s'.nextID
  job : ∀ {id job job'}, s.jobs.find id = some job → s'.jobs.find id = some job' →
    JobFollows (leave id) job job'
  oldJob : ∀ {id job'}, s'.jobs.find id = some job' → id < s.nextID →
    ∃ job, s.jobs.find id = some job
  newJob : ∀ {id job'}, s'.jobs.find id = some job' → s.jobs.find id = none →
    ¬ (leave id).acknowledge → ∀ removal ∈ job'.removal, removal.cleanupStatus ≠ .acknowledged
  root : ∀ {id job'}, s'.jobs.find id = some job' → s.jobs.find id = none →
    ¬ (leave id).spawn → job'.parentJobID = none
  keepsJob : ∀ {id job}, s.jobs.find id = some job → job.service = none →
    ∃ job', s'.jobs.find id = some job'
  attempt : ∀ {id attempt attempt'}, s.attempts.find id = some attempt →
    s'.attempts.find id = some attempt' → AttemptFollows attempt attempt'
  oldAttempt : ∀ {id attempt'}, s'.attempts.find id = some attempt' →
    id < s.nextID ∨ ¬ (leave attempt'.jobID).claim → ∃ attempt, s.attempts.find id = some attempt
  keepsAttempt : ∀ {id attempt job}, s.attempts.find id = some attempt →
    s.jobs.find attempt.jobID = some job → job.service = none →
    ∃ attempt', s'.attempts.find id = some attempt'
  holds : ¬ copies → ∀ {key hash id}, Holds s key hash id → Holds s' key hash id
  tombstone : ∀ {id tombstone}, s.tombstones.find id = some tombstone →
    ∃ tombstone', s'.tombstones.find id = some tombstone' ∧ Stands tombstone tombstone'
  gone : ∀ {id job}, s.jobs.find id = some job → s'.jobs.find id = none → job.removal.isSome →
    ∃ tombstone, s'.tombstones.find id = some tombstone ∧ Buries (leave id) job tombstone
  computer : ∀ {id computer computer'}, s.computers.find id = some computer →
    s'.computers.find id = some computer' → ComputerFollows computer computer'
  oldComputer : ∀ {id computer'}, s'.computers.find id = some computer' → id < s.nextID →
    ∃ computer, s.computers.find id = some computer

/-- The invariant still holds, and the new store follows the old one. -/
structure Onward (copies : Prop) (leave : Nat → Leave) (s s' : Store) : Prop where
  inv : Inv copies s'
  follows : Follows copies leave s s'

theorem Follows.refl (copies : Prop) (leave : Nat → Leave) (s : Store) :
    Follows copies leave s s where
  nextID := le_rfl
  job h h' := by
    rw [h] at h'
    rw [Option.some.inj h']
    exact .refl _ _
  oldJob h _ := ⟨_, h⟩
  newJob h hn := by
    rw [h] at hn
    cases hn
  root h hn := by
    rw [h] at hn
    cases hn
  keepsJob h _ := ⟨_, h⟩
  attempt h h' := by
    rw [h] at h'
    rw [Option.some.inj h']
    exact .refl _
  oldAttempt h _ := ⟨_, h⟩
  keepsAttempt h _ _ := ⟨_, h⟩
  holds _ _ _ _ h := h
  tombstone h := ⟨_, h, .refl _⟩
  gone h hn := by
    rw [h] at hn
    cases hn
  computer h h' := by
    rw [h] at h'
    rw [Option.some.inj h']
    exact .refl _
  oldComputer h _ := ⟨_, h⟩

/-- A row of the first and of the last store has one between, since identifiers are not given
twice. -/
theorem Follows.trans {copies : Prop} {leave : Nat → Leave} {a b c : Store} (hfresh : Fresh a)
    (h : Follows copies leave a b) (h' : Follows copies leave b c) :
    Follows copies leave a c where
  nextID := h.nextID.trans h'.nextID
  job ha hc := by
    obtain ⟨jobb, hb⟩ := h'.oldJob hc (lt_of_lt_of_le (hfresh.jobs ha) h.nextID)
    exact (h.job ha hb).trans (h'.job hb hc)
  oldJob hc hid := by
    obtain ⟨jobb, hb⟩ := h'.oldJob hc (lt_of_lt_of_le hid h.nextID)
    exact h.oldJob hb hid
  newJob {id jobc} hc ha hn removal hrem hprov := by
    cases hb : b.jobs.find id with
    | none => exact h'.newJob hc hb hn removal hrem hprov
    | some jobb =>
      obtain ⟨removal', hrem', hprov'⟩ :=
        (h'.job hb hc).removal.proved hn removal hrem hprov
      exact h.newJob hb ha hn removal' hrem' hprov'
  root {id jobc} hc ha hn := by
    cases hb : b.jobs.find id with
    | none => exact h'.root hc hb hn
    | some jobb =>
      exact (congrArg Origin.parentJobID (h'.job hb hc).origin_eq).trans (h.root hb ha hn)
  keepsJob ha hs := by
    obtain ⟨jobb, hb⟩ := h.keepsJob ha hs
    exact h'.keepsJob hb (service_none_of_origin (h.job ha hb).origin_eq hs)
  attempt ha hc := by
    obtain ⟨attemptb, hb⟩ := h'.oldAttempt hc (.inl (lt_of_lt_of_le (hfresh.attempts ha) h.nextID))
    exact (h.attempt ha hb).trans (h'.attempt hb hc)
  oldAttempt hc hid := by
    obtain ⟨attemptb, hb⟩ := h'.oldAttempt hc (hid.imp_left fun hlt => lt_of_lt_of_le hlt h.nextID)
    rw [(h'.attempt hb hc).jobID_eq] at hid
    exact h.oldAttempt hb hid
  keepsAttempt ha hjob hs := by
    obtain ⟨attemptb, hb⟩ := h.keepsAttempt ha hjob hs
    obtain ⟨jobb, hjobb⟩ := h.keepsJob hjob hs
    refine h'.keepsAttempt hb ?_ (service_none_of_origin (h.job hjob hjobb).origin_eq hs)
    rw [(h.attempt ha hb).jobID_eq]
    exact hjobb
  holds hn _ _ _ hheld := h'.holds hn (h.holds hn hheld)
  tombstone ha := by
    obtain ⟨tb, hb, hstd⟩ := h.tombstone ha
    obtain ⟨tc, hc, hstd'⟩ := h'.tombstone hb
    exact ⟨tc, hc, hstd.trans hstd'⟩
  gone {id joba} ha hnone hrem := by
    cases hb : b.jobs.find id with
    | none =>
      obtain ⟨tb, htb, hbur⟩ := h.gone ha hb hrem
      obtain ⟨tc, htc, hstd⟩ := h'.tombstone htb
      exact ⟨tc, htc, hbur.of_stands hstd⟩
    | some jobb =>
      have hfol := h.job ha hb
      obtain ⟨removal, hr⟩ := Option.isSome_iff_exists.mp hrem
      obtain ⟨removal', hr', -⟩ := hfol.removal.kept removal hr
      obtain ⟨tc, htc, hbur⟩ := h'.gone hb hnone (Option.isSome_iff_exists.mpr ⟨_, hr'⟩)
      exact ⟨tc, htc, hbur.of_follows hfol⟩
  computer ha hc := by
    obtain ⟨computerb, hb⟩ :=
      h'.oldComputer hc (lt_of_lt_of_le (hfresh.computers ha).1 h.nextID)
    exact (h.computer ha hb).trans (h'.computer hb hc)
  oldComputer hc hid := by
    obtain ⟨computerb, hb⟩ := h'.oldComputer hc (lt_of_lt_of_le hid h.nextID)
    exact h.oldComputer hb hid

theorem Follows.mono {copies : Prop} {leave leave' : Nat → Leave} {s s' : Store}
    (h : Follows copies leave s s') (hwith : ∀ id, (leave id).Within (leave' id)) :
    Follows copies leave' s s' where
  nextID := h.nextID
  job hs hs' := (h.job hs hs').mono (hwith _)
  oldJob := h.oldJob
  newJob hs' hs hn := h.newJob hs' hs fun ha => hn ((hwith _).acknowledge ha)
  root hs' hs hn := h.root hs' hs fun ha => hn ((hwith _).spawn ha)
  keepsJob := h.keepsJob
  attempt := h.attempt
  oldAttempt hs' hold := h.oldAttempt hs' (hold.imp_right fun hn hc => hn ((hwith _).claim hc))
  keepsAttempt := h.keepsAttempt
  holds := h.holds
  tombstone := h.tombstone
  gone hs hn hrem := by
    obtain ⟨t, ht, hbur⟩ := h.gone hs hn hrem
    exact ⟨t, ht, hbur.mono (hwith _)⟩
  computer := h.computer
  oldComputer := h.oldComputer

section
variable {copies : Prop} {leave : Nat → Leave} {s s' s'' : Store}

theorem Onward.refl (h : Inv copies s) : Onward copies leave s s := ⟨h, .refl copies leave s⟩

/-- The invariants and what follows go along any two steps. -/
theorem Onward.trans (hinv : Inv copies s) (h : Onward copies leave s s')
    (h' : Onward copies leave s' s'') : Onward copies leave s s'' :=
  ⟨h'.inv, h.follows.trans hinv.fresh h'.follows⟩

theorem Onward.mono {leave' : Nat → Leave} (h : Onward copies leave s s')
    (hwith : ∀ id, (leave id).Within (leave' id)) : Onward copies leave' s s' :=
  ⟨h.inv, h.follows.mono hwith⟩

theorem Onward.weaken (h : Onward copies noLeave s s') : Onward copies leave s s' :=
  h.mono fun _ => ⟨False.elim, False.elim, False.elim, False.elim⟩

end

end Wefty.StoreRules
