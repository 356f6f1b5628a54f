/-
The transactions on Computers keep the invariant of the store, and what they commit follows the
store they found.

Each of them moves the Job of the Computer, the Computer's own row, or both. A Computer that keeps
its Storage generations as they are is `Retouched`; where generations are staged, published or
retired, what has to be shown is that their numbers stay apart and that no second one becomes
current. The guards carry it: a publication first retires the generation the Computer names, and a
Computer that is being filled has no current generation at all.
-/
import Wefty.StoreSteps

set_option autoImplicit false

namespace Wefty.ComputerSteps

open Tables Rows StoreRows AttemptClock Transactions AttemptAuthority AttemptRules ControlStore
open Services Computers Operations StoreRules StoreWrites ComputerWrites StoreSteps

variable {computer computer' : Computer} {job job' : Job} {phase : ReconfigurationPhase}
variable {f : StorageGeneration → StorageGeneration}

section
variable {copies : Prop} {s : Store} {ctx : Ctx} {computerID : Nat} {precondition : Precondition}
variable {admission : Check}

/-! ## 1. Reading a Computer -/

structure Reads (s : Store) (computer : Computer) (job : Job) : Prop where
  computer_find : s.computers.find computer.computerID = some computer
  job_find : s.jobs.find job.jobID = some job
  jobID_eq : job.jobID = computer.currentJobID

theorem of_readComputerAuthority (h : readComputerAuthority s computerID = some (computer, job)) :
    Reads s computer job ∧ computer.computerID = computerID := by
  unfold readComputerAuthority at h
  obtain ⟨found, hcomp, h⟩ := Option.bind_eq_some_iff.mp h
  obtain ⟨row, hjob, h⟩ := Option.bind_eq_some_iff.mp h
  cases h
  have hid : computer.computerID = computerID := Table.key_of_find hcomp
  refine ⟨⟨?_, find_self hjob, Table.key_of_find hjob⟩, hid⟩
  rw [hid]
  exact hcomp

/-- A transaction that begins with a Computer and its Job. -/
theorem reading {α : Type} {P : Store → Prop} {Q : α → Prop}
    {err : ProtocolError} {k : Computer × Job → StoreTx α}
    (h : ∀ {computer job}, Reads s computer job → computer.computerID = computerID →
      Ensures P Q (k (computer, job))) :
    Ensures P Q (orRefuse (readComputerAuthority s computerID) err >>= k) :=
  .orRefuse fun _ hread => (of_readComputerAuthority hread).elim h

theorem Reads.placed (h : Reads s computer job) (hinv : Inv copies s) : Placed computer job :=
  hinv.layout.placed h.computer_find (by rw [← h.jobID_eq]; exact h.job_find)

theorem Reads.service (h : Reads s computer job) (hinv : Inv copies s) : job.service.isSome :=
  (hinv.sound h.job_find).computer (by rw [(h.placed hinv).projected]; rfl)

/-! ## 2. The Computer's row -/

structure Retouched (computer computer' : Computer) : Prop where
  computerID_eq : computer'.computerID = computer.computerID
  currentJobID_eq : computer'.currentJobID = computer.currentJobID
  revision : computer.intentRevision ≤ computer'.intentRevision
  generations_eq : computer'.generations = computer.generations
  storage_eq : computer'.storageGeneration = computer.storageGeneration

theorem Retouched.follows (h : Retouched computer computer') : ComputerFollows computer computer' :=
  ⟨h.currentJobID_eq, h.revision, fun g hg =>
    ⟨g, by rw [h.generations_eq]; exact hg, rfl, ages_refl g.phase⟩⟩

theorem Retouched.stored (h : Retouched computer computer')
    (hph : computer'.phase = computer.phase ∨ copying computer'.phase = false ∨
      computer'.phase = .restoring) (hstore : Stored computer) : Stored computer' where
  numbers := by rw [h.generations_eq]; exact hstore.numbers
  current := by rw [h.generations_eq, h.storage_eq]; exact hstore.current
  unfilled hfill := by
    rw [h.generations_eq, h.storage_eq]
    rcases hph with heq | hidle | hrest
    · exact hstore.unfilled (by rwa [heq] at hfill)
    · rcases hfill with hc | hc <;> rw [hc] at hidle <;> cases hidle
    · rcases hfill with hc | hc <;> rw [hc] at hrest <;> cases hrest

/-- What the phase of a Computer may become without a word about its Job: it may stop being filled
or stop being in any operation, and it may be removed. -/
theorem placed_of_phase (h : Placed computer job) (hid : computer'.computerID = computer.computerID)
    (hremg : computer'.phase ≠ .removing → computer.phase ≠ .removing)
    (hph : computer'.phase = computer.phase ∨ copying computer'.phase = false ∨
      computer'.phase = .restoring) : Placed computer' job where
  projected := h.projected.trans (congrArg some hid.symm)
  removal hne := h.removal (hremg hne)
  waiting hfill := by
    rcases hph with heq | hidle | hrest
    · exact h.waiting (by rwa [heq] at hfill)
    · rcases hfill with hc | hc <;> rw [hc] at hidle <;> cases hidle
    · rcases hfill with hc | hc <;> rw [hc] at hrest <;> cases hrest

variable {copy : StorageCopy}

theorem linked_of_phase (h : Linked copy computer)
    (hjob : computer'.currentJobID = computer.currentJobID)
    (hrev : computer.intentRevision ≤ computer'.intentRevision)
    (hph : computer.intentRevision < computer'.intentRevision ∨ computer'.phase = computer.phase ∨
      copying computer'.phase = false) : Linked copy computer' := by
  rcases hph with hlt | heq | hidle
  · exact linked_of_lt h hlt
  · have hsame : copy.operationRevision = computer'.intentRevision →
        copy.operationRevision = computer.intentRevision := by
      have := h.revision
      omega
    refine ⟨h.revision.trans hrev, fun hcopy hcopying => ?_, fun hcopy hrest => ?_⟩
    · rw [hjob]
      exact h.job (hsame hcopy) (by rwa [heq] at hcopying)
    · exact h.restored (hsame hcopy) (heq.symm.trans hrest)
  · exact linked_of_idle h hrev hidle

/-- A Computer that may leave its phase: it is neither being removed nor being imported. -/
def Free (computer : Computer) : Prop := computer.phase ≠ .removing ∧ computer.phase ≠ .importing

theorem free_of_phase (hph : computer.phase = phase)
    (h : phase ≠ .removing ∧ phase ≠ .importing) : Free computer := by
  unfold Free
  rw [hph]
  exact h

/-- **A Computer is put back** with the generations it had: it goes to a phase it may go to, or its
operation goes on. -/
theorem onward_retouch (hinv : Inv copies s)
    (hfind : s.computers.find computer.computerID = some computer)
    (h : Retouched computer computer')
    (hfrom : computer'.phase = computer.phase ∧ computer'.intentRevision = computer.intentRevision ∨
      Free computer) (hph : computer'.phase = computer.phase ∨ copying computer'.phase = false) :
    Onward copies noLeave s (s.setComputer computer') := by
  have hremg : computer'.phase ≠ .removing → computer.phase ≠ .removing := by
    rcases hfrom with hsame | hfree
    · rw [hsame.1]
      exact id
    · exact fun _ => hfree.1
  refine onward_setComputer hinv hfind h.computerID_eq h.follows (h.stored (hph.imp_right .inl))
    (fun _ hplace => placed_of_phase hplace h.computerID_eq hremg (hph.imp_right .inl))
    (fun _ _ hlink => linked_of_phase hlink h.currentJobID_eq h.revision (.inr hph))
    (fun _ _ _ _ hrun => ?_)
  rcases hfrom with hsame | hfree
  · exact ⟨hsame.1.trans hrun.phase, hrun.job.trans h.currentJobID_eq.symm,
      hrun.revision.trans hsame.2.symm⟩
  · exact importing_of_ne hfree.2 hrun

/-! ## 3. The Job of a Computer -/

theorem steers_detach (cause : DetachCause) (hsvc : job.service.isSome)
    (hidle : job.state.holding = false) : Steers job (detachAttempt cause job) := by
  have hbnd : job.state.holding → (detachAttempt cause job).state.holding ∧
      (detachAttempt cause job).currentAttemptID = job.currentAttemptID := fun hhold => by
    rw [hidle] at hhold
    cases hhold
  cases cause <;> exact ⟨hsvc, rfl, rfl, rfl, rfl, rfl, id, id, hbnd⟩

variable {desired : DesiredState}

theorem computerDesiredJob_steers {now : Int}
    (hsvc : job.service.isSome) (h : computerDesiredJob now desired job = .ok job') :
    Steers job job' := by
  unfold computerDesiredJob at h
  split at h
  · split at h
    next hst =>
      obtain ⟨moved, hmvd, h⟩ := ok_of_bind h
      cases h
      exact (steers_transition hmvd (by rw [hst]; rfl)).updateService _
    · cases h
      exact (Steers.refl hsvc).updateService _
  · split at h
    next hst =>
      obtain ⟨moved, hmvd, h⟩ := ok_of_bind h
      cases h
      cases hstop : transitionServiceJob now .stopped .stopped job with
      | error err =>
        rw [hstop] at hmvd
        cases hmvd
      | ok stopped =>
        rw [hstop] at hmvd
        cases hmvd
        have hsteer := steers_transition hstop (by rw [hst]; rfl)
        obtain ⟨-, -, service, rfl⟩ := transitionServiceJob_ok hstop
        exact (hsteer.trans (steers_detach _ rfl rfl)).updateService _
    next hst =>
      obtain ⟨moved, hmvd, h⟩ := ok_of_bind h
      cases h
      exact (steers_transition hmvd (by rw [hst]; rfl)).updateService _
    next hst =>
      obtain ⟨moved, hmvd, h⟩ := ok_of_bind h
      cases h
      exact (steers_transition hmvd (by rw [hst]; rfl)).updateService _
    · cases h
      exact ((Steers.refl hsvc).updateService _).updateService _
    · cases h
      exact (Steers.refl hsvc).updateService _
  · cases h
    exact (Steers.refl hsvc).updateService _

variable {request : ServiceRestartRequest}

theorem restartedComputerJob_steers {now createdNS : Int} (hsvc : job.service.isSome)
    (hst : activeRestart computer job = false → job.state.holding = false)
    (h : restartedComputerJob now createdNS computer request job = .ok job') : Steers job job' := by
  unfold restartedComputerJob at h
  split at h
  next hactv =>
    cases h
    simp only [activeRestart, Bool.and_eq_true, Bool.or_eq_true, decide_eq_true_eq] at hactv
    have hstopping : Steers job { job with state := .stopping, updatedNS := now } := by
      refine ⟨hsvc, rfl, rfl, rfl, rfl, rfl, ?_, ?_, fun _ => ⟨rfl, rfl⟩⟩
      · intro hremg
        rcases hactv.1 with hs | hs <;> rw [hs] at hremg <;> cases hremg
      · intro _
        rcases hactv.1 with hs | hs <;> rw [hs] <;> rfl
    exact hstopping.updateService _
  next hidle =>
    obtain ⟨moved, hmvd, h⟩ := ok_of_bind h
    cases h
    exact (steers_transition hmvd (hst (by simpa using hidle)).symm).updateService _

theorem computerRestartDecision_free (h : computerRestartDecision s computer job = .ok ())
    : Free computer := by
  unfold computerRestartDecision at h
  simp only [throw_eq_ok_iff, not_not, ne_eq] at h
  exact free_of_phase h.2.1 (by decide)

/-- The state of a Computer that may restart without a live attempt. -/
theorem computerRestartDecision_idle (h : computerRestartDecision s computer job = .ok ())
    (hactv : activeRestart computer job = false) : job.state.holding = false := by
  unfold computerRestartDecision at h
  simp only [throw_eq_ok_iff] at h
  obtain ⟨_, -, h⟩ := ok_of_bind h.2.2
  have hst := (throw_eq_ok_iff.mp h).1
  rw [hactv] at hst
  simp only [Bool.false_eq_true, not_false_iff, and_true, not_and, not_not, ne_eq] at hst
  by_cases hs : job.state = .stopped
  · rw [hs]; rfl
  · rw [hst hs]; rfl

theorem onward_steerComputer (hinv : Inv copies s) (hreads : Reads s computer job)
    (hsteer : Steers job job') (hretc : Retouched computer computer') (hfree : Free computer)
    (hph : computer'.phase = computer.phase ∨ copying computer'.phase = false) :
    Onward copies noLeave s ((s.setJob job').setComputer computer') := by
  have hjob := onward_steer hinv hreads.job_find hsteer
  exact hjob.trans hinv
    (onward_retouch hjob.inv hreads.computer_find hretc (.inr hfree) hph)

theorem computerDesiredDecision_free {wins : Bool}
    (h : computerDesiredDecision computer job desired = .ok wins) : Free computer := by
  unfold computerDesiredDecision at h
  simp only [throw_eq_ok_iff] at h
  by_cases hstab : computer.phase = .stable
  · exact free_of_phase hstab (by decide)
  -- Outside of the stable phase only a stop during a Backup is accepted.
  have hbackup : computer.phase = .backingUp := by
    by_contra hne
    exact h.2.1 ⟨hstab, by simp [hne]⟩
  exact free_of_phase hbackup (by decide)

theorem setComputerDesiredState_keeps (hinv : Inv copies s) :
    Keeps copies s (setComputerDesiredState ctx computerID desired precondition s) := by
  unfold setComputerDesiredState
  refine .refuseIf fun _ => reading fun hreads _ => .check fun _ _ => .check fun _ hdec =>
    .answerIf fun _ => .check fun _ _ => .check fun written hwrit => .pure ?_
  exact onward_steerComputer hinv hreads
    (computerDesiredJob_steers (hreads.service hinv) hwrit)
    ⟨rfl, rfl, Nat.le_succ _, rfl, rfl⟩ (computerDesiredDecision_free hdec) (.inl rfl)

theorem restartComputer_keeps (hinv : Inv copies s) :
    Keeps copies s (restartComputer ctx computerID request precondition s) := by
  unfold restartComputer
  refine reading fun hreads _ => .refuseIf fun _ => .answerIf fun _ => .check fun _ _ =>
    .check fun _ hdec => .check fun createdNS _ => .check fun written hwrit => .pure ?_
  exact onward_steerComputer hinv hreads
    (restartedComputerJob_steers (hreads.service hinv) (computerRestartDecision_idle hdec)
      hwrit) ⟨rfl, rfl, Nat.le_succ _, rfl, rfl⟩ (computerRestartDecision_free hdec)
    (.inl rfl)

/-! ## 4. Removal -/

theorem onward_removedComputer (hinv : Inv copies s) (ctx : Ctx) (hreads : Reads s computer job)
    (hretc : Retouched computer computer') (hfree : Free computer)
    (hph : computer'.phase = .removing) (binding : Option (Nat × Nat)) (cleanupFence : Nat)
    {p : Attempt → Bool} (hp : ∀ {id attempt}, s.attempts.find id = some attempt →
      attempt.jobID = job.jobID → attempt.state.active → p attempt) :
    Onward copies noLeave s (((s.setComputer computer').invalidateAttempts ctx p).setJob
      (removedComputerJob ctx.now cleanupFence binding job)) := by
  have hremg := onward_retouch hinv hreads.computer_find hretc (.inr hfree)
    (.inr (by rw [hph]; rfl))
  have hsvc := hreads.service hinv
  have hnone := (hreads.placed hinv).removal hfree.1
  refine hremg.trans hinv (onward_release hremg.inv ctx hreads.job_find ?_ hp)
  unfold removedComputerJob
  cases binding with
  | none =>
    refine moves_service hsvc ⟨?_, Nat.le_succ _, rfl, rfl⟩ (by rintro ⟨⟩)
      (.of_eq rfl fun _ _ => rfl)
    simp only [origin, Job.updateService, Job.computerForJob, Option.isSome_map]
  | some bound =>
    refine moves_service hsvc ⟨?_, Nat.le_succ _, rfl, rfl⟩ (by rintro ⟨⟩)
      (removalMoves_of_request hnone rfl rfl rfl rfl ?_)
    · simp only [origin, Job.updateService, Job.computerForJob, Option.isSome_map]
    -- The only Computer with this Job is the one that was just marked.
    intro k other hoth hcur
    have hplace := hremg.inv.layout.placed hoth (by rw [hcur]; exact hreads.job_find)
    have hid : computer.computerID = other.computerID :=
      Option.some.inj ((hreads.placed hinv).projected.symm.trans hplace.projected)
    have hfind := find_setComputer hreads.computer_find hretc.computerID_eq
    have hself : (s.setComputer computer').computers.find other.computerID = some other := by
      rw [Table.key_of_find hoth]
      exact hoth
    rw [← hid, hfind] at hself
    cases hself
    exact hph

theorem removeComputer_keeps (hinv : Inv copies s) {request : RemoveComputer} :
    Keeps copies s (removeComputer ctx computerID request s) := by
  unfold removeComputer
  refine reading fun {computer job} hreads hid => .check fun _ _ => .answerIf fun _ =>
    .check fun _ _ => .answerIf fun _ => .refuseIf fun hph => .check fun binding _ => .pure ?_
  have hmark := onward_markCopies hinv (supersededByRemoval computer)
    (show CopyStatus.superseded ≠ .reserved by decide)
  have hfree : Free computer := by
    have hremb := not_not.mp hph
    simp only [removablePhase, Bool.and_eq_true, decide_eq_true_eq] at hremb
    exact ⟨hremb.2, hremb.1⟩
  have hpicked : ∀ {id attempt}, s.attempts.find id = some attempt → attempt.jobID = job.jobID →
      attempt.state.active →
      (s.jobs.find attempt.jobID).any fun j => j.computerForJob = some computerID := by
    intro id attempt _ hjobID _
    rw [hjobID, hreads.job_find, Option.any_some, (hreads.placed hinv).projected, hid]
    exact decide_eq_true rfl
  have hreads' : Reads (markCopies s (supersededByRemoval computer) .superseded) computer job :=
    ⟨hreads.computer_find, hreads.job_find, hreads.jobID_eq⟩
  have hretc : Retouched computer { computer with
      resets := supersedeResets (fun _ => computer.phase = .resetting) computer.resets
      grows := supersedeGrows (fun _ => computer.phase = .growing) computer.grows
      desiredState := .removed
      intentRevision := computer.intentRevision + 1
      phase := .removing
      reconfigurationRevision := some (computer.intentRevision + 1) } :=
    ⟨rfl, rfl, Nat.le_succ _, rfl, rfl⟩
  have hremd := onward_removedComputer hmark.inv ctx hreads' hretc hfree rfl binding
    s.nextID
    (p := fun (a : Attempt) =>
      (s.jobs.find a.jobID).any fun (j : Job) => j.computerForJob = some computerID) hpicked
  exact (hmark.trans hinv hremd).trans hinv (onward_nextID hremd.inv (Nat.le_succ _))

/-! ## 5. Storage generations -/

theorem follows_of_map (hjob : computer'.currentJobID = computer.currentJobID)
    (hrev : computer.intentRevision ≤ computer'.intentRevision)
    (hgens : computer'.generations = computer.generations.map f) (hf : ∀ g ∈ computer.generations,
      (f g).storageGeneration = g.storageGeneration ∧ ages g.phase (f g).phase) :
    ComputerFollows computer computer' :=
  ⟨hjob, hrev, fun g hg =>
    ⟨f g, by rw [hgens]; exact List.mem_map_of_mem hg, hf g hg⟩⟩

variable {generations : List StorageGeneration}

theorem numbers_of_map (hf : ∀ g ∈ generations, (f g).storageGeneration = g.storageGeneration) :
    (generations.map f).map StorageGeneration.storageGeneration =
      generations.map StorageGeneration.storageGeneration := by
  rw [List.map_map]
  exact List.map_congr_left hf

theorem stored_of_retire (hgens : computer'.generations = computer.generations.map f)
    (hstor : computer'.storageGeneration = computer.storageGeneration)
    (hf : ∀ g ∈ computer.generations, (f g).storageGeneration = g.storageGeneration ∧
      ((f g).phase = .current → g.phase = .current)) (hph : copying computer'.phase = false)
    (h : Stored computer) : Stored computer' where
  numbers := by
    rw [hgens, numbers_of_map fun g hg => (hf g hg).1]
    exact h.numbers
  current g' hg' hcur := by
    rw [hgens] at hg'
    obtain ⟨g, hg, rfl⟩ := List.mem_map.mp hg'
    rw [(hf g hg).1, hstor]
    exact h.current g hg ((hf g hg).2 hcur)
  unfilled hfill := by
    rcases hfill with hc | hc <;> rw [hc] at hph <;> cases hph

variable {p : StorageGeneration → Bool}

theorem setGeneration_ok {phase : GenerationPhase} {action : String}
    {generations' : List StorageGeneration}
    (h : setGeneration p phase action generations = .ok generations') :
    generations' = generations.map fun g => if p g then { g with phase := phase } else g := by
  unfold setGeneration at h
  split at h
  · cases h
    rfl
  · cases h

theorem setGeneration_row (p : StorageGeneration → Bool) {phase : GenerationPhase}
    {g : StorageGeneration} (hp : p g → ages g.phase phase) :
    (if p g then { g with phase := phase } else g).storageGeneration = g.storageGeneration ∧
      ages g.phase (if p g then { g with phase := phase } else g).phase := by
  split
  next h => exact ⟨rfl, hp h⟩
  · exact ⟨rfl, ages_refl g.phase⟩

theorem stored_of_publish {retired : List StorageGeneration} (hgens : computer'.generations =
      retired.map fun g => if p g then { g with phase := .current } else g)
    (hnums : (retired.map StorageGeneration.storageGeneration).Nodup)
    (hretd : ∀ g ∈ retired, g.phase ≠ .current)
    (hp : ∀ g ∈ retired, p g → g.storageGeneration = computer'.storageGeneration)
    (hph : computer'.phase ≠ .cloning ∧ computer'.phase ≠ .importing) : Stored computer' where
  numbers := by
    rw [hgens, numbers_of_map fun g _ => by split <;> rfl]
    exact hnums
  current g' hg' hcur := by
    rw [hgens] at hg'
    obtain ⟨g, hg, rfl⟩ := List.mem_map.mp hg'
    split at hcur
    next hpg =>
      rw [if_pos hpg]
      exact hp g hg hpg
    · exact absurd hcur (hretd g hg)
  unfilled hfill := by
    rcases hfill with hc | hc
    · exact absurd hc hph.1
    · exact absurd hc hph.2

theorem retired_of_named (h : Stored computer) {q : StorageGeneration → Bool}
    (hq : ∀ g ∈ computer.generations, g.phase = .current →
      g.storageGeneration = computer.storageGeneration → q g) :
    ∀ g ∈ computer.generations.map fun g => if q g then { g with phase := .retired } else g,
      g.phase ≠ .current := by
  intro g' hg' hcur
  obtain ⟨g, hg, rfl⟩ := List.mem_map.mp hg'
  split at hcur
  · cases hcur
  next hnot => exact hnot (hq g hg hcur (h.current g hg hcur))

variable {staged : StorageGeneration}

theorem stored_of_stage (hgens : computer'.generations = computer.generations ++ [staged])
    (hstor : computer'.storageGeneration = computer.storageGeneration)
    (hstage : staged.phase = .staging)
    (hfree : stagingTaken computer.generations staged.storageGeneration = false)
    (hph : computer'.phase ≠ .cloning ∧ computer'.phase ≠ .importing) (h : Stored computer) :
    Stored computer' where
  numbers := by
    rw [hgens, List.map_append, List.map_singleton, List.nodup_append]
    refine ⟨h.numbers, List.nodup_singleton _, fun n hn m hm heq => ?_⟩
    rw [List.mem_singleton.mp hm] at heq
    obtain ⟨g, hg, rfl⟩ := List.mem_map.mp hn
    have hoth := List.any_eq_false.mp hfree g hg
    simp [heq] at hoth
  current g hg hcur := by
    rw [hgens, List.mem_append, List.mem_singleton] at hg
    rw [hstor]
    rcases hg with hg | rfl
    · exact h.current g hg hcur
    · rw [hstage] at hcur
      cases hcur
  unfilled hfill := by
    rcases hfill with hc | hc
    · exact absurd hc hph.1
    · exact absurd hc hph.2

theorem follows_of_stage (hjob : computer'.currentJobID = computer.currentJobID)
    (hrev : computer.intentRevision ≤ computer'.intentRevision)
    (hgens : computer'.generations = computer.generations ++ [staged]) :
    ComputerFollows computer computer' :=
  ⟨hjob, hrev, fun g hg =>
    ⟨g, by rw [hgens]; exact List.mem_append_left _ hg, rfl, ages_refl g.phase⟩⟩

/-! ## 6. Other phases, and abort -/

theorem otherPhase_idle (h : otherPhase phase) :
    copying phase = false ∧ phase ≠ .removing ∧ phase ≠ .importing := by
  revert h
  cases phase <;> decide

theorem beginReconfiguration_keeps (hinv : Inv copies s) :
    Keeps copies s (beginReconfiguration computerID phase precondition admission s) := by
  unfold beginReconfiguration
  refine reading fun hreads _ => .refuseIf fun hoth => .check fun _ _ => .refuseIf fun _ =>
    .refuseIf fun hstab => .check fun _ _ => .pure ?_
  obtain ⟨hidle, -⟩ := otherPhase_idle (not_not.mp hoth)
  exact onward_retouch hinv hreads.computer_find ⟨rfl, rfl, Nat.le_succ _, rfl, rfl⟩
    (.inr (free_of_phase (not_not.mp hstab) (by decide))) (.inr hidle)

theorem finishReconfiguration_keeps (hinv : Inv copies s) :
    Keeps copies s (finishReconfiguration computerID admission s) := by
  unfold finishReconfiguration
  refine reading fun hreads _ => .refuseIf fun hoth => .check fun _ _ => .pure ?_
  exact onward_retouch hinv hreads.computer_find ⟨rfl, rfl, le_rfl, rfl, rfl⟩
    (.inr (otherPhase_idle (not_not.mp hoth)).2) (.inr rfl)

variable {operationNode : Option Nat}

theorem computerAbortDecision_ok {nodeID : Nat}
    (h : computerAbortDecision s computer job operationNode = .ok nodeID) :
    abortable computer.phase := by
  unfold computerAbortDecision at h
  simp only [throw_eq_ok_iff, not_not] at h
  exact h.2.1

theorem abortable_ne_removing (h : abortable phase) : phase ≠ .removing := by
  revert h
  cases phase <;> decide

def abortedGeneration (computer : Computer) (g : StorageGeneration) : StorageGeneration :=
  if (computer.phase = .resetting ∨ computer.phase = .importing) ∧
      g.resetRevision = some computer.intentRevision ∧ g.phase = .staging then
    { g with phase := .retired }
  else g

theorem abortedGenerations_eq (computer : Computer) :
    abortedGenerations computer = computer.generations.map (abortedGeneration computer) := by
  unfold abortedGenerations
  split
  next h =>
    apply List.map_congr_left
    intro g _
    simp only [abortedGeneration, h, true_and]
  next h =>
    conv_lhs => rw [← List.map_id computer.generations]
    apply List.map_congr_left
    intro g _
    simp only [abortedGeneration, h, false_and, if_false, id]

theorem abortedGeneration_row (computer : Computer) (g : StorageGeneration) :
    (abortedGeneration computer g).storageGeneration = g.storageGeneration ∧
      ages g.phase (abortedGeneration computer g).phase ∧
      ((abortedGeneration computer g).phase = .current → g.phase = .current) := by
  unfold abortedGeneration
  split
  next h =>
    refine ⟨rfl, ?_, nofun⟩
    rw [h.2.2]
    rfl
  · exact ⟨rfl, ages_refl g.phase, id⟩

theorem moves_abortedJob (ctx : Ctx) (nodeID : Nat) (hsvc : job.service.isSome)
    (hrem : job.removal = none) : Moves .none s job (abortedJob ctx.now nodeID job) := by
  refine moves_service hsvc ⟨origin_updateService, le_rfl, rfl, rfl⟩ nofun
    (.of_eq rfl fun _ hr => ?_)
  · rw [hrem] at hr
    cases hr

theorem not_reserved_of_abort {k : Nat × Nat}
    (hcopy : (markCopies s (supersededByAbort computer) .superseded).copies.find k = some copy)
    (hdest : copy.destinationComputerID = computer.computerID)
    (himp : copy.operation = .custodyImport) (hrun : Importing copy computer) :
    copy.status ≠ .reserved := by
  intro hres
  obtain ⟨old, -, rfl⟩ :=
    Option.map_eq_some_iff.mp ((find_markCopies (supersededByAbort computer)
      .superseded k).symm.trans hcopy)
  by_cases hp : supersededByAbort computer old
  · rw [if_pos hp] at hres
    cases hres
  · rw [if_neg hp] at hdest himp hrun hres
    refine hp ?_
    simp [supersededByAbort, hdest, himp, hres, hrun.phase, hrun.revision]

theorem abortComputerReconfiguration_keeps (hinv : Inv copies s) {request : Abort} :
    Keeps copies s
      (abortComputerReconfiguration ctx computerID request precondition operationNode s) := by
  unfold abortComputerReconfiguration
  refine reading fun {computer job} hreads _ => .refuseIf fun _ => ?_
  split
  · exact .pure (.refl hinv)
  refine .check fun _ _ => .check fun nodeID hdec => .pure ?_
  have hph := abortable_ne_removing (computerAbortDecision_ok hdec)
  have hmark := onward_markCopies hinv (supersededByAbort computer)
    (show CopyStatus.superseded ≠ .reserved by decide)
  have hreleased := hmark.trans hinv (onward_release hmark.inv ctx
    (p := fun a => a.jobID = computer.currentJobID) hreads.job_find
    (moves_abortedJob ctx nodeID (hreads.service hinv)
      ((hreads.placed hinv).removal hph)) fun _ hjobID _ => by
        rw [hjobID, hreads.jobID_eq, decide_eq_true_eq])
  refine hreleased.trans hinv (onward_setComputer hreleased.inv hreads.computer_find rfl
    (follows_of_map rfl (Nat.le_succ _) (abortedGenerations_eq computer) fun g _ =>
      ⟨(abortedGeneration_row computer g).1, (abortedGeneration_row computer g).2.1⟩)
    (stored_of_retire (abortedGenerations_eq computer) rfl (fun g _ =>
      ⟨(abortedGeneration_row computer g).1, (abortedGeneration_row computer g).2.2⟩) rfl)
    (fun _ hplace => placed_of_phase hplace rfl (fun _ => hph) (.inr (.inl rfl)))
    (fun _ _ hlink => linked_of_lt hlink (Nat.lt_succ_self _))
    (fun hcopy hdest himp hres hrun =>
      absurd hres (not_reserved_of_abort hcopy hdest himp hrun)))

end

end Wefty.ComputerSteps
