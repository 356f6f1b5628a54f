/-
The transactions that create a Computer or change its Storage keep the invariant of the store:
creation, clone and Custody import with their Jobs, restore, reset and growth, from the reservation
to the retirement of what was replaced.

A copy settles the Job it names. That this is the Job of its Computer is what `Linked` says of the
copy that owns the running operation, and that nothing holds the Job is either checked or, for a
Computer that is being filled, part of `Placed`.
-/
import Wefty.ComputerSteps

set_option autoImplicit false

namespace Wefty.StorageSteps

open Tables Rows StoreRows AttemptClock Transactions AttemptAuthority AttemptRules ControlStore
open Services Computers StorageCopies StorageResets Operations StoreRules StoreWrites ComputerWrites
open StoreSteps ComputerSteps

variable {computer : Computer} {now : Int} {job job' : Job} {k : Nat × Nat} {copy : StorageCopy}
variable {g : StorageGeneration}

section
variable {copies : Prop} {s : Store}

/-! ## 1. Rows and checks -/

theorem computerJob_sound (now : Int) (jobID computerID : Nat) (spec : JobSpec) (requestHash : Nat)
    (state : JobState) (desired : DesiredState) (boundNodeID : Option Nat) :
    Sound (computerJob now jobID computerID spec requestHash state desired boundNodeID) where
  kind h := by cases h
  computer _ := rfl
  removal h := by cases h
  verified _ h := by cases h
  canceled h := by cases h
  scheduled h := by cases h
  restarts := Nat.zero_le _
  claims h := by cases h

/-- A Computer that is to be filled has one generation, and it is staged. -/
theorem reservedComputer_stored (computerID jobID name nodeID : Nat) (diskBytes : Int)
    (phase : ReconfigurationPhase) :
    Stored (reservedComputer computerID jobID name nodeID diskBytes phase) where
  numbers := List.nodup_singleton _
  current g hg hcur := by
    rw [List.mem_singleton.mp hg] at hcur
    cases hcur
  unfilled _ := by
    refine ⟨rfl, fun g hg hcur => ?_⟩
    rw [List.mem_singleton.mp hg] at hcur
    cases hcur

theorem validateStoppedDetachedComputer_ok {action : String}
    (h : validateStoppedDetachedComputer computer job action = .ok ()) :
    computer.phase = .stable := by
  unfold validateStoppedDetachedComputer at h
  simp only [guard_eq_ok_iff, not_not, ne_eq] at h
  exact h.2.1

theorem newestCopy_mem {computerID : Nat} {rows : List StorageCopy}
    (h : newestCopy computerID rows = some copy) :
    copy ∈ rows ∧ copy.destinationComputerID = computerID := by
  induction rows with
  | nil => cases h
  | cons row rest ih =>
    unfold newestCopy at h
    split at h
    · exact ⟨List.mem_cons_of_mem _ (ih h).1, (ih h).2⟩
    next hdest =>
      split at h
      · cases h
        exact ⟨List.mem_cons_self, not_not.mp hdest⟩
      next other hoth =>
        split at h
        · cases h
          exact ⟨List.mem_cons_of_mem _ (ih hoth).1, (ih hoth).2⟩
        · cases h
          exact ⟨List.mem_cons_self, not_not.mp hdest⟩

theorem updateJob_eq {jobID : Nat} (f : Job → Job) (h : s.jobs.find jobID = some job)
    : updateJob s jobID f = s.setJob (f job) := by
  unfold updateJob
  rw [h]

/-- Retiring what is staged makes no generation current. -/
theorem retire_staged {p : StorageGeneration → Bool} (hp : ∀ g, p g → g.phase = .staging)
    (g : StorageGeneration) :
    (if p g then { g with phase := .retired } else g).storageGeneration = g.storageGeneration ∧
      ages g.phase (if p g then { g with phase := .retired } else g).phase ∧
      ((if p g then { g with phase := .retired } else g).phase = .current →
        g.phase = .current) := by
  split
  next h =>
    refine ⟨rfl, ?_, nofun⟩
    rw [hp g h]
    rfl
  · exact ⟨rfl, ages_refl g.phase, id⟩

theorem staging_of_stagedBy (h : stagedBy copy g) :
    g.storageGeneration = copy.destinationGeneration ∧ g.phase = .staging := by
  simp only [stagedBy, Bool.and_eq_true, decide_eq_true_eq] at h
  exact h.1

theorem staging_of_stagedByImport (h : stagedByImport g) :
    g.storageGeneration = 1 ∧ g.phase = .staging := by
  simp only [stagedByImport, Bool.and_eq_true, decide_eq_true_eq] at h
  exact h.1

/-- **A copied generation is current alone**: a restore retires the old one first, and a clone has
none. -/
theorem publishedGenerations_ok {retired generations : List StorageGeneration}
    (hstore : Stored computer) (hph : computer.phase = expectedPhase copy)
    (hold : copy.operation = .restore → computer.storageGeneration = copy.oldGeneration)
    (hretd : (if copy.operation = .restore then
        setGeneration (fun g => g.storageGeneration = copy.oldGeneration && g.phase = .current)
          .retired "retire restored Computer predecessor" computer.generations
      else .ok computer.generations) = .ok retired)
    (hoper : copy.operation = .restore ∨ copy.operation = .clone)
    (hgens : setGeneration (stagedBy copy) .current
      "publish copied Computer Storage generation" retired = .ok generations) :
    (generations.map StorageGeneration.storageGeneration).Nodup ∧
      (∀ g ∈ generations, g.phase = .current → g.storageGeneration = copy.destinationGeneration) ∧
      ∀ g ∈ computer.generations, ∃ g' ∈ generations,
        g'.storageGeneration = g.storageGeneration ∧ ages g.phase g'.phase := by
  -- What is retired first, if anything, is all that was current.
  have hfst : (retired.map StorageGeneration.storageGeneration).Nodup ∧
      (∀ g ∈ retired, g.phase ≠ .current) ∧
      ∀ g ∈ computer.generations, ∃ g' ∈ retired,
        g'.storageGeneration = g.storageGeneration ∧ ages g.phase g'.phase := by
    split at hretd
    next hrestore =>
      rw [setGeneration_ok hretd]
      refine ⟨?_, retired_of_named hstore fun g _ hcur hnamed => ?_, fun g hg => ?_⟩
      · rw [numbers_of_map fun g _ => by split <;> rfl]
        exact hstore.numbers
      · simp [hcur, hnamed, hold hrestore]
      · refine ⟨_, List.mem_map_of_mem hg, setGeneration_row (fun g : StorageGeneration =>
          g.storageGeneration = copy.oldGeneration && g.phase = .current) fun h => ?_⟩
        simp only [Bool.and_eq_true, decide_eq_true_eq] at h
        rw [h.2]
        rfl
    next hclone =>
      cases hretd
      have hcloning : computer.phase = .cloning := by
        rw [hph, expectedPhase, if_pos (hoper.resolve_left hclone)]
      exact ⟨hstore.numbers, (hstore.unfilled (.inl hcloning)).2,
        fun g hg => ⟨g, hg, rfl, ages_refl g.phase⟩⟩
  obtain ⟨hnums, hnone, hages⟩ := hfst
  rw [setGeneration_ok hgens]
  refine ⟨?_, fun g' hg' hcur => ?_, fun g hg => ?_⟩
  · rw [numbers_of_map fun g _ => by split <;> rfl]
    exact hnums
  · obtain ⟨g, hg, rfl⟩ := List.mem_map.mp hg'
    split at hcur
    next hstage =>
      rw [if_pos hstage]
      exact (staging_of_stagedBy hstage).1
    · exact absurd hcur (hnone g hg)
  · obtain ⟨g', hg', hnum, haged⟩ := hages g hg
    have hcur : stagedBy copy g' → ages g'.phase .current := fun h => by
      rw [(staging_of_stagedBy h).2]
      rfl
    have hrow := setGeneration_row (stagedBy copy) hcur
    exact ⟨_, List.mem_map_of_mem hg', hrow.1.trans hnum, ages_trans haged hrow.2⟩

/-- A Computer is published only while nothing of it may run. -/
theorem owns_of_publish
    (h : ¬ (¬ owns computer copy (expectedPhase copy) ∨ computer.desiredState ≠ .stopped ∨
      (job.state ≠ .stopped ∧ job.state ≠ .failed))) :
    owns computer copy (expectedPhase copy) ∧ job.state.holding = false := by
  rw [not_or, not_or, not_not] at h
  refine ⟨h.1, ?_⟩
  by_cases hstop : job.state = .stopped
  · rw [hstop]; rfl
  · rw [not_not.mp fun hfail => h.2.2 ⟨hstop, hfail⟩]; rfl

theorem copying_expectedPhase (copy : StorageCopy) :
    copying (expectedPhase copy) ∧ expectedPhase copy ≠ .removing ∧
      expectedPhase copy ≠ .importing := by
  unfold expectedPhase
  split <;> exact ⟨rfl, nofun, nofun⟩

/-- Asking a live attempt to stop only steers the Job. -/
theorem quiescedJob_steers (hsvc : job.service.isSome) (h : quiescedJob s now job = .ok job')
    : Steers job job' := by
  have hlive : (do
      computerServiceDesiredDecision s job .stopped
      computerDesiredJob now .stopped job) = .ok job' → Steers job job' := by
    intro hwrit
    obtain ⟨_, -, hwrit⟩ := ok_of_bind hwrit
    exact computerDesiredJob_steers hsvc hwrit
  unfold quiescedJob at h
  split at h
  · exact hlive h
  · exact hlive h
  · exact hlive h
  · cases h
    exact (Steers.refl hsvc).updateService _
  · cases h
    exact (Steers.refl hsvc).updateService _
  · cases h
    exact (Steers.refl hsvc).updateService _
  all_goals cases h

theorem computerResetDecision_ok {request : ResetRequest}
    (h : computerResetDecision computer job request = .ok ()) : computer.phase = .stable := by
  unfold computerResetDecision at h
  simp only [throw_eq_ok_iff, not_not, ne_eq] at h
  exact h.2.2.1

variable {reset : StorageReset}

theorem staging_of_stagedByReset (h : stagedByReset reset g) :
    g.storageGeneration = reset.newGeneration ∧ g.phase = .staging := by
  simp only [stagedByReset, Bool.and_eq_true, decide_eq_true_eq] at h
  exact h.1

theorem resumedJob_steers (hsvc : job.service.isSome)
    (h : resumedJob s now computer reset job = .ok job') : Steers job job' := by
  unfold resumedJob at h
  split at h
  · obtain ⟨_, -, hwrit⟩ := ok_of_bind h
    exact computerDesiredJob_steers hsvc hwrit
  · cases h
    exact .refl hsvc

theorem computerGrowDecision_ok {request : GrowRequest} {node : Nat × Nat}
    (h : computerGrowDecision s computer request = .ok node) : computer.phase = .stable := by
  unfold computerGrowDecision at h
  simp only [throw_eq_ok_iff, not_not, ne_eq] at h
  exact h.2.1

theorem grownGenerations_row (grow : StorageGrow) (g : StorageGeneration) :
    (if g.storageGeneration = grow.storageGeneration ∧ g.phase = .current then
      { g with diskBytes := grow.newDiskBytes } else g).storageGeneration = g.storageGeneration ∧
    (if g.storageGeneration = grow.storageGeneration ∧ g.phase = .current then
      { g with diskBytes := grow.newDiskBytes } else g).phase = g.phase := by
  split <;> exact ⟨rfl, rfl⟩

/-! ## 2. New Computers -/

variable {ctx : Ctx} {computerID : Nat} (hinv : Inv copies s)
include hinv

/-- **A new Computer** comes with a Job of its own, both under new identifiers. -/
theorem insertComputer_onward {s' : Store} (hjobID : job.jobID = s.nextID)
    (hid : computer.computerID = s.nextID + 1) (hcur : computer.currentJobID = s.nextID)
    (hsound : Sound job) (hrem : job.removal = none) (hroot : job.parentJobID = none)
    (htombs : ¬ copies → s.tombstoneByDispatchKey job.spec.dispatchKey = none)
    (hplace : Placed computer job) (hstore : Stored computer)
    (h : insertComputer s job computer = .ok s') :
    Onward copies noLeave s s' ∧ s'.computers.find computer.computerID = some computer ∧
      s'.jobs.find job.jobID = some job := by
  unfold insertComputer at h
  split at h
  · cases h
  next hfree =>
    cases h
    have hjob : Onward copies noLeave s (s.insertJob job) :=
      onward_insertJob hinv hjobID hsound hrem (.inl hroot) fun hn {hash id} =>
        not_holds_of_free (by simpa using hfree) (htombs hn)
    have hfindJob : (s.insertJob job).jobs.find computer.currentJobID = some job := by
      rw [find_insertJob hinv hjobID, if_pos hcur.symm]
    have hcomp := onward_insertComputer hjob.inv hid
      (by rw [hcur]; exact Nat.lt_succ_self _) hfindJob hplace hstore
    refine ⟨hjob.trans hinv hcomp, ?_, ?_⟩
    · have hnone : (s.insertJob job).computers.find computer.computerID = none := by
        by_contra hsome
        obtain ⟨old, hold⟩ := Option.ne_none_iff_exists'.mp hsome
        have := (hinv.fresh.computers hold).1
        omega
      show ((s.insertJob job).computers.insert computer).find computer.computerID = some computer
      rw [Table.find_insert _ _ hnone, if_pos rfl]
    · show (s.insertJob job).jobs.find job.jobID = some job
      rw [find_insertJob hinv hjobID, if_pos hjobID.symm]

theorem createComputer_keeps {request : CreateComputer} :
    Keeps copies s (createComputer ctx request s) := by
  unfold createComputer
  refine .check fun _ _ => .refuseIf fun _ => .refuseIf fun _ =>
    .refuseIf fun _ => .refuseIf fun _ => .answerIf fun _ =>
    .refuseIf fun _ => .refuseIf fun htomb => .check fun _ _ =>
    .refuseIf fun _ => .checked fun s' hins => ?_
  have hstore : Stored (createdComputer (s.nextID + 1) s.nextID request) := {
    numbers := List.nodup_singleton _
    current := fun g hg _ => by rw [List.mem_singleton.mp hg]; rfl
    unfilled := fun h => by rcases h with h | h <;> cases h }
  have hplace : Placed (createdComputer (s.nextID + 1) s.nextID request)
      (computerJob ctx.now s.nextID (s.nextID + 1) request.spec request.requestHash .queued .running
        none) :=
    ⟨rfl, fun _ => rfl, fun _ => rfl⟩
  exact (insertComputer_onward hinv rfl rfl rfl (computerJob_sound _ _ _ _ _ _ _ _) rfl rfl
    (fun _ => Option.not_isSome_iff_eq_none.mp htomb) hplace hstore hins).1

variable {phase : ReconfigurationPhase}

/-- A Computer that is to be filled comes with the copy that fills it. -/
theorem insertReserved_onward (hcopies : copies) {spec : JobSpec}
    {requestHash name nodeID : Nat} {diskBytes : Int}
    {operation : CopyOperation} {sourceID backupID key hash : Nat} {exportID : Option Nat}
    {s' : Store} (hph : phase ≠ .restoring)
    (himpg : operation = .custodyImport → phase = .importing) (h : insertReserved s
      (computerJob now s.nextID (s.nextID + 1) spec requestHash .stopped .stopped (some nodeID))
      (reservedComputer (s.nextID + 1) s.nextID name nodeID diskBytes phase)
      (reservedCopy operation (s.nextID + 1) s.nextID sourceID backupID exportID nodeID key hash) =
        .ok s') : Onward copies noLeave s s' := by
  unfold insertReserved at h
  obtain ⟨inserted, hins, h⟩ := ok_of_bind h
  cases h
  obtain ⟨honw, hcomp, hjob⟩ := insertComputer_onward hinv rfl rfl rfl
    (computerJob_sound _ _ _ _ _ _ _ _) rfl rfl (absurd hcopies) ⟨rfl, fun _ => rfl, fun _ => rfl⟩
    (reservedComputer_stored _ _ _ _ _ phase) hins
  exact honw.trans hinv (onward_insertCopy honw.inv hcomp hjob rfl
    ⟨le_rfl, fun _ _ => rfl, fun _ hrest => absurd hrest hph⟩ (absurd hcopies)
    fun himp => ⟨himpg himp, rfl, rfl⟩)

theorem beginComputerClone_keeps (hcopies : copies)
    {request : CloneRequest} : Keeps copies s (beginComputerClone ctx request s) := by
  unfold beginComputerClone
  refine .refuseIf fun _ => .refuseIf fun _ => .answerIf fun _ =>
    .check fun ⟨sourceID, nodeID⟩ _ => .refuseIf fun _ =>
    .orRefuse fun ⟨source, job⟩ _ => .refuseIf fun _ => .check fun _ _ =>
    .checked fun s' h => insertReserved_onward hinv hcopies (by decide) (by decide) h

theorem beginComputerCustodyImport_keeps (hcopies : copies)
    {request : ImportRequest} : Keeps copies s (beginComputerCustodyImport ctx request s) := by
  unfold beginComputerCustodyImport
  exact .check fun _ _ => .refuseIf fun _ => .refuseIf fun _ =>
    .answerIf fun _ => .check fun _ _ => .orRefuse fun node _ =>
    .refuseIf fun _ => .refuseIf fun _ =>
    .checked fun s' h => insertReserved_onward hinv hcopies (by decide) (by decide) h

/-! ## 3. The reservation of a restore -/

/-- **A restore** stages a generation beside the current one. -/
theorem beginComputerRestore_keeps
    {request : RestoreRequest} : Keeps copies s (beginComputerRestore computerID request s) := by
  unfold beginComputerRestore
  refine reading fun {computer job} hreads _ => .refuseIf fun _ => .refuseIf fun _ =>
    .answerIf fun _ => .refuseIf fun _ => .check fun _ _ => .check fun _ hstop =>
    .refuseIf fun _ => .check fun nodeID _ => .refuseIf fun hfree => .pure ?_
  have hstab := validateStoppedDetachedComputer_ok hstop
  have hstore : Stored computer → Stored (restoringComputer computer) :=
    stored_of_stage rfl rfl rfl (by simpa using hfree) ⟨nofun, nofun⟩
  have hres : Onward copies noLeave s (s.setComputer (restoringComputer computer)) :=
    onward_setComputer hinv hreads.computer_find rfl
      (follows_of_stage rfl (Nat.le_succ _) rfl) hstore
      (fun _ hplace => placed_of_phase hplace rfl (fun _ => by rw [hstab]; decide)
        (.inr (.inr rfl)))
      (fun _ _ hlink => linked_of_lt hlink (Nat.lt_succ_self _))
      (fun _ _ _ _ => importing_of_ne (by rw [hstab]; decide))
  have hlink : Linked (restoreCopy computer request nodeID) (restoringComputer computer) :=
    ⟨Nat.le_refl _, fun _ _ => rfl, fun _ _ => rfl⟩
  refine hres.trans hinv (onward_insertCopy hres.inv
    (find_setComputer hreads.computer_find rfl) ?_ (hreads.service hinv) hlink (fun _ => nofun)
    nofun)
  show s.jobs.find computer.currentJobID = _
  rw [← hreads.jobID_eq]
  exact hreads.job_find

/-! ## 4. Reports about a copy -/

theorem onward_settle (job' : Job) (hreads : Reads s computer job)
    (hidle : job.state.holding = false) (hph : computer.phase ≠ .removing)
    (hcourse : Course job job') (hrem : job'.removal = job.removal)
    (hidle' : job'.state.holding = false) : Onward copies noLeave s (s.setJob job') := by
  have hnone := (hreads.placed hinv).removal hph
  refine onward_setJob hinv (fun _ => not_false) hreads.job_find
    (moves_service (hreads.service hinv) hcourse ?_
      (.of_eq hrem fun _ hr => ?_)) (rebinds_of_idle hidle)
  · rw [hidle']
    exact nofun
  · rw [hnone] at hr
    cases hr

/-- The Job a copy names is the Computer's, as long as the copy is the Computer's. -/
theorem jobID_of_owns (hcopy : s.copies.find k = some copy) (hreads : Reads s computer job)
    (hid : computer.computerID = copy.destinationComputerID) (howns : owns computer copy phase)
    (hph : copying phase) : computer.phase = phase ∧ s.jobs.find copy.jobID = some job := by
  simp only [owns, Bool.and_eq_true, decide_eq_true_eq] at howns
  have hlink := hinv.layout.linked hcopy (by rw [← hid]; exact hreads.computer_find)
  refine ⟨howns.1.2, ?_⟩
  rw [hlink.job howns.1.1.symm (by rw [howns.1.2]; exact hph), ← hreads.jobID_eq]
  exact hreads.job_find

/-- A clone that failed for good retires what it staged and stops. -/
theorem closeTerminalComputerClone_keeps
    (hcopy : s.copies.find copy.key = some copy) {failure : SpawnFailure} :
    Keeps copies s (closeTerminalComputerClone ctx copy failure s) := by
  unfold closeTerminalComputerClone
  refine .refuseIf fun _ => reading fun {computer job} hreads hid => .refuseIf fun howns =>
    .check fun generations hgens => .pure ?_
  obtain ⟨hph, hjob⟩ := jobID_of_owns hinv hcopy hreads hid (not_not.mp howns) rfl
  have hwaiting := (hreads.placed hinv).waiting (.inl hph)
  have hne : computer.phase ≠ .removing := by rw [hph]; decide
  have hfail := onward_setCopy hinv hcopy (show CopyStatus.failed ≠ .reserved by decide)
  have hreads' : Reads (s.setCopy { copy with status := .failed }) computer job :=
    ⟨hreads.computer_find, hreads.job_find, hreads.jobID_eq⟩
  have hrefused := onward_settle hfail.inv (refusedCloneJob ctx.now failure job) hreads' hwaiting
    hne ⟨origin_updateService, le_rfl, rfl, rfl⟩ rfl rfl
  have hrow := retire_staged (p := stagedBy copy) fun g h => (staging_of_stagedBy h).2
  rw [updateJob_eq _ (show (s.setCopy _).jobs.find copy.jobID = some job from hjob)]
  refine (hfail.trans hinv hrefused).trans hinv (onward_setComputer hrefused.inv
    hreads.computer_find rfl
    (follows_of_map rfl le_rfl (setGeneration_ok hgens) fun g _ => ⟨(hrow g).1, (hrow g).2.1⟩)
    (stored_of_retire (setGeneration_ok hgens) rfl (fun g _ => ⟨(hrow g).1, (hrow g).2.2⟩) rfl)
    (fun _ hplace => placed_of_phase hplace rfl (fun _ => hne) (.inr (.inl rfl)))
    (fun _ _ hlink => linked_of_idle hlink le_rfl rfl)
    (fun _ _ _ _ => importing_of_ne (by rw [hph]; decide)))

theorem abortRestore_keeps (hcopy : s.copies.find copy.key = some copy) :
    Keeps copies s (abortRestoreForFailedPredecessorCopy copy s) := by
  unfold abortRestoreForFailedPredecessorCopy
  refine .orRefuse fun computer hfind => .refuseIf fun hcur => .pure ?_
  have hself : s.computers.find computer.computerID = some computer := by
    rw [Table.key_of_find hfind]
    exact hfind
  rw [not_or, not_not, not_not] at hcur
  have hne : computer.phase ≠ .removing := by rw [hcur.2]; decide
  have hfail : Onward copies noLeave s
      (if copy.status = .reserved then s.setCopy { copy with status := .failed } else s) := by
    split
    · exact onward_setCopy hinv hcopy (by decide)
    · exact .refl hinv
  have hcomps : (if copy.status = .reserved then s.setCopy { copy with status := .failed }
      else s).computers = s.computers := by split <;> rfl
  generalize (if copy.status = .reserved then s.setCopy { copy with status := .failed } else s) = s₁
    at hfail hcomps ⊢
  have hretire := retire_staged (p := stagedUnder copy) fun g h => by
    simp only [stagedUnder, Bool.and_eq_true, decide_eq_true_eq] at h
    exact h.2
  rw [← hcomps] at hself
  refine hfail.trans hinv (onward_setComputer hfail.inv hself rfl
    (follows_of_map rfl le_rfl rfl fun g _ => ⟨(hretire g).1, (hretire g).2.1⟩)
    (stored_of_retire rfl rfl (fun g _ => ⟨(hretire g).1, (hretire g).2.2⟩) rfl)
    (fun _ hplace => placed_of_phase hplace rfl (fun _ => hne) (.inr (.inl rfl)))
    (fun _ _ hlink => linked_of_idle hlink le_rfl rfl)
    (fun _ _ _ _ => importing_of_ne (by rw [hcur.2]; decide)))

variable {request : CopyAcknowledgement}

theorem acknowledgeCopy_keeps (hcopy : s.copies.find copy.key = some copy) :
    Keeps copies s (acknowledgeCopy ctx request copy s) := by
  unfold acknowledgeCopy
  split
  · exact .refuseIf fun _ => .check fun _ _ => abortRestore_keeps hinv hcopy
  · exact .refuseIf fun _ => .check fun _ _ => .refuseIf fun _ =>
      .pure (.refl hinv)
  · exact .refuseIf fun _ => .check fun _ _ => .refuseIf fun _ =>
      closeTerminalComputerClone_keeps hinv hcopy
  · exact .check fun _ _ => .refuseIf fun _ =>
      closeTerminalComputerClone_keeps hinv hcopy
  · exact .check fun _ _ => .refuseIf fun _ =>
      .pure (onward_markCopies hinv _ (by decide))

theorem not_reserved_of_setCopy {other : StorageCopy} {status : CopyStatus}
    (hstat : status ≠ .reserved) (hcopy : s.copies.find copy.key = some copy)
    (himp : copy.operation = .custodyImport) (hres : copy.status = .reserved)
    (hoth : (s.setCopy { copy with status := status }).copies.find k = some other)
    (hdest : other.destinationComputerID = copy.destinationComputerID)
    (himp' : other.operation = .custodyImport) : other.status ≠ .reserved := by
  intro hres'
  have hoth := (find_setCopy hcopy status k).symm.trans hoth
  split at hoth
  · cases hoth
    exact hstat hres'
  next hne =>
    -- Both are of the operation the Computer is in, so they are one copy.
    obtain ⟨computer, hfind, hrun⟩ := hinv.layout.importing hcopy himp hres
    obtain ⟨computer', hfind', hrun'⟩ := hinv.layout.importing hoth himp' hres'
    rw [hdest, hfind] at hfind'
    cases hfind'
    have hkey : copy.key = other.key :=
      Prod.ext hdest.symm (hrun.revision.trans hrun'.revision.symm)
    exact hne (hkey.trans (Table.key_of_find hoth))

/-- A failed import takes back what it put on record; only a run with imports has one. The Job of a
Computer that is being imported is not being removed, so nothing is lost with it. -/
theorem discardImport_onward (hcopy : s.copies.find copy.key = some copy)
    (himp : copy.operation = .custodyImport) (hres : copy.status = .reserved)
    : Onward copies noLeave s (discardImport copy s) := by
  unfold discardImport
  have hne : CopyStatus.failed ≠ .reserved := by decide
  have hfail := onward_setCopy hinv hcopy hne
  have hdeleted := hfail.trans hinv
    (onward_deleteComputer hfail.inv copy.destinationComputerID fun hoth himp' hres' hdest =>
      not_reserved_of_setCopy hinv hne hcopy himp hres hoth hdest himp' hres')
  refine hdeleted.trans hinv (onward_deleteServiceRows hdeleted.inv (fun hjob => ?_)
    fun {job} hjob hrem => ?_)
  · exact hinv.layout.copied hcopy hjob
  rcases hrem with hn | hrem
  · exact absurd himp (hinv.keys.imported hn hcopy)
  · obtain ⟨computer, hfind, hrun⟩ := hinv.layout.importing hcopy himp hres
    have hplace := hinv.layout.placed hfind (by rw [← hrun.job]; exact hjob)
    rw [hplace.removal (by rw [hrun.phase]; decide)] at hrem
    cases hrem

theorem acknowledgeImport_keeps
    (hcopy : s.copies.find copy.key = some copy) (himp : copy.operation = .custodyImport) :
    Keeps copies s (acknowledgeImport ctx request copy s) := by
  unfold acknowledgeImport
  refine .check fun _ _ => .refuseIf fun hres => ?_
  have hres := not_not.mp hres
  split
  · exact .pure (.refl hinv)
  · exact .pure (.refl hinv)
  · exact .pure (.refl hinv)
  · exact .pure (discardImport_onward hinv hcopy himp hres)
  refine reading fun {computer job} hreads hid => .refuseIf fun howns =>
    .check fun generations hgens => .pure ?_
  obtain ⟨hph, hjob⟩ := jobID_of_owns hinv hcopy hreads hid (not_not.mp howns) rfl
  have hwaiting := (hreads.placed hinv).waiting (.inr hph)
  have hne : computer.phase ≠ .removing := by rw [hph]; decide
  have hover : CopyStatus.complete ≠ .reserved := by decide
  have hcomplete := onward_setCopy hinv hcopy hover
  have hreads' : Reads (s.setCopy { copy with status := .complete }) computer job :=
    ⟨hreads.computer_find, hreads.job_find, hreads.jobID_eq⟩
  have hpub := onward_settle hcomplete.inv (publishedJob ctx.now job) hreads' hwaiting hne
    ⟨origin_updateService, le_rfl, rfl, rfl⟩ rfl rfl
  rw [updateJob_eq _ (show (s.setCopy _).jobs.find copy.jobID = some job from hjob)]
  have hstore := hinv.layout.stored hreads.computer_find
  obtain ⟨hone, hempty⟩ := hstore.unfilled (.inr hph)
  refine (hcomplete.trans hinv hpub).trans hinv (onward_setComputer hpub.inv
    hreads.computer_find rfl
    (follows_of_map rfl le_rfl (setGeneration_ok hgens) fun g _ =>
      setGeneration_row stagedByImport fun h => by rw [(staging_of_stagedByImport h).2]; rfl)
    (fun _ => stored_of_publish (setGeneration_ok hgens) hstore.numbers hempty
      (fun g _ h => ((staging_of_stagedByImport h).1).trans hone.symm) ⟨nofun, nofun⟩)
    (fun _ hplace => placed_of_phase hplace rfl (fun _ => hne) (.inr (.inl rfl)))
    (fun _ _ hlink => linked_of_idle hlink le_rfl rfl)
    (fun hoth hdest himp' hres' _ => absurd hres' (not_reserved_of_setCopy hinv
      hover hcopy himp hres hoth (hdest.trans hid) himp')))

theorem acknowledgeComputerStorageCopy_keeps :
    Keeps copies s (acknowledgeComputerStorageCopy ctx computerID request s) := by
  unfold acknowledgeComputerStorageCopy
  refine .orRefuse fun copy hnewest => .check fun _ _ => ?_
  have hcopy := Table.mem_rows_iff.mp (newestCopy_mem hnewest).1
  split
  next himp => exact acknowledgeImport_keeps hinv hcopy himp
  · exact acknowledgeCopy_keeps hinv hcopy

/-! ## 5. Publication and retirement of a copy -/

/-- An import is not published this way: nothing that is being restored is being imported. -/
theorem operation_of_owns (hcopy : s.copies.find k = some copy)
    (hreads : Reads s computer job) (hid : computer.computerID = copy.destinationComputerID)
    (howns : owns computer copy (expectedPhase copy)) :
    copy.operation = .restore ∨ copy.operation = .clone := by
  by_cases hclone : copy.operation = .clone
  · exact .inr hclone
  · simp only [owns, Bool.and_eq_true, decide_eq_true_eq] at howns
    have hlink := hinv.layout.linked hcopy (by rw [← hid]; exact hreads.computer_find)
    refine .inl (hlink.restored howns.1.1.symm (howns.1.2.trans ?_))
    rw [expectedPhase, if_neg hclone]

theorem publishComputerStorageCopy_keeps (hcopy : s.copies.find copy.key = some copy) :
    Keeps copies s (publishComputerStorageCopy ctx copy s) := by
  unfold publishComputerStorageCopy
  refine reading fun {computer job} hreads hid => .refuseIf fun howns =>
    .refuseIf fun hpredecessor => .check fun retired hretd => .check fun generations hgens =>
    .pure ?_
  obtain ⟨howns, hidle⟩ := owns_of_publish howns
  obtain ⟨hcopying, hnotRemoving, hnotImporting⟩ := copying_expectedPhase copy
  obtain ⟨hph, hjob⟩ := jobID_of_owns hinv hcopy hreads hid howns hcopying
  have hne : computer.phase ≠ .removing := by rw [hph]; exact hnotRemoving
  have hoper := operation_of_owns hinv hcopy hreads hid howns
  have hold : copy.operation = .restore → computer.storageGeneration = copy.oldGeneration :=
    fun hrestore => not_not.mp fun hdiff => hpredecessor ⟨hrestore, hdiff⟩
  obtain ⟨hnums, hcur, hages⟩ := publishedGenerations_ok
    (hinv.layout.stored hreads.computer_find) hph hold hretd hoper hgens
  have hpub := onward_settle hinv (publishedJob ctx.now job) hreads hidle hne
    ⟨origin_updateService, le_rfl, rfl, rfl⟩ rfl rfl
  rw [updateJob_eq _ hjob]
  -- A clone is over with its publication; a restore stays in its phase.
  have hover : (if (copy.operation = .clone : Bool) then ReconfigurationPhase.stable
      else computer.phase) = computer.phase ∧ computer.phase = .restoring ∨
      (if (copy.operation = .clone : Bool) then ReconfigurationPhase.stable
        else computer.phase) = .stable := by
    rcases hoper with hrestore | hclone
    · left
      rw [hph, expectedPhase, hrestore]
      exact ⟨rfl, rfl⟩
    · right
      rw [hclone]
      rfl
  have hset : Onward copies noLeave s ((s.setJob (publishedJob ctx.now job)).setComputer
      { computer with
        storageGeneration := copy.destinationGeneration
        generations := generations
        phase := if (copy.operation = .clone : Bool) then .stable else computer.phase
        reconfigurationRevision :=
          if (copy.operation = .clone : Bool) then none else
            computer.reconfigurationRevision }) := by
    refine hpub.trans hinv (onward_setComputer hpub.inv hreads.computer_find rfl
      ⟨rfl, le_rfl, hages⟩ (fun _ => ⟨hnums, hcur, fun hfill => ?_⟩)
      (fun _ hplace => placed_of_phase hplace rfl (fun _ => hne) ?_)
      (fun _ _ hlink => linked_of_phase hlink rfl le_rfl (.inr ?_))
      (fun _ _ _ _ => importing_of_ne (by rw [hph]; exact hnotImporting)))
    · rcases hover with ⟨heq, hrest⟩ | hstab
      · rw [heq, hrest] at hfill
        rcases hfill with hc | hc <;> cases hc
      · rw [hstab] at hfill
        rcases hfill with hc | hc <;> cases hc
    · rcases hover with ⟨heq, -⟩ | hstab
      · exact .inl heq
      · exact .inr (.inl (by rw [hstab]; rfl))
    · rcases hover with ⟨heq, -⟩ | hstab
      · exact .inl heq
      · exact .inr (by rw [hstab]; rfl)
  refine hset.trans hinv (onward_markCopies hset.inv _ ?_)
  split <;> decide

theorem publishVerifiedComputerStorageCopy_keeps {operationRevision : Nat} {revoked : Bool} :
    Keeps copies s
      (publishVerifiedComputerStorageCopy ctx computerID operationRevision revoked s) := by
  unfold publishVerifiedComputerStorageCopy
  refine .orRefuse fun copy hfind => .answerIf fun _ => .refuseIf fun _ =>
    .refuseIf fun _ => ?_
  have hcopy : s.copies.find copy.key = some copy := by
    rw [Table.key_of_find hfind]
    exact hfind
  exact publishComputerStorageCopy_keeps hinv hcopy

/-- When the old bytes are gone, the Computer is free again. -/
theorem acknowledgeComputerRestoreRetirement_keeps
    {authority receipt : Check} {quarantined : Bool} :
    Keeps copies s
      (acknowledgeComputerRestoreRetirement computerID authority receipt quarantined s) := by
  unfold acknowledgeComputerRestoreRetirement
  refine .check fun _ _ => .orRefuse fun copy hnewest => .refuseIf fun _ =>
    .check fun _ _ => .refuseIf fun _ => ?_
  split
  · exact .pure (.refl hinv)
  refine .answerIf fun _ => reading fun hreads _ => .refuseIf fun howns => .pure ?_
  rw [not_or, not_or, not_not, not_not, not_not] at howns
  have hretd := onward_markCopies hinv (fun c => c.destinationComputerID = computerID &&
    c.status = .published) (show CopyStatus.retired ≠ .reserved by decide)
  exact hretd.trans hinv (onward_retouch hretd.inv hreads.computer_find
    ⟨rfl, rfl, le_rfl, rfl, rfl⟩ (.inr (free_of_phase howns.2.1 (by decide))) (.inr rfl))

/-! ## 6. Resets -/

/-- **A reset** stages the next generation and asks the Job to stop. -/
theorem beginComputerStorageReset_keeps {request : ResetRequest} :
    Keeps copies s (beginComputerStorageReset ctx computerID request s) := by
  unfold beginComputerStorageReset
  refine reading fun {computer job} hreads _ => .refuseIf fun _ => ?_
  split
  · exact .pure (.refl hinv)
  refine .check fun _ _ => .check fun _ hdec => .check fun root _ =>
    .check fun quiesced hquies => .refuseIf fun hfree => .refuseIf fun _ =>
    .pure ?_
  have hstab := computerResetDecision_ok hdec
  have hjob := onward_steer hinv hreads.job_find
    (quiescedJob_steers (hreads.service hinv) hquies)
  have hstore : Stored computer → Stored (resettingComputer computer request root s.nextID) :=
    stored_of_stage rfl rfl rfl (by simpa using hfree) ⟨by rintro ⟨⟩, by rintro ⟨⟩⟩
  have hres : Onward copies noLeave s ((s.setJob quiesced).setComputer
      (resettingComputer computer request root s.nextID)) :=
    hjob.trans hinv (onward_setComputer hjob.inv hreads.computer_find rfl
      (follows_of_stage rfl (Nat.le_succ _) rfl) hstore
      (fun _ hplace => placed_of_phase hplace rfl (fun _ => by rw [hstab]; decide)
        (.inr (.inl rfl)))
      (fun _ _ hlink => linked_of_lt hlink (Nat.lt_succ_self _))
      (fun _ _ _ _ => importing_of_ne (by rw [hstab]; decide)))
  exact hres.trans hinv (onward_nextID hres.inv (Nat.le_succ _))

theorem recordComputerStorageResetVerification_keeps {request : ResetAcknowledgement} :
    Keeps copies s (recordComputerStorageResetVerification computerID request s) := by
  unfold recordComputerStorageResetVerification
  refine .check fun _ _ => .orRefuse fun computer hfind => .orRefuse fun reset _ =>
    .refuseIf fun _ => .check fun _ _ => .check fun _ _ =>
    .refuseIf fun _ => ?_
  have hself : s.computers.find computer.computerID = some computer := by
    rw [Table.key_of_find hfind]
    exact hfind
  split
  · exact .pure (.refl hinv)
  · exact .pure (onward_retouch hinv hself ⟨rfl, rfl, le_rfl, rfl, rfl⟩
      (.inl ⟨rfl, rfl⟩) (.inl rfl))

/-- **A verified reset** retires what is current before it publishes. -/
theorem publishVerifiedComputerStorageReset_keeps {intentRevision : Nat} :
    Keeps copies s (publishVerifiedComputerStorageReset ctx computerID intentRevision s) := by
  unfold publishVerifiedComputerStorageReset
  refine reading fun {computer job} hreads _ => .orRefuse fun reset _ => ?_
  split
  · exact .pure (.refl hinv)
  refine .refuseIf fun _ => .refuseIf fun howns => .refuseIf fun hstop =>
    .check fun retired hretd => .check fun generations hgens =>
    .pure ?_
  rw [not_or, not_or, not_or, not_not, not_not, not_not, not_not] at howns
  obtain ⟨-, hold, hph, -⟩ := howns
  have hne : computer.phase ≠ .removing := by rw [hph]; decide
  have hidle : job.state.holding = false := by
    by_cases hs : job.state = .stopped
    · rw [hs]; rfl
    · rw [not_not.mp fun hfail => hstop ⟨hs, hfail⟩]; rfl
  have hjob := onward_settle hinv (resetJob ctx.now job) hreads hidle hne
    ⟨origin_updateService, le_rfl, rfl, rfl⟩ rfl rfl
  have hstore := hinv.layout.stored hreads.computer_find
  have hnone := retired_of_named hstore (q := replacedByReset reset) fun g _ hcur hnamed => by
    simp [replacedByReset, hcur, hnamed, hold]
  have hnums : ((computer.generations.map fun g => if replacedByReset reset g then
      { g with phase := GenerationPhase.retired } else g).map
      StorageGeneration.storageGeneration).Nodup := by
    rw [numbers_of_map fun g _ => by split <;> rfl]
    exact hstore.numbers
  rw [← setGeneration_ok hretd] at hnone hnums
  refine hjob.trans hinv (onward_setComputer hjob.inv hreads.computer_find rfl
    ⟨rfl, le_rfl, fun g hg => ?_⟩
    (fun _ => stored_of_publish (setGeneration_ok hgens) hnums hnone
      (fun g _ h => (staging_of_stagedByReset h).1) (by rw [hph]; exact ⟨by decide, by decide⟩))
    (fun _ hplace => placed_of_phase hplace rfl (fun _ => hne) (.inl rfl))
    (fun _ _ hlink => linked_of_phase hlink rfl le_rfl (.inr (.inl rfl)))
    (fun _ _ _ _ => importing_of_ne (by rw [hph]; decide)))
  have hretires : replacedByReset reset g → ages g.phase .retired := fun h => by
    simp only [replacedByReset, Bool.and_eq_true, decide_eq_true_eq] at h
    rw [h.2]
    rfl
  have hpublishes : ∀ g, stagedByReset reset g → ages g.phase .current := fun g h => by
    rw [(staging_of_stagedByReset h).2]
    rfl
  have hfst := setGeneration_row (replacedByReset reset) hretires
  have hsnd := setGeneration_row (stagedByReset reset) (hpublishes
    (if replacedByReset reset g then { g with phase := .retired } else g))
  refine ⟨_, ?_, hsnd.1.trans hfst.1, ages_trans hfst.2 hsnd.2⟩
  rw [setGeneration_ok hgens, setGeneration_ok hretd]
  exact List.mem_map_of_mem (List.mem_map_of_mem hg)

theorem recordResetQuarantine_keeps (hreads : Reads s computer job)
    (reset : StorageReset) (quarantine : Check × Nat) :
    Keeps copies s (recordResetQuarantine computer reset quarantine s) := by
  unfold recordResetQuarantine
  refine .refuseIf fun _ => .check fun _ _ => .refuseIf fun _ =>
    .pure ?_
  exact onward_retouch hinv hreads.computer_find ⟨rfl, rfl, le_rfl, rfl, rfl⟩ (.inl ⟨rfl, rfl⟩)
    (.inl rfl)

theorem acknowledgeComputerStorageRetirement_keeps {request : RetirementAcknowledgement} :
    Keeps copies s (acknowledgeComputerStorageRetirement ctx computerID request s) := by
  unfold acknowledgeComputerStorageRetirement
  refine .check fun _ _ => reading fun hreads _ => .orRefuse fun reset _ => .refuseIf fun _ =>
    .check fun _ _ => ?_
  split
  · exact recordResetQuarantine_keeps hinv hreads reset _
  split
  · exact .pure (.refl hinv)
  · refine .refuseIf fun howns => .check fun resumed hresumed =>
      .pure ?_
    rw [not_or, not_or, not_or, not_not, not_not, not_not, not_not] at howns
    exact onward_steerComputer hinv hreads (resumedJob_steers (hreads.service hinv) hresumed)
      ⟨rfl, rfl, le_rfl, rfl, rfl⟩ (free_of_phase howns.2.2.2 (by decide)) (.inr rfl)

/-! ## 7. Growth -/

/-- **Growth** touches no generation before it is reported. -/
theorem beginComputerGrow_keeps {request : GrowRequest} :
    Keeps copies s (beginComputerGrow computerID request s) := by
  unfold beginComputerGrow
  refine .refuseIf fun _ => reading fun {computer job} hreads _ => .refuseIf fun _ => ?_
  split
  · exact .pure (.refl hinv)
  refine .check fun _ _ => .check fun node hdec => .pure ?_
  have hstab := computerGrowDecision_ok hdec
  have hretc : Retouched computer
      (growingComputer computer request node.1 node.2 s.nextID) :=
    ⟨rfl, rfl, Nat.le_succ _, rfl, rfl⟩
  have hplan := onward_retouch hinv hreads.computer_find hretc
    (.inr (free_of_phase hstab (by decide))) (.inr rfl)
  exact hplan.trans hinv (onward_nextID hplan.inv (Nat.le_succ _))

/-- The Job of a grow that found no room has the failure on record. -/
theorem onward_refusedGrowJob (grow : StorageGrow) (receipt : GrowReceipt) :
    Onward copies noLeave s (updateJob s grow.jobID (refusedGrowJob grow receipt)) := by
  unfold updateJob
  split
  · exact .refl hinv
  next job hfind =>
    have hself := find_self hfind
    cases hsvc : job.service with
    | none =>
      have hsame : refusedGrowJob grow receipt job = job := by
        unfold refusedGrowJob Job.updateService
        rw [hsvc]
        cases job
        cases hsvc
        rfl
      rw [hsame]
      exact onward_setJob hinv (fun _ => not_false) hself (.refl .none s job) (Rebinds.refl s job)
    | some service =>
      exact onward_steer hinv hself ((Steers.refl (by rw [hsvc]; rfl)).updateService _)

theorem acknowledgeComputerStorageGrow_keeps {request : GrowAcknowledgement} :
    Keeps copies s (acknowledgeComputerStorageGrow computerID request s) := by
  unfold acknowledgeComputerStorageGrow
  refine .check fun _ _ => reading fun {computer job} hreads _ => .orRefuse fun grow _ =>
    .check fun _ _ => .refuseIf fun _ => .check fun _ _ => .refuseIf fun _ => ?_
  split
  · exact .pure (.refl hinv)
  refine .refuseIf fun howns => .pure ?_
  rw [not_or, not_or, not_or, not_or, not_not, not_not, not_not, not_not, not_not] at howns
  have hne : computer.phase ≠ .removing := by rw [howns.2.1]; decide
  cases request.receipt.applied with
  | false =>
    have hset := onward_refusedGrowJob hinv grow request.receipt
    have hfind : (updateJob s grow.jobID
        (refusedGrowJob grow request.receipt)).computers.find computer.computerID =
        some computer := by
      unfold updateJob
      split <;> exact hreads.computer_find
    exact hset.trans hinv (onward_retouch hset.inv hfind ⟨rfl, rfl, le_rfl, rfl, rfl⟩
      (.inr (free_of_phase howns.2.1 (by decide))) (.inr rfl))
  | true =>
    have hrow := grownGenerations_row grow
    refine onward_setComputer hinv hreads.computer_find rfl
      (follows_of_map rfl le_rfl rfl fun g _ => ⟨(hrow g).1, ?_⟩)
      (stored_of_retire rfl rfl (fun g _ => ⟨(hrow g).1, (hrow g).2.symm.trans⟩) rfl)
      (fun _ hplace => placed_of_phase hplace rfl (fun _ => hne) (.inr (.inl rfl)))
      (fun _ _ hlink => linked_of_phase hlink rfl le_rfl (.inr (.inr rfl)))
      (fun _ _ _ _ => importing_of_ne (by rw [howns.2.1]; decide))
    rw [(hrow g).2]
    exact ages_refl g.phase

/-! ## 8. Every call -/

/-- **Every call about a Computer** keeps the invariants. -/
theorem computerCall_keeps {call : ComputerCall} : Keeps copies s (call.tx ctx computerID s) := by
  cases call with
  | setDesiredState => exact setComputerDesiredState_keeps hinv
  | restart => exact restartComputer_keeps hinv
  | remove => exact removeComputer_keeps hinv
  | beginReconfiguration => exact beginReconfiguration_keeps hinv
  | finishReconfiguration => exact finishReconfiguration_keeps hinv
  | abortReconfiguration => exact abortComputerReconfiguration_keeps hinv
  | beginRestore => exact beginComputerRestore_keeps hinv
  | acknowledgeStorageCopy => exact acknowledgeComputerStorageCopy_keeps hinv
  | publishStorageCopy => exact publishVerifiedComputerStorageCopy_keeps hinv
  | acknowledgeRestoreRetirement => exact acknowledgeComputerRestoreRetirement_keeps hinv
  | beginStorageReset => exact beginComputerStorageReset_keeps hinv
  | recordResetVerification => exact recordComputerStorageResetVerification_keeps hinv
  | publishStorageReset => exact publishVerifiedComputerStorageReset_keeps hinv
  | acknowledgeStorageRetirement => exact acknowledgeComputerStorageRetirement_keeps hinv
  | beginGrow => exact beginComputerGrow_keeps hinv
  | acknowledgeStorageGrow => exact acknowledgeComputerStorageGrow_keeps hinv

end

end Wefty.StorageSteps
