/-
Lease expiry in two languages (`attemptLeaseExpired` and `attemptLeaseLiveSQL` of
`l1/attempt_time.go`, `expiredAttemptsSQL` of `l1/recovery.go`).

The doors ask Go whether a lease has run out; the queries ask SQL whether it is live. Go answers
with three values: live, expired, or an error where the sleep of the host leaves it open. SQL
answers with two, on one of two clocks: authority takes off only the sleep that is proved, expiry
all the sleep that is possible.

The scan of a reconciliation pass is a union of three queries, each of which
walks an index of its own up to now: one over wall expiry, one over the deadlines of this boot, one
over cancellations. An attempt that no branch lists is a lease that never expires, so what matters
is that the union is exactly the verdict of Go.
-/
import Mathlib.Data.List.Dedup
import Wefty.SqlTruth
import Wefty.Recovery

set_option autoImplicit false

namespace Wefty.ExpiryScan

open Tables Rows StoreRows AttemptClock LeaseSleep SqlTruth AttemptAuthority ControlStore Recovery

variable {a : Attempt} {clock : Clock} {ctx : Ctx} {job : Job} {id : Nat} {s : Store}
variable {now : Int}

/-! ## 1. Clocks

The uncertainty of a clock is a length of time: a door subtracts what is proved from what is
possible. Everything else about a clock is free. -/

def attemptClock (boot : String) (ns : Int) (err : Option ClockError)
    (sleepOffset : Option SleepClockOffset) (sleepGap : Int) (sleepUncertainty : ℕ) : Clock :=
  ⟨boot, ns, err, sleepOffset, sleepGap, sleepUncertainty⟩

theorem eq_attemptClock (h : 0 ≤ clock.sleepUncertainty) :
    ∃ uncertainty : ℕ, clock = attemptClock clock.boot clock.ns clock.err clock.sleepOffset
      clock.sleepGap uncertainty := by
  obtain ⟨n, hn⟩ := Int.eq_ofNat_of_zero_le h
  refine ⟨n, ?_⟩
  unfold attemptClock
  rw [← hn]

theorem withAttemptClock_sleepUncertainty {reads : ClockReads} :
    (withAttemptClock reads).sleepUncertainty = 0 := by
  unfold withAttemptClock
  cases reads.bootTime <;> dsimp only <;> split <;> (try split) <;> (try split) <;> rfl

/-- **The clock of a reading door** is such a clock, whatever it read and found. -/
theorem readDoor_nonneg (rows : LeaseRows) (reads : ClockReads) :
    0 ≤ (readDoor rows (withAttemptClock reads)).sleepUncertainty := by
  unfold readDoor
  cases hoffset : (currentAttemptClock (withAttemptClock reads)).sleepOffset with
  | none =>
    simp only [hoffset]
    exact (withAttemptClock_sleepUncertainty).ge
  | some o =>
    simp only [hoffset]
    exact sub_nonneg.mpr (provedGap_le_possibleGap _ _ _)

/-- **The clock of a writing door** is one too. -/
theorem writeDoor_nonneg {rows rows' : LeaseRows} {reads : ClockReads}
    (h : writeDoor rows (withAttemptClock reads) = .ok (rows', clock)) :
    0 ≤ clock.sleepUncertainty := by
  unfold writeDoor at h
  cases hoffset : (currentAttemptClock (withAttemptClock reads)).sleepOffset with
  | none =>
    simp only [hoffset, Except.ok.injEq, Prod.mk.injEq] at h
    rw [← h.2]
    exact (withAttemptClock_sleepUncertainty).ge
  | some o =>
    simp only [hoffset] at h
    split at h
    · cases h
    · cases h
      exact sub_nonneg.mpr (provedGap_le_possibleGap _ _ _)

/-! ## 2. The predicate, as SQL evaluates it -/

/-- `attemptClock.sqlBoot`: NULL for a clock with an error. -/
def sqlBoot (clock : Clock) : Option String := if clock.err ≠ none then none else some clock.boot

/-- `attemptLeaseLiveSQL`, on one row and three arguments. -/
def leaseLive (boot : Option String) (elapsed wall : Int) (a : Attempt) : Truth :=
  conj (isNotNull boot)
    (caseWhen
      (conj (conj (relate (· ≠ ·) (some a.leaseBootID) (some ""))
        (relate (· = ·) (some a.leaseBootID) boot))
        (relate (· > ·) (some a.leaseDeadlineNS) (some 0)))
      (relate (· > ·) (some a.leaseDeadlineNS) (some elapsed))
      (relate (· > ·) (some a.leaseExpires) (some wall)))

/-- The predicate under `attemptLeaseArguments`. -/
def leaseLiveUnder (ctx : Clock) (now : Int) (a : Attempt) : Truth :=
  let clock := currentAttemptClock ctx
  leaseLive (sqlBoot clock) clock.ns (leaseWallTime ctx now) a

/-- **NULL never comes out.** A clock with an error makes the predicate false, and on any other
clock nothing in it is NULL. -/
theorem leaseLiveUnder_eq {ctx : Clock} :
    leaseLiveUnder ctx now a = some (attemptLeaseLiveSQL ctx now a) := by
  unfold leaseLiveUnder leaseLive attemptLeaseLiveSQL sqlBoot
  cases herr : (currentAttemptClock ctx).err with
  | some err => simp [herr]
  | none =>
    -- The condition of the `CASE` is the one of the `if`, and each branch a comparison of numbers.
    have hcase : (((!decide (a.leaseBootID = "")) &&
        decide (a.leaseBootID = (currentAttemptClock ctx).boot)) &&
          decide (0 < a.leaseDeadlineNS)) = true ↔
        a.leaseBootID ≠ "" ∧ a.leaseBootID = (currentAttemptClock ctx).boot ∧
          0 < a.leaseDeadlineNS := by
      simp [and_assoc]
    simp only [herr, ne_eq, not_true_eq_false, if_false, isNotNull_some, relate_some, conj_some,
      gt_iff_lt, decide_not, caseWhen_some, hcase, Option.isNone_none, Bool.true_and]
    split <;> simp

/-! ## 3. Three answers from two clocks -/

theorem running_or_error {ctx : Clock} :
    Running ctx ∨ ∃ err, (currentAttemptClock ctx).err = some err := by
  unfold currentAttemptClock
  by_cases hmiss : ctx.boot = "" ∧ ctx.err = none
  · rw [if_pos hmiss]
    exact .inr ⟨_, rfl⟩
  · rw [if_neg hmiss]
    cases herr : ctx.err with
    | some err => exact .inr ⟨err, rfl⟩
    | none => exact .inl ⟨fun hboot => hmiss ⟨hboot, herr⟩, herr⟩

theorem withAttemptExpiryClock_current {ctx : Clock} :
    currentAttemptClock (withAttemptExpiryClock ctx) = withAttemptExpiryClock ctx := by
  rcases running_or_error with hrun | ⟨err, herr⟩
  · exact hrun.expiryClock.2.current
  · refine if_neg fun hmiss => ?_
    have hsame : (withAttemptExpiryClock ctx).err = some err := herr
    rw [hmiss.2] at hsame
    cases hsame

/-- Without a clock Go does not answer, -/
theorem attemptLeaseExpired_of_error {ctx : Clock} {err : ClockError}
    (herr : (currentAttemptClock ctx).err = some err) (hact : a.state.active) (now : Int) :
    ∃ e, attemptLeaseExpired ctx now a = .error e := by
  unfold attemptLeaseExpired
  cases err with
  | missing =>
    simp only [herr]
    exact ⟨_, rfl⟩
  | read =>
    simp only [herr, hact, if_true]
    exact ⟨_, rfl⟩

/-- and SQL finds nothing live. -/
theorem attemptLeaseLiveSQL_of_error {ctx : Clock} {err : ClockError}
    (herr : (currentAttemptClock ctx).err = some err) : attemptLeaseLiveSQL ctx now a = false := by
  simp [attemptLeaseLiveSQL, herr]

theorem expired_iff_live (hc : Running clock) (hact : a.state.active) (now : Int) :
    ∃ deadline time, attemptLeaseExpired clock now a =
        leaseVerdict deadline time clock.sleepUncertainty ∧
      attemptLeaseLiveSQL clock now a = decide (time < deadline) ∧
      attemptLeaseLiveSQL (withAttemptExpiryClock clock) now a =
        decide (time - clock.sleepUncertainty < deadline) := by
  obtain ⟨hexpiry, hrun⟩ := hc.expiryClock
  by_cases he : elapsedLease clock a
  · -- The lease is dated by the elapsed time of this boot.
    refine ⟨a.leaseDeadlineNS, clock.ns, attemptLeaseExpired_elapsed hc hact he now,
      attemptLeaseLiveSQL_elapsed hc he now, ?_⟩
    have he' : elapsedLease (withAttemptExpiryClock clock) a := by
      rw [hexpiry]
      exact he
    rw [attemptLeaseLiveSQL_elapsed hrun he', hexpiry]
  · -- It is dated by wall time.
    refine ⟨a.leaseExpires, now - clock.sleepGap, attemptLeaseExpired_wall hc hact he now,
      attemptLeaseLiveSQL_wall hc he now, ?_⟩
    have he' : ¬ elapsedLease (withAttemptExpiryClock clock) a := by
      rw [hexpiry]
      exact he
    rw [attemptLeaseLiveSQL_wall hrun he', hexpiry]
    have harith : now - (clock.sleepGap + clock.sleepUncertainty) =
        now - clock.sleepGap - clock.sleepUncertainty := by omega
    simp only [harith]

theorem error_iff {x : Except LeaseError Bool} :
    (∃ e, x = .error e) ↔ ¬ x = .ok false ∧ ¬ x = .ok true := by
  rcases x with e | _ | _ <;> simp

theorem leaseVerdict_eq_ok_false {deadline time uncertainty : Int} :
    leaseVerdict deadline time uncertainty = .ok false ↔ time < deadline := by
  unfold leaseVerdict
  by_cases hpast : deadline ≤ time
  · rw [if_pos hpast]
    constructor
    · intro h
      split at h <;> cases h
    · intro h
      omega
  · rw [if_neg hpast]
    exact ⟨fun _ => (by omega), fun _ => rfl⟩

theorem leaseVerdict_eq_ok_true {deadline time uncertainty : Int} (hu : 0 ≤ uncertainty) :
    leaseVerdict deadline time uncertainty = .ok true ↔ ¬ time - uncertainty < deadline := by
  unfold leaseVerdict
  by_cases hpast : deadline ≤ time
  · rw [if_pos hpast]
    by_cases hopen : time - uncertainty < deadline
    · rw [if_pos hopen]
      exact ⟨fun h => (by cases h), fun h => absurd hopen h⟩
    · rw [if_neg hopen]
      exact ⟨fun _ => hopen, fun _ => rfl⟩
  · rw [if_neg hpast]
    exact ⟨fun h => (by cases h), fun h => (by omega)⟩

section
variable (hact : a.state.active)
include hact

theorem lease_live_iff :
    attemptLeaseExpired clock now a = .ok false ↔ attemptLeaseLiveSQL clock now a = true := by
  rcases running_or_error with hrun | ⟨clockErr, herr⟩
  · obtain ⟨deadline, time, hgo, hauth, -⟩ := expired_iff_live hrun hact now
    rw [hgo, hauth, decide_eq_true_eq]
    exact leaseVerdict_eq_ok_false
  · obtain ⟨e, hgo⟩ := attemptLeaseExpired_of_error herr hact now
    rw [hgo, attemptLeaseLiveSQL_of_error herr]
    exact ⟨fun h => (by cases h), fun h => (by cases h)⟩

variable (hnonneg : 0 ≤ clock.sleepUncertainty)
include hnonneg

/-- Go finds a lease expired where, on a good clock, the query of expiry does not find it live. -/
theorem lease_expired_iff : attemptLeaseExpired clock now a = .ok true ↔
    attemptLeaseLiveSQL (withAttemptExpiryClock clock) now a = false ∧
      (currentAttemptClock clock).err = none := by
  rcases running_or_error with hrun | ⟨clockErr, herr⟩
  · obtain ⟨deadline, time, hgo, -, hexpiry⟩ := expired_iff_live hrun hact now
    have herr : (currentAttemptClock clock).err = none := by
      rw [hrun.current]
      exact hrun.err
    rw [hgo, hexpiry, herr, decide_eq_false_iff_not]
    exact (leaseVerdict_eq_ok_true hnonneg).trans (and_iff_left rfl).symm
  · obtain ⟨e, hgo⟩ := attemptLeaseExpired_of_error herr hact now
    rw [hgo, herr]
    exact ⟨fun h => (by cases h), fun h => (by cases h.2)⟩

/-- What is live with every possible sleep taken off was live with less of it taken off, or the
clock has an error. -/
theorem live_of_expiry_live (h : attemptLeaseLiveSQL clock now a = true) :
    attemptLeaseLiveSQL (withAttemptExpiryClock clock) now a = true := by
  rcases running_or_error with hrun | ⟨clockErr, herr⟩
  · obtain ⟨deadline, time, -, hauth, hexpiry⟩ := expired_iff_live hrun hact now
    rw [hauth, decide_eq_true_eq] at h
    rw [hexpiry, decide_eq_true_eq]
    omega
  · rw [attemptLeaseLiveSQL_of_error herr] at h
    cases h

end

section
variable (boot : String) (ns : Int) (err : Option ClockError)
  (sleepOffset : Option SleepClockOffset) (sleepGap : Int) (uncertainty : ℕ)

/-- **Go and SQL agree on every lease.** For an active attempt and any clock, Go finds the lease
live exactly where the query of authority does, and expired exactly where the query of expiry does
not find it live and the clock has no error; everywhere else Go answers with an error. So no attempt
is live for one and expired for the other. -/
theorem lease_verdicts_agree (now : Int) (a : Attempt) (hact : a.state.active) :
    let clock := attemptClock boot ns err sleepOffset sleepGap uncertainty
    (attemptLeaseExpired clock now a = .ok false ↔ leaseLiveUnder clock now a = some true) ∧
    (attemptLeaseExpired clock now a = .ok true ↔
      leaseLiveUnder (withAttemptExpiryClock clock) now a = some false ∧
        (currentAttemptClock clock).err = none) ∧
    ((∃ e, attemptLeaseExpired clock now a = .error e) ↔
      ¬ leaseLiveUnder clock now a = some true ∧
        ¬ (leaseLiveUnder (withAttemptExpiryClock clock) now a = some false ∧
          (currentAttemptClock clock).err = none)) ∧
    (attemptLeaseExpired clock now a = .ok true → leaseLiveUnder clock now a = some false) ∧
    (leaseLiveUnder (withAttemptExpiryClock clock) now a = some false →
      attemptLeaseExpired clock now a ≠ .ok false) := by
  intro clock
  have hnonneg : 0 ≤ clock.sleepUncertainty := Int.natCast_nonneg uncertainty
  have hlive : attemptLeaseExpired clock now a = .ok false ↔ _ := lease_live_iff hact
  have hexp : attemptLeaseExpired clock now a = .ok true ↔ _ := lease_expired_iff hact hnonneg
  simp only [leaseLiveUnder_eq, Option.some.injEq]
  refine ⟨hlive, hexp, ?_, ?_, ?_⟩
  · rw [error_iff, hlive, hexp]
  · intro htrue
    by_contra hnot
    have hcredt := live_of_expiry_live hact hnonneg (Bool.eq_true_of_not_eq_false hnot)
    rw [(hexp.mp htrue).1] at hcredt
    cases hcredt
  · intro hdead hfalse
    have hcredt := live_of_expiry_live hact hnonneg (hlive.mp hfalse)
    rw [hdead] at hcredt
    cases hcredt

end

def sleepyAttempt : Attempt where
  attemptID := 1
  jobID := 1
  nodeID := 1
  bootSessionID := 1
  state := .running
  fencingToken := 1
  leaseExpires := 10
  leaseBootID := "boot"
  leaseDeadlineNS := 10
  authorityGeneration := 1
  createdNS := 0
  updatedAt := 0

/-- At 11, of which 2 may have been slept, Go does not answer: the lease is live for no authority,
and its expiry is not proved. -/
theorem lease_verdicts_agree_asleep :
    (∃ e, attemptLeaseExpired (attemptClock "boot" 11 none none 0 2) 11 sleepyAttempt = .error e) ∧
      attemptLeaseExpired (attemptClock "boot" 11 none none 0 1) 11 sleepyAttempt = .ok true :=
  ⟨(lease_verdicts_agree "boot" 11 none none 0 2 11 sleepyAttempt rfl).2.2.1.mpr
      ⟨by decide, by decide⟩,
    (lease_verdicts_agree "boot" 11 none none 0 1 11 sleepyAttempt rfl).2.1.mpr
      ⟨by decide, by decide⟩⟩

/-! ## 4. The scan -/

structure ScanArguments where
  leaseBootID : Option String
  leaseBootNS : Int
  nowNS : Int
  cancelNowNS : Int

/-- Leases on the clock with every possible sleep taken off, cancellations on the wall clock. -/
def expiredAttemptsArguments (ctx : Ctx) : ScanArguments :=
  let expiry := withAttemptExpiryClock ctx.clock
  let clock := currentAttemptClock expiry
  ⟨sqlBoot clock, clock.ns, leaseWallTime expiry ctx.now, ctx.now⟩

/-- `attempts JOIN jobs ON jobs.job_id=attempts.job_id`. -/
def attemptsWithJobs (s : Store) : List (Attempt × Job) :=
  s.attempts.rows.filterMap fun a => (s.jobs.find a.jobID).map fun job => (a, job)

/-- `jobs JOIN attempts ON attempts.attempt_id=jobs.current_attempt_id`. -/
def jobsWithAttempts (s : Store) : List (Attempt × Job) :=
  s.jobs.rows.filterMap fun job =>
    (job.currentAttemptID.bind s.attempts.find).map fun a => (a, job)

def ranOut (args : ScanArguments) (a : Attempt) (job : Job) : Truth :=
  conj (neg (leaseLive args.leaseBootID args.leaseBootNS args.nowNS a))
    (conj (relate (· = ·) job.currentAttemptID (some a.attemptID)) (some job.state.holding))

def ranOutByWall (args : ScanArguments) (a : Attempt) (job : Job) : Truth :=
  conj (isNotNull args.leaseBootID) (conj (some a.state.active)
    (conj (relate (· ≤ ·) (some a.leaseExpires) (some args.nowNS)) (ranOut args a job)))

def ranOutByBoot (args : ScanArguments) (a : Attempt) (job : Job) : Truth :=
  conj (isNotNull args.leaseBootID) (conj (some a.state.active)
    (conj (relate (· = ·) (some a.leaseBootID) args.leaseBootID)
      (conj (relate (· > ·) (some a.leaseDeadlineNS) (some 0))
        (conj (relate (· ≤ ·) (some a.leaseDeadlineNS) (some args.leaseBootNS))
          (ranOut args a job)))))

def canceledPast (args : ScanArguments) (a : Attempt) (job : Job) : Truth :=
  conj (some job.canceled) (conj (some job.state.holding)
    (conj (relate (· ≤ ·) (some job.cancelSettleByNS) (some args.cancelNowNS))
      (conj (relate (· = ·) (some a.jobID) (some job.jobID)) (some a.state.active))))

def selected (rows : List (Attempt × Job)) (p : Attempt → Job → Truth) : List Nat :=
  (rows.filter fun row => holds (p row.1 row.2)).map fun row => row.1.attemptID

/-- `expiredAttemptsSQL`; `UNION` removes duplicates. -/
def expiredAttemptsSQL (args : ScanArguments) (s : Store) : List Nat :=
  (selected (attemptsWithJobs s) (ranOutByWall args) ++
    selected (attemptsWithJobs s) (ranOutByBoot args) ++
    selected (jobsWithAttempts s) (canceledPast args)).dedup

theorem mem_selected {rows : List (Attempt × Job)} {p : Attempt → Job → Truth} :
    id ∈ selected rows p ↔
      ∃ a job, (a, job) ∈ rows ∧ holds (p a job) = true ∧ a.attemptID = id := by
  simp [selected, and_assoc]

theorem mem_attemptsWithJobs : (a, job) ∈ attemptsWithJobs s ↔
    s.attempts.find a.attemptID = some a ∧ s.jobs.find a.jobID = some job := by
  unfold attemptsWithJobs
  rw [← Table.mem_rows_iff, List.mem_filterMap]
  constructor
  · rintro ⟨a', ha, hjoin⟩
    obtain ⟨job', hjob, heq⟩ := Option.map_eq_some_iff.mp hjoin
    cases heq
    exact ⟨ha, hjob⟩
  · rintro ⟨ha, hjob⟩
    exact ⟨a, ha, by rw [hjob]; rfl⟩

theorem mem_jobsWithAttempts : (a, job) ∈ jobsWithAttempts s ↔
    s.attempts.find a.attemptID = some a ∧ s.jobs.find job.jobID = some job ∧
      job.currentAttemptID = some a.attemptID := by
  unfold jobsWithAttempts
  rw [← Table.mem_rows_iff (t := s.jobs), List.mem_filterMap]
  constructor
  · rintro ⟨job', hjob, hjoin⟩
    obtain ⟨a', ha, heq⟩ := Option.map_eq_some_iff.mp hjoin
    cases heq
    obtain ⟨current, hcur, hfind⟩ := Option.bind_eq_some_iff.mp ha
    obtain rfl : a.attemptID = current := Table.key_of_find hfind
    exact ⟨hfind, hjob, hcur⟩
  · rintro ⟨ha, hjob, hcur⟩
    exact ⟨job, hjob, by rw [hcur, Option.bind_some, ha]; rfl⟩

theorem holds_ranOut :
    holds (ranOut (expiredAttemptsArguments ctx) a job) = true ↔
      attemptLeaseLiveSQL (withAttemptExpiryClock ctx.clock) ctx.now a = false ∧
        job.currentAttemptID = some a.attemptID ∧ job.state.holding = true := by
  have hlive : leaseLive (expiredAttemptsArguments ctx).leaseBootID
      (expiredAttemptsArguments ctx).leaseBootNS (expiredAttemptsArguments ctx).nowNS a =
      some (attemptLeaseLiveSQL (withAttemptExpiryClock ctx.clock) ctx.now a) :=
    leaseLiveUnder_eq
  unfold ranOut
  rw [holds_conj, holds_conj, hlive, neg_some, holds_some, holds_some]
  cases hcur : job.currentAttemptID with
  | none => simp
  | some current => simp [relate_some]

/-- A lease of this boot that is not live is in the range of its deadline, any other in that of its
wall expiry. -/
theorem past_of_not_live (hrun : Running clock)
    (hdead : attemptLeaseLiveSQL clock now a = false) :
    elapsedLease clock a ∧ a.leaseDeadlineNS ≤ clock.ns ∨
      a.leaseExpires ≤ now - clock.sleepGap := by
  by_cases helap : elapsedLease clock a
  · have hpast := attemptLeaseLiveSQL_elapsed hrun helap now
    rw [hdead] at hpast
    have hdeadline := of_decide_eq_false hpast.symm
    exact .inl ⟨helap, by omega⟩
  · have hpast := attemptLeaseLiveSQL_wall hrun helap now
    rw [hdead] at hpast
    have hwall := of_decide_eq_false hpast.symm
    exact .inr (by omega)

/-- **The index ranges cover the predicate.** A lease that is not live on a good clock is past its
deadline of this boot, or past its wall expiry. -/
theorem holds_lease_branches : (holds (ranOutByWall (expiredAttemptsArguments ctx) a job) = true ∨
      holds (ranOutByBoot (expiredAttemptsArguments ctx) a job) = true) ↔
      (currentAttemptClock ctx.clock).err = none ∧ a.state.active = true ∧
        attemptLeaseLiveSQL (withAttemptExpiryClock ctx.clock) ctx.now a = false ∧
        job.currentAttemptID = some a.attemptID ∧ job.state.holding = true := by
  rcases running_or_error with hrun | ⟨err, herr⟩
  · obtain ⟨hexpiry, hrun'⟩ := hrun.expiryClock
    have hboot : (expiredAttemptsArguments ctx).leaseBootID = some ctx.clock.boot := by
      show sqlBoot (currentAttemptClock (withAttemptExpiryClock ctx.clock)) = _
      rw [hrun'.current, hexpiry, sqlBoot, if_neg fun h => h hrun.err]
    have hns : (expiredAttemptsArguments ctx).leaseBootNS =
        (withAttemptExpiryClock ctx.clock).ns := by
      show (currentAttemptClock (withAttemptExpiryClock ctx.clock)).ns = _
      rw [hrun'.current]
    have hnow : (expiredAttemptsArguments ctx).nowNS =
        ctx.now - (withAttemptExpiryClock ctx.clock).sleepGap := by
      show leaseWallTime (withAttemptExpiryClock ctx.clock) ctx.now = _
      rw [leaseWallTime, hrun'.current]
    have herr : (currentAttemptClock ctx.clock).err = none := by
      rw [hrun.current]
      exact hrun.err
    unfold ranOutByWall ranOutByBoot
    simp only [holds_conj, Bool.and_eq_true, holds_ranOut, holds_some, relate_some,
      decide_eq_true_eq, hboot, hns, hnow, isNotNull_some, true_and, herr, gt_iff_lt]
    constructor
    · rintro (⟨hact, -, hrest⟩ | ⟨hact, -, -, -, hrest⟩)
      · exact ⟨hact, hrest⟩
      · exact ⟨hact, hrest⟩
    · rintro ⟨hact, hdead, hrest⟩
      rcases past_of_not_live hrun' hdead with ⟨helap, hdeadline⟩ | hwall
      · have hsame : a.leaseBootID = ctx.clock.boot := by
          rw [helap.2.1, hexpiry]
        exact .inr ⟨hact, hsame, helap.2.2, hdeadline, hdead, hrest⟩
      · exact .inl ⟨hact, hwall, hdead, hrest⟩
  · -- Without a clock the boot is NULL, and neither branch selects anything.
    have hboot : (expiredAttemptsArguments ctx).leaseBootID = none := by
      show sqlBoot (currentAttemptClock (withAttemptExpiryClock ctx.clock)) = none
      have hsame : (currentAttemptClock (withAttemptExpiryClock ctx.clock)).err = some err := by
        rw [withAttemptExpiryClock_current, withAttemptExpiryClock]
        exact herr
      rw [sqlBoot, hsame]
      rfl
    unfold ranOutByWall ranOutByBoot
    simp [hboot, herr]

theorem holds_canceledPast :
    holds (canceledPast (expiredAttemptsArguments ctx) a job) = true ↔
      job.canceled = true ∧ job.state.holding = true ∧ job.cancelSettleByNS ≤ ctx.now ∧
        a.jobID = job.jobID ∧ a.state.active = true := by
  simp [canceledPast, expiredAttemptsArguments]

/-- What the union selects, before the verdict of Go comes in. -/
theorem mem_expiredAttemptsSQL :
    id ∈ expiredAttemptsSQL (expiredAttemptsArguments ctx) s ↔
      ∃ a job, s.attempts.find id = some a ∧ a.state.active = true ∧
        s.jobs.find a.jobID = some job ∧ job.currentAttemptID = some id ∧
        job.state.holding = true ∧
        ((currentAttemptClock ctx.clock).err = none ∧
            attemptLeaseLiveSQL (withAttemptExpiryClock ctx.clock) ctx.now a = false ∨
          job.canceled = true ∧ job.cancelSettleByNS ≤ ctx.now) := by
  unfold expiredAttemptsSQL
  simp only [List.mem_dedup, List.mem_append, mem_selected, mem_attemptsWithJobs,
    mem_jobsWithAttempts]
  constructor
  · rintro ((⟨a, job, ⟨ha, hjob⟩, hholds, rfl⟩ | ⟨a, job, ⟨ha, hjob⟩, hholds, rfl⟩) |
      ⟨a, job, ⟨ha, hjob, hcur⟩, hholds, rfl⟩)
    · obtain ⟨herr, hact, hdead, hcur, hhold⟩ := holds_lease_branches.mp (.inl hholds)
      exact ⟨a, job, ha, hact, hjob, hcur, hhold, .inl ⟨herr, hdead⟩⟩
    · obtain ⟨herr, hact, hdead, hcur, hhold⟩ := holds_lease_branches.mp (.inr hholds)
      exact ⟨a, job, ha, hact, hjob, hcur, hhold, .inl ⟨herr, hdead⟩⟩
    · obtain ⟨hcan, hhold, hdue, hown, hact⟩ := holds_canceledPast.mp hholds
      rw [← hown] at hjob
      exact ⟨a, job, ha, hact, hjob, hcur, hhold, .inr ⟨hcan, hdue⟩⟩
  · rintro ⟨a, job, ha, hact, hjob, hcur, hhold, hlease | hcanl⟩
    · obtain rfl : a.attemptID = id := Table.key_of_find ha
      rcases holds_lease_branches.mpr ⟨hlease.1, hact, hlease.2, hcur, hhold⟩ with hwall | hboot
      · exact .inl (.inl ⟨a, job, ⟨ha, hjob⟩, hwall, rfl⟩)
      · exact .inl (.inr ⟨a, job, ⟨ha, hjob⟩, hboot, rfl⟩)
    · obtain rfl : a.attemptID = id := Table.key_of_find ha
      have hown : job.jobID = a.jobID := Table.key_of_find hjob
      refine .inr ⟨a, job, ⟨ha, hown.symm ▸ hjob, hcur⟩, ?_, rfl⟩
      exact holds_canceledPast.mpr ⟨hcanl.1, hhold, hcanl.2, hown.symm, hact⟩

theorem leaseRanOut_iff : leaseRanOut ctx a = true ↔ (currentAttemptClock ctx.clock).err = none ∧
      attemptLeaseLiveSQL (withAttemptExpiryClock ctx.clock) ctx.now a = false := by
  have herr : (currentAttemptClock (withAttemptExpiryClock ctx.clock)).err =
      (currentAttemptClock ctx.clock).err := by
    rw [withAttemptExpiryClock_current]
    rfl
  unfold leaseRanOut
  simp only [herr, Bool.and_eq_true, Bool.or_eq_true, decide_eq_true_eq, Option.isNone_iff_eq_none,
    Bool.not_eq_true']
  constructor
  · rintro ⟨⟨hgood, -⟩, hdead⟩
    exact ⟨hgood, hdead⟩
  rintro ⟨hgood, hdead⟩
  refine ⟨⟨hgood, ?_⟩, hdead⟩
  rcases running_or_error with hrun | ⟨err, hfail⟩
  · obtain ⟨-, hrun'⟩ := hrun.expiryClock
    rw [leaseWallTime, hrun'.current]
    rcases past_of_not_live hrun' hdead with ⟨helap, hdeadline⟩ | hwall
    · exact .inr ⟨⟨helap.2.1, helap.2.2⟩, hdeadline⟩
    · exact .inl hwall
  · rw [hfail] at hgood
    cases hgood

/-- **The pass settles what the scan selects**: the filter of `Recovery.reconcile` lists the same
attempts. -/
theorem mem_expiring_iff :
    id ∈ (s.attempts.rows.filter (expiring ctx s)).map Attempt.attemptID ↔
      id ∈ expiredAttemptsSQL (expiredAttemptsArguments ctx) s := by
  rw [mem_expiredAttemptsSQL]
  constructor
  · intro h
    obtain ⟨a, hmem, rfl⟩ := List.mem_map.mp h
    obtain ⟨hrow, hexpiring⟩ := List.mem_filter.mp hmem
    unfold expiring at hexpiring
    simp only [Bool.and_eq_true, Option.any_eq_true, decide_eq_true_eq, Bool.or_eq_true,
      leaseRanOut_iff] at hexpiring
    obtain ⟨hact, job, hjob, ⟨hcur, hhold⟩, hdue⟩ := hexpiring
    refine ⟨a, job, Table.mem_rows_iff.mp hrow, hact, hjob, hcur, hhold, ?_⟩
    simpa [cancelDue] using hdue
  · rintro ⟨a, job, ha, hact, hjob, hcur, hhold, hdue⟩
    have hkey : a.attemptID = id := Table.key_of_find ha
    refine List.mem_map.mpr ⟨a, List.mem_filter.mpr ⟨Table.mem_of_find ha, ?_⟩, hkey⟩
    unfold expiring
    simp only [Bool.and_eq_true, Option.any_eq_true, decide_eq_true_eq, Bool.or_eq_true,
      leaseRanOut_iff]
    refine ⟨hact, job, hjob, ⟨hkey.symm ▸ hcur, hhold⟩, ?_⟩
    simpa [cancelDue] using hdue

section
variable (boot : String) (ns : Int) (err : Option ClockError)
  (sleepOffset : Option SleepClockOffset) (sleepGap : Int) (uncertainty : ℕ)

/-- **The scan is exact.** On any store and any clock it selects, each once, the active attempts
that are the current one of a job that may be executing, and whose lease Go finds expired on a good
clock or whose job was canceled and is past its settlement deadline. -/
theorem expiry_scan_is_exact (config : Config) (now : Int) (jitter : Int → Int) (s : Store) :
    let clock := attemptClock boot ns err sleepOffset sleepGap uncertainty
    let scan := expiredAttemptsSQL (expiredAttemptsArguments ⟨config, now, clock, jitter⟩) s
    scan.Nodup ∧ ∀ id, id ∈ scan ↔ ∃ a job, s.attempts.find id = some a ∧
      a.state.active = true ∧ s.jobs.find a.jobID = some job ∧ job.currentAttemptID = some id ∧
      job.state.holding = true ∧
      ((currentAttemptClock clock).err = none ∧ attemptLeaseExpired clock now a = .ok true ∨
        job.canceled = true ∧ job.cancelSettleByNS ≤ now) := by
  intro clock scan
  refine ⟨List.nodup_dedup _, fun id => ?_⟩
  rw [mem_expiredAttemptsSQL]
  -- Row by row, what is left is the agreement of the two languages on an active attempt.
  refine exists_congr fun a => exists_congr fun job => and_congr_right fun _ =>
    and_congr_right fun hact => and_congr_right fun _ => and_congr_right fun _ =>
    and_congr_right fun _ => or_congr_left ?_
  have hexp : attemptLeaseExpired clock now a = .ok true ↔ _ :=
    lease_expired_iff hact (Int.natCast_nonneg uncertainty)
  constructor
  · rintro ⟨herr, hdead⟩
    exact ⟨herr, hexp.mpr ⟨hdead, herr⟩⟩
  · rintro ⟨herr, htrue⟩
    exact ⟨herr, (hexp.mp htrue).1⟩

end

end Wefty.ExpiryScan
