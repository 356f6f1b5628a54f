/-
The clock a store transaction pins, and lease expiry read off it (`l1/attempt_time.go`).

Every store door samples three clocks around its wall timestamp: the pausing clock, the
boot clock, the pausing clock again. The boot reading dates a lease deadline that wall
steps cannot move; the two pausing readings bracket how much of the boot time the host
was awake. A lease granted in the current boot is compared by elapsed time, every other
lease by wall time, and a verdict the bracket cannot prove is an error, not an expiry.
-/
import Mathlib.Order.MinMax
import Mathlib.Algebra.Order.Ring.Int
import Wefty.Rows

set_option autoImplicit false

namespace Wefty.AttemptClock

open Rows

variable {a : Attempt}

/-! ## 1. Sampling -/

/-- What a pausing-clock read can fail with. `unavailable` is
`bootclock.ErrAwakeUnavailable`: the platform has no such clock. -/
inductive AwakeError
  | unavailable
  | failed

/-- The reads one door makes: its wall timestamp, whether the clock has a pausing source at
all, the pausing clock, the boot identity with the boot clock (`none` if that read
failed), and the pausing clock again. -/
structure ClockReads where
  now : Int
  measuresSleep : Bool
  before : Except AwakeError Int
  bootTime : Option (String × Int)
  after : Except AwakeError Int

/-- The true boot-minus-awake offset is inside `[lower, upper]`. -/
structure SleepClockOffset where
  lower : Int
  upper : Int
  le : lower ≤ upper
  deriving DecidableEq

inductive ClockError
  | missing
  | read
  deriving DecidableEq

structure Clock where
  boot : String
  ns : Int
  err : Option ClockError
  sleepOffset : Option SleepClockOffset
  sleepGap : Int
  sleepUncertainty : Int
  deriving DecidableEq

variable {clock : Clock}

/-- A clock that measures sleep but fails to do so is an error; a platform without a pausing clock
is not. -/
def withAttemptClock (reads : ClockReads) : Clock :=
  let base : Clock :=
    match reads.bootTime with
    | some (boot, ns) => ⟨boot, ns, none, none, 0, 0⟩
    | none => ⟨"", 0, some .read, none, 0, 0⟩
  if reads.measuresSleep then
    match reads.before, reads.after with
    | .error .unavailable, _ => base
    | .ok before, .ok after =>
      -- "pausing clock moved backwards"
      if h : after < before then { base with err := some .read }
      else
        match reads.bootTime with
        | some (_, ns) =>
          { base with sleepOffset := some ⟨ns - after, ns - before, by omega⟩ }
        | none => base
    | _, _ => { base with err := some .read }
  else base

/-- **What an offset sample means.** All four reads succeeded, the pausing clock did not go
backwards, and the offset is bracketed by the two pausing reads around the boot read. -/
theorem withAttemptClock_sleepOffset {reads : ClockReads} {o : SleepClockOffset}
    (h : (withAttemptClock reads).sleepOffset = some o) :
    ∃ before boot ns after, reads.before = .ok before ∧ reads.bootTime = some (boot, ns) ∧
      reads.after = .ok after ∧ o.lower = ns - after ∧ o.upper = ns - before ∧
      withAttemptClock reads = ⟨boot, ns, none, some o, 0, 0⟩ := by
  unfold withAttemptClock at h ⊢
  cases hboot : reads.bootTime with
  | none =>
    -- Without a boot reading no branch samples an offset.
    simp only [hboot] at h
    split at h <;> (try split at h) <;> (try split at h) <;> simp at h
  | some bootTime =>
    obtain ⟨boot, ns⟩ := bootTime
    simp only [hboot] at h ⊢
    split at h
    · rename_i hmeasures
      split at h
      · simp at h
      · rename_i before after hb ha
        split at h
        · simp at h
        · rename_i hback
          have ho : o = ⟨ns - after, ns - before, by omega⟩ := (Option.some.inj h).symm
          refine ⟨before, boot, ns, after, hb, rfl, ha, by rw [ho], by rw [ho], ?_⟩
          simp [hmeasures, hback, ho]
      · simp at h
    · simp at h

def currentAttemptClock (clock : Clock) : Clock :=
  if clock.boot = "" ∧ clock.err = none then ⟨"", 0, some .missing, none, 0, 0⟩ else clock

/-- The wall time of a lease comparison, with the proved credit taken off. -/
def leaseWallTime (clock : Clock) (now : Int) : Int :=
  now - (currentAttemptClock clock).sleepGap

def leaseExpiryWallTime (clock : Clock) (now : Int) : Int :=
  now - (currentAttemptClock clock).sleepGap - (currentAttemptClock clock).sleepUncertainty

def withAttemptExpiryClock (clock : Clock) : Clock :=
  let clock := currentAttemptClock clock
  { clock with
    ns := clock.ns - clock.sleepUncertainty
    sleepGap := clock.sleepGap + clock.sleepUncertainty
    sleepUncertainty := 0 }

/-! ## 2. Lease verdicts -/

/-- Why a lease verdict was refused. All three are internal errors under the text "read Attempt
lease clock". -/
inductive LeaseError
  | clockMissing
  | clockRead
  | uncertain
  deriving DecidableEq

def elapsedLease (clock : Clock) (a : Attempt) : Prop :=
  clock.boot ≠ "" ∧ a.leaseBootID = clock.boot ∧ 0 < a.leaseDeadlineNS

instance (clock : Clock) (a : Attempt) : Decidable (elapsedLease clock a) :=
  inferInstanceAs (Decidable (_ ∧ _ ∧ _))

def attemptLeaseExpired (ctx : Clock) (now : Int) (a : Attempt) : Except LeaseError Bool :=
  let clock := currentAttemptClock ctx
  match clock.err with
  | some .missing => .error .clockMissing
  | some .read =>
    -- A terminal attempt cannot regain authority, so its history needs no live clock.
    if a.state.active then .error .clockRead else .ok (decide (a.leaseExpires ≤ now))
  | none =>
    if elapsedLease clock a then
      let expired := decide (a.leaseDeadlineNS ≤ clock.ns)
      if expired ∧ a.state.active ∧ clock.ns - clock.sleepUncertainty < a.leaseDeadlineNS then
        .error .uncertain
      else .ok expired
    else
      let comparison := if a.state.active then leaseWallTime ctx now else now
      let expired := decide (a.leaseExpires ≤ comparison)
      if expired ∧ a.state.active ∧ leaseExpiryWallTime ctx now < a.leaseExpires then
        .error .uncertain
      else .ok expired

def attemptLeaseLive (ctx : Clock) (now : Int) (a : Attempt) : Except LeaseError Bool :=
  if a.state.active then (attemptLeaseExpired ctx now a).map (!·) else .ok false

/-- `attemptLeaseLiveSQL` under `attemptLeaseArguments`: the predicate of the authority and
expiry queries. `sqlBoot` is NULL for a clock with an error, and then no lease is live. -/
def attemptLeaseLiveSQL (ctx : Clock) (now : Int) (a : Attempt) : Bool :=
  let clock := currentAttemptClock ctx
  clock.err.isNone &&
    if a.leaseBootID ≠ "" ∧ a.leaseBootID = clock.boot ∧ 0 < a.leaseDeadlineNS then
      decide (clock.ns < a.leaseDeadlineNS)
    else decide (leaseWallTime ctx now < a.leaseExpires)

def attemptLeaseDeadline (ctx : Clock) (now expires : Int) : String × Int :=
  let clock := currentAttemptClock ctx
  if clock.err ≠ none ∨ clock.boot = "" then ("", 0) else (clock.boot, clock.ns + (expires - now))

/-! ## 3. Active leases under a running clock

For an active attempt the verdict depends on three numbers only: when the lease ends, what
the clock shows, and how much of that may still turn out to be sleep. -/

structure Running (clock : Clock) : Prop where
  boot : clock.boot ≠ ""
  err : clock.err = none

theorem Running.current (h : Running clock) : currentAttemptClock clock = clock :=
  if_neg fun hc => h.boot hc.1

/-- The three-way verdict on a lease that ends at `deadline`, at a time `time` of which
`uncertainty` may have been slept. -/
def leaseVerdict (deadline time uncertainty : Int) : Except LeaseError Bool :=
  if deadline ≤ time then
    if time - uncertainty < deadline then .error .uncertain else .ok true
  else .ok false

theorem leaseVerdict_add (deadline time uncertainty gap : Int) :
    leaseVerdict (deadline + gap) time uncertainty =
      leaseVerdict deadline (time - gap) uncertainty := by
  unfold leaseVerdict
  have h1 : deadline + gap ≤ time ↔ deadline ≤ time - gap := by omega
  have h2 : time - uncertainty < deadline + gap ↔ time - gap - uncertainty < deadline := by omega
  simp only [h1, h2]

/-- An expiry is proved even if all the uncertain time was slept. -/
theorem leaseVerdict_eq_true {deadline time uncertainty : Int}
    (h : leaseVerdict deadline time uncertainty = .ok true) : deadline ≤ time - uncertainty := by
  unfold leaseVerdict at h
  split at h
  · split at h
    · simp at h
    · omega
  · simp at h

theorem attemptLeaseExpired_elapsed (hc : Running clock) (hact : a.state.active)
    (he : elapsedLease clock a) (now : Int) :
    attemptLeaseExpired clock now a =
      leaseVerdict a.leaseDeadlineNS clock.ns clock.sleepUncertainty := by
  unfold attemptLeaseExpired leaseVerdict
  by_cases h : a.leaseDeadlineNS ≤ clock.ns <;> simp [hc.current, hc.err, he, hact, h]

theorem attemptLeaseExpired_wall (hc : Running clock) (hact : a.state.active)
    (he : ¬ elapsedLease clock a) (now : Int) :
    attemptLeaseExpired clock now a =
      leaseVerdict a.leaseExpires (now - clock.sleepGap) clock.sleepUncertainty := by
  unfold attemptLeaseExpired leaseVerdict leaseWallTime leaseExpiryWallTime
  by_cases h : a.leaseExpires ≤ now - clock.sleepGap <;>
    simp [hc.current, hc.err, he, hact, h]

theorem attemptLeaseLiveSQL_elapsed (hc : Running clock) (he : elapsedLease clock a) (now : Int) :
    attemptLeaseLiveSQL clock now a = decide (clock.ns < a.leaseDeadlineNS) := by
  have hb : a.leaseBootID ≠ "" := by rw [he.2.1]; exact he.1
  have hcond : a.leaseBootID ≠ "" ∧ a.leaseBootID = clock.boot ∧ 0 < a.leaseDeadlineNS :=
    ⟨hb, he.2⟩
  simp only [attemptLeaseLiveSQL, hc.current, hc.err, if_pos hcond, Option.isNone_none,
    Bool.true_and]

theorem attemptLeaseLiveSQL_wall (hc : Running clock) (he : ¬ elapsedLease clock a) (now : Int) :
    attemptLeaseLiveSQL clock now a = decide (now - clock.sleepGap < a.leaseExpires) := by
  have hcond : ¬ (a.leaseBootID ≠ "" ∧ a.leaseBootID = clock.boot ∧ 0 < a.leaseDeadlineNS) :=
    fun h => he ⟨hc.boot, h.2⟩
  simp only [attemptLeaseLiveSQL, leaseWallTime, hc.current, hc.err, if_neg hcond,
    Option.isNone_none, Bool.true_and]

theorem Running.expiryClock (hc : Running clock) :
    withAttemptExpiryClock clock =
        { clock with
          ns := clock.ns - clock.sleepUncertainty
          sleepGap := clock.sleepGap + clock.sleepUncertainty
          sleepUncertainty := 0 } ∧
      Running (withAttemptExpiryClock clock) := by
  unfold withAttemptExpiryClock
  rw [hc.current]
  exact ⟨rfl, hc.boot, hc.err⟩

end Wefty.AttemptClock
