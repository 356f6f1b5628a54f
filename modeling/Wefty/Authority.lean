/-
The agent's local authority watchdog (`agent/authority_watchdog.go`).

A lease grant gives an attempt local authority until `requestStarted + leaseTTL` on
the pausing monotonic clock. That clock does not see host sleep, so every check also
compares the wall-clock gap since the previous checkpoint (less the sleep it can prove
from a same-host boot clock) with the lease that remained at that checkpoint, and then
moves the checkpoint.

The fence of one check is exact. Over several checks it is not: a sleep that one check let
pass, too short to consume the remainder, is forgotten by the next (`hiddenSleep`).
-/
import Mathlib.Order.MinMax
import Mathlib.Algebra.Order.Ring.Int
import Wefty.Runs

set_option autoImplicit false

namespace Wefty.Authority

open Runs

/-! ## 1. Clock readings and sleep samples -/

/-- `errAuthorityDeadlineExceeded`, the only error a watch raises. -/
inductive AuthorityError
  | deadlineExceeded

/-- `authoritySleepSample`: the true boot-minus-awake offset lies in `[lower, upper]`. -/
structure SleepSample where
  boot : Int
  lower : Int
  upper : Int
  deriving DecidableEq

/-- The three reads of a `sleepClockSource`, in the order they are made. A read that
returned an error is `none`. -/
structure SleepReads where
  before : Option Int
  boot : Option Int
  after : Option Int

/-- What one check reads off the clock: the monotonic time, the wall time, and the sleep
source where the clock has one. -/
structure Reading where
  now : Int
  wall : Int
  source : Option SleepReads

/-- The bracketed sample of `sampleAuthoritySleep`: no sample from a clock without a sleep
source, from a failed read, or from a pausing clock that went backwards. -/
def sampleAuthoritySleep (r : Reading) : Option SleepSample :=
  match r.source with
  | some ⟨some before, some boot, some after⟩ =>
    if after < before then none else some ⟨boot, boot - after, boot - before⟩
  | _ => none

structure AuthorityCheckpoint where
  now : Int
  wall : Int
  sleep : Option SleepSample

def captureAuthorityCheckpoint (r : Reading) : AuthorityCheckpoint :=
  ⟨r.now, r.wall, sampleAuthoritySleep r⟩

structure LocalAuthority where
  deadline : Int
  sleepCreditBoot : String
  requestCheckpoint : Option AuthorityCheckpoint

def leaseAuthority (leaseTTL : Int) (sleepCreditBoot : String) (cp : AuthorityCheckpoint) :
    LocalAuthority :=
  ⟨cp.now + leaseTTL, sleepCreditBoot, some cp⟩

/-! ## 2. The watch -/

/-- The two capacity-one signal channels are booleans (a full channel drops the signal); `failures`
is what `failOnce` sent, which is also the payload's cancel cause. -/
structure AuthorityWatch where
  authority : LocalAuthority
  checkpoint : Int
  wallCheckpoint : Int
  sleepCheckpoint : Option SleepSample
  bootDigest : String
  wakeRenewals : Bool
  updates : Bool
  failed : Option AuthorityError
  failures : Option AuthorityError

variable (w : AuthorityWatch)

namespace AuthorityWatch

/-- The checkpoint sample a check may credit sleep from, with the sample it read itself:
both exist, the grant names this boot, and the boot clock did not go backwards. -/
def creditPair (r : Reading) : Option (SleepSample × SleepSample) :=
  match sampleAuthoritySleep r, w.sleepCheckpoint with
  | some sample, some checkpoint =>
    if w.bootDigest ≠ "" ∧ w.authority.sleepCreditBoot = w.bootDigest ∧
        checkpoint.boot ≤ sample.boot then
      some (checkpoint, sample)
    else none
  | _, _ => none

/-- `provedSleep` of `checkLocked`: only the lower bound is credited. -/
def provedSleep (r : Reading) : Int :=
  match w.creditPair r with
  | some (checkpoint, sample) => max 0 (sample.lower - checkpoint.upper)
  | none => 0

def gap (r : Reading) : Int :=
  let wallGap := r.wall - w.wallCheckpoint
  match w.creditPair r with
  | some (checkpoint, sample) => max wallGap (sample.boot - checkpoint.boot) - w.provedSleep r
  | none => wallGap

def fenced (r : Reading) : Prop :=
  let remainingAtCheckpoint := w.authority.deadline - w.checkpoint
  ¬ r.now < w.authority.deadline ∨ remainingAtCheckpoint ≤ 0 ∨ remainingAtCheckpoint ≤ w.gap r

instance (w : AuthorityWatch) (r : Reading) : Decidable (w.fenced r) :=
  inferInstanceAs (Decidable (_ ∨ _ ∨ _))

def checkLocked (r : Reading) : AuthorityWatch × Option AuthorityError :=
  match w.failed with
  | some err => (w, some err)
  | none =>
    if w.fenced r then
      ({ w with failed := some .deadlineExceeded }, some .deadlineExceeded)
    else
      ({ w with
          wakeRenewals := w.wakeRenewals || decide (0 < w.provedSleep r)
          checkpoint := r.now
          wallCheckpoint := r.wall
          sleepCheckpoint := sampleAuthoritySleep r }, none)

/-- A grant without a request checkpoint starts at the current reading. -/
def setCheckpoint (authority : LocalAuthority) (r : Reading) :
    AuthorityWatch :=
  let cp := authority.requestCheckpoint.getD (captureAuthorityCheckpoint r)
  { w with checkpoint := cp.now, wallCheckpoint := cp.wall, sleepCheckpoint := cp.sleep }

def fail (err : AuthorityError) : AuthorityWatch :=
  { w with failures := w.failures.or (some err) }

/-- One turn of the timer loop `run`: the check, and the delay until the next turn. `none` is
the loop's return after a failed check. -/
def timer (r : Reading) (checkInterval : Int) : AuthorityWatch × Option Int :=
  let out := w.checkLocked r
  match out.2 with
  | some err => (out.1.fail err, none)
  | none => (out.1, some (min (out.1.authority.deadline - r.now) checkInterval))

def grant (authority : LocalAuthority) (r : Reading) : AuthorityWatch :=
  { w with authority := authority }.setCheckpoint authority r

/-- The clock is read up to three times: for the old authority, where the new one has no request
checkpoint, and for the new authority. -/
def renewed (authority : LocalAuthority) (r₁ r₂ r₃ : Reading) :
    AuthorityWatch :=
  let old := w.checkLocked r₁
  match old.2 with
  -- A late reply cannot restore expired local authority.
  | some err => old.1.fail err
  | none =>
    let new := (old.1.grant authority r₂).checkLocked r₃
    match new.2 with
    | some err => new.1.fail err
    | none => { new.1 with updates := true }

end AuthorityWatch

/-! ## 3. One check -/

namespace AuthorityWatch

variable (w : AuthorityWatch) (r : Reading)

theorem checkLocked_ok_iff : (w.checkLocked r).2 = none ↔ w.failed = none ∧ ¬ w.fenced r := by
  unfold checkLocked
  cases hf : w.failed with
  | some err => simp
  | none => by_cases h : w.fenced r <;> simp [h]

/-- No check touches the grant. -/
@[simp]
theorem checkLocked_authority : (w.checkLocked r).1.authority = w.authority := by
  unfold checkLocked
  cases w.failed with
  | some err => rfl
  | none => by_cases h : w.fenced r <;> simp [h]

/-- A successful check moves all three checkpoints to its own reading. -/
theorem checkLocked_ok_checkpoints (h : (w.checkLocked r).2 = none) :
    (w.checkLocked r).1.checkpoint = r.now ∧ (w.checkLocked r).1.wallCheckpoint = r.wall ∧
      (w.checkLocked r).1.sleepCheckpoint = sampleAuthoritySleep r := by
  obtain ⟨hf, hc⟩ := (w.checkLocked_ok_iff r).mp h
  unfold checkLocked
  simp [hf, hc]

/-- The gap is never less than the wall gap with the proved sleep taken off: the boot clock
can only widen it. -/
theorem wallGap_sub_provedSleep_le_gap : r.wall - w.wallCheckpoint - w.provedSleep r ≤ w.gap r := by
  unfold gap provedSleep
  cases w.creditPair r with
  | none => simp
  | some p => exact Int.sub_le_sub_right (le_max_left _ _) _

/-- **What one check guarantees.** It succeeds before the monotonic deadline, and the wall
time since the previous checkpoint, less the sleep it proved, is less than the lease that
remained there. -/
theorem checkLocked_ok_bound (h : (w.checkLocked r).2 = none) :
    r.now < w.authority.deadline ∧
      r.wall - w.wallCheckpoint - w.provedSleep r < w.authority.deadline - w.checkpoint := by
  obtain ⟨-, hclear⟩ := (w.checkLocked_ok_iff r).mp h
  have hgap := w.wallGap_sub_provedSleep_le_gap r
  simp only [fenced, not_or, not_not, Int.not_le] at hclear
  exact ⟨hclear.1, by omega⟩

end AuthorityWatch

/-! ## 4. A sequence of checks under one grant -/

structure Trial where
  watch : AuthorityWatch
  credited : Int

namespace Trial

/-- The trial of a new grant: `Start` and `Renewed` both put a live watch in this state before
the grant's first check. -/
def begin (leaseTTL : Int) (digest : String) (cp : AuthorityCheckpoint) (r : Reading) : Trial :=
  ⟨w.grant (leaseAuthority leaseTTL digest cp) r, 0⟩

/-- One check: of the timer, before a renewal, or the first one in `Renewed`. A check that
fails credits nothing. -/
def step (t : Trial) (r : Reading) : Trial :=
  let out := t.watch.checkLocked r
  ⟨out.1, if out.2 = none then t.credited + t.watch.provedSleep r else t.credited⟩

/-- The monotonic, wall and boot clocks do not go backwards from the last checkpoint. Nothing
ties the monotonic advance to the wall advance: the host may have slept. -/
def Follows (t : Trial) (r : Reading) : Prop :=
  t.watch.checkpoint ≤ r.now ∧ t.watch.wallCheckpoint ≤ r.wall ∧
    ∀ c s, t.watch.sleepCheckpoint = some c → sampleAuthoritySleep r = some s → c.boot ≤ s.boot

/-- Wall time since the request that the checks so far neither credited as sleep nor saw on
the monotonic clock. -/
def hiddenSleep (t : Trial) (cp : AuthorityCheckpoint) : Int :=
  t.watch.wallCheckpoint - cp.wall - t.credited - (t.watch.checkpoint - cp.now)

/-- What the checks of one grant keep: the grant itself, and either nothing has been checked
yet or the checkpoint is before the deadline. -/
structure Inv (t : Trial) (leaseTTL : Int) (cp : AuthorityCheckpoint) : Prop where
  deadline : t.watch.authority.deadline = cp.now + leaseTTL
  started : t.hiddenSleep cp = 0 ∨ t.watch.checkpoint < cp.now + leaseTTL

theorem begin_inv (leaseTTL : Int) (digest : String)
    (cp : AuthorityCheckpoint) (r : Reading) : (begin w leaseTTL digest cp r).Inv leaseTTL cp := by
  refine ⟨rfl, Or.inl ?_⟩
  simp [hiddenSleep, begin, AuthorityWatch.grant, AuthorityWatch.setCheckpoint, leaseAuthority]

theorem step_watch (t : Trial) (r : Reading) : (t.step r).watch = (t.watch.checkLocked r).1 :=
  rfl

variable {t : Trial}

theorem step_credited {r : Reading} (h : (t.watch.checkLocked r).2 = none) :
    (t.step r).credited = t.credited + t.watch.provedSleep r :=
  if_pos h

theorem step_hiddenSleep_of_failed {r : Reading} (cp : AuthorityCheckpoint)
    (h : (t.watch.checkLocked r).2 ≠ none) :
    (t.step r).hiddenSleep cp = t.hiddenSleep cp ∧
      (t.step r).watch.checkpoint = t.watch.checkpoint := by
  have hwatch : (t.watch.checkLocked r).1 =
    { t.watch with failed := (t.watch.checkLocked r).2 } := by
    unfold AuthorityWatch.checkLocked at h ⊢
    cases hf : t.watch.failed with
    | some err => simp [← hf]
    | none =>
      by_cases hc : t.watch.fenced r
      · simp [hc]
      · simp [hf, hc] at h
  simp [hiddenSleep, step, h, hwatch]

variable {leaseTTL : Int} {cp : AuthorityCheckpoint}

theorem step_inv (r : Reading) (hi : t.Inv leaseTTL cp) : (t.step r).Inv leaseTTL cp := by
  refine ⟨by rw [step_watch, AuthorityWatch.checkLocked_authority]; exact hi.deadline, ?_⟩
  by_cases h : (t.watch.checkLocked r).2 = none
  · right
    have hbnd := (t.watch.checkLocked_ok_bound r h).1
    rw [step_watch, (t.watch.checkLocked_ok_checkpoints r h).1, ← hi.deadline]
    exact hbnd
  · obtain ⟨hhid, hcp⟩ := step_hiddenSleep_of_failed cp h
    rw [hhid, hcp]
    exact hi.started

theorem run_inv {w : AuthorityWatch} {digest : String} {r₀ : Reading} {rs : List Reading}
    (hrun : Run Follows step (begin w leaseTTL digest cp r₀) rs t) : t.Inv leaseTTL cp :=
  hrun.invariant (P := fun t => t.Inv leaseTTL cp) (fun _ r hi _ => step_inv r hi)
    (begin_inv w leaseTTL digest cp r₀)

/-- The reading that spends all but one tick of the remaining lease asleep: the monotonic
clock stands still and no sleep sample is available. -/
def asleep (t : Trial) : Reading :=
  { now := t.watch.checkpoint
    wall := t.watch.wallCheckpoint + (t.watch.authority.deadline - t.watch.checkpoint - 1)
    source := none }

theorem asleep_provedSleep (t : Trial) : t.watch.provedSleep t.asleep = 0 := by
  simp [AuthorityWatch.provedSleep, AuthorityWatch.creditPair, asleep, sampleAuthoritySleep]

/-- While any lease remains, the check made on waking from it succeeds. -/
theorem asleep_ok (halive : t.watch.failed = none)
    (h : t.watch.checkpoint < t.watch.authority.deadline) :
    t.Follows t.asleep ∧ (t.watch.checkLocked t.asleep).2 = none := by
  have hgap : t.watch.gap t.asleep = t.watch.authority.deadline - t.watch.checkpoint - 1 := by
    simp [AuthorityWatch.gap, AuthorityWatch.creditPair, asleep, sampleAuthoritySleep]
  refine ⟨⟨le_refl _, ?_, by simp [asleep, sampleAuthoritySleep]⟩, ?_⟩
  · show t.watch.wallCheckpoint ≤ t.watch.wallCheckpoint + _
    omega
  · rw [AuthorityWatch.checkLocked_ok_iff]
    refine ⟨halive, ?_⟩
    simp only [AuthorityWatch.fenced, hgap, not_or, not_not, Int.not_le]
    exact ⟨h, by omega, by omega⟩

/-- **When the checks of a grant stay within its TTL.** After any run of checks that left the
watch alive, the next successful check is certain to have less than `leaseTTL` of wall time
since the request, minus all sleep credited, if and only if the checks so far hid no sleep:
the wall advance they did not credit was no more than the monotonic advance. -/
theorem check_within_ttl_iff (w : AuthorityWatch) (leaseTTL : Int) (digest : String)
    (cp : AuthorityCheckpoint) (r₀ : Reading) (rs : List Reading) (t : Trial)
    (hrun : Run Follows step (begin w leaseTTL digest cp r₀) rs t)
    (halive : t.watch.failed = none) :
    (∀ r, t.Follows r → (t.watch.checkLocked r).2 = none →
        r.wall - cp.wall - (t.step r).credited < leaseTTL) ↔
      t.hiddenSleep cp ≤ 0 := by
  have hi := run_inv hrun
  constructor
  · intro h
    -- Before the first check nothing is hidden; after it the watch may sleep again.
    rcases hi.started with h0 | hlt
    · omega
    rw [← hi.deadline] at hlt
    obtain ⟨hfol, hok⟩ := asleep_ok halive hlt
    have hlaw := h t.asleep hfol hok
    rw [step_credited hok, asleep_provedSleep] at hlaw
    simp only [asleep, hi.deadline] at hlaw
    simp only [hiddenSleep]
    omega
  · intro hhid r _ hok
    obtain ⟨-, hgap⟩ := t.watch.checkLocked_ok_bound r hok
    rw [hi.deadline] at hgap
    rw [step_credited hok]
    simp only [hiddenSleep] at hhid
    omega

def idle : AuthorityWatch :=
  { authority := ⟨0, "", none⟩, checkpoint := 0, wallCheckpoint := 0, sleepCheckpoint := none,
    bootDigest := "", wakeRenewals := false, updates := false, failed := none, failures := none }

/-- A lease of ten ticks without a boot digest, requested at tick zero. -/
def tenTicks : Trial := begin idle 10 "" ⟨0, 0, none⟩ ⟨0, 0, none⟩

/-- A host awake three ticks into that lease has hidden nothing, so its next successful check
is within the lease. -/
theorem check_within_ttl_awake : (tenTicks.step ⟨3, 3, none⟩).watch.failed = none ∧
      ∀ r, (tenTicks.step ⟨3, 3, none⟩).Follows r →
        ((tenTicks.step ⟨3, 3, none⟩).watch.checkLocked r).2 = none →
        r.wall - 0 - ((tenTicks.step ⟨3, 3, none⟩).step r).credited < 10 := by
  refine ⟨by decide, ?_⟩
  have hrun : Run Follows step tenTicks [⟨3, 3, none⟩] (tenTicks.step ⟨3, 3, none⟩) :=
    Run.cons _ ⟨by decide, by decide, fun _ _ _ h => by simp [sampleAuthoritySleep] at h⟩ Run.nil
  exact (check_within_ttl_iff idle 10 "" ⟨0, 0, none⟩ ⟨0, 0, none⟩ [⟨3, 3, none⟩] _ hrun
    (by decide)).mpr (by decide)

/-- **Two short sleeps outlive the lease.** A lease of ten ticks without a boot digest: six
ticks asleep and one awake, twice over. Both checks succeed, and fourteen ticks of wall time
have passed since the request started with no sleep credited. -/
theorem two_short_sleeps_outlive_ttl :
    ∃ t, Run Follows step tenTicks [⟨1, 7, none⟩, ⟨2, 14, none⟩] t ∧
      t.watch.failed = none ∧ t.credited = 0 ∧ ¬ ((14 : Int) - 0 - t.credited < 10) := by
  refine ⟨(tenTicks.step ⟨1, 7, none⟩).step ⟨2, 14, none⟩, ?_, by decide, by decide, by decide⟩
  refine Run.cons _ ?_ (Run.cons _ ?_ Run.nil)
  · exact ⟨by decide, by decide, fun _ _ _ h => by simp [sampleAuthoritySleep] at h⟩
  · exact ⟨by decide, by decide, fun _ _ _ h => by simp [sampleAuthoritySleep] at h⟩

end Trial

end Wefty.Authority
