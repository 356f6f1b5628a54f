/-
Host sleep and lease deadlines (`l1/lease_sleep.go`).

The store keeps one anchor: an interval bounding the boot-minus-awake offset already
accounted for in stored deadlines. Every transaction door compares its own sample of that
offset with the anchor. The proved part of the difference (sample's lower bound past the
anchor's upper bound) is credit: a write door adds it to every active lease and to every
monitored Node and moves the anchor along, a read door takes it off its own clock. What
the two intervals leave open is kept aside as uncertainty and can only delay an expiry.

The anchor row has `CHECK(offset_lo_ns<=offset_hi_ns)`. A door that would tighten the
upper bound below the lower one does not write a bad row, it fails. That cannot happen on
a host whose offset never decreases, but it is reachable from an arbitrary stored anchor
and sample, and it is the one case where the two doors part ways.
-/
import Wefty.AttemptClock

set_option autoImplicit false

namespace Wefty.LeaseSleep

open Tables Rows AttemptClock

/-! ## 1. The anchor and the doors -/

/-- The row of `lease_sleep_clock`, with its check constraint. -/
structure Anchor where
  boot : String
  lo : Int
  hi : Int
  le : lo ≤ hi

instance : DecidableEq Anchor := fun a b =>
  decidable_of_iff (a.boot = b.boot ∧ a.lo = b.lo ∧ a.hi = b.hi) (by cases a; cases b; simp)

structure LeaseRows where
  anchor : Option Anchor
  attempts : Table Attempt.attemptID
  nodes : Table Node.nodeID
  deriving DecidableEq

variable (rows : LeaseRows)

/-- What a write door can fail with once the transaction is open: SQLite refused the new
anchor row. -/
inductive DoorError
  | anchorConstraint
  deriving DecidableEq

def anchorOf (anchor : Option Anchor) (boot : String) : Option Anchor :=
  anchor.filter fun a => a.boot = boot

/-- `gap`: the sleep proved since the anchor. -/
def provedGap (anchor : Option Anchor) (boot : String) (o : SleepClockOffset) : Int :=
  match anchorOf anchor boot with
  | some a => max 0 (o.lower - a.hi)
  | none => 0

/-- `possible`: the most sleep there can have been since the anchor. -/
def possibleGap (anchor : Option Anchor) (boot : String) (o : SleepClockOffset) : Int :=
  match anchorOf anchor boot with
  | some a => max 0 (o.upper - a.lo)
  | none => 0

/-- The `UPDATE attempts` of a write door, on one row. -/
def creditAttempt (boot : String) (gap : Int) (a : Attempt) : Attempt :=
  { a with
    leaseDeadlineNS :=
      if a.leaseBootID = boot ∧ 0 < a.leaseDeadlineNS then a.leaseDeadlineNS + gap
      else a.leaseDeadlineNS
    leaseExpires := a.leaseExpires + gap }

@[simp]
theorem creditAttempt_attemptID (boot : String) (gap : Int) (a : Attempt) :
    (creditAttempt boot gap a).attemptID = a.attemptID := rfl

/-- The `UPDATE nodes` of a write door, on one row. -/
def creditNode (gap : Int) (n : Node) : Node :=
  { n with heartbeatSleep := n.heartbeatSleep + gap }

@[simp]
theorem creditNode_nodeID (gap : Int) (n : Node) : (creditNode gap n).nodeID = n.nodeID := rfl

/-- Both updates, made only where there is something to credit. -/
def credit (boot : String) (gap : Int) : LeaseRows :=
  if 0 < gap then
    { rows with
      attempts := rows.attempts.updateWhere (fun a => a.state.active) (creditAttempt boot gap)
        (creditAttempt_attemptID boot gap)
      nodes := rows.nodes.updateWhere (fun n => n.state.monitored) (creditNode gap)
        (creditNode_nodeID gap) }
  else rows

/-- The anchor a write door leaves. A credit translates both bounds; without one a sample may
lower the upper bound; a first sample of this boot starts the anchor over. -/
def nextAnchor (anchor : Option Anchor) (boot : String) (o : SleepClockOffset) :
    Except DoorError Anchor :=
  match anchorOf anchor boot with
  | none => .ok ⟨boot, o.lower, o.upper, o.le⟩
  | some a =>
    let gap := max 0 (o.lower - a.hi)
    if 0 < gap then .ok ⟨a.boot, a.lo + gap, a.hi + gap, Int.add_le_add_right a.le gap⟩
    else if o.upper < a.hi then
      if h : a.lo ≤ min a.hi o.upper then .ok ⟨a.boot, a.lo, min a.hi o.upper, h⟩
      else .error .anchorConstraint
    else .ok a

/-- `withLeaseSleepGap(write = false)`. -/
def readDoor (ctx : Clock) : Clock :=
  let sample := currentAttemptClock ctx
  match sample.sleepOffset with
  | none => ctx
  | some o =>
    let gap := provedGap rows.anchor sample.boot o
    { sample with
      ns := sample.ns - gap
      sleepGap := gap
      sleepUncertainty := possibleGap rows.anchor sample.boot o - gap }

/-- `withLeaseSleepGap(write = true)`. -/
def writeDoor (ctx : Clock) : Except DoorError (LeaseRows × Clock) :=
  let sample := currentAttemptClock ctx
  match sample.sleepOffset with
  | none => .ok (rows, ctx)
  | some o =>
    let gap := provedGap rows.anchor sample.boot o
    match nextAnchor rows.anchor sample.boot o with
    | .error err => .error err
    | .ok anchor =>
      .ok ({ credit rows sample.boot gap with anchor := some anchor },
        { sample with sleepUncertainty := possibleGap rows.anchor sample.boot o - gap })

/-- An anchor that is there survives a reopen. -/
def initializeLeaseSleepClock (ctx : Clock) : LeaseRows :=
  let sample := currentAttemptClock ctx
  match sample.sleepOffset, rows.anchor with
  | some o, none => { rows with anchor := some ⟨sample.boot, o.lower, o.upper, o.le⟩ }
  | _, _ => rows

/-! ## 2. Node liveness -/

structure NodeLiveness where
  staleAfter : Int
  deadAfter : Int

/-- `nodeLiveness.project`, which is also the state the listing query and the sweep of
`Reconcile` compute: a monitored Node past its implicit deadline reads as dead, an alive
one past its stale deadline as stale. -/
def NodeLiveness.project (l : NodeLiveness) (n : Node) (now : Int) : NodeState :=
  if n.state.monitored then
    if n.lastHeartbeat + (n.heartbeatSleep + l.deadAfter) ≤ now then .dead
    else if n.state = .alive ∧ n.lastHeartbeat + (n.heartbeatSleep + l.staleAfter) ≤ now then
      .stale
    else n.state
  else n.state

/-! ## 3. What the doors compute -/

section
variable {anchor : Option Anchor} {boot : String} {o : SleepClockOffset} {a : Anchor}

theorem anchorOf_eq_some : anchorOf anchor boot = some a ↔ anchor = some a ∧ a.boot = boot := by
  simp [anchorOf, Option.filter_eq_some_iff]

theorem provedGap_nonneg (anchor : Option Anchor) (boot : String) (o : SleepClockOffset) :
    0 ≤ provedGap anchor boot o := by
  unfold provedGap
  split
  · exact le_max_left _ _
  · exact le_refl _

theorem provedGap_of_anchor (h : anchorOf anchor boot = some a) :
    provedGap anchor boot o = max 0 (o.lower - a.hi) := by
  simp [provedGap, h]

theorem possibleGap_of_anchor (h : anchorOf anchor boot = some a) :
    possibleGap anchor boot o = max 0 (o.upper - a.lo) := by
  simp [possibleGap, h]

theorem provedGap_le_possibleGap (anchor : Option Anchor) (boot : String) (o : SleepClockOffset) :
    provedGap anchor boot o ≤ possibleGap anchor boot o := by
  unfold provedGap possibleGap
  split
  · rename_i a _
    have h1 := a.le
    have h2 := o.le
    omega
  · exact le_refl _

theorem nextAnchor_of_none (h : anchorOf anchor boot = none) :
    nextAnchor anchor boot o = .ok ⟨boot, o.lower, o.upper, o.le⟩ := by
  simp [nextAnchor, h]

/-- **What a write door leaves as anchor.** Unless the sample is entirely below the anchor the
door keeps the boot, translates the lower bound by the gap, and leaves the upper bound raised
to the sample's lower bound and cut at the sample's upper bound. -/
theorem nextAnchor_of_anchor (h : anchorOf anchor boot = some a) (hlo : a.lo ≤ o.upper) :
    ∃ a', nextAnchor anchor boot o = .ok a' ∧ a'.boot = boot ∧
      a'.lo = a.lo + provedGap anchor boot o ∧ a'.hi = min (max a.hi o.lower) o.upper := by
  have hboot := (anchorOf_eq_some.mp h).2
  have hle := a.le
  have hole := o.le
  rw [provedGap_of_anchor h]
  simp only [nextAnchor, h]
  by_cases hgap : 0 < max 0 (o.lower - a.hi)
  · rw [if_pos hgap]
    exact ⟨_, rfl, hboot, rfl, by show a.hi + _ = _; omega⟩
  rw [if_neg hgap]
  by_cases htight : o.upper < a.hi
  · have hchk : a.lo ≤ min a.hi o.upper := le_min hle hlo
    rw [if_pos htight, dif_pos hchk]
    exact ⟨_, rfl, hboot, by show a.lo = _; omega, by show min a.hi o.upper = _; omega⟩
  · rw [if_neg htight]
    exact ⟨a, rfl, hboot, by omega, by omega⟩

theorem nextAnchor_error (h : anchorOf anchor boot = some a) (hlo : o.upper < a.lo) :
    nextAnchor anchor boot o = .error .anchorConstraint := by
  have hle := a.le
  have hole := o.le
  simp only [nextAnchor, h]
  rw [if_neg (by omega), if_pos (by omega), dif_neg (by omega)]

end

/-! ## 4. The two doors agree

For an active lease the read door moves the clock back by what the write door moves the
deadline forward. -/

/-- `r` is the clock `w` with a gap of sleep taken off: the two clocks a read door and a write
door make of one sample. -/
structure Behind (w r : Clock) (gap : Int) : Prop where
  boot : r.boot = w.boot
  err : r.err = w.err
  ns : r.ns = w.ns - gap
  sleepGap : r.sleepGap = w.sleepGap + gap
  uncertainty : r.sleepUncertainty = w.sleepUncertainty

section Agreement
variable {w r : Clock} {gap : Int}

theorem Behind.running (hb : Behind w r gap) (hw : Running w) : Running r :=
  ⟨hb.boot ▸ hw.boot, hb.err ▸ hw.err⟩

theorem Behind.elapsedLease (hb : Behind w r gap) (a : Attempt) :
    elapsedLease r a ↔ elapsedLease w a := by
  unfold AttemptClock.elapsedLease
  rw [hb.boot]

theorem Behind.expiryClock (hb : Behind w r gap) (hw : Running w) :
    Behind (withAttemptExpiryClock w) (withAttemptExpiryClock r) gap := by
  rw [hw.expiryClock.1, (hb.running hw).expiryClock.1]
  refine ⟨hb.boot, hb.err, ?_, ?_, rfl⟩
  · show r.ns - r.sleepUncertainty = w.ns - w.sleepUncertainty - gap
    rw [hb.ns, hb.uncertainty]
    omega
  · show r.sleepGap + r.sleepUncertainty = w.sleepGap + w.sleepUncertainty + gap
    rw [hb.sleepGap, hb.uncertainty]
    omega

theorem elapsedLease_creditAttempt (hgap : 0 ≤ gap) (a : Attempt) :
    elapsedLease w (creditAttempt w.boot gap a) ↔ elapsedLease w a := by
  unfold AttemptClock.elapsedLease creditAttempt
  refine and_congr_right fun _ => and_congr_right fun hl => ?_
  show 0 < (if a.leaseBootID = w.boot ∧ 0 < a.leaseDeadlineNS then _ else _) ↔ _
  by_cases hd : 0 < a.leaseDeadlineNS
  · rw [if_pos ⟨hl, hd⟩]
    exact ⟨fun _ => hd, fun _ => by omega⟩
  · rw [if_neg fun hc => hd hc.2]

theorem creditAttempt_deadline {a : Attempt} (he : elapsedLease w a) :
    (creditAttempt w.boot gap a).leaseDeadlineNS = a.leaseDeadlineNS + gap :=
  if_pos he.2

/-- The verdict on an active lease: the write door's clock against the credited row is the read
door's clock against the stored one. -/
theorem attemptLeaseExpired_credit (hb : Behind w r gap) (hw : Running w) (hgap : 0 ≤ gap)
    (now : Int) (a : Attempt) (hact : a.state.active) :
    attemptLeaseExpired w now (creditAttempt w.boot gap a) = attemptLeaseExpired r now a := by
  have hr := hb.running hw
  have hact' : (creditAttempt w.boot gap a).state.active := hact
  have hiff := elapsedLease_creditAttempt (w := w) hgap a
  by_cases he : AttemptClock.elapsedLease w a
  · rw [attemptLeaseExpired_elapsed hw hact' (hiff.mpr he),
      attemptLeaseExpired_elapsed hr hact ((hb.elapsedLease a).mpr he), creditAttempt_deadline he,
      leaseVerdict_add, hb.ns, hb.uncertainty]
  · rw [attemptLeaseExpired_wall hw hact' (fun h => he (hiff.mp h)),
      attemptLeaseExpired_wall hr hact (fun h => he ((hb.elapsedLease a).mp h)), hb.sleepGap,
      hb.uncertainty]
    show leaseVerdict (a.leaseExpires + gap) (now - w.sleepGap) _ = _
    rw [leaseVerdict_add]
    congr 1
    omega

theorem attemptLeaseLiveSQL_credit (hb : Behind w r gap) (hw : Running w) (hgap : 0 ≤ gap)
    (now : Int) (a : Attempt) :
    attemptLeaseLiveSQL w now (creditAttempt w.boot gap a) = attemptLeaseLiveSQL r now a := by
  have hr := hb.running hw
  have hiff := elapsedLease_creditAttempt (w := w) hgap a
  by_cases he : AttemptClock.elapsedLease w a
  · rw [attemptLeaseLiveSQL_elapsed hw (hiff.mpr he),
      attemptLeaseLiveSQL_elapsed hr ((hb.elapsedLease a).mpr he), creditAttempt_deadline he, hb.ns]
    exact decide_eq_decide.mpr (by omega)
  · rw [attemptLeaseLiveSQL_wall hw (fun h => he (hiff.mp h)),
      attemptLeaseLiveSQL_wall hr (fun h => he ((hb.elapsedLease a).mp h)), hb.sleepGap]
    show decide (now - w.sleepGap < a.leaseExpires + gap) = _
    exact decide_eq_decide.mpr (by omega)

/-- A heartbeat deadline: the write door's comparison of the credited Node is the read door's of
the stored one, whatever the duration. -/
theorem heartbeat_credit (hb : Behind w r gap) (hw : Running w) (now d : Int) (n : Node) :
    (creditNode gap n).lastHeartbeat + ((creditNode gap n).heartbeatSleep + d) ≤
        leaseExpiryWallTime w now ↔
      n.lastHeartbeat + (n.heartbeatSleep + d) ≤ leaseExpiryWallTime r now := by
  unfold leaseExpiryWallTime
  rw [hw.current, (hb.running hw).current, hb.sleepGap, hb.uncertainty]
  show n.lastHeartbeat + (n.heartbeatSleep + gap + d) ≤ _ ↔ _
  omega

/-- The liveness of a Node. Only a monitored one is credited, and only a monitored one is
compared. -/
theorem project_credit (hb : Behind w r gap) (hw : Running w) (now : Int) (l : NodeLiveness)
    (n : Node) :
    l.project (if n.state.monitored then creditNode gap n else n) (leaseExpiryWallTime w now) =
      l.project n (leaseExpiryWallTime r now) := by
  unfold NodeLiveness.project
  by_cases hm : n.state.monitored
  · have hst : (creditNode gap n).state = n.state := rfl
    simp only [hm, if_true, hst, heartbeat_credit hb hw]
  · simp only [hm, if_false, Bool.false_eq_true]

end Agreement

/-- Crediting nothing is not crediting, so the guard of the two updates is invisible. -/
theorem find_attempts_credit (boot : String) {gap : Int} (hgap : 0 ≤ gap) (k : Nat) :
    (credit rows boot gap).attempts.find k =
      (rows.attempts.find k).map fun a =>
        if a.state.active then creditAttempt boot gap a else a := by
  unfold credit
  by_cases h : 0 < gap
  · rw [if_pos h, Table.find_updateWhere]
  · have h0 : gap = 0 := by omega
    have hid : (fun a : Attempt => if a.state.active then creditAttempt boot 0 a else a) = id := by
      funext a
      simp [creditAttempt]
    rw [if_neg h, h0, hid, Option.map_id, id]

theorem find_nodes_credit (boot : String) {gap : Int} (hgap : 0 ≤ gap) (k : Nat) :
    (credit rows boot gap).nodes.find k =
      (rows.nodes.find k).map fun n => if n.state.monitored then creditNode gap n else n := by
  unfold credit
  by_cases h : 0 < gap
  · rw [if_pos h, Table.find_updateWhere]
  · have h0 : gap = 0 := by omega
    have hid : (fun n : Node => if n.state.monitored then creditNode 0 n else n) = id := by
      funext n
      simp [creditNode]
    rw [if_neg h, h0, hid, Option.map_id, id]

/-- The sample is not entirely below an anchor of its own boot. On a host whose offset never
decreases every sample is such. -/
def Reconcilable (ctx : Clock) : Prop :=
  ∀ a o, anchorOf rows.anchor (currentAttemptClock ctx).boot = some a →
    (currentAttemptClock ctx).sleepOffset = some o → a.lo ≤ o.upper

section Doors
variable {rows : LeaseRows} {ctx : Clock} {o : SleepClockOffset}

theorem readDoor_eq (rows : LeaseRows) (hw : Running ctx) (ho : ctx.sleepOffset = some o) :
    readDoor rows ctx =
      { ctx with
        ns := ctx.ns - provedGap rows.anchor ctx.boot o
        sleepGap := provedGap rows.anchor ctx.boot o
        sleepUncertainty :=
          possibleGap rows.anchor ctx.boot o - provedGap rows.anchor ctx.boot o } := by
  simp only [readDoor, hw.current, ho]

theorem writeDoor_eq {a : Anchor} (hw : Running ctx) (ho : ctx.sleepOffset = some o)
    (ha : nextAnchor rows.anchor ctx.boot o = .ok a) :
    writeDoor rows ctx =
      .ok ({ credit rows ctx.boot (provedGap rows.anchor ctx.boot o) with anchor := some a },
        { ctx with
          sleepUncertainty :=
            possibleGap rows.anchor ctx.boot o - provedGap rows.anchor ctx.boot o }) := by
  simp only [writeDoor, hw.current, ho, ha]

theorem writeDoor_self {a : Anchor} (hw : Running ctx) (ho : ctx.sleepOffset = some o)
    (hrows : rows.anchor = some a) (ha : nextAnchor (some a) ctx.boot o = .ok a)
    (hzero : provedGap (some a) ctx.boot o = 0) :
    ∃ clock, writeDoor rows ctx = .ok (rows, clock) := by
  rw [← hrows] at ha hzero
  have hcredt : credit rows ctx.boot 0 = rows := if_neg (by omega)
  rw [writeDoor_eq hw ho ha, hzero, hcredt, ← hrows]
  exact ⟨_, rfl⟩

theorem doors_of_no_offset (rows : LeaseRows) (ho : (currentAttemptClock ctx).sleepOffset = none) :
    writeDoor rows ctx = .ok (rows, ctx) ∧ readDoor rows ctx = ctx := by
  constructor
  · simp only [writeDoor, ho]
  · simp only [readDoor, ho]

theorem nextAnchor_ok {anchor : Option Anchor} {boot : String}
    (hle : ∀ a, anchorOf anchor boot = some a → a.lo ≤ o.upper) :
    ∃ a, nextAnchor anchor boot o = .ok a ∧ a.boot = boot ∧ o.lower ≤ a.hi ∧ a.hi ≤ o.upper := by
  have hole := o.le
  cases h : anchorOf anchor boot with
  | none => exact ⟨_, nextAnchor_of_none h, rfl, o.le, le_refl _⟩
  | some a =>
    obtain ⟨a', hok, hboot, -, hhi⟩ := nextAnchor_of_anchor h (hle a h)
    exact ⟨a', hok, hboot, by omega, by omega⟩

theorem nextAnchor_self {a : Anchor} {boot : String} (hb : a.boot = boot) (hlo : o.lower ≤ a.hi)
    (hhi : a.hi ≤ o.upper) :
    nextAnchor (some a) boot o = .ok a ∧ provedGap (some a) boot o = 0 := by
  have h : anchorOf (some a) boot = some a := anchorOf_eq_some.mpr ⟨rfl, hb⟩
  have hgap : max 0 (o.lower - a.hi) = 0 := by omega
  refine ⟨?_, by rw [provedGap_of_anchor h, hgap]⟩
  simp only [nextAnchor, h, hgap, lt_irrefl, if_false]
  rw [if_neg (by omega)]

end Doors

/-- What agreement of the doors means for one sample: `clock` and `rows'` are what the write
door made of it. -/
structure DoorsAgree (rows : LeaseRows) (ctx : Clock) (rows' : LeaseRows) (clock : Clock) :
    Prop where
  /-- Every active attempt gets one verdict, from the stored lease under the read door's clock
      and from the credited lease under the write door's. -/
  attempts : ∀ id a, rows.attempts.find id = some a → a.state.active →
    ∃ a', rows'.attempts.find id = some a' ∧ ∀ now,
      attemptLeaseExpired clock now a' = attemptLeaseExpired (readDoor rows ctx) now a ∧
      attemptLeaseLiveSQL clock now a' = attemptLeaseLiveSQL (readDoor rows ctx) now a ∧
      attemptLeaseLiveSQL (withAttemptExpiryClock clock) now a' =
        attemptLeaseLiveSQL (withAttemptExpiryClock (readDoor rows ctx)) now a
  /-- Every Node reads as one state, and a monitored one passes any heartbeat deadline under
      both doors or neither. -/
  nodes : ∀ id n, rows.nodes.find id = some n →
    ∃ n', rows'.nodes.find id = some n' ∧ ∀ now,
      (∀ l : NodeLiveness, l.project n' (leaseExpiryWallTime clock now) =
        l.project n (leaseExpiryWallTime (readDoor rows ctx) now)) ∧
      (n.state.monitored → ∀ d,
        (n'.lastHeartbeat + (n'.heartbeatSleep + d) ≤ leaseExpiryWallTime clock now ↔
          n.lastHeartbeat + (n.heartbeatSleep + d) ≤
            leaseExpiryWallTime (readDoor rows ctx) now))
  /-- The same sample at a second write door writes nothing. -/
  again : ∃ clock', writeDoor rows' ctx = .ok (rows', clock')

theorem doorsAgree_of_no_offset {rows : LeaseRows} {ctx : Clock}
    (ho : (currentAttemptClock ctx).sleepOffset = none) : DoorsAgree rows ctx rows ctx := by
  obtain ⟨hw, hr⟩ := doors_of_no_offset rows ho
  refine ⟨fun id a ha _ => ⟨a, ha, fun now => ?_⟩, fun id n hn => ⟨n, hn, fun now => ?_⟩, ctx, hw⟩
  · rw [hr]
    exact ⟨rfl, rfl, rfl⟩
  · rw [hr]
    exact ⟨fun _ => rfl, fun _ _ => Iff.rfl⟩

theorem doorsAgree_of_offset {rows : LeaseRows} {ctx : Clock} {o : SleepClockOffset}
    (hc : Running ctx) (h0 : ctx.sleepGap = 0) (ho : ctx.sleepOffset = some o)
    (hle : ∀ a, anchorOf rows.anchor ctx.boot = some a → a.lo ≤ o.upper) :
    ∃ rows' clock, writeDoor rows ctx = .ok (rows', clock) ∧ DoorsAgree rows ctx rows' clock := by
  obtain ⟨anchor, hnext, hboot, hlo, hhi⟩ := nextAnchor_ok (o := o) hle
  set gap := provedGap rows.anchor ctx.boot o with hgapdef
  have hgap : 0 ≤ gap := provedGap_nonneg ..
  set clock : Clock :=
    { ctx with sleepUncertainty := possibleGap rows.anchor ctx.boot o - gap } with hclock
  have hrun : Running clock := ⟨hc.boot, hc.err⟩
  have hread := readDoor_eq rows hc ho
  have hbehind : Behind clock (readDoor rows ctx) gap := by
    rw [hread]
    exact ⟨rfl, rfl, rfl, by simp [hclock, h0, hgapdef], rfl⟩
  refine ⟨_, _, writeDoor_eq hc ho hnext, ⟨?_, ?_, ?_⟩⟩
  · intro id a ha hact
    refine ⟨creditAttempt ctx.boot gap a, ?_, fun now => ⟨?_, ?_, ?_⟩⟩
    · show (credit rows ctx.boot gap).attempts.find id = _
      rw [find_attempts_credit rows ctx.boot hgap, ha]
      simp [hact]
    · exact attemptLeaseExpired_credit hbehind hrun hgap now a hact
    · exact attemptLeaseLiveSQL_credit hbehind hrun hgap now a
    · have hexp := hbehind.expiryClock hrun
      have hb : (withAttemptExpiryClock clock).boot = ctx.boot := by rw [hrun.expiryClock.1]
      have h := attemptLeaseLiveSQL_credit hexp hrun.expiryClock.2 hgap now a
      rwa [hb] at h
  · intro id n hn
    refine ⟨if n.state.monitored then creditNode gap n else n, ?_, fun now => ⟨fun l => ?_, ?_⟩⟩
    · show (credit rows ctx.boot gap).nodes.find id = _
      rw [find_nodes_credit rows ctx.boot hgap, hn]
      rfl
    · exact project_credit hbehind hrun now l n
    · intro hm d
      rw [if_pos hm]
      exact heartbeat_credit hbehind hrun now d n
  · obtain ⟨hself, hzero⟩ := nextAnchor_self hboot hlo hhi
    exact writeDoor_self hc ho rfl hself hzero

/-- **The two doors agree on every sample the write door accepts**, and it refuses exactly the
samples that lie entirely below an anchor of their own boot. -/
theorem doors_agree (rows : LeaseRows) (reads : ClockReads) :
    (Reconcilable rows (withAttemptClock reads) →
      ∃ rows' clock, writeDoor rows (withAttemptClock reads) = .ok (rows', clock) ∧
        DoorsAgree rows (withAttemptClock reads) rows' clock) ∧
    (¬ Reconcilable rows (withAttemptClock reads) →
      writeDoor rows (withAttemptClock reads) = .error .anchorConstraint) := by
  set ctx := withAttemptClock reads with hctx
  cases ho : (currentAttemptClock ctx).sleepOffset with
  | none =>
    refine ⟨fun _ => ⟨rows, ctx, (doors_of_no_offset rows ho).1, doorsAgree_of_no_offset ho⟩, ?_⟩
    intro hnot
    refine absurd ?_ hnot
    intro a o _ h
    simp [ho] at h
  | some o =>
    -- An offset is only ever sampled together with a boot and without an error.
    have hb : ctx.boot ≠ "" := by
      intro hb
      by_cases herr : ctx.err = none
      · simp [currentAttemptClock, hb, herr] at ho
      · have hcur : currentAttemptClock ctx = ctx := if_neg fun hc => herr hc.2
        rw [hcur] at ho
        obtain ⟨_, _, _, _, -, -, -, -, -, heq⟩ := withAttemptClock_sleepOffset ho
        rw [hctx, heq] at herr
        exact herr rfl
    have hcur : currentAttemptClock ctx = ctx := if_neg fun hc => hb hc.1
    rw [hcur] at ho
    obtain ⟨_, _, _, _, -, -, -, -, -, heq⟩ := withAttemptClock_sleepOffset ho
    have hrun : Running ctx := ⟨hb, by rw [hctx, heq]⟩
    have h0 : ctx.sleepGap = 0 := by rw [hctx, heq]
    refine ⟨fun hle => doorsAgree_of_offset hrun h0 ho fun a ha => ?_, fun hnot => ?_⟩
    · exact hle a o (by rwa [hcur]) (by rwa [hcur])
    · simp only [Reconcilable, hcur, not_forall, Int.not_le] at hnot
      obtain ⟨a, o', ha, ho', hlt⟩ := hnot
      obtain rfl := Option.mem_unique ho ho'
      simp only [writeDoor, hcur, ho, nextAnchor_error ha hlt]

/-- An anchor of boot `b` at `[10, 20]` and one running attempt, leased to elapsed time 100. -/
def anchoredRows : LeaseRows :=
  { anchor := some ⟨"b", 10, 20, by omega⟩
    attempts := Table.empty.insert
      { attemptID := 1, jobID := 1, nodeID := 1, bootSessionID := 1, state := .running,
        fencingToken := 1, leaseExpires := 100, leaseBootID := "b", leaseDeadlineNS := 100,
        authorityGeneration := 0, createdNS := 0, updatedAt := 0 }
    nodes := Table.empty }

/-- **Where the doors part.** A sample of the same boot at `[0, 5]`: the read door finds the
lease live, the write door cannot open. -/
theorem doors_part_below_anchor :
    (∃ a, anchoredRows.attempts.find 1 = some a ∧ a.state.active = true ∧
      attemptLeaseExpired
        (readDoor anchoredRows (withAttemptClock ⟨0, true, .ok 45, some ("b", 50), .ok 50⟩)) 0 a =
        .ok false) ∧
    writeDoor anchoredRows (withAttemptClock ⟨0, true, .ok 45, some ("b", 50), .ok 50⟩) =
      .error .anchorConstraint := by
  exact ⟨⟨_, rfl, by decide, by decide⟩, by decide⟩

end Wefty.LeaseSleep
