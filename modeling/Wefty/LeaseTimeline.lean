/-
Leases over a whole boot: doors, sleep and the true offset.

`LeaseSleep` says what one door does with one sample. Here the doors of a store follow one
another on a host that sleeps: write doors that grant, renew and settle leases and commit or
roll back, read doors, reopens. Next to the store runs what the store cannot see: the true
boot-minus-awake offset, which never decreases, and for each lease the reading and offset at
which it was granted and the credit it was given since.
-/
import Wefty.LeaseSleep
import Wefty.Runs

set_option autoImplicit false

namespace Wefty.LeaseTimeline

open Tables Rows AttemptClock LeaseSleep Runs

variable {k : Anchor} {a : Attempt} {clock : Clock} {rows rows' : LeaseRows} {id : Nat}
variable {o : SleepClockOffset}

/-! ## 1. Doors in sequence -/

/-- What is true of a lease's latest grant: the boot reading and the true offset at the door
that made it, its duration, and the credit `withLeaseSleepGap` has added to it since. -/
structure Grant where
  ns : Int
  offset : Int
  ttl : Int
  credited : Int

variable {g : Grant}

def Grant.awake (g : Grant) : Int := g.ns - g.offset

abbrev Grants := Nat → Option Grant

variable {grants : Grants}

/-- What the body of a write transaction does to leases: `claimJob` inserts an attempt with a
lease, `RenewLease` leases an active attempt again, and every other transaction only moves an
active attempt to another state. No transaction revives an attempt. -/
inductive LeaseWrite
  | claim (row : Attempt) (ttl : Int)
  | renew (attemptID : Nat) (ttl : Int)
  | settle (attemptID : Nat) (state : AttemptState)

variable {w : LeaseWrite}

/-- The lease columns `claimJob` and `RenewLease` write, with the attempt's state. -/
def lease (clock : Clock) (now ttl : Int) (state : AttemptState) (a : Attempt) : Attempt :=
  { a with
    state := state
    leaseExpires := now + ttl
    leaseBootID := (attemptLeaseDeadline clock now (now + ttl)).1
    leaseDeadlineNS := (attemptLeaseDeadline clock now (now + ttl)).2 }

@[simp]
theorem lease_attemptID (clock : Clock) (now ttl : Int) (state : AttemptState) (a : Attempt) :
    (lease clock now ttl state a).attemptID = a.attemptID := rfl

structure Ledger where
  rows : LeaseRows
  grants : Grants

variable {s : Ledger}

/-- One lease write, inside a door whose clock reads `clock` while the true offset is `offset`. -/
def applyWrite (clock : Clock) (now offset : Int) (s : Ledger) : LeaseWrite → Ledger
  | .claim row ttl =>
    if s.rows.attempts.find row.attemptID = none then
      { rows := { s.rows with
          attempts := s.rows.attempts.insert (lease clock now ttl .claimed row) }
        grants := fun id =>
          if id = row.attemptID then some ⟨clock.ns, offset, ttl, 0⟩ else s.grants id }
    else s
  | .renew attemptID ttl =>
    if (s.rows.attempts.find attemptID).any fun a => a.state.active then
      { rows := { s.rows with
          attempts := s.rows.attempts.update attemptID (fun a => lease clock now ttl a.state a)
            fun a => lease_attemptID clock now ttl a.state a }
        grants := fun id =>
          if id = attemptID then some ⟨clock.ns, offset, ttl, 0⟩ else s.grants id }
    else s
  | .settle attemptID state =>
    if (s.rows.attempts.find attemptID).any fun a => a.state.active then
      { s with rows := { s.rows with
          attempts := s.rows.attempts.update attemptID fun a => { a with state := state } } }
    else s

/-- The duration of the lease a write grants to an attempt, if it grants one. -/
def LeaseWrite.ttlFor (id : Nat) : LeaseWrite → Option Int
  | .claim row ttl => if row.attemptID = id then some ttl else none
  | .renew attemptID ttl => if attemptID = id then some ttl else none
  | .settle _ _ => none

/-- **What one lease write does to one attempt**: nothing; a fresh lease at this door's reading;
or another state for an active attempt. -/
theorem applyWrite_cases (clock : Clock) (now offset : Int) (s : Ledger) (w : LeaseWrite)
    (id : Nat) :
    ((applyWrite clock now offset s w).grants id = s.grants id ∧
      (applyWrite clock now offset s w).rows.attempts.find id = s.rows.attempts.find id) ∨
    (∃ ttl row state, w.ttlFor id = some ttl ∧
      (applyWrite clock now offset s w).grants id = some ⟨clock.ns, offset, ttl, 0⟩ ∧
      (applyWrite clock now offset s w).rows.attempts.find id =
        some (lease clock now ttl state row)) ∨
    (∃ a state, s.rows.attempts.find id = some a ∧ a.state.active ∧
      (applyWrite clock now offset s w).grants id = s.grants id ∧
      (applyWrite clock now offset s w).rows.attempts.find id =
        some { a with state := state }) := by
  cases w with
  | claim row ttl =>
    by_cases hnone : s.rows.attempts.find row.attemptID = none
    · have hfind := Table.find_insert s.rows.attempts (lease clock now ttl .claimed row) hnone id
      rw [lease_attemptID] at hfind
      by_cases hid : row.attemptID = id
      · refine Or.inr (Or.inl ⟨ttl, row, .claimed, if_pos hid, ?_, ?_⟩)
        · simp only [applyWrite, if_pos hnone, if_pos hid.symm]
        · simp only [applyWrite, if_pos hnone, hfind, if_pos hid]
      · refine Or.inl ⟨?_, ?_⟩
        · simp only [applyWrite, if_pos hnone, if_neg (Ne.symm hid)]
        · simp only [applyWrite, if_pos hnone, hfind, if_neg hid]
    · exact Or.inl (by simp only [applyWrite, if_neg hnone, and_self])
  | renew attemptID ttl =>
    by_cases hany : (s.rows.attempts.find attemptID).any fun a => a.state.active
    · by_cases hid : id = attemptID
      · subst hid
        obtain ⟨a, ha, -⟩ := (Option.any_eq_true _ _).mp hany
        refine Or.inr (Or.inl ⟨ttl, a, a.state, if_pos rfl, ?_, ?_⟩)
        · simp only [applyWrite, if_pos hany, if_true]
        · simp only [applyWrite, if_pos hany, Table.find_update, if_true]
          rw [ha, Option.map_some]
      · exact Or.inl (by simp [applyWrite, hany, hid])
    · exact Or.inl (by simp [applyWrite, hany])
  | settle attemptID state =>
    by_cases hany : (s.rows.attempts.find attemptID).any fun a => a.state.active
    · by_cases hid : id = attemptID
      · subst hid
        obtain ⟨a, ha, hact⟩ := (Option.any_eq_true _ _).mp hany
        refine Or.inr (Or.inr ⟨a, state, ha, hact, ?_, ?_⟩)
        · simp only [applyWrite, if_pos hany]
        · simp only [applyWrite, if_pos hany, Table.find_update, if_true]
          rw [ha, Option.map_some]
      · exact Or.inl (by simp [applyWrite, hany, hid])
    · exact Or.inl (by simp [applyWrite, hany])

theorem applyWrite_anchor (clock : Clock) (now offset : Int) (s : Ledger) (w : LeaseWrite) :
    (applyWrite clock now offset s w).rows.anchor = s.rows.anchor := by
  cases w <;> simp only [applyWrite] <;> split <;> rfl

def creditGrants (before after : LeaseRows) (grants : Grants) : Grants := fun id =>
  (grants id).map fun g =>
    match before.attempts.find id, after.attempts.find id with
    | some a, some a' =>
      { g with credited := g.credited + (a'.leaseDeadlineNS - a.leaseDeadlineNS) }
    | _, _ => g

structure Timeline where
  rows : LeaseRows
  grants : Grants
  offset : Int

variable {t : Timeline}

inductive Door
  | write (reads : ClockReads) (offset : Int) (writes : List LeaseWrite) (commit : Bool)
  | read (reads : ClockReads) (offset : Int)
  | reopen (reads : ClockReads) (offset : Int)

/-- What a write transaction sees after its door and its writes so far. -/
def inside (t : Timeline) (reads : ClockReads) (offset : Int) (writes : List LeaseWrite) :
    Except DoorError (Ledger × Clock) :=
  match writeDoor t.rows (withAttemptClock reads) with
  | .error err => .error err
  | .ok (rows, clock) =>
    .ok (writes.foldl (applyWrite clock reads.now offset)
      ⟨rows, creditGrants t.rows rows t.grants⟩, clock)

/-- A door that is rolled back, or that fails, leaves the store as it was. -/
def step (t : Timeline) : Door → Timeline
  | .write reads offset writes commit =>
    match inside t reads offset writes, commit with
    | .ok (s, _), true => ⟨s.rows, s.grants, offset⟩
    | _, _ => { t with offset := offset }
  | .read _ offset => { t with offset := offset }
  | .reopen reads offset =>
    { t with
      rows := initializeLeaseSleepClock t.rows (withAttemptClock reads)
      offset := offset }

/-- A sample of boot `boot` whose interval contains the true offset. Elapsed time since boot is
not negative. -/
def Sampled (boot : String) (reads : ClockReads) (offset : Int) : Prop :=
  boot ≠ "" ∧ (withAttemptClock reads).boot = boot ∧ 0 ≤ (withAttemptClock reads).ns ∧
    ∃ o, (withAttemptClock reads).sleepOffset = some o ∧ o.lower ≤ offset ∧ offset ≤ o.upper

/-- Leases are granted for a positive duration, as `NewStore` makes sure of. -/
def LeaseWrite.positive : LeaseWrite → Prop
  | .claim _ ttl | .renew _ ttl => 0 < ttl
  | .settle _ _ => True

theorem LeaseWrite.positive.of_ttlFor (h : w.positive) {ttl : Int} (httl : w.ttlFor id = some ttl)
    : 0 < ttl := by
  cases w with
  | claim | renew =>
    obtain ⟨-, heq⟩ := Option.ite_none_right_eq_some.mp httl
    exact Option.some.inj heq ▸ h
  | settle attemptID state => cases httl

/-- The doors a host in boot `boot` can open next: the offset has not decreased. -/
def Admissible (boot : String) (t : Timeline) : Door → Prop
  | .write reads offset writes _ =>
    Sampled boot reads offset ∧ t.offset ≤ offset ∧ ∀ w ∈ writes, w.positive
  | .read reads offset | .reopen reads offset => Sampled boot reads offset ∧ t.offset ≤ offset

/-- A store at the start of a boot: an empty one, or whatever earlier boots left. No lease of
this boot has been granted. -/
def Boots (boot : String) (t : Timeline) : Prop :=
  anchorOf t.rows.anchor boot = none ∧ ∀ id, t.grants id = none

/-! ## 2. One write door -/

section Door
variable {boot : String} {reads : ClockReads} {offset : Int}

theorem Sampled.running (hs : Sampled boot reads offset) : Running (withAttemptClock reads) := by
  obtain ⟨hne, hboot, -, o, ho, -, -⟩ := hs
  obtain ⟨_, _, _, _, -, -, -, -, -, heq⟩ := withAttemptClock_sleepOffset ho
  exact ⟨hboot ▸ hne, by rw [heq]⟩

/-- What a write door does, on a sample that contains the true offset: credit the gap, and
leave an anchor whose lower bound is still at or below the offset. -/
structure Opened (boot : String) (reads : ClockReads) (offset : Int) (rows rows' : LeaseRows)
    (clock : Clock) (o : SleepClockOffset) (k : Anchor) : Prop where
  sample : (withAttemptClock reads).sleepOffset = some o
  lower : o.lower ≤ offset
  upper : offset ≤ o.upper
  door : writeDoor rows (withAttemptClock reads) = .ok (rows', clock)
  rows_eq : rows' = { credit rows boot (provedGap rows.anchor boot o) with anchor := some k }
  running : Running clock
  clock_boot : clock.boot = boot
  clock_ns : clock.ns = (withAttemptClock reads).ns
  uncertainty :
    clock.sleepUncertainty = possibleGap rows.anchor boot o - provedGap rows.anchor boot o
  anchor : anchorOf rows'.anchor boot = some k
  lo_le : k.lo ≤ offset
  lo_eq : ∀ a, anchorOf rows.anchor boot = some a → k.lo = a.lo + provedGap rows.anchor boot o
  hi_eq : ∀ a, anchorOf rows.anchor boot = some a → k.hi = min (max a.hi o.lower) o.upper
  hi_new : anchorOf rows.anchor boot = none → k.hi = o.upper

theorem opened (hs : Sampled boot reads offset)
    (hle : ∀ a, anchorOf rows.anchor boot = some a → a.lo ≤ offset) :
    ∃ rows' clock o k, Opened boot reads offset rows rows' clock o k := by
  have hrun := hs.running
  obtain ⟨hne, hboot, -, o, ho, hlower, hupper⟩ := hs
  -- Both kinds of anchor: taken over from an earlier boot, or already of this one.
  have hk : ∃ k, nextAnchor rows.anchor boot o = .ok k ∧ k.boot = boot ∧ k.lo ≤ offset ∧
      (∀ a, anchorOf rows.anchor boot = some a → k.lo = a.lo + provedGap rows.anchor boot o) ∧
      (∀ a, anchorOf rows.anchor boot = some a → k.hi = min (max a.hi o.lower) o.upper) ∧
      (anchorOf rows.anchor boot = none → k.hi = o.upper) := by
    cases ha : anchorOf rows.anchor boot with
    | none =>
      refine ⟨_, nextAnchor_of_none ha, rfl, hlower, ?_, ?_, fun _ => rfl⟩
      · intro a h
        cases h
      · intro a h
        cases h
    | some a =>
      obtain ⟨k, hok, hkb, hlo, hhi⟩ := nextAnchor_of_anchor ha (o := o) (by
        have := hle a ha
        omega)
      refine ⟨k, hok, hkb, ?_, ?_, ?_, fun h => by cases h⟩
      · have h1 := hle a ha
        have h2 := a.le
        rw [hlo, provedGap_of_anchor ha]
        omega
      · rintro _ ⟨⟩
        exact hlo
      · rintro _ ⟨⟩
        exact hhi
  obtain ⟨k, hok, hkb, hlo_le, hlo_eq, hhi_eq, hhi_new⟩ := hk
  rw [← hboot] at hok
  have hdoor := writeDoor_eq hrun ho hok
  rw [hboot] at hdoor
  exact ⟨_, _, o, k, ho, hlower, hupper, hdoor, rfl, ⟨hne, hrun.err⟩, rfl, rfl, rfl,
    anchorOf_eq_some.mpr ⟨rfl, hkb⟩, hlo_le, hlo_eq, hhi_eq, hhi_new⟩

namespace Opened

theorem find_attempts (h : Opened boot reads offset rows rows' clock o k) (id : Nat) :
    rows'.attempts.find id = (rows.attempts.find id).map fun a =>
      if a.state.active then creditAttempt boot (provedGap rows.anchor boot o) a else a := by
  rw [h.rows_eq]
  exact find_attempts_credit rows boot (provedGap_nonneg ..) id

/-- A lease of this boot, active, is granted the gap; every other lease nothing. -/
theorem creditGrants_eq (h : Opened boot reads offset rows rows' clock o k) (grants : Grants)
    (ha : rows.attempts.find id = some a) :
    creditGrants rows rows' grants id = (grants id).map fun g =>
      { g with credited := g.credited +
        if a.state.active ∧ a.leaseBootID = boot ∧ 0 < a.leaseDeadlineNS then
          provedGap rows.anchor boot o else 0 } := by
  unfold creditGrants
  rw [h.find_attempts, ha]
  congr 1
  funext g
  simp only [Option.map_some]
  congr 2
  by_cases hact : a.state.active
  · by_cases hl : a.leaseBootID = boot ∧ 0 < a.leaseDeadlineNS
    · simp [hact, hl, creditAttempt]
    · simp [hact, hl, creditAttempt]
  · simp [hact]

end Opened

end Door

/-! ## 3. No early expiry

The invariant behind it: every active lease granted in this boot stands at its grant's
reading plus TTL plus credit, and the anchor's lower bound has moved up by at most that
credit past the offset of the grant. -/

/-- The row `a` carries the lease `g`, in boot `boot`. -/
structure Tracks (boot : String) (anchor : Option Anchor) (g : Grant) (a : Attempt) : Prop where
  stamped : a.leaseBootID = boot ∧ 0 < a.leaseDeadlineNS
  deadline : a.leaseDeadlineNS = g.ns + g.ttl + g.credited
  credited : ∃ k, anchorOf anchor boot = some k ∧ k.lo ≤ g.offset + g.credited

/-- What the doors of one boot keep of the rows and the grants, at the true offset `offset`. -/
structure Inv (boot : String) (offset : Int) (s : Ledger) : Prop where
  anchor_le : ∀ k, anchorOf s.rows.anchor boot = some k → k.lo ≤ offset
  leases : ∀ id g a, s.grants id = some g → s.rows.attempts.find id = some a → a.state.active →
    Tracks boot s.rows.anchor g a

section Early
variable {boot : String} {reads : ClockReads} {offset : Int}

theorem Inv.later {offset' : Int} (hi : Inv boot offset s) (h : offset ≤ offset') :
    Inv boot offset' s :=
  ⟨fun k hk => (hi.anchor_le k hk).trans h, hi.leases⟩

theorem Tracks.opened (ht : Tracks boot rows.anchor g a)
    (hd : Opened boot reads offset rows rows' clock o k) :
    Tracks boot rows'.anchor { g with credited := g.credited + provedGap rows.anchor boot o }
      (creditAttempt boot (provedGap rows.anchor boot o) a) := by
  have hgap := provedGap_nonneg rows.anchor boot o
  have hdl : (creditAttempt boot (provedGap rows.anchor boot o) a).leaseDeadlineNS =
      a.leaseDeadlineNS + provedGap rows.anchor boot o := if_pos ht.stamped
  have hpos := ht.stamped.2
  obtain ⟨k₀, hk₀, hle⟩ := ht.credited
  refine ⟨⟨ht.stamped.1, by omega⟩, ?_, k, hd.anchor, ?_⟩
  · rw [hdl, ht.deadline]
    show _ = g.ns + g.ttl + (g.credited + _)
    omega
  · rw [hd.lo_eq k₀ hk₀]
    show _ ≤ g.offset + (g.credited + _)
    omega

theorem Inv.before (hi : Inv boot offset ⟨rows, grants⟩)
    (hd : Opened boot reads offset rows rows' clock o k) {g' : Grant} {a' : Attempt}
    (hg' : creditGrants rows rows' grants id = some g') (ha' : rows'.attempts.find id = some a')
    (hact' : a'.state.active) :
    ∃ g a, Tracks boot rows.anchor g a ∧
      g' = { g with credited := g.credited + provedGap rows.anchor boot o } ∧
      a' = creditAttempt boot (provedGap rows.anchor boot o) a := by
  rw [hd.find_attempts] at ha'
  obtain ⟨a, ha, heq⟩ := Option.map_eq_some_iff.mp ha'
  have hact : a.state.active := by
    rw [← heq] at hact'
    by_contra hn
    rw [if_neg hn] at hact'
    exact hn hact'
  rw [hd.creditGrants_eq grants ha] at hg'
  obtain ⟨g, hg, hgeq⟩ := Option.map_eq_some_iff.mp hg'
  have ht := hi.leases id g a hg ha hact
  rw [if_pos ⟨hact, ht.stamped⟩] at hgeq
  rw [if_pos hact] at heq
  exact ⟨g, a, ht, hgeq.symm, heq.symm⟩

theorem Inv.opened (hi : Inv boot offset ⟨rows, grants⟩)
    (hd : Opened boot reads offset rows rows' clock o k) :
    Inv boot offset ⟨rows', creditGrants rows rows' grants⟩ := by
  refine ⟨fun k' hk' => ?_, fun id g' a' hg' ha' hact' => ?_⟩
  · rw [hd.anchor] at hk'
    cases hk'
    exact hd.lo_le
  · obtain ⟨g, a, ht, rfl, rfl⟩ := hi.before hd hg' ha' hact'
    exact ht.opened hd

theorem lease_columns (hc : Running clock) (hb : clock.boot = boot) (now ttl : Int)
    (state : AttemptState) (row : Attempt) :
    (lease clock now ttl state row).leaseBootID = boot ∧
      (lease clock now ttl state row).leaseDeadlineNS = clock.ns + ttl := by
  have h : ¬ (clock.err ≠ none ∨ clock.boot = "") := by simp [hc.err, hc.boot]
  have hd : clock.ns + (now + ttl - now) = clock.ns + ttl := by omega
  have hlease : attemptLeaseDeadline clock now (now + ttl) = (boot, clock.ns + ttl) := by
    rw [attemptLeaseDeadline, hc.current, if_neg h, hb, hd]
  simp only [lease, hlease, and_self]

theorem tracks_lease {anchor : Option Anchor} (hc : Running clock) (hb : clock.boot = boot)
    (hns : 0 ≤ clock.ns) (hk : anchorOf anchor boot = some k) (hle : k.lo ≤ offset) {ttl : Int}
    (httl : 0 < ttl) (now : Int) (state : AttemptState) (row : Attempt) :
    Tracks boot anchor ⟨clock.ns, offset, ttl, 0⟩ (lease clock now ttl state row) := by
  obtain ⟨hboot, hdl⟩ := lease_columns hc hb now ttl state row
  refine ⟨⟨hboot, by omega⟩, ?_, k, hk, ?_⟩
  · show _ = clock.ns + ttl + 0
    omega
  · show k.lo ≤ offset + 0
    omega

theorem Inv.write (hi : Inv boot offset s) (hc : Running clock) (hb : clock.boot = boot)
    (hns : 0 ≤ clock.ns) (hk : anchorOf s.rows.anchor boot = some k) (now : Int) (hw : w.positive) :
    Inv boot offset (applyWrite clock now offset s w) := by
  have hanchor := applyWrite_anchor clock now offset s w
  refine ⟨fun k' hk' => hi.anchor_le k' (hanchor ▸ hk'), fun id g a hg ha hact => ?_⟩
  rw [hanchor]
  rcases applyWrite_cases clock now offset s w id with
    ⟨hg', ha'⟩ | ⟨ttl, row, state, httl, hg', ha'⟩ | ⟨a₀, state, ha₀, hact₀, hg', ha'⟩
  · exact hi.leases id g a (hg' ▸ hg) (ha' ▸ ha) hact
  · rw [hg'] at hg
    rw [ha'] at ha
    cases hg
    cases ha
    exact tracks_lease hc hb hns hk (hi.anchor_le k hk) (hw.of_ttlFor httl) now state row
  · rw [ha'] at ha
    cases ha
    have ht := hi.leases id g a₀ (hg' ▸ hg) ha₀ hact₀
    exact ⟨ht.stamped, ht.deadline, ht.credited⟩

theorem Inv.inside {ws : List LeaseWrite} (hs : Sampled boot reads offset)
    (hws : ∀ w ∈ ws, w.positive) (hi : Inv boot offset ⟨t.rows, t.grants⟩)
    (h : inside t reads offset ws = .ok (s, clock)) : Inv boot offset s := by
  obtain ⟨rows', clock', o, k, hd⟩ := LeaseTimeline.opened hs hi.anchor_le
  simp only [LeaseTimeline.inside, hd.door] at h
  cases h
  have hns : 0 ≤ clock.ns := hd.clock_ns ▸ hs.2.2.1
  refine (List.foldlRecOn ws _ (motive := fun s => Inv boot offset s ∧
    anchorOf s.rows.anchor boot = some k) ⟨hi.opened hd, hd.anchor⟩ fun s ⟨hi, hk⟩ w hw =>
      ⟨hi.write hd.running hd.clock_boot hns hk reads.now (hws w hw), ?_⟩).1
  rwa [applyWrite_anchor]

def Timeline.Inv (boot : String) (t : Timeline) : Prop :=
  LeaseTimeline.Inv boot t.offset ⟨t.rows, t.grants⟩

theorem Boots.inv (h : Boots boot t) : t.Inv boot := by
  refine ⟨fun k hk => ?_, fun id g a hg => ?_⟩
  · simp [h.1] at hk
  · simp [h.2] at hg

theorem Timeline.Inv.step (hi : t.Inv boot) (d : Door) (hd : Admissible boot t d) :
    (step t d).Inv boot := by
  cases d with
  | write reads offset writes commit =>
    obtain ⟨hs, hle, hws⟩ := hd
    have hi' := LeaseTimeline.Inv.later hi hle
    simp only [LeaseTimeline.step]
    split
    · rename_i s clock hin
      exact hi'.inside hs hws hin
    · exact hi'
  | read reads offset => exact LeaseTimeline.Inv.later hi hd.2
  | reopen reads offset =>
    obtain ⟨hs, hle⟩ := hd
    have hi' := LeaseTimeline.Inv.later hi hle
    have hcur := hs.running.current
    obtain ⟨-, hboot, -, o, ho, hlo, -⟩ := hs
    simp only [LeaseTimeline.step, initializeLeaseSleepClock, hcur, ho]
    cases hanchor : t.rows.anchor with
    | some k => simpa [Timeline.Inv, hanchor] using hi'
    | none =>
      refine ⟨fun k hk => ?_, fun id g a hg ha hact => ?_⟩
      · obtain ⟨hk, -⟩ := anchorOf_eq_some.mp hk
        cases hk
        exact hlo
      · -- With no anchor there is no lease of this boot yet.
        obtain ⟨k, hk, -⟩ := (hi'.leases id g a hg ha hact).credited
        simp [hanchor, anchorOf] at hk

theorem run_inv {t₀ : Timeline} {ds : List Door} (hboots : Boots boot t₀)
    (hrun : Run (Admissible boot) step t₀ ds t) : t.Inv boot :=
  hrun.invariant (P := Timeline.Inv boot) (fun _ d hi hd => hi.step d hd) hboots.inv

/-- An expiry decision: `attemptLeaseExpired` says so, or the SQL predicate does not find the
lease live under the expiry clock. -/
def Expired (clock : Clock) (now : Int) (a : Attempt) : Prop :=
  attemptLeaseExpired clock now a = .ok true ∨
    attemptLeaseLiveSQL (withAttemptExpiryClock clock) now a = false

/-- Either decision about an active lease of this boot puts its deadline at or before the clock
less all uncertainty. -/
theorem Expired.deadline_le {now : Int} (h : Expired clock now a) (hc : Running clock)
    (hact : a.state.active) (he : elapsedLease clock a) :
    a.leaseDeadlineNS ≤ clock.ns - clock.sleepUncertainty := by
  rcases h with h | h
  · rw [attemptLeaseExpired_elapsed hc hact he] at h
    exact leaseVerdict_eq_true h
  · obtain ⟨heq, hrun⟩ := hc.expiryClock
    have he' : elapsedLease (withAttemptExpiryClock clock) a := by rw [heq]; exact he
    rw [attemptLeaseLiveSQL_elapsed hrun he', heq] at h
    have := of_decide_eq_false h
    simpa using this

/-- The clock of a door at true awake time `awake` cannot expire a granted lease early. -/
structure Patient (boot : String) (clock : Clock) (awake : Int) (s : Ledger) : Prop where
  running : Running clock
  boot_eq : clock.boot = boot
  leases : ∀ id g a, s.grants id = some g → s.rows.attempts.find id = some a → a.state.active →
    (a.leaseBootID = boot ∧ 0 < a.leaseDeadlineNS) ∧
      (a.leaseDeadlineNS ≤ clock.ns - clock.sleepUncertainty → g.ttl ≤ awake - g.awake)

theorem Patient.expired {awake : Int} (hp : Patient boot clock awake s) {now : Int}
    (hg : s.grants id = some g) (ha : s.rows.attempts.find id = some a) (hact : a.state.active)
    (hx : Expired clock now a) : g.ttl ≤ awake - g.awake := by
  obtain ⟨⟨hb, hpos⟩, hle⟩ := hp.leases id g a hg ha hact
  exact hle (hx.deadline_le hp.running hact ⟨hp.running.boot, hp.boot_eq ▸ hb, hpos⟩)

/-- Right after the door: what the uncertainty leaves out is at least the sleep since the
anchor's lower bound, and that bound is at most the grant's offset plus its credit. -/
theorem Patient.opened (hi : LeaseTimeline.Inv boot offset ⟨rows, grants⟩)
    (hd : Opened boot reads offset rows rows' clock o k) :
    Patient boot clock (clock.ns - offset) ⟨rows', creditGrants rows rows' grants⟩ := by
  refine ⟨hd.running, hd.clock_boot, fun id g' a' hg' ha' hact' => ?_⟩
  obtain ⟨g, a, ht, rfl, rfl⟩ := hi.before hd hg' ha' hact'
  obtain ⟨k₀, hk₀, hle⟩ := ht.credited
  have ht' := ht.opened hd
  refine ⟨ht'.stamped, fun hexp => ?_⟩
  have hupper := hd.upper
  rw [ht'.deadline, hd.uncertainty, possibleGap_of_anchor hk₀] at hexp
  simp only [Grant.awake] at hexp ⊢
  omega

/-- A lease write at the door leaves its clock patient: a lease granted now ends a whole TTL
after the reading. -/
theorem Patient.write (hp : Patient boot clock (clock.ns - offset) s) (hns : 0 ≤ clock.ns)
    (hunc : 0 ≤ clock.sleepUncertainty) (now : Int) (hw : w.positive) :
    Patient boot clock (clock.ns - offset) (applyWrite clock now offset s w) := by
  refine ⟨hp.running, hp.boot_eq, fun id g a hg ha hact => ?_⟩
  rcases applyWrite_cases clock now offset s w id with
    ⟨hg', ha'⟩ | ⟨ttl, row, state, httl, hg', ha'⟩ | ⟨a₀, state, ha₀, hact₀, hg', ha'⟩
  · exact hp.leases id g a (hg' ▸ hg) (ha' ▸ ha) hact
  · rw [hg'] at hg
    rw [ha'] at ha
    cases hg
    cases ha
    have hpos := hw.of_ttlFor httl
    obtain ⟨hboot, hdl⟩ := lease_columns hp.running hp.boot_eq now ttl state row
    refine ⟨⟨hboot, by omega⟩, fun hexp => ?_⟩
    simp only [Grant.awake]
    omega
  · rw [ha'] at ha
    cases ha
    exact hp.leases id g a₀ (hg' ▸ hg) ha₀ hact₀

theorem Patient.inside {ws : List LeaseWrite} (hs : Sampled boot reads offset)
    (hws : ∀ w ∈ ws, w.positive) (hi : LeaseTimeline.Inv boot offset ⟨t.rows, t.grants⟩)
    (h : inside t reads offset ws = .ok (s, clock)) :
    Patient boot clock ((withAttemptClock reads).ns - offset) s := by
  obtain ⟨rows', clock', o, k, hd⟩ := LeaseTimeline.opened hs hi.anchor_le
  simp only [LeaseTimeline.inside, hd.door] at h
  cases h
  have hns : 0 ≤ clock.ns := hd.clock_ns ▸ hs.2.2.1
  have hunc : 0 ≤ clock.sleepUncertainty := by
    rw [hd.uncertainty]
    exact Int.sub_nonneg_of_le (provedGap_le_possibleGap _ _ _)
  rw [← hd.clock_ns]
  exact List.foldlRecOn ws _ (Patient.opened hi hd) fun s hp w hw =>
    hp.write hns hunc reads.now (hws w hw)

/-- Behind a read door, which takes the gap off its clock instead of adding it to the leases. -/
theorem Patient.readDoor (hs : Sampled boot reads offset)
    (hi : LeaseTimeline.Inv boot offset ⟨t.rows, t.grants⟩) :
    Patient boot (LeaseSleep.readDoor t.rows (withAttemptClock reads))
      ((withAttemptClock reads).ns - offset) ⟨t.rows, t.grants⟩ := by
  have hrun := hs.running
  obtain ⟨hne, hboot, -, o, ho, -, hupper⟩ := hs
  have heq := readDoor_eq t.rows hrun ho
  rw [hboot] at heq
  refine ⟨by rw [heq]; exact ⟨hne, hrun.err⟩, by rw [heq], fun id g a hg ha hact => ?_⟩
  have ht := hi.leases id g a hg ha hact
  obtain ⟨k, hk, hle⟩ := ht.credited
  refine ⟨ht.stamped, fun hexp => ?_⟩
  rw [ht.deadline, heq, possibleGap_of_anchor hk] at hexp
  simp only [Grant.awake] at hexp ⊢
  omega

/-- What a door shows to the decisions made behind it: the rows, with the grants they carry, and
the pinned clock. The writes of a write door are those made before the decision. -/
def view (t : Timeline) : Door → Option (Ledger × Clock)
  | .write reads offset writes _ => (inside t reads offset writes).toOption
  | .read reads _ => some (⟨t.rows, t.grants⟩, readDoor t.rows (withAttemptClock reads))
  | .reopen _ _ => none

def Door.awake : Door → Int
  | .write reads offset _ _ | .read reads offset | .reopen reads offset =>
    (withAttemptClock reads).ns - offset

/-- **No lease expires early because of host sleep.** After any doors of one boot, at any next
door, if an active attempt's lease is declared expired then at least its TTL of true awake
time has passed since the door that granted or renewed it. -/
theorem expired_lease_was_awake (boot : String) (t₀ t : Timeline) (ds : List Door)
    (hboots : Boots boot t₀) (hrun : Run (Admissible boot) step t₀ ds t) (d : Door)
    (hd : Admissible boot t d) (s : Ledger) (clock : Clock) (hview : view t d = some (s, clock))
    (id : Nat) (g : Grant) (a : Attempt) (hg : s.grants id = some g)
    (ha : s.rows.attempts.find id = some a) (hact : a.state.active) (now : Int)
    (hexp : Expired clock now a) : g.ttl ≤ d.awake - g.awake := by
  have hi := run_inv hboots hrun
  cases d with
  | write reads offset writes commit =>
    obtain ⟨hs, hle, hws⟩ := hd
    cases hin : inside t reads offset writes with
    | error err => simp [view, hin, Except.toOption] at hview
    | ok out =>
      simp only [view, hin, Except.toOption, Option.some.injEq] at hview
      subst hview
      exact (Patient.inside hs hws (LeaseTimeline.Inv.later hi hle) hin).expired hg ha hact hexp
  | read reads offset =>
    obtain ⟨hs, hle⟩ := hd
    simp only [view, Option.some.injEq, Prod.mk.injEq] at hview
    obtain ⟨rfl, rfl⟩ := hview
    exact (Patient.readDoor hs (LeaseTimeline.Inv.later hi hle)).expired hg ha hact hexp
  | reopen reads offset => simp [view] at hview

end Early

def emptyStore : Timeline :=
  { rows := ⟨none, Table.empty, Table.empty⟩, grants := fun _ => none, offset := 0 }

/-- The reads of a door in boot `b` whose offset sample is `[ns - after, ns - before]`. -/
def sampleAt (ns before after : Int) : ClockReads :=
  ⟨ns, true, .ok before, some ("b", ns), .ok after⟩

/-- An attempt as `claimJob` inserts it, before its lease columns are filled in. -/
def claimRow : Attempt :=
  { attemptID := 1, jobID := 1, nodeID := 1, bootSessionID := 1, state := .claimed,
    fencingToken := 1, leaseExpires := 0, leaseBootID := "", leaseDeadlineNS := 0,
    authorityGeneration := 0, createdNS := 0, updatedAt := 0 }

theorem emptyStore_boots : Boots "b" emptyStore := ⟨rfl, fun _ => rfl⟩

theorem sampled_at {ns before after offset : Int} (hns : 0 ≤ ns) (hlo : ns - after ≤ offset)
    (hhi : offset ≤ ns - before) (h : before ≤ after) :
    Sampled "b" (sampleAt ns before after) offset := by
  have hclock : withAttemptClock (sampleAt ns before after) =
      ⟨"b", ns, none, some ⟨ns - after, ns - before, by omega⟩, 0, 0⟩ := by
    have hback : ¬ after < before := by omega
    simp [withAttemptClock, sampleAt, hback]
  rw [Sampled, hclock]
  exact ⟨by decide, rfl, hns, _, rfl, hlo, hhi⟩

def firstGrant : Door := .write (sampleAt 0 0 0) 0 [.claim claimRow 10] true

theorem firstGrant_admissible : Admissible "b" emptyStore firstGrant := by
  refine ⟨sampled_at (by decide) (by decide) (by decide) (by decide), by decide, fun w hw => ?_⟩
  rw [List.mem_singleton.mp hw]
  show (0 : Int) < 10
  decide

/-- A lease of ten ticks granted at tick 0 and seen expired at tick 25, five of them asleep. -/
theorem expired_lease_was_awake_ten :
    (10 : Int) ≤ (Door.read (sampleAt 25 20 20) 5).awake - (⟨0, 0, 10, 0⟩ : Grant).awake := by
  exact expired_lease_was_awake "b" emptyStore _ _ emptyStore_boots
    (Run.cons _ firstGrant_admissible Run.nil) (.read (sampleAt 25 20 20) 5)
    ⟨sampled_at (by decide) (by decide) (by decide) (by decide), by decide⟩ _ _ rfl 1 _ _ rfl rfl
    (by decide) 25 (Or.inl (by decide))

/-! ## 4. Credit and the sleep since a grant

What would bound the credit of a lease by the sleep since its grant is an anchor whose
upper bound is at or above the offset of the grant: every later credit raises that bound to a
sample's lower end, which is at most the true offset. -/

/-- The credit of attempt `id`'s lease is accounted for: by the true offset, and by the anchor's
upper bound. -/
structure Accounted (boot : String) (offset : Int) (id : Nat) (s : Ledger) : Prop where
  offset : ∀ g, s.grants id = some g → g.offset + g.credited ≤ offset
  anchor : ∀ g k, s.grants id = some g → anchorOf s.rows.anchor boot = some k →
    g.offset + g.credited ≤ k.hi

/-- A door that grants attempt `id` a lease. -/
def Door.grantsTo (id : Nat) : Door → Prop
  | .write _ _ writes _ => ∃ w ∈ writes, w.ttlFor id ≠ none
  | .read _ _ | .reopen _ _ => False

section Credit
variable {boot : String} {reads : ClockReads} {offset : Int}

theorem Accounted.later {offset' : Int} (ha : Accounted boot offset id s) (h : offset ≤ offset')
    : Accounted boot offset' id s :=
  ⟨fun g hg => (ha.offset g hg).trans h, ha.anchor⟩

theorem Opened.creditGrants_cases (hd : Opened boot reads offset rows rows' clock o k) {g' : Grant}
    (hg' : creditGrants rows rows' grants id = some g') :
    ∃ g, grants id = some g ∧ g'.offset = g.offset ∧
      g'.credited ≤ g.credited + provedGap rows.anchor boot o := by
  have hgap := provedGap_nonneg rows.anchor boot o
  cases ha : rows.attempts.find id with
  | none =>
    simp only [creditGrants, ha] at hg'
    obtain ⟨g, hg, rfl⟩ := Option.map_eq_some_iff.mp hg'
    exact ⟨g, hg, rfl, by omega⟩
  | some a =>
    rw [hd.creditGrants_eq grants ha] at hg'
    obtain ⟨g, hg, rfl⟩ := Option.map_eq_some_iff.mp hg'
    refine ⟨g, hg, rfl, ?_⟩
    show g.credited + (if _ then _ else _) ≤ _
    split <;> omega

/-- The door keeps the account: a gap is what the sample's lower end is past the anchor's upper
bound, and it raises that bound to the lower end. -/
theorem Accounted.opened (ha : Accounted boot offset id ⟨rows, grants⟩)
    (hd : Opened boot reads offset rows rows' clock o k) :
    Accounted boot offset id ⟨rows', creditGrants rows rows' grants⟩ := by
  have hlower := hd.lower
  have hupper := hd.upper
  have key : ∀ g', creditGrants rows rows' grants id = some g' →
      g'.offset + g'.credited ≤ offset ∧ g'.offset + g'.credited ≤ k.hi := by
    intro g' hg'
    obtain ⟨g, hg, hoff, hle⟩ := hd.creditGrants_cases hg'
    have h1 := ha.offset g hg
    cases hk : anchorOf rows.anchor boot with
    | none =>
      simp only [provedGap, hk] at hle
      rw [hd.hi_new hk]
      omega
    | some k₀ =>
      have h2 := ha.anchor g k₀ hg hk
      rw [provedGap_of_anchor hk] at hle
      rw [hd.hi_eq k₀ hk]
      omega
  refine ⟨fun g' hg' => (key g' hg').1, fun g' k' hg' hk' => ?_⟩
  rw [hd.anchor] at hk'
  cases hk'
  exact (key g' hg').2

theorem Accounted.write (ha : Accounted boot offset id s) (now : Int) (hw : w.ttlFor id = none) :
    Accounted boot offset id (applyWrite clock now offset s w) := by
  have hg : (applyWrite clock now offset s w).grants id = s.grants id := by
    rcases applyWrite_cases clock now offset s w id with
      ⟨hg, -⟩ | ⟨ttl, _, _, httl, -, -⟩ | ⟨_, _, -, -, hg, -⟩
    · exact hg
    · cases hw.symm.trans httl
    · exact hg
  refine ⟨fun g h => ha.offset g (hg ▸ h), fun g k h hk => ha.anchor g k (hg ▸ h) ?_⟩
  rwa [applyWrite_anchor] at hk

theorem Accounted.step (hi : t.Inv boot) (ha : Accounted boot t.offset id ⟨t.rows, t.grants⟩)
    (d : Door) (hd : Admissible boot t d) (hno : ¬ d.grantsTo id) :
    Accounted boot (step t d).offset id ⟨(step t d).rows, (step t d).grants⟩ := by
  cases d with
  | write reads offset writes commit =>
    obtain ⟨hs, hle, -⟩ := hd
    have ha' := ha.later hle
    simp only [LeaseTimeline.step]
    split
    · rename_i s clock hin
      obtain ⟨rows', clock', o, k, hop⟩ :=
        LeaseTimeline.opened hs (LeaseTimeline.Inv.later hi hle).anchor_le
      simp only [inside, hop.door] at hin
      cases hin
      exact List.foldlRecOn writes _ (ha'.opened hop) fun s ha w hw =>
        ha.write reads.now (not_not.mp fun hne => hno ⟨w, hw, hne⟩)
    · exact ha'
  | read reads offset => exact ha.later hd.2
  | reopen reads offset =>
    obtain ⟨hs, hle⟩ := hd
    have ha' := ha.later hle
    have hcur := hs.running.current
    obtain ⟨-, hboot, -, o, ho, -, hupper⟩ := hs
    simp only [LeaseTimeline.step, initializeLeaseSleepClock, hcur, ho]
    cases hanchor : t.rows.anchor with
    | some k => simpa [hanchor] using ha'
    | none =>
      refine ⟨ha'.offset, fun g k hg hk => ?_⟩
      obtain ⟨hk, -⟩ := anchorOf_eq_some.mp hk
      cases hk
      exact (ha'.offset g hg).trans hupper

theorem step_write (hop : Opened boot reads offset t.rows rows' clock o k) (ws : List LeaseWrite) :
    step t (.write reads offset ws true) =
      let s := ws.foldl (applyWrite clock reads.now offset)
        ⟨rows', creditGrants t.rows rows' t.grants⟩
      ⟨s.rows, s.grants, offset⟩ := by
  simp only [step, inside, hop.door]

theorem step_write_anchor (hop : Opened boot reads offset t.rows rows' clock o k)
    (ws : List LeaseWrite) :
    anchorOf (step t (.write reads offset ws true)).rows.anchor boot = some k := by
  rw [step_write hop]
  exact List.foldlRecOn ws _ (motive := fun s : Ledger => anchorOf s.rows.anchor boot = some k)
    hop.anchor fun s hs w _ => (applyWrite_anchor clock _ offset s w).symm ▸ hs

/-- The reads of a door at boot reading `ns` that samples the offset exactly. -/
def precise (boot : String) (ns offset : Int) : ClockReads :=
  ⟨ns, true, .ok (ns - offset), some (boot, ns), .ok (ns - offset)⟩

theorem precise_clock (boot : String) (ns offset : Int) :
    withAttemptClock (precise boot ns offset) =
      ⟨boot, ns, none, some ⟨offset, offset, Int.le_refl _⟩, 0, 0⟩ := by
  have h : ns - (ns - offset) = offset := by omega
  simp [withAttemptClock, precise, h]

/-- A precise door opened at an offset past the anchor's upper bound credits every active lease
of this boot with the difference. -/
theorem precise_credits {ns : Int} (hne : boot ≠ "") (hns : 0 ≤ ns) (hi : t.Inv boot)
    (hk : anchorOf t.rows.anchor boot = some k) (hlt : k.hi < t.offset) (hg : t.grants id = some g)
    (ha : t.rows.attempts.find id = some a) (hact : a.state.active) :
    Admissible boot t (.write (precise boot ns t.offset) t.offset [] true) ∧
      (step t (.write (precise boot ns t.offset) t.offset [] true)).offset = t.offset ∧
      (step t (.write (precise boot ns t.offset) t.offset [] true)).grants id =
        some { g with credited := g.credited + (t.offset - k.hi) } := by
  have hs : Sampled boot (precise boot ns t.offset) t.offset := by
    rw [Sampled, precise_clock]
    exact ⟨hne, rfl, hns, _, rfl, le_refl _, le_refl _⟩
  obtain ⟨rows', clock, o, k', hop⟩ := opened hs hi.anchor_le
  have ho : o = ⟨t.offset, t.offset, le_refl _⟩ := by
    have := hop.sample
    rw [precise_clock] at this
    exact (Option.some.inj this).symm
  have hgap : provedGap t.rows.anchor boot o = t.offset - k.hi := by
    rw [provedGap_of_anchor hk, ho]
    show max 0 (t.offset - k.hi) = _
    omega
  refine ⟨⟨hs, le_refl _, by simp⟩, by rw [step_write hop], ?_⟩
  rw [step_write hop]
  show creditGrants t.rows rows' t.grants id = _
  have ht := hi.leases id g a hg ha hact
  rw [hop.creditGrants_eq t.grants ha, hg, if_pos ⟨hact, ht.stamped⟩, hgap]
  rfl

/-- **When the credit of a lease is sleep it slept through.** Take a lease granted at a
committed door. Whatever doors follow, short of a renewal, its credit is at most the true
sleep since the grant if and only if the granting door left no sleep uncredited that it could
not see: the store had no anchor of this boot yet, or the true offset was at or below the
anchor's upper bound or the door's own lower bound. -/
theorem credit_bounded_iff (boot : String) (t₀ t : Timeline) (ds : List Door)
    (hboots : Boots boot t₀) (hrun : Run (Admissible boot) step t₀ ds t) (reads : ClockReads)
    (offset : Int) (ws : List LeaseWrite)
    (hd : Admissible boot t (.write reads offset ws true)) (o : SleepClockOffset)
    (ho : (withAttemptClock reads).sleepOffset = some o) (id : Nat) (g : Grant) (a : Attempt)
    (hg : (step t (.write reads offset ws true)).grants id = some g)
    (ha : (step t (.write reads offset ws true)).rows.attempts.find id = some a)
    (hact : a.state.active) (hnew : g.offset = offset ∧ g.credited = 0) :
    (∀ fs u g', Run (Admissible boot) step (step t (.write reads offset ws true)) fs u →
        (∀ f ∈ fs, ¬ f.grantsTo id) → u.grants id = some g' →
        g'.credited ≤ u.offset - g'.offset) ↔
      ∀ k, anchorOf t.rows.anchor boot = some k → offset ≤ max k.hi o.lower := by
  have hi := run_inv hboots hrun
  have hi' : (step t (.write reads offset ws true)).Inv boot := hi.step _ hd
  obtain ⟨hs, hle, -⟩ := hd
  obtain ⟨rows', clock, o', k', hop⟩ := opened hs (LeaseTimeline.Inv.later hi hle).anchor_le
  obtain rfl : o' = o := by
    have := hop.sample
    rw [ho] at this
    exact (Option.some.inj this).symm
  have hk' := step_write_anchor hop ws
  have hupper := hop.upper
  have hoff : (step t (.write reads offset ws true)).offset = offset := by rw [step_write hop]
  constructor
  · intro hbnd k hk
    by_contra hlt
    -- The anchor stays below the offset, so a precise door right after the grant credits it.
    have hhi : k'.hi < (step t (.write reads offset ws true)).offset := by
      have := hop.hi_eq k hk
      omega
    obtain ⟨hadm, hoff', hg'⟩ := precise_credits hs.1 hs.2.2.1 hi' hk' hhi hg ha hact
    have := hbnd _ _ _ (Run.cons _ hadm Run.nil) (by simp [Door.grantsTo]) hg'
    rw [hoff', hoff] at this
    simp only [hnew.1, hnew.2] at this
    omega
  · intro hcond fs u g' hfs hno hg'
    have hacc : Accounted boot (step t (.write reads offset ws true)).offset id
        ⟨(step t (.write reads offset ws true)).rows,
          (step t (.write reads offset ws true)).grants⟩ := by
      refine ⟨fun g₁ hg₁ => ?_, fun g₁ k₁ hg₁ hk₁ => ?_⟩
      · obtain rfl := Option.mem_unique hg hg₁
        omega
      obtain rfl := Option.mem_unique hg hg₁
      obtain rfl := Option.mem_unique hk' hk₁
      cases hk : anchorOf t.rows.anchor boot with
      | none =>
        have := hop.hi_new hk
        omega
      | some k =>
        have h1 := hop.hi_eq k hk
        have h2 := hcond k hk
        omega
    have hall := (hfs.restrict hno).invariant
      (P := fun u => u.Inv boot ∧ Accounted boot u.offset id ⟨u.rows, u.grants⟩)
      (fun u f hu hf => ⟨hu.1.step f hf.1, hu.2.step hu.1 f hf.1 hf.2⟩) ⟨hi', hacc⟩
    have := hall.2.offset g' hg'
    omega

end Credit

/-- There is no anchor before that door, so the credit of its lease stays within its sleep. -/
theorem credit_bounded_first_lease :
    anchorOf emptyStore.rows.anchor "b" = none ∧
      ∀ fs u g', Run (Admissible "b") step (step emptyStore firstGrant) fs u →
        (∀ f ∈ fs, ¬ f.grantsTo 1) → u.grants 1 = some g' →
        g'.credited ≤ u.offset - g'.offset :=
  ⟨rfl, (credit_bounded_iff "b" emptyStore emptyStore [] emptyStore_boots Run.nil (sampleAt 0 0 0)
    0 [.claim claimRow 10] firstGrant_admissible ⟨0, 0, le_refl 0⟩ rfl 1 ⟨0, 0, 10, 0⟩ _ rfl rfl
    (by decide) ⟨rfl, rfl⟩).mpr fun k hk => by cases hk⟩

/-- The three doors of a sleep credited to a lease granted after it: a precise door anchors the
offset at 0; the host sleeps 150; a door whose second pausing read is delayed by 150 grants
a lease under the sample `[0, 155]`; a precise door follows with the host awake throughout. -/
def wideGrant : List Door :=
  [.write (sampleAt 100 100 100) 0 [] true,
    .write (sampleAt 260 105 260) 150 [.claim claimRow 10] true,
    .write (sampleAt 410 260 260) 150 [] true]

/-- **Sleep credited to a lease that did not sleep.** The lease granted by the second door has
been credited 150 by the third, and no sleep happened between the two. -/
theorem wide_grant_credits_earlier_sleep :
    ∃ t g, Run (Admissible "b") step emptyStore wideGrant t ∧ t.grants 1 = some g ∧
      g.offset = 150 ∧ t.offset = 150 ∧ g.credited = 150 ∧
      ¬ (g.credited ≤ t.offset - g.offset) := by
  refine ⟨exec step emptyStore wideGrant, ⟨260, 150, 10, 150⟩, ?_, rfl, rfl, rfl, rfl, by decide⟩
  refine Run.cons _ ?_ (Run.cons _ ?_ (Run.cons _ ?_ Run.nil))
  · exact ⟨sampled_at (by decide) (by decide) (by decide) (by decide), by decide, by simp⟩
  · refine ⟨sampled_at (by decide) (by decide) (by decide) (by decide), by decide, fun w hw => ?_⟩
    rw [List.mem_singleton.mp hw]
    show (0 : Int) < 10
    decide
  · exact ⟨sampled_at (by decide) (by decide) (by decide) (by decide), by decide, by simp⟩

end Wefty.LeaseTimeline
