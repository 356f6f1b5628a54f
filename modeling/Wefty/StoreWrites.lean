/-
The writes that transactions of the L1 store are made of, each with the one theorem about it:
the invariant survives the write, and the store it leaves follows the one it found.

Most writes touch rows of jobs, attempts and tombstones only. `Changes` says what such a write may
do row by row, and one theorem turns it into `Onward`; the writes below it are instances. The others
put something new on record: a job, a Computer, a copy. A claim is the last of them, and the only
write that makes an attempt.
-/
import Wefty.StoreRules

set_option autoImplicit false

namespace Wefty.StoreWrites

open Tables Rows StoreRows AttemptClock LeaseSleep RestartPolicy AttemptAuthority AttemptRules
open ControlStore StoreRules

variable {job job' : Job} {id : Nat} {tombstone : Tombstone}

/-! ## 1. Writes to jobs, attempts and tombstones -/

/-- What such a write may do to a job, its binding apart. Only a claim makes it held, and the
Computer it is of is stable then. -/
structure Moves (leave : Leave) (s : Store) (job job' : Job) : Prop where
  follows : JobFollows leave job job'
  sound : Sound job → Sound job'
  holding : job'.state.holding → job.state.holding ∨
    ∀ {k computer}, s.computers.find k = some computer → computer.currentJobID = job.jobID →
      computer.phase = .stable
  removes : job'.removal.isSome → job.removal.isSome ∨
    ∀ {k computer}, s.computers.find k = some computer → computer.currentJobID = job.jobID →
      computer.phase = .removing
  beside : ∀ {tombstone}, s.tombstones.find job.jobID = some tombstone → Beside job tombstone →
    Beside job' tombstone

theorem Moves.refl (leave : Leave) (s : Store) (job : Job) : Moves leave s job job :=
  ⟨.refl leave job, id, .inl, .inl, fun _ h => h⟩

/-- A job that was not there, and whose key nothing holds. -/
structure Enters (copies : Prop) (leave : Leave) (s : Store) (job : Job) : Prop where
  sound : Sound job
  removal : job.removal = none
  root : job.parentJobID = none ∨ leave.spawn
  key : ¬ copies → ∀ {hash id}, ¬ Holds s job.spec.dispatchKey hash id

/-- An attempt that was not there: its job is bound to it, and its token is larger than those
before. -/
structure Takes (leave : Leave) (s : Store) (jobs : Table Job.jobID) (attempt : Attempt)
    (job job' : Job) :
    Prop where
  claim : leave.claim
  found : s.jobs.find attempt.jobID = some job
  left : jobs.find attempt.jobID = some job'
  bound : Bound job' attempt
  token : job.fenceCounter < attempt.fencingToken

/-- What it may do to the tables: a new row has the next identifier, if that is used up. A job that
goes leaves a tombstone, unless copies are about and its removal was never requested. -/
structure Changes (copies : Prop) (leave : Nat → Leave) (s : Store) (leases : LeaseRows)
    (jobs : Table Job.jobID) (tombstones : Table Tombstone.jobID) (nextID : Nat) : Prop where
  next : s.nextID ≤ nextID
  job : ∀ {id job'}, jobs.find id = some job' →
    (∃ job, s.jobs.find id = some job ∧ Moves (leave id) s job job') ∨
    id = s.nextID ∧ s.nextID < nextID ∧ Enters copies (leave id) s job'
  keepsJob : ∀ {id job}, s.jobs.find id = some job → job.service = none →
    ∃ job', jobs.find id = some job'
  gone : ∀ {id job}, s.jobs.find id = some job → jobs.find id = none →
    ¬ copies ∨ job.removal.isSome →
    ∃ tombstone, tombstones.find id = some tombstone ∧ Buries (leave id) job tombstone
  tombstone : ∀ {id t}, tombstones.find id = some t → Holds s t.dispatchKey t.requestHash id
  keepsTombstone : ∀ {id t}, s.tombstones.find id = some t →
    ∃ t', tombstones.find id = some t' ∧ Stands t t'
  beside : ∀ {id t job'}, tombstones.find id = some t → jobs.find id = some job' → Beside job' t
  forgotten : ∀ {id job'}, jobs.find id = some job' → ∀ removal ∈ job'.removal,
    removal.status = .forgottenCleanupUnverified → ∃ t, tombstones.find id = some t
  attempt : ∀ {id attempt'}, leases.attempts.find id = some attempt' →
    (∃ attempt, s.attempts.find id = some attempt ∧ AttemptFollows attempt attempt') ∨
    id = s.nextID ∧ s.nextID < nextID ∧
      ∃ job job', Takes (leave attempt'.jobID) s jobs attempt' job job'
  keepsAttempt : ∀ {id attempt job}, s.attempts.find id = some attempt →
    s.jobs.find attempt.jobID = some job → job.service = none →
    ∃ attempt', leases.attempts.find id = some attempt'
  owned : ∀ {id attempt' job}, leases.attempts.find id = some attempt' →
    s.jobs.find attempt'.jobID = some job → ∃ job', jobs.find attempt'.jobID = some job'
  bound : ∀ {id attempt' job job'}, leases.attempts.find id = some attempt' →
    s.jobs.find attempt'.jobID = some job → jobs.find attempt'.jobID = some job' →
    attempt'.state.active → Bound job attempt' → Bound job' attempt'

section
variable {copies : Prop} {leave : Nat → Leave} {s : Store} {leases : LeaseRows} {nextID : Nat}
variable {jobs : Table Job.jobID} {tombstones : Table Tombstone.jobID}

theorem Changes.refl (leave : Nat → Leave) (hinv : Inv copies s) :
    Changes copies leave s s.leases s.jobs s.tombstones s.nextID where
  next := le_rfl
  job hj := .inl ⟨_, hj, .refl _ s _⟩
  keepsJob hj _ := ⟨_, hj⟩
  gone hj hn := absurd hj (by simp [hn])
  tombstone ht := .tombstone _ ht rfl rfl
  keepsTombstone ht := ⟨_, ht, .refl _⟩
  beside := hinv.keys.buried
  forgotten := hinv.keys.forgotten
  attempt ha := .inl ⟨_, ha, .refl _⟩
  keepsAttempt ha _ _ := ⟨_, ha⟩
  owned _ hj := ⟨_, hj⟩
  bound _ hj hj' _ hbnd := Option.mem_unique hj hj' ▸ hbnd

theorem Takes.token_lt {attempt other : Attempt}
    (h : Takes (leave attempt.jobID) s jobs attempt job job')
    (hinv : Inv copies s) (hoth : s.attempts.find id = some other)
    (hjob : other.jobID = attempt.jobID) : other.fencingToken < attempt.fencingToken := by
  obtain ⟨old, hold, -, hle⟩ := hinv.owned hoth
  cases h.found.symm.trans (hjob ▸ hold)
  exact lt_of_le_of_lt hle h.token

section
variable (h : Changes copies leave s leases jobs tombstones nextID)
include h

theorem Changes.old (hlt : id < s.nextID) (hj : jobs.find id = some job') :
    ∃ job, s.jobs.find id = some job ∧ Moves (leave id) s job job' :=
  (h.job hj).resolve_right fun hnew => hlt.ne hnew.1

theorem Changes.held {key hash : Nat}
    (hheld : Holds { s with leases, jobs, tombstones, nextID } key hash id) :
    Holds s key hash id ∨ id = s.nextID ∧ (¬ copies → ∀ {hash id}, ¬ Holds s key hash id) := by
  cases hheld with
  | job job' hfind hkey hhash =>
    rcases h.job hfind with ⟨job, hjob, hmvs⟩ | ⟨hid, -, hnew⟩
    · exact .inl (.job job hjob (by rw [← hkey, hmvs.follows.spec_eq])
        (by rw [← hhash, hmvs.follows.requestHash_eq]))
    · exact .inr ⟨hid, hkey ▸ hnew.key⟩
  | tombstone tombstone hfind hkey hhash => exact .inl (hkey ▸ hhash ▸ h.tombstone hfind)

variable (hinv : Inv copies s)
include hinv

theorem Changes.follows :
    Follows copies leave s { s with leases, jobs, tombstones, nextID } where
  nextID := h.next
  job hj hj' := by
    obtain ⟨job, hjob, hmvs⟩ := h.old (hinv.fresh.jobs hj) hj'
    cases hj.symm.trans hjob
    exact hmvs.follows
  oldJob hj' hlt := by
    obtain ⟨job, hjob, -⟩ := h.old hlt hj'
    exact ⟨job, hjob⟩
  newJob hj' hnone _ removal hrem := by
    rcases h.job hj' with ⟨job, hjob, -⟩ | ⟨-, -, hnew⟩
    · cases hjob.symm.trans hnone
    · rw [hnew.removal] at hrem
      cases hrem
  root hj' hnone hspawn := by
    rcases h.job hj' with ⟨job, hjob, -⟩ | ⟨-, -, hnew⟩
    · cases hjob.symm.trans hnone
    · exact hnew.root.resolve_right hspawn
  keepsJob := h.keepsJob
  attempt ha ha' := by
    rcases h.attempt ha' with ⟨attempt, hatt, hfol⟩ | ⟨hid, -⟩
    · cases ha.symm.trans hatt
      exact hfol
    · exact absurd hid (hinv.fresh.attempts ha).ne
  oldAttempt ha' hold := by
    rcases h.attempt ha' with ⟨attempt, hatt, -⟩ | ⟨hid, -, job, job', htakes⟩
    · exact ⟨attempt, hatt⟩
    · rcases hold with hlt | hn
      · exact absurd hid hlt.ne
      · exact absurd htakes.claim hn
  keepsAttempt := h.keepsAttempt
  holds hn {key hash id} hheld := by
    cases hheld with
    | tombstone tombstone hfind hkey hhash =>
      obtain ⟨t', ht', hstd⟩ := h.keepsTombstone hfind
      exact .tombstone t' ht' (hstd.dispatchKey_eq.trans hkey)
        (hstd.requestHash_eq.trans hhash)
    | job job hfind hkey hhash =>
      cases hfind' : jobs.find id with
      | some job' =>
        obtain ⟨old, hold, hmvs⟩ := h.old (hinv.fresh.jobs hfind) hfind'
        cases hfind.symm.trans hold
        exact .job job' hfind' (by rw [hmvs.follows.spec_eq, hkey])
          (by rw [hmvs.follows.requestHash_eq, hhash])
      | none =>
        -- The job is gone, and its tombstone says the same.
        obtain ⟨tombstone, htomb, hbur⟩ := h.gone hfind hfind' (.inl hn)
        exact .tombstone tombstone htomb (hbur.dispatchKey_eq.trans hkey)
          (hbur.requestHash_eq.trans hhash)
  tombstone := h.keepsTombstone
  gone hj hn hrem := h.gone hj hn (.inr hrem)
  computer := (Follows.refl copies leave s).computer
  oldComputer hc _ := ⟨_, hc⟩

theorem Changes.keys : Keys copies { s with leases, jobs, tombstones, nextID } where
  buried := h.beside
  forgotten := h.forgotten
  unique hn key hash hash' i j hi hj := by
    -- A new job holds a key nothing else holds.
    rcases h.held hi with hi | ⟨hi, hfree⟩ <;> rcases h.held hj with hj | ⟨hj, hfree'⟩
    · exact hinv.keys.unique hn hi hj
    · exact absurd hi (hfree' hn)
    · exact absurd hj (hfree hn)
    · exact hi.trans hj.symm
  imported := hinv.keys.imported

theorem Changes.layout : Layout { s with leases, jobs, tombstones, nextID } where
  stored := hinv.layout.stored
  placed {id computer job'} hc hj := by
    obtain ⟨job, hjob, hmvs⟩ := h.old (hinv.fresh.computers hc).2 hj
    have hplace := hinv.layout.placed hc hjob
    have hid := (Table.key_of_find hjob).symm
    refine ⟨hmvs.follows.computerForJob_eq.trans hplace.projected, fun hph => ?_,
      fun hph => ?_⟩
    · -- A removal is new only where the Computer is being removed.
      by_contra hrem
      rcases hmvs.removes (Option.isSome_iff_ne_none.mpr hrem) with hold | hcomp
      · rw [hplace.removal hph] at hold
        cases hold
      · exact hph (hcomp hc hid)
    · by_contra hhold
      rcases hmvs.holding (by simpa using hhold) with hheld | hstab
      · cases (hplace.waiting hph).symm.trans hheld
      · rw [hstab hc hid] at hph
        simp at hph
  linked := hinv.layout.linked
  copied hc hj := by
    obtain ⟨job, hjob, hmvs⟩ := h.old (hinv.fresh.copies hc).2 hj
    rw [hmvs.follows.isService]
    exact hinv.layout.copied hc hjob
  importing := hinv.layout.importing

theorem Changes.fresh : Fresh { s with leases, jobs, tombstones, nextID } where
  jobs hj := by
    rcases h.job hj with ⟨job, hjob, -⟩ | ⟨hid, hlt, -⟩
    · exact lt_of_lt_of_le (hinv.fresh.jobs hjob) h.next
    · exact hid ▸ hlt
  attempts ha := by
    rcases h.attempt ha with ⟨attempt, hatt, -⟩ | ⟨hid, hlt, -⟩
    · exact lt_of_lt_of_le (hinv.fresh.attempts hatt) h.next
    · exact hid ▸ hlt
  tombstones ht := by
    refine lt_of_lt_of_le ?_ h.next
    cases h.tombstone ht with
    | job job hjob => exact hinv.fresh.jobs hjob
    | tombstone t ht => exact hinv.fresh.tombstones ht
  computers hc := (hinv.fresh.computers hc).imp (lt_of_lt_of_le · h.next) (lt_of_lt_of_le · h.next)
  copies hc := (hinv.fresh.copies hc).imp (lt_of_lt_of_le · h.next) (lt_of_lt_of_le · h.next)

theorem Changes.inv : Inv copies { s with leases, jobs, tombstones, nextID } where
  sound hj := by
    rcases h.job hj with ⟨job, hjob, hmvs⟩ | ⟨-, -, hnew⟩
    · exact hmvs.sound (hinv.sound hjob)
    · exact hnew.sound
  owned {id attempt'} ha := by
    rcases h.attempt ha with ⟨attempt, hatt, hfol⟩ | ⟨-, -, job, job', htakes⟩
    · obtain ⟨job, hjob, hpos, hle⟩ := hinv.owned hatt
      rw [← hfol.jobID_eq] at hjob
      rw [← hfol.fencingToken_eq] at hpos hle
      obtain ⟨job', hjob'⟩ := h.owned ha hjob
      obtain ⟨old, hold, hmvs⟩ := h.old (hinv.fresh.jobs hjob) hjob'
      cases hjob.symm.trans hold
      exact ⟨job', hjob', hpos, hle.trans hmvs.follows.fence⟩
    · exact ⟨job', htakes.left, Nat.zero_lt_of_lt htakes.token, htakes.bound.token.le⟩
  bound ha hj hactv := by
    rcases h.attempt ha with ⟨attempt, hatt, hfol⟩ | ⟨-, -, job, job', htakes⟩
    · obtain ⟨job, hjob, -⟩ := hinv.owned hatt
      exact h.bound ha (hfol.jobID_eq ▸ hjob) hj hactv
        ((hinv.bound hatt hjob (hfol.active hactv)).of_follows hfol)
    · cases htakes.left.symm.trans hj
      exact htakes.bound
  distinct ha hb hjob htoken := by
    rcases h.attempt ha with ⟨a, hfinda, hfollowsa⟩ | ⟨hi, -, _, _, htakes⟩ <;>
      rcases h.attempt hb with ⟨b, hfindb, hfollowsb⟩ | ⟨hj, -, _, _, htakes'⟩
    · rw [hfollowsa.jobID_eq, hfollowsb.jobID_eq] at hjob
      rw [hfollowsa.fencingToken_eq, hfollowsb.fencingToken_eq] at htoken
      exact hinv.distinct hfinda hfindb hjob htoken
    · rw [hfollowsa.jobID_eq] at hjob
      rw [hfollowsa.fencingToken_eq] at htoken
      exact absurd htoken (htakes'.token_lt hinv hfinda hjob).ne
    · rw [hfollowsb.jobID_eq] at hjob
      rw [hfollowsb.fencingToken_eq] at htoken
      exact absurd htoken (htakes.token_lt hinv hfindb hjob.symm).ne'
    · exact hi.trans hj.symm
  fresh := h.fresh hinv
  keys := h.keys hinv
  layout := h.layout hinv

/-- **A write to jobs, attempts and tombstones goes onward.** -/
theorem Changes.onward : Onward copies leave s { s with leases, jobs, tombstones, nextID } :=
  ⟨h.inv hinv, h.follows hinv⟩

end

variable (hinv : Inv copies s) (hjob : ∀ {id job'}, jobs.find id = some job' →
  ∃ job, s.jobs.find id = some job ∧ Moves (leave id) s job job')
include hinv hjob

theorem beside_of_moves {t : Tombstone}
    (ht : s.tombstones.find id = some t) (hj : jobs.find id = some job') : Beside job' t := by
  obtain ⟨job, hfind, hmvs⟩ := hjob hj
  refine hmvs.beside ?_ (hinv.keys.buried ht hfind)
  rw [Table.key_of_find hfind]
  exact ht

/-- And a removal that is forgotten was so before, if none is waived. -/
theorem forgotten_of_moves (hwaive : ∀ id, ¬ (leave id).waive)
    (hj : jobs.find id = some job') (removal : Removal) (hrem : removal ∈ job'.removal)
    (hforg : removal.status = .forgottenCleanupUnverified) :
    ∃ t, s.tombstones.find id = some t := by
  obtain ⟨job, hfind, hmvs⟩ := hjob hj
  obtain ⟨r, hr, hstat⟩ :=
    hmvs.follows.removal.waived (hwaive id) removal hrem hforg
  exact hinv.keys.forgotten hfind r hr hstat

end

/-! ## 2. Writes to attempts -/

section
variable {copies : Prop} {s : Store}

theorem creditAttempt_follows (boot : String) (gap : Int) (attempt : Attempt) :
    AttemptFollows attempt (if attempt.state.active then creditAttempt boot gap attempt
      else attempt) := by
  split
  · exact ⟨rfl, fun _ => rfl, fun _ => ⟨rfl, rfl⟩⟩
  · exact .refl attempt

/-- What is behind a door: the store with its active leases and its Nodes credited, and the time of
the call. -/
theorem openDoor_ok {config : Config} {door : Door} {ctx : Ctx} {opened : Store}
    (h : openDoor config door s = some (ctx, opened)) :
    ctx.now = door.now ∧ (∃ leases, opened = { s with leases := leases }) ∧
      ∃ boot gap, 0 ≤ gap ∧ opened.attempts = (credit s.leases boot gap).attempts ∧
        opened.nodes = (credit s.leases boot gap).nodes := by
  unfold openDoor at h
  split at h
  next leases clock hdoor =>
    cases h
    refine ⟨rfl, ⟨leases, rfl⟩, ?_⟩
    unfold writeDoor at hdoor
    dsimp only at hdoor
    split at hdoor
    · cases hdoor
      -- Without a sample nothing is credited.
      exact ⟨"", 0, le_rfl, rfl, rfl⟩
    · split at hdoor <;> cases hdoor
      exact ⟨_, _, provedGap_nonneg _ _ _, rfl, rfl⟩
  · cases h

theorem find_attempts_openDoor {config : Config} {door : Door} {ctx : Ctx} {opened : Store}
    (h : openDoor config door s = some (ctx, opened)) :
    ∃ boot gap, ∀ id, opened.attempts.find id = (s.attempts.find id).map fun a =>
      if a.state.active then creditAttempt boot gap a else a := by
  obtain ⟨-, -, boot, gap, hgap, hatts, -⟩ := openDoor_ok h
  refine ⟨boot, gap, fun id => ?_⟩
  rw [hatts]
  exact find_attempts_credit _ boot hgap id

theorem revoke_follows (ctx : Ctx) (p : Attempt → Bool) (attempt : Attempt) :
    AttemptFollows attempt (if p attempt && attempt.state.active then revoke ctx attempt
      else attempt) := by
  split
  next h =>
    simp only [Bool.and_eq_true] at h
    have hactv : attempt.state.active ≠ false := by simp [h.2]
    unfold revoke
    dsimp only
    split <;> exact ⟨rfl, fun hended => absurd hended hactv, fun _ => ⟨rfl, rfl⟩⟩
  · exact .refl attempt

theorem find_invalidateAttempts (s : Store) (ctx : Ctx) (p : Attempt → Bool) (id : Nat) :
    (s.invalidateAttempts ctx p).attempts.find id = (s.attempts.find id).map fun a =>
      if p a && a.state.active then revoke ctx a else a := by
  simp only [Store.attempts, Store.invalidateAttempts, Store.withAttempts, Table.find_updateWhere]

variable (hinv : Inv copies s)
include hinv

/-- A write that leaves the jobs alone: each attempt it leaves follows one that was there, and it
deletes attempts of services only. -/
theorem onward_leases {leases : LeaseRows}
    (hatt : ∀ {id attempt'}, leases.attempts.find id = some attempt' →
      ∃ attempt, s.attempts.find id = some attempt ∧ AttemptFollows attempt attempt')
    (hkeeps : ∀ {id attempt job}, s.attempts.find id = some attempt →
      s.jobs.find attempt.jobID = some job → job.service = none →
      ∃ attempt', leases.attempts.find id = some attempt') :
    Onward copies noLeave s { s with leases := leases } := by
  have hchg : Changes copies noLeave s leases s.jobs s.tombstones s.nextID := {
    Changes.refl noLeave hinv with
    attempt := fun ha => .inl (hatt ha)
    keepsAttempt := hkeeps
    owned := fun _ hj => ⟨_, hj⟩
    bound := fun _ hj hj' _ hbnd => Option.mem_unique hj hj' ▸ hbnd }
  exact hchg.onward hinv

theorem onward_map {leases : LeaseRows} {f : Attempt → Attempt}
    (hfind : ∀ id, leases.attempts.find id = (s.attempts.find id).map f)
    (hf : ∀ attempt, AttemptFollows attempt (f attempt)) :
    Onward copies noLeave s { s with leases := leases } := by
  refine onward_leases hinv (fun {id attempt'} ha => ?_) (fun {id attempt job} ha _ _ => ?_)
  · rw [hfind, Option.map_eq_some_iff] at ha
    obtain ⟨attempt, hatt, rfl⟩ := ha
    exact ⟨attempt, hatt, hf attempt⟩
  · exact ⟨f attempt, by rw [hfind, ha]; rfl⟩

theorem onward_withNodes (nodes : Table Node.nodeID) :
    Onward copies noLeave s (s.withNodes nodes) :=
  onward_map hinv (f := id) (fun _ => Option.map_id'.symm) fun attempt => .refl attempt

theorem onward_openDoor {config : Config} {door : Door} {ctx : Ctx}
    {opened : Store} (h : openDoor config door s = some (ctx, opened)) :
    Onward copies noLeave s opened := by
  obtain ⟨boot, gap, hfind⟩ := find_attempts_openDoor h
  obtain ⟨-, ⟨leases, rfl⟩, -⟩ := openDoor_ok h
  exact onward_map hinv hfind (creditAttempt_follows boot gap)

theorem onward_invalidateAttempts (ctx : Ctx) (p : Attempt → Bool) :
    Onward copies noLeave s (s.invalidateAttempts ctx p) :=
  onward_map hinv (find_invalidateAttempts s ctx p) (revoke_follows ctx p)

/-- A pruned attempt belongs to a service. -/
theorem onward_pruneListedAttemptSummaries (ctx : Ctx) (listed : List Nat) :
    Onward copies noLeave s (s.pruneListedAttemptSummaries ctx listed) := by
  have hfind : ∀ id, (s.pruneListedAttemptSummaries ctx listed).attempts.find id =
      (s.attempts.find id).filter fun a => !(a.attemptID ∈ listed && s.prunable ctx a) :=
    fun id => Table.find_deleteWhere
  refine onward_leases hinv (fun {id attempt'} ha => ?_) (fun {id attempt job} ha hj hs => ?_)
  · have ha := (hfind id).symm.trans ha
    exact ⟨attempt', (Option.filter_eq_some_iff.mp ha).1, .refl attempt'⟩
  · refine ⟨attempt, (hfind id).trans (Option.filter_eq_some_iff.mpr ⟨ha, ?_⟩)⟩
    have hkept : s.prunable ctx attempt = false := by simp [Store.prunable, hj, hs]
    simp [hkept]

end

/-! ## 3. Transactions on one attempt -/

theorem origin_of_lineage (h : lineage job' = lineage job) : origin job' = origin job := by
  have hcomp : job'.computerForJob = job.computerForJob := by
    have hpair := congrArg (fun l : Lineage => l.computer.map Prod.fst) h
    simpa [lineage, Job.computerForJob, Function.comp_def] using hpair
  injection h with hid _ _ _ hhash hspec hpar hparentAttempt hsub hdepth hcrt _ _ _
    hsvc
  simp only [origin, hid, hhash, hspec, hpar, hparentAttempt, hsub, hdepth, hcrt,
    hcomp, hsvc]

section
variable {attempt : Attempt} {rows : AttemptRows}

theorem unscheduled_of_holding (h : Sound job) (hhold : job.state.holding) :
    job.nextRestartAtNS = none := by
  by_contra hnext
  have hidle := (h.scheduled (Option.isSome_iff_ne_none.mpr hnext)).2
  rw [hhold] at hidle
  cases hidle

theorem openClaims_of_ne_queued (h : job.state ≠ .queued) : openClaims job = 1 :=
  if_neg fun hq => h hq.1

theorem ne_queued_of_holding (h : job.state.holding) : job.state ≠ .queued := by
  intro hq
  rw [hq] at h
  cases h

theorem canceled_of_moved (h : Sound job) (hhold : job.state.holding) (hmvd : Moved job job')
    (hn : job.service = none) (hc : job.canceled) :
    job'.nextRestartAtNS = none ∧ job'.state ≠ .queued ∧ job'.state ≠ .succeeded := by
  have hnext := unscheduled_of_holding h hhold
  obtain ⟨-, hqueue, hsucc⟩ := h.canceled hn hc
  cases hmvd with
  | kept hkept =>
    refine ⟨hkept.nextRestartAtNS.trans hnext, ?_⟩
    rcases hkept.state with hsame | ⟨-, hrun⟩
    · rw [hsame]
      exact ⟨hqueue, hsucc⟩
    · rw [hrun]
      exact ⟨by simp, by simp⟩
  | settled hsets =>
    cases hsets with
    | recovered hopen => simp [hc] at hopen
    | retried hopen => simp [hc] at hopen
    | policy hs => simp [hn] at hs
    | ended hst hnone =>
      rcases hst with hfail | ⟨hopen, -⟩
      · refine ⟨?_, by simp [hfail], by simp [hfail]⟩
        rcases hnone with hnone | hnone
        · exact hnone
        · exact hnone.trans hnext
      · simp [hc] at hopen

theorem scheduled_of_moved (h : Sound job) (hhold : job.state.holding) (hmvd : Moved job job')
    (hsched : job'.nextRestartAtNS.isSome) :
    job.restartCount < maximumOneshotRestarts ∧ job'.state.holding = false := by
  have hnext := unscheduled_of_holding h hhold
  cases hmvd with
  | kept hkept =>
    rw [hkept.nextRestartAtNS, hnext] at hsched
    cases hsched
  | settled hsets =>
    refine ⟨?_, hsets.holding⟩
    cases hsets with
    | recovered _ hlimit => exact hlimit
    | retried _ _ hnone | ended _ hnone | policy _ _ hnone =>
      rw [hnext, or_self] at hnone
      rw [hnone] at hsched
      cases hsched

theorem claims_of_moved (h : Sound job) (hhold : job.state.holding) (hmvd : Moved job job')
    (hn : job.service = none) :
    job.fenceCounter ≤ job.restartCount + job'.prestartRetryCount + openClaims job' := by
  have hbudget := h.claims hn
  rw [openClaims_of_ne_queued (ne_queued_of_holding hhold)] at hbudget
  cases hmvd with
  | kept hkept =>
    have hheld : job'.state.holding := hkept.holding.trans hhold
    rw [hkept.prestartRetryCount, openClaims_of_ne_queued (ne_queued_of_holding hheld)]
    exact hbudget
  | settled hsets =>
    cases hsets with
    | recovered _ _ _ hsome hretry =>
      have hopen : openClaims job' = 1 := if_neg fun hq => by simp [hq.2] at hsome
      omega
    | retried _ _ _ hretry => omega
    | ended hst _ hretry =>
      have hopen : openClaims job' = 1 := by
        apply openClaims_of_ne_queued
        rcases hst with hst | ⟨-, hst⟩ <;> simp [hst]
      omega
    | policy hs => simp [hn] at hs

theorem sound_of_moved (h : Sound job) (hhold : job.state.holding)
    (hlin : lineage job' = lineage job) (hmvd : Moved job job') : Sound job' := by
  have horig := origin_of_lineage hlin
  have hsvc : job'.service.isSome = job.service.isSome := congrArg Origin.service horig
  have hnone : job'.service = none → job.service = none := fun hn => by simpa [hn] using hsvc
  have hcomp : job'.computerForJob = job.computerForJob := congrArg Origin.computer horig
  have hspec : job'.spec = job.spec := congrArg Origin.spec horig
  have hrem : job'.removal = job.removal := congrArg Lineage.removal hlin
  have hcan : job'.canceled = job.canceled := congrArg Lineage.canceled hlin
  have hcount : job'.restartCount = job.restartCount := congrArg Lineage.restartCount hlin
  have hfence : job'.fenceCounter = job.fenceCounter := congrArg Lineage.fenceCounter hlin
  exact {
    kind := by
      rw [hcomp, hsvc, hspec]
      exact h.kind
    computer := by
      rw [hcomp, hsvc]
      exact h.computer
    removal := by
      -- A job that is being removed is not held.
      rw [hrem]
      intro hsome
      have := (h.removal hsome).1
      revert this hhold
      cases job.state <;> simp [removing, JobState.holding]
    verified := by
      rw [hrem, hcomp]
      exact h.verified
    canceled := fun hn hc => by
      rw [hcan] at hc
      exact canceled_of_moved h hhold hmvd (hnone hn) hc
    scheduled := by
      rw [hcount]
      exact scheduled_of_moved h hhold hmvd
    restarts := by
      rw [hcount]
      exact h.restarts
    claims := fun hn => by
      rw [hcount, hfence]
      exact claims_of_moved h hhold hmvd (hnone hn) }

theorem jobFollows_of_advances (h : Advances job attempt rows)
    (hhold : attempt.state.active → job.state.holding) : JobFollows .none job rows.job where
  origin_eq := origin_of_lineage h.lineage_eq
  fence := (congrArg Lineage.fenceCounter h.lineage_eq).ge
  restarts := (congrArg Lineage.restartCount h.lineage_eq).ge
  canceled _ hcan :=
    ⟨(congrArg Lineage.canceled h.lineage_eq).trans hcan,
      congrArg Lineage.cancelSettleByNS h.lineage_eq, congrArg Lineage.fenceCounter h.lineage_eq⟩
  ended _ hterm := by
    cases hactv : attempt.state.active with
    | false => rw [(h.inert hactv).1]
    | true =>
      -- An active attempt holds its job, so the job is not over.
      have := hhold hactv
      revert this hterm
      cases job.state <;> simp [terminal, JobState.holding]
  unclaimed _ := ⟨congrArg Lineage.restartCount h.lineage_eq,
    fun _ => congrArg Lineage.fenceCounter h.lineage_eq⟩
  granted _ _ _ hidle := by
    cases hactv : attempt.state.active with
    | false =>
      rw [(h.inert hactv).1]
      exact .inr ⟨rfl, hidle⟩
    | true =>
      rw [hhold hactv] at hidle
      cases hidle
  removal := .of_eq .none (congrArg Lineage.removal h.lineage_eq)

theorem attemptFollows_of_advances (h : Advances job attempt rows) :
    AttemptFollows attempt rows.attempt :=
  ⟨h.identity_eq, fun hended => (h.inert hended).2.state_eq, h.accepted⟩

theorem moves_of_advances (s : Store) (h : Advances job attempt rows)
    (hhold : attempt.state.active → job.state.holding) : Moves .none s job rows.job where
  follows := jobFollows_of_advances h hhold
  sound hsound := by
    cases hactv : attempt.state.active with
    | false =>
      rw [(h.inert hactv).1]
      exact hsound
    | true => exact sound_of_moved hsound (hhold hactv) h.lineage_eq h.moved
  holding hh := .inl (h.holding hh)
  removes hrem := .inl (by rwa [← show rows.job.removal = job.removal from
    congrArg Lineage.removal h.lineage_eq])
  beside _ hbeside := hbeside.of_eq (origin_of_lineage h.lineage_eq)
    (congrArg Lineage.removal h.lineage_eq)

end

/-- **The rows of one attempt, put back.** The attempt that advances is the only one its job can be
bound to. -/
theorem onward_setRows {copies : Prop} {s : Store} (hinv : Inv copies s) {attempt : Attempt}
    {rows : AttemptRows} (hatt : s.attempts.find attempt.attemptID = some attempt)
    (hjob : s.jobs.find attempt.jobID = some job) (h : Advances job attempt rows) :
    Onward copies noLeave s (s.setRows rows) := by
  have hhold : attempt.state.active → job.state.holding := fun hactv =>
    (hinv.bound hatt hjob hactv).holding
  have hmvs := moves_of_advances s h hhold
  have hfol := attemptFollows_of_advances h
  have hjobID : rows.job.jobID = attempt.jobID :=
    hmvs.follows.jobID_eq.trans (Table.key_of_find hjob)
  have hattemptID : rows.attempt.attemptID = attempt.attemptID :=
    congrArg Identity.attemptID h.identity_eq
  have hrow : ∀ {id job'}, (s.jobs.replace rows.job).find id = some job' →
      ∃ job, s.jobs.find id = some job ∧ Moves .none s job job' := by
    intro id job' hj
    obtain ⟨rfl, rfl⟩ | ⟨-, hj⟩ := Table.find_replace_cases hj
    · exact ⟨job, hjobID ▸ hjob, hmvs⟩
    · exact ⟨job', hj, .refl .none s job'⟩
  have hchg : Changes copies noLeave s
      { s.leases with attempts := s.attempts.replace rows.attempt } (s.jobs.replace rows.job)
      s.tombstones s.nextID := {
    Changes.refl noLeave hinv with
    job := fun hj => .inl (hrow hj)
    keepsJob := fun hj _ => Table.exists_find_replace hj _
    gone := fun hj hn => by
      obtain ⟨new, hnew⟩ := Table.exists_find_replace hj rows.job
      cases hnew.symm.trans hn
    beside := beside_of_moves hinv hrow
    forgotten := forgotten_of_moves hinv hrow fun _ => not_false
    attempt := fun {id attempt'} ha => by
      obtain ⟨rfl, rfl⟩ | ⟨-, ha⟩ := Table.find_replace_cases ha
      · exact .inl ⟨attempt, hattemptID ▸ hatt, hfol⟩
      · exact .inl ⟨attempt', ha, .refl attempt'⟩
    keepsAttempt := fun ha _ _ => Table.exists_find_replace ha _
    owned := fun _ hj => Table.exists_find_replace hj _
    bound := fun {id attempt' old job'} ha hj hj' hactv hbnd => by
      obtain ⟨hid, rfl⟩ | ⟨-, hj'⟩ := Table.find_replace_cases hj'
      · rw [← hid, hjobID, hjob] at hj
        cases hj
        obtain ⟨-, rfl⟩ | ⟨hoth, ha⟩ := Table.find_replace_cases ha
        · -- The attempt itself: it is still active, so the job still holds it.
          obtain ⟨-, hcur, hheld⟩ := h.active hactv
          exact ⟨hcur.trans hbnd.current, hheld.trans hbnd.holding,
            hbnd.token.trans (congrArg Lineage.fenceCounter h.lineage_eq).symm⟩
        · -- Another attempt the job is bound to: then this one is not active.
          cases hended : attempt.state.active with
          | false =>
            rw [(h.inert hended).1]
            exact hbnd
          | true =>
            have hcur := (hinv.bound hatt hjob hended).current
            rw [hbnd.current, Table.key_of_find ha] at hcur
            exact absurd (hattemptID.trans (Option.some.inj hcur).symm) hoth
      · rw [hj] at hj'
        cases hj'
        exact hbnd }
  exact hchg.onward hinv

/-! ## 4. Transactions on jobs -/

/-- What a write may do to the removal of a job. -/
structure RemovalMoves (leave : Leave) (s : Store) (job job' : Job) : Prop where
  state : Sound job → job'.removal.isSome → removing job'.state
  retires : Retires leave job.removal job'.removal
  verified : Sound job → ∀ removal ∈ job'.removal, removal.status = .removedVerified →
    removal.cleanupStatus = .acknowledged ∧ job.computerForJob.isSome
  removes : job'.removal.isSome → job.removal.isSome ∨
    ∀ {k computer}, s.computers.find k = some computer → computer.currentJobID = job.jobID →
      computer.phase = .removing
  label : ∀ {tombstone}, s.tombstones.find job.jobID = some tombstone →
    (∃ removal ∈ job.removal, removal.status = tombstone.outcome.state) →
    ∃ removal ∈ job'.removal, removal.status = tombstone.outcome.state

theorem RemovalMoves.of_eq {leave : Leave} {s : Store} (h : job'.removal = job.removal)
    (hst : Sound job → job.removal.isSome → removing job'.state) :
    RemovalMoves leave s job job' where
  state := by
    rw [h]
    exact hst
  retires := .of_eq leave h
  verified := by
    rw [h]
    exact fun hsound => hsound.verified
  removes := by
    rw [h]
    exact .inl
  label := by
    rw [h]
    exact fun _ hlab => hlab

/-- The write keeps whatever binding the job has. -/
def Rebinds (s : Store) (job job' : Job) : Prop :=
  ∀ {id attempt}, s.attempts.find id = some attempt → attempt.jobID = job.jobID →
    attempt.state.active → Bound job attempt → Bound job' attempt

section
variable {copies : Prop} {leave : Nat → Leave} {s : Store}

theorem Rebinds.refl (s : Store) (job : Job) : Rebinds s job job := fun _ _ _ h => h

theorem rebinds_of_idle (h : job.state.holding = false) : Rebinds s job job' := by
  intro _ _ _ _ _ hbnd
  rw [hbnd.holding] at h
  cases h

theorem rebinds_of_same (hcur : job'.currentAttemptID = job.currentAttemptID)
    (hhold : job.state.holding → job'.state.holding)
    (hfence : job'.fenceCounter = job.fenceCounter) : Rebinds s job job' := by
  intro _ _ _ _ _ hbnd
  exact ⟨hcur.trans hbnd.current, hhold hbnd.holding, hbnd.token.trans hfence.symm⟩

theorem rebinds_of_inactive (h : ∀ {id attempt}, s.attempts.find id = some attempt →
    attempt.jobID = job.jobID → attempt.state.active = false) : Rebinds s job job' := by
  intro _ _ ha hjob hactv _
  rw [h ha hjob] at hactv
  cases hactv

theorem Changes.jobs (hinv : Inv copies s) (hwaive : ∀ id, ¬ (leave id).waive)
    {jobs : Table Job.jobID}
    (hkeeps : ∀ {id job}, s.jobs.find id = some job → ∃ job', jobs.find id = some job')
    (hjob : ∀ {id job'}, jobs.find id = some job' →
      ∃ job, s.jobs.find id = some job ∧ Moves (leave id) s job job' ∧ Rebinds s job job') :
    Changes copies leave s s.leases jobs s.tombstones s.nextID := by
  have hrow : ∀ {id job'}, jobs.find id = some job' →
      ∃ job, s.jobs.find id = some job ∧ Moves (leave id) s job job' := by
    intro id job' hj
    obtain ⟨job, hfind, hmvs, -⟩ := hjob hj
    exact ⟨job, hfind, hmvs⟩
  exact {
    Changes.refl leave hinv with
    job := fun hj => .inl (hrow hj)
    keepsJob := fun hj _ => hkeeps hj
    gone := fun hj hn => by
      obtain ⟨job', hfind⟩ := hkeeps hj
      cases hfind.symm.trans hn
    beside := beside_of_moves hinv hrow
    forgotten := forgotten_of_moves hinv hrow hwaive
    attempt := fun ha => .inl ⟨_, ha, .refl _⟩
    owned := fun _ hj => hkeeps hj
    bound := fun ha hj hj' hactv hbnd => by
      obtain ⟨job, hfind, -, hreb⟩ := hjob hj'
      rw [hj] at hfind
      cases hfind
      exact hreb ha (Table.key_of_find hj).symm hactv hbnd }

theorem Changes.setJob (hinv : Inv copies s) (hwaive : ∀ id, ¬ (leave id).waive)
    (hfind : s.jobs.find job.jobID = some job) (hmvs : Moves (leave job.jobID) s job job')
    (hreb : Rebinds s job job') :
    Changes copies leave s s.leases (s.jobs.replace job') s.tombstones s.nextID := by
  refine .jobs hinv hwaive (fun hj => Table.exists_find_replace hj _) (fun {id new} hj => ?_)
  obtain ⟨hid, rfl⟩ | ⟨-, hj⟩ := Table.find_replace_cases hj
  · obtain rfl := hmvs.follows.jobID_eq.symm.trans hid
    exact ⟨job, hfind, hmvs, hreb⟩
  · exact ⟨new, hj, .refl (leave id) s new, Rebinds.refl s new⟩

theorem onward_setJob (hinv : Inv copies s) (hwaive : ∀ id, ¬ (leave id).waive)
    (hfind : s.jobs.find job.jobID = some job) (hmvs : Moves (leave job.jobID) s job job')
    (hreb : Rebinds s job job') : Onward copies leave s (s.setJob job') :=
  (Changes.setJob hinv hwaive hfind hmvs hreb).onward hinv

/-- A service is restarted no more often by the write, and no sooner. -/
structure Course (job job' : Job) : Prop where
  origin_eq : origin job' = origin job
  fence : job.fenceCounter ≤ job'.fenceCounter
  count : job'.restartCount = job.restartCount
  next : job'.nextRestartAtNS = job.nextRestartAtNS

theorem moves_service {leave : Leave} (hsvc : job.service.isSome) (h : Course job job')
    (hhold : job'.state.holding → job.state.holding)
    (hrem : RemovalMoves leave s job job') : Moves leave s job job' := by
  obtain ⟨horig, hfence, hcount, hnext⟩ := h
  have hsome : job'.service.isSome = job.service.isSome := congrArg Origin.service horig
  have hnever : job.service ≠ none := Option.isSome_iff_ne_none.mp hsvc
  have hnever' : job'.service ≠ none := Option.isSome_iff_ne_none.mp (hsome.trans hsvc)
  have hcomp : job'.computerForJob = job.computerForJob := congrArg Origin.computer horig
  have hspec : job'.spec = job.spec := congrArg Origin.spec horig
  have hhash : job'.requestHash = job.requestHash := congrArg Origin.requestHash horig
  refine ⟨?_, fun hsound => ?_, fun hh => .inl (hhold hh), hrem.removes, fun ht hbeside => ?_⟩
  · exact {
      origin_eq := horig
      fence := hfence
      restarts := hcount.ge
      canceled := fun hn => absurd hn hnever
      ended := fun hn => absurd hn hnever
      unclaimed := fun _ => ⟨hcount, fun hn => absurd hn hnever⟩
      granted := fun _ hn => absurd hn hnever
      removal := hrem.retires }
  · exact {
      kind := by
        rw [hcomp, hsome, hspec]
        exact hsound.kind
      computer := fun _ => hsome.trans hsvc
      removal := fun hr => ⟨hrem.state hsound hr, hsome.trans hsvc⟩
      verified := by
        rw [hcomp]
        exact hrem.verified hsound
      canceled := fun hn => absurd hn hnever'
      scheduled := fun hsched => by
        rw [hnext] at hsched
        obtain ⟨hlimit, hidle⟩ := hsound.scheduled hsched
        refine ⟨by rwa [hcount], ?_⟩
        by_contra hheld
        rw [hhold (by simpa using hheld)] at hidle
        cases hidle
      restarts := by
        rw [hcount]
        exact hsound.restarts
      claims := fun hn => absurd hn hnever' }
  · exact ⟨hbeside.dispatchKey_eq.trans (by rw [hspec]), hbeside.requestHash_eq.trans hhash.symm,
      hrem.label ht hbeside.label⟩

end

/-! ## 5. New jobs -/

section
variable {copies : Prop} {s : Store}

theorem find_insertJob_of_some {old : Job} (h : s.jobs.find id = some old) :
    (s.insertJob job).jobs.find id = some old := Table.find_insert_of_some h

variable (hinv : Inv copies s) (hid : job.jobID = s.nextID)
include hinv hid

theorem find_insertJob (id : Nat) :
    (s.insertJob job).jobs.find id = if s.nextID = id then some job else s.jobs.find id := by
  have hfree : s.jobs.find job.jobID = none := by
    by_contra hsome
    obtain ⟨old, hold⟩ := Option.ne_none_iff_exists'.mp hsome
    have := hinv.fresh.jobs hold
    omega
  have hfind := Table.find_insert s.jobs job hfree id
  rw [hid] at hfind
  exact hfind

/-- **A new job**, whose key nothing holds. -/
theorem onward_insertJob {leave : Nat → Leave} (hsound : Sound job) (hrem : job.removal = none)
    (hroot : job.parentJobID = none ∨ (leave s.nextID).spawn)
    (hkey : ¬ copies → ∀ {hash id}, ¬ Holds s job.spec.dispatchKey hash id) :
    Onward copies leave s (s.insertJob job) := by
  have hcases : ∀ {id new}, (s.jobs.insert job).find id = some new →
      s.jobs.find id = some new ∨ id = s.nextID ∧ new = job := by
    intro id new hnew
    rw [show (s.jobs.insert job).find id = _ from find_insertJob hinv hid id] at hnew
    split at hnew
    next heq => exact .inr ⟨heq.symm, (Option.some.inj hnew).symm⟩
    · exact .inl hnew
  have hchg : Changes copies leave s s.leases (s.jobs.insert job) s.tombstones (s.nextID + 1) := {
    Changes.refl leave hinv with
    next := Nat.le_succ _
    job := fun hj => by
      rcases hcases hj with hj | ⟨rfl, rfl⟩
      · exact .inl ⟨_, hj, .refl _ s _⟩
      · exact .inr ⟨rfl, Nat.lt_succ_self _, hsound, hrem, hroot, hkey⟩
    keepsJob := fun hj _ => ⟨_, Table.find_insert_of_some hj⟩
    gone := fun hj hn => by
      cases (Table.find_insert_of_some hj).symm.trans hn
    beside := fun ht hj => by
      rcases hcases hj with hj | ⟨rfl, rfl⟩
      · exact hinv.keys.buried ht hj
      · exact absurd (hinv.fresh.tombstones ht) (lt_irrefl _)
    forgotten := fun hj removal hr => by
      rcases hcases hj with hj | ⟨rfl, rfl⟩
      · exact hinv.keys.forgotten hj removal hr
      · rw [hrem] at hr
        cases hr
    attempt := fun ha => .inl ⟨_, ha, .refl _⟩
    owned := fun _ hj => ⟨_, Table.find_insert_of_some hj⟩
    bound := fun _ hj hj' _ hbnd => by
      cases (Table.find_insert_of_some hj).symm.trans hj'
      exact hbnd }
  exact hchg.onward hinv

end

/-! ## 6. Removed jobs -/

section
variable {copies : Prop} {leave : Nat → Leave} {s : Store}

theorem holds_of_insert (hjob : s.jobs.find tombstone.jobID = some job)
    (hkey : tombstone.dispatchKey = job.spec.dispatchKey)
    (hhash : tombstone.requestHash = job.requestHash)
    (hfree : s.tombstones.find tombstone.jobID = none) {t : Tombstone}
    (ht : (s.tombstones.insert tombstone).find id = some t) :
    Holds s t.dispatchKey t.requestHash id := by
  rw [Table.find_insert s.tombstones tombstone hfree] at ht
  split at ht
  next heq =>
    cases ht
    exact .job job (heq ▸ hjob) hkey.symm hhash.symm
  · exact .tombstone t ht rfl rfl

theorem find_acknowledgeTombstone (s : Store) (jobID : Nat) (acknowledgedNS : Option Int)
    (acknowledgement : Option (Nat × Nat)) (id : Nat) :
    (s.acknowledgeTombstone jobID acknowledgedNS acknowledgement).tombstones.find id =
      if id = jobID then (s.tombstones.find id).map fun tombstone =>
        { tombstone with
          cleanupAcknowledgedNS := acknowledgedNS
          acknowledgement := acknowledgement }
      else s.tombstones.find id :=
  Table.find_update s.tombstones jobID (fun tombstone =>
    { tombstone with
      cleanupAcknowledgedNS := acknowledgedNS
      acknowledgement := acknowledgement }) (fun _ => rfl) id

variable (hinv : Inv copies s)
include hinv

theorem onward_tombstones {tombstones : Table Tombstone.jobID}
    (hold : ∀ {id t}, tombstones.find id = some t → Holds s t.dispatchKey t.requestHash id)
    (hbeside : ∀ {id t job}, tombstones.find id = some t → s.jobs.find id = some job →
      Beside job t)
    (hkeeps : ∀ {id t}, s.tombstones.find id = some t →
      ∃ t', tombstones.find id = some t' ∧ Stands t t') :
    Onward copies leave s { s with tombstones := tombstones } := by
  have hchg : Changes copies leave s s.leases s.jobs tombstones s.nextID := {
    Changes.refl leave hinv with
    gone := fun hj hn => absurd hj (by simp [hn])
    tombstone := hold
    keepsTombstone := hkeeps
    beside := hbeside
    forgotten := fun hj removal hrem hforg => by
      obtain ⟨t, ht⟩ := hinv.keys.forgotten hj removal hrem hforg
      obtain ⟨t', ht', -⟩ := hkeeps ht
      exact ⟨t', ht'⟩ }
  exact hchg.onward hinv

/-- **A service is forgotten**: its row says so, and a tombstone stands beside it. -/
theorem onward_forget (hjob : s.jobs.find tombstone.jobID = some job)
    (hmvs : Moves (leave tombstone.jobID) s job job') (hidle : job.state.holding = false)
    (hbeside : Beside job' tombstone) (hfree : s.tombstones.find tombstone.jobID = none) :
    Onward copies leave s ((s.insertServiceTombstone tombstone).setJob job') := by
  have hid : job'.jobID = tombstone.jobID :=
    hmvs.follows.jobID_eq.trans (Table.key_of_find hjob)
  have htomb := Table.find_insert s.tombstones tombstone hfree
  have hrow : ∀ {id new}, (s.jobs.replace job').find id = some new →
      tombstone.jobID = id ∧ new = job' ∨ tombstone.jobID ≠ id ∧ s.jobs.find id = some new :=
    fun hnew => hid ▸ Table.find_replace_cases hnew
  have hchg : Changes copies leave s s.leases (s.jobs.replace job')
      (s.tombstones.insert tombstone) s.nextID := {
    Changes.refl leave hinv with
    job := fun hj => by
      rcases hrow hj with ⟨rfl, rfl⟩ | ⟨-, hj⟩
      · exact .inl ⟨job, hjob, hmvs⟩
      · exact .inl ⟨_, hj, .refl _ s _⟩
    attempt := fun ha => .inl ⟨_, ha, .refl _⟩
    keepsJob := fun hj _ => Table.exists_find_replace hj _
    gone := fun hj hn => by
      obtain ⟨new, hnew⟩ := Table.exists_find_replace hj job'
      cases hnew.symm.trans hn
    tombstone := holds_of_insert hjob
      (hbeside.dispatchKey_eq.trans (by rw [hmvs.follows.spec_eq]))
      (hbeside.requestHash_eq.trans hmvs.follows.requestHash_eq) hfree
    keepsTombstone := fun ht => ⟨_, Table.find_insert_of_some ht, .refl _⟩
    beside := fun {id t new} ht hj => by
      rw [htomb] at ht
      rcases hrow hj with ⟨rfl, rfl⟩ | ⟨hne, hj⟩
      · rw [if_pos rfl] at ht
        cases ht
        exact hbeside
      · rw [if_neg hne] at ht
        exact hinv.keys.buried ht hj
    forgotten := fun {id new} hj removal hrem hforg => by
      rw [htomb]
      rcases hrow hj with ⟨rfl, rfl⟩ | ⟨hne, hj⟩
      · exact ⟨tombstone, if_pos rfl⟩
      · rw [if_neg hne]
        exact hinv.keys.forgotten hj removal hrem hforg
    owned := fun _ hj => Table.exists_find_replace hj _
    bound := fun ha hj hj' hactv hbnd => by
      rcases hrow hj' with ⟨heq, rfl⟩ | ⟨-, hj'⟩
      · rw [← heq, hjob] at hj
        cases hj
        rw [hbnd.holding] at hidle
        cases hidle
      · rw [hj] at hj'
        cases hj'
        exact hbnd }
  exact hchg.onward hinv

/-- A tombstone that takes the acknowledgement keeps its key and its outcome. -/
theorem onward_acknowledgeTombstone (jobID : Nat)
    (acknowledgedNS : Option Int) (acknowledgement : Option (Nat × Nat)) :
    Onward copies leave s (s.acknowledgeTombstone jobID acknowledgedNS acknowledgement) := by
  have hfind := find_acknowledgeTombstone s jobID acknowledgedNS acknowledgement
  have hold : ∀ {id t}, (s.acknowledgeTombstone jobID acknowledgedNS
      acknowledgement).tombstones.find id = some t →
        ∃ t', s.tombstones.find id = some t' ∧ Stands t' t := by
    intro id t ht
    have ht := (hfind id).symm.trans ht
    split at ht
    · obtain ⟨t', ht', rfl⟩ := Option.map_eq_some_iff.mp ht
      exact ⟨t', ht', ⟨rfl, rfl, rfl⟩⟩
    · exact ⟨t, ht, .refl t⟩
  refine onward_tombstones hinv (fun ht => ?_) (fun ht hj => ?_) (fun {id t} ht => ?_)
  · obtain ⟨t', ht', hstd⟩ := hold ht
    exact .tombstone t' ht' hstd.dispatchKey_eq.symm hstd.requestHash_eq.symm
  · obtain ⟨t', ht', hstd⟩ := hold ht
    exact (hinv.keys.buried ht' hj).of_stands hstd
  · by_cases hid : id = jobID
    · have hmap := (hfind id).trans (if_pos hid)
      rw [ht, Option.map_some] at hmap
      exact ⟨_, hmap, ⟨rfl, rfl, rfl⟩⟩
    · exact ⟨t, (hfind id).trans ((if_neg hid).trans ht), .refl t⟩

/-- **A service goes with its attempts**, and what is to stay of it is in the tombstones. -/
theorem onward_deleteRows {jobID : Nat} {tombstones : Table Tombstone.jobID}
    (hsvc : ∀ {job}, s.jobs.find jobID = some job → job.service.isSome)
    (hgone : ∀ {job}, s.jobs.find jobID = some job → ¬ copies ∨ job.removal.isSome →
      ∃ tombstone, tombstones.find jobID = some tombstone ∧ Buries (leave jobID) job tombstone)
    (hold : ∀ {id t}, tombstones.find id = some t → Holds s t.dispatchKey t.requestHash id)
    (hkeeps : ∀ {id t}, s.tombstones.find id = some t →
      ∃ t', tombstones.find id = some t' ∧ Stands t t')
    (hoth : ∀ {id}, id ≠ jobID → tombstones.find id = s.tombstones.find id) :
    Onward copies leave s
      ({ s with tombstones := tombstones }.deleteServiceRows jobID) := by
  have hchg : Changes copies leave s
      { s.leases with attempts := s.attempts.deleteWhere fun a => a.jobID = jobID }
      (s.jobs.delete jobID) tombstones s.nextID := {
    next := le_rfl
    job := fun {_ job} hj => .inl ⟨job, (Table.find_of_find_delete hj).2, .refl _ s job⟩
    keepsJob := fun {id job} hj hs => by
      refine ⟨job, ?_⟩
      rw [Table.find_delete, if_neg, hj]
      intro heq
      rw [heq] at hj
      have := hsvc hj
      simp [hs] at this
    gone := fun {id job} hj hnone hrem => by
      rw [Table.find_delete] at hnone
      split at hnone
      next heq =>
        subst heq
        exact hgone hj hrem
      · rw [hj] at hnone
        cases hnone
    tombstone := hold
    keepsTombstone := hkeeps
    beside := fun {id t job} ht hj => by
      obtain ⟨hne, hj⟩ := Table.find_of_find_delete hj
      rw [hoth hne] at ht
      exact hinv.keys.buried ht hj
    forgotten := fun {id job} hj removal hrem hforg => by
      obtain ⟨hne, hj⟩ := Table.find_of_find_delete hj
      rw [hoth hne]
      exact hinv.keys.forgotten hj removal hrem hforg
    attempt := fun {id attempt} ha => by
      rw [Table.find_deleteWhere] at ha
      exact .inl ⟨attempt, (Option.filter_eq_some_iff.mp ha).1, .refl attempt⟩
    keepsAttempt := fun {id attempt job} ha hj hs => by
      refine ⟨attempt, ?_⟩
      rw [Table.find_deleteWhere]
      refine Option.filter_eq_some_iff.mpr ⟨ha, ?_⟩
      have hoth : attempt.jobID ≠ jobID := by
        intro heq
        rw [heq] at hj
        have := hsvc hj
        simp [hs] at this
      simp [hoth]
    owned := fun {id attempt job} ha hj => by
      rw [Table.find_deleteWhere] at ha
      have hoth := (Option.filter_eq_some_iff.mp ha).2
      refine ⟨job, ?_⟩
      rw [Table.find_delete, if_neg (by simpa using hoth), hj]
    bound := fun ha hj hj' _ hbnd => by
      rw [(Table.find_of_find_delete hj').2] at hj
      cases hj
      exact hbnd }
  exact hchg.onward hinv

theorem onward_deleteServiceRows {jobID : Nat}
    (hsvc : ∀ {job}, s.jobs.find jobID = some job → job.service.isSome)
    (hgone : ∀ {job}, s.jobs.find jobID = some job → ¬ copies ∨ job.removal.isSome →
      ∃ tombstone, s.tombstones.find jobID = some tombstone ∧
        Buries (leave jobID) job tombstone) : Onward copies leave s (s.deleteServiceRows jobID) :=
  onward_deleteRows hinv hsvc hgone (fun ht => .tombstone _ ht rfl rfl)
    (fun ht => ⟨_, ht, .refl _⟩) fun _ => rfl

/-- **A service is buried**: a tombstone takes its place. -/
theorem onward_bury (hjob : s.jobs.find tombstone.jobID = some job)
    (hsvc : job.service.isSome) (hbur : Buries (leave tombstone.jobID) job tombstone)
    (hfree : s.tombstones.find tombstone.jobID = none) :
    Onward copies leave s
      ((s.insertServiceTombstone tombstone).deleteServiceRows tombstone.jobID) := by
  have hfind := Table.find_insert s.tombstones tombstone hfree
  refine onward_deleteRows hinv (fun {other} hoth => ?_) (fun {other} hoth _ => ?_)
    (holds_of_insert hjob hbur.dispatchKey_eq hbur.requestHash_eq hfree)
    (fun ht => ⟨_, Table.find_insert_of_some ht, .refl _⟩) (fun hne => ?_)
  · rw [hjob] at hoth
    cases hoth
    exact hsvc
  · rw [hjob] at hoth
    cases hoth
    exact ⟨tombstone, (hfind _).trans (if_pos rfl), hbur⟩
  · exact (hfind _).trans (if_neg (Ne.symm hne))

end

end Wefty.StoreWrites
