/-
Whole runs of the L1 log tables.

A run interleaves appends with everything else that touches the tables: attempts are claimed and
end, retention trims a job, the total or what has aged, summaries are pruned and jobs removed.
[`History`] adds to the store what no table keeps: the ranges each stream has ever accepted. The
invariant of a run says that these ranges tile the numbers up to the stored mark of every attempt
that is still there, and that every retained row is one of them.

Every operation is possible in every state: what the rest of the store would refuse is one of the
choices an [`AppendCall`] leaves open.
-/
import Wefty.LogContinuity

set_option autoImplicit false

namespace Wefty.LogStreams

open Tables Ranges LogEvents Rows Runs LogTables LogContinuity

/-! ## 1. Histories -/

structure History where
  store : LogStore
  accepted : Nat → LogStream → List (Nat × Nat)

inductive Op
  | claim (jobID : Nat) (now : Int)
  | settle (attemptID : Nat) (state : AttemptState) (now : Int)
  | append (c : AppendCall)
  | trimJob (jobID : Nat) (service : Bool) (budget : EvictionBudget)
  | trimTotal (budget : EvictionBudget)
  | trimAged (ordinals : List Nat)
  | prune (jobID : Nat) (service : Bool) (current : Option Nat) (listed : List Nat) (now : Int)
  | remove (jobID : Nat)

def newAttempt (jobID : Nat) (now : Int) (attemptID : Nat) : LogAttempt :=
  ⟨attemptID, jobID, .claimed, now⟩

/-- Any other transaction's effect on an attempt. -/
def LogAttempt.settle (state : AttemptState) (now : Int) (a : LogAttempt) : LogAttempt :=
  { a with state := state, updatedAt := now }

def History.accept (h : History) (attemptID : Nat) (r : Appended) : History where
  store := r.store
  accepted := fun a st =>
    if a = attemptID then h.accepted a st ++ ranges r.accepted st else h.accepted a st

def History.appended (h : History) (attemptID : Nat) : Except LogError Appended → History
  | .ok r => h.accept attemptID r
  | .error _ => h

section Step
variable (sha256 : LogEvent → String) (cfg : LogConfig)

def step (h : History) : Op → History
  | .claim jobID now =>
    { h with store := { h.store with
        attempts := h.store.attempts.insert (newAttempt jobID now) fun _ => rfl } }
  | .settle attemptID state now =>
    { h with store := { h.store with
        attempts := h.store.attempts.update attemptID (LogAttempt.settle state now) fun _ => rfl } }
  | .append c => h.appended c.attemptID (appendLogs sha256 cfg h.store c)
  | .trimJob jobID service budget =>
    { h with store := { h.store with
        events := enforceJobLogByteRetention cfg h.store.events jobID service budget } }
  | .trimTotal budget =>
    { h with store := { h.store with
        events := enforceLogRetentionTotal cfg h.store.events budget } }
  | .trimAged ordinals =>
    { h with store := { h.store with
        events := h.store.events.deleteWhere fun r => r.ordinal ∈ ordinals } }
  | .prune jobID service current listed now =>
    { h with store := pruneListedAttemptSummaries cfg h.store jobID service current listed now }
  | .remove jobID => { h with store := deleteJobLogs h.store jobID }

theorem step_append (h : History) (c : AppendCall) :
    step sha256 cfg h (.append c) = h.appended c.attemptID (appendLogs sha256 cfg h.store c) := rfl

end Step

def start : History where
  store := ⟨AutoTable.empty, AutoTable.empty, Table.empty⟩
  accepted := fun _ _ => []

def Present (s : LogStore) (attemptID : Nat) : Prop :=
  (s.attempts.table.find attemptID).isSome = true

/-! ## 2. The invariant -/

structure Inv (h : History) : Prop where
  tiles : ∀ a st, Present h.store a → Tiles 0 (h.accepted a st) (nextSequence h.store a st)
  fresh : ∀ a st, h.store.attempts.next ≤ a → h.accepted a st = []
  owned : ∀ a st, h.store.continuity.find (a, st) ≠ none → Present h.store a
  rows : ∀ r ∈ h.store.events.table.rows,
    (r.event.sequence, r.sequenceEnd) ∈ h.accepted r.event.attemptID r.event.stream
  unique : ∀ r ∈ h.store.events.table.rows, ∀ r' ∈ h.store.events.table.rows,
    r.event.attemptID = r'.event.attemptID → r.event.stream = r'.event.stream →
      r.event.sequence = r'.event.sequence → r = r'

theorem inv_start : Inv start := by
  refine ⟨?_, ?_, ?_, ?_, ?_⟩
  · intro a st hp
    cases hp
  · intro a st _
    rfl
  · intro a st hc
    exact absurd rfl hc
  · intro r hr
    cases hr
  · intro r hr
    cases hr

variable {s : LogStore} {a : Nat}

theorem Present.lt_next (h : Present s a) : a < s.attempts.next := by
  unfold Present at h
  rw [Option.isSome_iff_exists] at h
  obtain ⟨r, hr⟩ := h
  have hlt := s.attempts.fresh r (Table.mem_of_find hr)
  rwa [Table.key_of_find hr] at hlt

theorem Inv.separate {h : History} (hi : Inv h) (hp : Present h.store a)
    (st : LogStream) : Separate h.store.events.table a st := by
  have htiles := hi.tiles a st hp
  have hmem : ∀ r ∈ h.store.events.table.rows, r.at? a st = true →
      (r.event.sequence, r.sequenceEnd) ∈ h.accepted a st := by
    intro r hr hat
    simp only [LogRow.at?, Bool.and_eq_true, decide_eq_true_eq] at hat
    have := hi.rows r hr
    rwa [hat.1, hat.2] at this
  refine ⟨?_, ?_, ?_⟩
  · intro r hr hat
    exact (htiles.pairwise.1 _ (hmem r hr hat)).2.1
  · intro r hr hat r' hr' hat' hlt
    exact htiles.separate (hmem r hr hat) (hmem r' hr' hat') hlt
  · intro r hr hat r' hr' hat' heq
    simp only [LogRow.at?, Bool.and_eq_true, decide_eq_true_eq] at hat hat'
    exact hi.unique r hr r' hr' (hat.1.trans hat'.1.symm) (hat.2.trans hat'.2.symm) heq

variable {events : LogRows}

section Preserve
variable {h : History}

theorem Inv.retain (hi : Inv h) (hsub : ∀ r ∈ events.table.rows, r ∈ h.store.events.table.rows) :
    Inv { h with store := { h.store with events := events } } :=
  ⟨hi.tiles, hi.fresh, hi.owned, fun r hr => hi.rows r (hsub r hr),
    fun r hr r' hr' => hi.unique r (hsub r hr) r' (hsub r' hr')⟩

theorem present_update {k : Nat} (f : LogAttempt → LogAttempt)
    (hf : ∀ r, (f r).attemptID = r.attemptID) :
    Present { s with attempts := s.attempts.update k f hf } a ↔ Present s a := by
  unfold Present
  rw [AutoTable.update_table, Table.find_update]
  split
  · rw [Option.isSome_map]
  · rfl

theorem Inv.update (hi : Inv h) {k : Nat} (f : LogAttempt → LogAttempt)
    (hf : ∀ r, (f r).attemptID = r.attemptID) :
    Inv { h with store := { h.store with attempts := h.store.attempts.update k f hf } } := by
  refine ⟨?_, hi.fresh, ?_, hi.rows, hi.unique⟩
  · intro a st hp
    exact hi.tiles a st ((present_update f hf).mp hp)
  · intro a st hc
    exact (present_update f hf).mpr (hi.owned a st hc)

theorem Inv.insert (hi : Inv h) (row : Nat → LogAttempt) (hrow : ∀ k, (row k).attemptID = k) :
    Inv { h with store := { h.store with attempts := h.store.attempts.insert row hrow } } := by
  have hfind : ∀ a, (h.store.attempts.table.insert (row h.store.attempts.next)).find a =
      if h.store.attempts.next = a then some (row a) else h.store.attempts.table.find a := by
    intro a
    rw [Table.find_insert _ _ (by rw [hrow]; exact h.store.attempts.find_next), hrow]
    split
    · rename_i heq
      rw [heq]
    · rfl
  refine ⟨?_, ?_, ?_, hi.rows, hi.unique⟩
  · intro a st hp
    have hp' : ((h.store.attempts.table.insert (row h.store.attempts.next)).find a).isSome := hp
    rw [hfind] at hp'
    split at hp'
    · rename_i heq
      have hnone : h.store.continuity.find (a, st) = none := by
        by_contra hc
        have := (hi.owned a st hc).lt_next
        omega
      have hacc := hi.fresh a st (Nat.le_of_eq heq)
      show Tiles 0 (h.accepted a st) (openedAt h.store.continuity a st)
      rw [hacc]
      unfold openedAt
      rw [hnone]
      rfl
    · exact hi.tiles a st hp'
  · intro a st hle
    have hle' : h.store.attempts.next + 1 ≤ a := hle
    exact hi.fresh a st (by omega)
  · intro a st hc
    show ((h.store.attempts.table.insert (row h.store.attempts.next)).find a).isSome = true
    rw [hfind]
    split
    · rfl
    · exact hi.owned a st hc

theorem deleteAttempts_present {p : LogAttempt → Bool} (hp : Present (deleteAttempts s p) a) :
    Present s a ∧ ∀ st, nextSequence (deleteAttempts s p) a st = nextSequence s a st := by
  obtain ⟨x, hx⟩ := Option.isSome_iff_exists.mp hp
  refine ⟨?_, nextSequence_deleteAttempts hx⟩
  unfold Present
  rw [(deleteAttempts_attempt hx).1]
  rfl

theorem Inv.deleteAttempts (hi : Inv h) (p : LogAttempt → Bool) :
    Inv { h with store := LogTables.deleteAttempts h.store p } := by
  refine ⟨?_, hi.fresh, ?_, ?_, ?_⟩
  · intro a st hp
    obtain ⟨hbef, hsame⟩ := deleteAttempts_present hp
    dsimp only
    rw [hsame]
    exact hi.tiles a st hbef
  · intro a st hc
    cases hfind : (LogTables.deleteAttempts h.store p).continuity.find (a, st) with
    | none => exact absurd hfind hc
    | some c =>
      obtain ⟨hold, hstays⟩ := deleteAttempts_continuity_some hfind
      have hid : c.attemptID = a := congrArg Prod.fst (Table.key_of_find hold)
      have hp := hi.owned a st (by rw [hold]; simp)
      unfold Present at hp ⊢
      show ((h.store.attempts.table.deleteWhere p).find a).isSome = true
      rw [Table.find_deleteWhere]
      rw [hid] at hstays
      obtain ⟨r, hr⟩ := Option.isSome_iff_exists.mp hp
      rw [hr] at hstays ⊢
      simp at hstays
      simp [Option.filter, hstays]
  · intro r hr
    exact hi.rows r (deleteAttempts_subset hr)
  · intro r hr r' hr'
    exact hi.unique r (deleteAttempts_subset hr) r' (deleteAttempts_subset hr')

end Preserve

/-! ## 3. An append keeps the invariant -/

section Append
variable {sha256 : LogEvent → String} {cfg : LogConfig} {h : History} {c : AppendCall}

theorem Inv.stored (hi : Inv h) (hp : Present h.store c.attemptID) {late : Bool} {scan : Scan}
    (hscan : Scanned sha256 (expireInline h.store c) c.attemptID late c.events scan)
    (hins : insertLogs c.jobID h.store.events scan.newEvents = .ok events)
    (attempts : AutoTable LogAttempt.attemptID) (hnext : attempts.next = h.store.attempts.next)
    (hsame : ∀ a, (attempts.table.find a).isSome = (h.store.attempts.table.find a).isSome) :
    Inv ⟨⟨attempts, events, [.stdout, .stderr].foldl (recordStream scan.next c.attemptID)
        h.store.continuity⟩, fun a st =>
      if a = c.attemptID then h.accepted a st ++ ranges scan.newEvents st else
        h.accepted a st⟩ := by
  obtain ⟨hrows, hunique⟩ := insertLogs_rows hins hi.unique
  have hmark := openedAt_record (t := h.store.continuity) fun st n hn => (hscan.origin st n hn).1
  refine ⟨?_, ?_, ?_, ?_, hunique⟩
  · intro a st hpa
    have hpa' : Present h.store a := by
      unfold Present at hpa ⊢
      rw [← hsame]
      exact hpa
    show Tiles 0 _ (openedAt _ a st)
    rw [hmark]
    dsimp only
    by_cases ha : a = c.attemptID
    · -- the batch's ranges are laid after those accepted before
      subst ha
      rw [if_pos rfl, if_pos rfl]
      have hreach : (scan.next st).getD (openedAt h.store.continuity c.attemptID st) =
          scan.reached (expireInline h.store c) c.attemptID st := by
        unfold Scan.reached
        cases scan.next st <;> rfl
      rw [hreach]
      exact (hi.tiles c.attemptID st hp).append (hscan.tiles st)
    · rw [if_neg ha, if_neg ha]
      exact hi.tiles a st hpa'
  · intro a st hle
    have hle' : h.store.attempts.next ≤ a := hnext ▸ hle
    have hne : a ≠ c.attemptID := by
      have := hp.lt_next
      omega
    dsimp only
    rw [if_neg hne]
    exact hi.fresh a st hle'
  · intro a st hc
    unfold Present
    rw [hsame]
    rcases find_recordStream hc with rfl | hc
    · exact hp
    · rcases find_recordStream hc with rfl | hc
      · exact hp
      · exact hi.owned a st hc
  · intro r hr
    dsimp only
    rcases hrows r hr with hr | ⟨hnew, hend⟩
    · have hold := hi.rows r hr
      split
      · exact List.mem_append_left _ hold
      · exact hold
    · rw [if_pos (hscan.valid _ ((hscan.taken _).mp hnew).1), hend]
      apply List.mem_append_right
      exact List.mem_map.mpr ⟨r.event, List.mem_filter.mpr ⟨hnew, decide_eq_true rfl⟩, rfl⟩

theorem Inv.append (hi : Inv h) (c : AppendCall) :
    Inv (h.appended c.attemptID (appendLogs sha256 cfg h.store c)) := by
  cases happ : appendLogs sha256 cfg h.store c with
  | error err => exact hi
  | ok r =>
    obtain ⟨attempt, scan, hfind, hev, hacc, -, hcases⟩ := appendLogs_cases happ
    have hscan := scanEvents_scanned hev
    have hp : Present h.store c.attemptID := by
      unfold Present
      rw [hfind]
      rfl
    show Inv ⟨r.store, fun a st =>
      if a = c.attemptID then h.accepted a st ++ ranges r.accepted st else h.accepted a st⟩
    rw [hacc]
    rcases hcases with ⟨hnil, hstore⟩ | ⟨events, hins, hstore⟩
    · have hsame : (fun a st => if a = c.attemptID then
          h.accepted a st ++ ranges scan.newEvents st else h.accepted a st) = h.accepted := by
        funext a st
        rw [hnil]
        show (if a = c.attemptID then h.accepted a st ++ [] else h.accepted a st) = _
        rw [List.append_nil, ite_self]
      rw [hsame, hstore]
      exact hi.update _ (LogAttempt.expire_attemptID c.leaseExpired c.now)
    · rw [hstore]
      have hstored := hi.stored hp hscan hins
        ((expireInline h.store c).attempts.update c.attemptID
          (LogAttempt.promote c.promotes c.now) (LogAttempt.promote_attemptID c.promotes c.now))
        rfl (by
          intro a
          have h1 := present_update (s := expireInline h.store c) (k := c.attemptID) (a := a)
            _ (LogAttempt.promote_attemptID c.promotes c.now)
          have h2 := present_update (s := h.store) (k := c.attemptID) (a := a)
            _ (LogAttempt.expire_attemptID c.leaseExpired c.now)
          exact Bool.eq_iff_iff.mpr (h1.trans h2))
      exact (hstored.retain fun r hr => enforceJobLogByteRetention_subset hr).deleteAttempts _

theorem Inv.step (hi : Inv h) (op : Op) : Inv (LogStreams.step sha256 cfg h op) := by
  cases op with
  | claim jobID now => exact hi.insert _ _
  | settle attemptID state now => exact hi.update _ _
  | append c => exact hi.append c
  | trimJob jobID service budget =>
    exact hi.retain fun r hr => enforceJobLogByteRetention_subset hr
  | trimTotal budget => exact hi.retain fun r hr => enforceLogRetentionTotal_subset hr
  | trimAged ordinals => exact hi.retain fun r hr => (List.mem_filter.mp hr).1
  | prune jobID service current listed now => exact hi.deleteAttempts _
  | remove jobID =>
    exact (hi.retain fun r hr => (List.mem_filter.mp hr).1).deleteAttempts _

end Append

/-! ## 4. The mark never goes back -/

variable {r : Appended}

section Mark
variable {sha256 : LogEvent → String} {cfg : LogConfig} {h : History}

theorem append_mono {c : AppendCall} (happ : appendLogs sha256 cfg h.store c = .ok r) :
    r.store.attempts.next = h.store.attempts.next ∧
      ∀ a, Present r.store a → Present h.store a ∧
        ∀ st, nextSequence h.store a st ≤ nextSequence r.store a st := by
  obtain ⟨attempt, scan, hfind, hev, -, -, hcases⟩ := appendLogs_cases happ
  have hscan := scanEvents_scanned hev
  rcases hcases with ⟨-, hstore⟩ | ⟨events, -, hstore⟩
  · rw [hstore]
    refine ⟨rfl, fun a hp => ⟨?_, fun st => Nat.le_refl _⟩⟩
    exact (present_update _ (LogAttempt.expire_attemptID c.leaseExpired c.now)).mp hp
  · rw [hstore]
    refine ⟨rfl, fun a hp => ?_⟩
    unfold pruneListedAttemptSummaries at hp ⊢
    obtain ⟨hbef, hsame⟩ := deleteAttempts_present hp
    constructor
    · apply (present_update _ (LogAttempt.expire_attemptID c.leaseExpired c.now)).mp
      exact (present_update (s := expireInline h.store c) _
        (LogAttempt.promote_attemptID c.promotes c.now)).mp hbef
    · intro st
      rw [hsame]
      show openedAt h.store.continuity a st ≤ openedAt ([.stdout, .stderr].foldl
        (recordStream scan.next c.attemptID) h.store.continuity) a st
      rw [openedAt_record (t := h.store.continuity) (fun st n hn => (hscan.origin st n hn).1) a st]
      split
      · rename_i ha
        cases hn : scan.next st with
        | none => exact Nat.le_refl _
        | some n =>
          rw [Option.getD_some, ha]
          exact Nat.le_of_lt (hscan.origin st n hn).1
      · exact Nat.le_refl _

/-- **What one operation does to an attempt that is there afterwards**: it was there before and
its marks are no lower, or its number had not been given out. -/
theorem step_mono (sha256 : LogEvent → String) (cfg : LogConfig) (h : History) (op : Op) :
    h.store.attempts.next ≤ (step sha256 cfg h op).store.attempts.next ∧
      ∀ a, Present (step sha256 cfg h op).store a → h.store.attempts.next ≤ a ∨
        Present h.store a ∧
          ∀ st, nextSequence h.store a st ≤ nextSequence (step sha256 cfg h op).store a st := by
  cases op with
  | claim jobID now =>
    refine ⟨Nat.le_succ _, ?_⟩
    intro a hp
    have hp' : ((h.store.attempts.table.insert (newAttempt jobID now h.store.attempts.next)).find
      a).isSome = true := hp
    rw [Table.find_insert _ _ h.store.attempts.find_next] at hp'
    split at hp'
    · rename_i heq
      exact Or.inl (Nat.le_of_eq heq)
    · exact Or.inr ⟨hp', fun st => Nat.le_refl _⟩
  | settle attemptID state now =>
    exact ⟨Nat.le_refl _, fun a hp => Or.inr ⟨(present_update _ _).mp hp,
      fun st => Nat.le_refl _⟩⟩
  | append c =>
    rw [step_append]
    cases happ : appendLogs sha256 cfg h.store c with
    | error err => exact ⟨Nat.le_refl _, fun a hp => Or.inr ⟨hp, fun st => Nat.le_refl _⟩⟩
    | ok r =>
      obtain ⟨hnext, hmono⟩ := append_mono happ
      exact ⟨Nat.le_of_eq hnext.symm, fun a hp => Or.inr (hmono a hp)⟩
  | trimJob | trimTotal | trimAged =>
    exact ⟨Nat.le_refl _, fun a hp => Or.inr ⟨hp, fun st => Nat.le_refl _⟩⟩
  | prune | remove =>
    refine ⟨Nat.le_refl _, fun a hp => Or.inr ?_⟩
    obtain ⟨hbef, hsame⟩ := deleteAttempts_present hp
    exact ⟨hbef, fun st => Nat.le_of_eq (hsame st).symm⟩

/-- **The mark of an attempt never goes back**, over any run, while the attempt is there. -/
theorem exec_mono (hi : Inv h) (more : List Op)
    (hp : Present (exec (step sha256 cfg) h more).store a) (st : LogStream) :
    nextSequence h.store a st ≤ nextSequence (exec (step sha256 cfg) h more).store a st := by
  -- a number given out and no longer there is never there again
  have hgone : ∀ (more : List Op) (h : History), a < h.store.attempts.next →
      Present (exec (step sha256 cfg) h more).store a → Present h.store a := by
    intro more
    induction more with
    | nil => exact fun _ _ hp => hp
    | cons op more ih =>
      intro h hlt hp
      obtain ⟨hnext, hstep⟩ := step_mono sha256 cfg h op
      rcases hstep a (ih _ (by omega) hp) with hle | hbef
      · omega
      · exact hbef.1
  induction more generalizing h with
  | nil => exact Nat.le_refl _
  | cons op more ih =>
    refine Nat.le_trans ?_ (ih (hi.step op) hp)
    by_cases hbef : Present h.store a
    · obtain ⟨hnext, hstep⟩ := step_mono sha256 cfg h op
      have hlt := hbef.lt_next
      rcases hstep a (hgone more _ (by omega) hp) with hle | haft
      · omega
      · exact haft.2 st
    · -- an attempt that is not there has no mark
      have hnone : h.store.continuity.find (a, st) = none := by
        by_contra hc
        exact hbef (hi.owned a st hc)
      unfold nextSequence openedAt
      rw [hnone]
      exact Nat.zero_le _

end Mark

/-! ## 5. Replays and refusals -/

/-- The call passes every check before its batch. -/
def Admitted (s : LogStore) (c : AppendCall) : Prop :=
  c.events ≠ [] ∧ c.events.length ≤ maxLogBatchEvents ∧ Present s c.attemptID ∧ c.refused = none

/-- Every event lies at or below its stream's mark and equals the retained row wherever one is
retained. Of a position with no retained row the batch itself must not hold two versions. -/
structure Replay (s : LogStore) (c : AppendCall) : Prop where
  valid : ∀ e ∈ c.events, validateLogEvent c.attemptID e = .ok ()
  below : ∀ e ∈ c.events, e.endSequence < nextSequence s c.attemptID e.stream
  retained : ∀ e ∈ c.events, ∀ r ∈ s.events.table.rows, r.at? c.attemptID e.stream = true →
    Meets r e → r.event.sequence = e.sequence ∧ r.sequenceEnd = e.endSequence ∧ r.event = e
  once : ∀ e ∈ c.events, ∀ e' ∈ c.events, sameKey e e' = true → e = e' ∨
    ∃ r ∈ s.events.table.rows, r.at? c.attemptID e.stream = true ∧ r.event.sequence = e.sequence

def lateCall (cfg : LogConfig) (s : LogStore) (c : AppendCall) : Bool :=
  match s.attempts.table.find c.attemptID with
  | some attempt =>
    lateWindowExpired cfg (LogAttempt.expire c.leaseExpired c.now attempt) c.now
  | none => false

/-- Some event starts at or below its stream's mark and reaches past it, or meets a retained row
of another range, or of another content than the batch has at that position. -/
def Overlaps (sha256 : LogEvent → String) (cfg : LogConfig) (s : LogStore)
    (c : AppendCall) : Prop :=
  ∃ e ∈ c.events, e.sequence < nextSequence s c.attemptID e.stream ∧
    (nextSequence s c.attemptID e.stream ≤ e.endSequence ∨
      ∃ r ∈ s.events.table.rows, r.at? c.attemptID e.stream = true ∧ Meets r e ∧
        (r.event.sequence ≠ e.sequence ∨ r.sequenceEnd ≠ e.endSequence ∨
          (r.event ≠ storedForm sha256 (lateCall cfg s c) e ∧
            ∀ x ∈ c.events, storedForm sha256 (lateCall cfg s c) x =
              storedForm sha256 (lateCall cfg s c) e → r.event ≠ x)))

/-- Some event leaves out a sequence number: it lies above the first open number of its stream
and does not follow an event before it in the batch. -/
def Skips (s : LogStore) (c : AppendCall) : Prop :=
  ∃ pre e post, c.events = pre ++ e :: post ∧ nextSequence s c.attemptID e.stream < e.sequence ∧
    ∀ x ∈ pre, x.stream = e.stream → x.endSequence + 1 ≠ e.sequence

/-- What a call that is not refused has taken, stored and answered. Its attempt may be pruned in the
same transaction, if it is one of those the prune came to. -/
structure Answered (sha256 : LogEvent → String) (cfg : LogConfig) (s : LogStore) (c : AppendCall)
    (r : Appended) : Prop where
  accepted : ∀ p, p ∈ r.accepted ↔ ∃ e ∈ c.events,
    nextSequence s c.attemptID e.stream ≤ e.sequence ∧ storedForm sha256 (lateCall cfg s c) e = p
  kept : Present r.store c.attemptID ∨ c.attemptID ∈ c.listed
  acknowledged : Present r.store c.attemptID → ∀ e ∈ c.events,
    r.acknowledged e.stream = some (readLogContinuity r.store c.attemptID e.stream)
  others : ∀ stream, (∀ e ∈ c.events, e.stream ≠ stream) → r.acknowledged stream = none ∧
    (Present r.store c.attemptID →
      nextSequence r.store c.attemptID stream = nextSequence s c.attemptID stream)

section Calls
variable {sha256 : LogEvent → String} {cfg : LogConfig} {h : History} {c : AppendCall}

theorem lateCall_eq {attempt : LogAttempt}
    (hfind : s.attempts.table.find c.attemptID = some attempt) : lateCall cfg s c =
      lateWindowExpired cfg (LogAttempt.expire c.leaseExpired c.now attempt) c.now := by
  unfold lateCall
  rw [hfind]

/-- The marks an append leaves are those its scan has reached, and its attempt stays unless it is
pruned. -/
theorem append_reached {late : Bool} {scan : Scan} (hp : Present s c.attemptID)
    (hscan : Scanned sha256 (expireInline s c) c.attemptID late c.events scan)
    (hcases : (scan.newEvents = [] ∧ r.store = expireInline s c) ∨
      ∃ attempts events, (∀ a, Present ⟨attempts, events, s.continuity⟩ a ↔ Present s a) ∧
        r.store = pruneListedAttemptSummaries cfg ⟨attempts, events,
          [.stdout, .stderr].foldl (recordStream scan.next c.attemptID) s.continuity⟩
          c.jobID c.service c.current c.listed c.now) :
    (Present r.store c.attemptID ∨ c.attemptID ∈ c.listed) ∧
      (Present r.store c.attemptID → ∀ st, nextSequence r.store c.attemptID st =
        scan.reached (expireInline s c) c.attemptID st) := by
  rcases hcases with ⟨hnil, hstore⟩ | ⟨attempts, events, hsame, hstore⟩
  · rw [hstore]
    refine ⟨.inl ((present_update _ (LogAttempt.expire_attemptID c.leaseExpired c.now)).mpr hp),
      fun _ st => ?_⟩
    unfold Scan.reached
    rw [hscan.next_of_nil hnil]
  · rw [hstore]
    constructor
    · by_contra hgone
      obtain ⟨hgone, hlisted⟩ := not_or.mp hgone
      refine hgone ?_
      obtain ⟨attempt, hfind⟩ := Option.isSome_iff_exists.mp ((hsame c.attemptID).mpr hp)
      have hkey : attempt.attemptID = c.attemptID := Table.key_of_find hfind
      show ((attempts.table.deleteWhere _).find c.attemptID).isSome = true
      rw [Table.find_deleteWhere, show attempts.table.find c.attemptID = some attempt from hfind,
        Option.filter_some, if_pos (by simp [hkey, hlisted])]
      rfl
    · intro hpres st
      refine ((deleteAttempts_present hpres).2 st).trans ?_
      show openedAt ([.stdout, .stderr].foldl (recordStream scan.next c.attemptID) s.continuity)
        c.attemptID st = _
      rw [openedAt_record (t := s.continuity) (fun st n hn => (hscan.origin st n hn).1), if_pos rfl]
      unfold Scan.reached
      cases scan.next st <;> rfl

/-- **An append that is not refused** has taken what its batch has above the marks, and answers with
the marks it has stored. -/
theorem append_answered (happ : appendLogs sha256 cfg s c = .ok r) : Answered sha256 cfg s c r := by
  obtain ⟨attempt, scan, hfind, hev, hacc, hack, hcases⟩ := appendLogs_cases happ
  have hp : Present s c.attemptID := by
    unfold Present
    rw [hfind]
    rfl
  have hscan := scanEvents_scanned hev
  obtain ⟨hkept, hreached⟩ := append_reached hp hscan (hcases.imp_right (by
    rintro ⟨events, -, hstore⟩
    refine ⟨_, _, fun a => ?_, hstore⟩
    exact (present_update (s := expireInline s c) _
      (LogAttempt.promote_attemptID c.promotes c.now)).trans
        (present_update _ (LogAttempt.expire_attemptID c.leaseExpired c.now))))
  have hother : ∀ {stream}, (∀ e ∈ c.events, e.stream ≠ stream) →
      ∀ p ∈ scan.seen, p.stream ≠ stream := by
    intro stream hnone p hp
    obtain ⟨e, he, rfl⟩ := (hscan.seen p).mp hp
    rw [storedForm_stream]
    exact hnone e he
  refine ⟨fun p => ?_, hkept, fun hpres e he => ?_, fun stream hnone => ⟨?_, fun hpres => ?_⟩⟩
  · rw [hacc, hscan.taken p, hscan.seen p, ← lateCall_eq hfind]
    constructor
    · rintro ⟨⟨e, he, rfl⟩, hle⟩
      rw [storedForm_stream, storedForm_sequence] at hle
      exact ⟨e, he, hle, rfl⟩
    · rintro ⟨e, he, hle, rfl⟩
      refine ⟨⟨e, he, rfl⟩, ?_⟩
      rw [storedForm_stream, storedForm_sequence]
      exact hle
  · rw [hack, hscan.acknowledged_eq he, readLogContinuity_eq, hreached hpres]
  · rw [hack]
    unfold Scan.acknowledged
    rw [hscan.unread stream (hother hnone)]
    rfl
  · rw [hreached hpres]
    unfold Scan.reached
    cases hnext : scan.next stream with
    | none => rfl
    | some n =>
      obtain ⟨-, p, hp, hstream, -⟩ := hscan.origin stream n hnext
      exact absurd hstream (hother hnone p hp)

theorem expireInline_of_live (hlive : c.leaseExpired = false) :
    expireInline s c = s := by
  have htable : s.attempts.table.update c.attemptID (LogAttempt.expire c.leaseExpired c.now)
      (LogAttempt.expire_attemptID c.leaseExpired c.now) = s.attempts.table := by
    apply Table.ext_rows
    show s.attempts.table.rows.map _ = _
    rw [List.map_congr_left (g := id)]
    · exact List.map_id _
    · intro a _
      simp [LogAttempt.expire, hlive]
  unfold expireInline AutoTable.update
  simp only [htable]

/-- **A replay is acknowledged and changes no row and no mark.** -/
theorem Inv.replay (sha256 : LogEvent → String) (cfg : LogConfig) (hi : Inv h)
    (hadm : Admitted h.store c) (hr : Replay h.store c) :
    ∃ r, appendLogs sha256 cfg h.store c = .ok r ∧ r.store = expireInline h.store c ∧
      r.accepted = [] ∧ ∀ e ∈ c.events,
        r.acknowledged e.stream = some (readLogContinuity h.store c.attemptID e.stream) := by
  obtain ⟨hne, hlen, hp, hadmitted⟩ := hadm
  obtain ⟨attempt, hfind⟩ := Option.isSome_iff_exists.mp hp
  generalize hlate : lateWindowExpired cfg (LogAttempt.expire c.leaseExpired c.now attempt) c.now =
    late
  have hrange : ∀ e ∈ c.events, e.sequence ≤ e.endSequence :=
    fun e he => (validateLogEvent_ok (hr.valid e he)).2
  -- two events at one position are one event, through the retained row if there is one
  have hself : ∀ e ∈ c.events, ∀ e' ∈ c.events, sameKey e e' = true → e = e' := by
    intro e he e' he' hkey
    rcases hr.once e he e' he' hkey with heq | ⟨r, hrow, hat, hseq⟩
    · exact heq
    simp only [sameKey, Bool.and_eq_true, decide_eq_true_eq] at hkey
    have hord := (hi.separate hp e.stream).ordered r hrow hat
    have hre := hrange e he
    have hre' := hrange e' he'
    have h1 := hr.retained e he r hrow hat ⟨by omega, by omega⟩
    have h2 := hr.retained e' he' r hrow (by rw [← hkey.1]; exact hat) ⟨by omega, by omega⟩
    exact h1.2.2.symm.trans h2.2.2
  have hcheck : ∀ e ∈ c.events, checkRetainedLogReplay (expireInline h.store c) c.attemptID e
      (storedForm sha256 late e) = true := by
    intro e he
    apply checkRetainedLogReplay_complete
    · rw [storedForm_stream]
      exact hi.separate hp e.stream
    · rw [storedForm_sequence, storedForm_endSequence]
      exact hrange e he
    intro r hrow hat hmeets
    rw [storedForm_stream] at hat
    unfold Meets at hmeets
    rw [storedForm_sequence, storedForm_endSequence] at hmeets
    obtain ⟨h1, h2, h3⟩ := hr.retained e he r hrow hat hmeets
    unfold Keeps
    rw [storedForm_sequence, storedForm_endSequence]
    exact ⟨h1, h2, Or.inl h3⟩
  have hscans : ∃ scan, scanEvents sha256 (expireInline h.store c) c.attemptID late Scan.start
      c.events = .ok scan ∧ scan.newEvents = [] ∧ scan.next = fun _ => none := by
    refine scanEvents_replay Scan.start ?_ ?_ hr.valid hr.below hcheck
    · intro p hp
      cases hp
    · intro e he e' he' hkey
      rw [hself e he e' he' hkey]
  obtain ⟨scan, hscan, hnew, hnext⟩ := hscans
  have hscanned := scanEvents_scanned hscan
  refine ⟨⟨expireInline h.store c, scan.acknowledged,
    (LogAttempt.expire c.leaseExpired c.now attempt).state, []⟩, ?_, rfl, rfl, ?_⟩
  · unfold appendLogs
    have hsize : ¬ (c.events.length = 0 ∨ maxLogBatchEvents < c.events.length) := by
      rw [List.length_eq_zero_iff]
      exact not_or.mpr ⟨hne, Nat.not_lt.mpr hlen⟩
    rw [if_neg hsize, hfind, hadmitted]
    dsimp only
    rw [hlate, hscan]
    exact if_pos hnew
  · intro e he
    have hrec := hscanned.recorded _ ((hscanned.seen _).mpr ⟨e, he, rfl⟩)
    rw [storedForm_stream] at hrec
    show (scan.recorded e.stream).map _ = _
    rw [hrec, hnext]
    rfl

/-- **A conflicting or skipping call is refused.** -/
theorem Inv.refuse (hi : Inv h) (hc : Overlaps sha256 cfg h.store c ∨ Skips h.store c) :
    ∃ err, appendLogs sha256 cfg h.store c = .error err := by
  cases happ : appendLogs sha256 cfg h.store c with
  | error err => exact ⟨err, rfl⟩
  | ok r =>
    exfalso
    obtain ⟨attempt, scan, hfind, hev, -, -, -⟩ := appendLogs_cases happ
    have hp : Present h.store c.attemptID := by
      unfold Present
      rw [hfind]
      rfl
    have hlate : lateCall cfg _ _ = _ := lateCall_eq hfind
    rcases hc with ⟨e, he, hbelow, hover⟩ | ⟨pre, e, post, hsplit, hlt, hfol⟩
    · rw [← hlate] at hev
      obtain ⟨hend, hrows⟩ := scanEvents_replays hev he (hi.separate hp e.stream) hbelow
      rcases hover with hpast | ⟨r, hr, hat, hmeets, hdiff⟩
      · exact Nat.not_lt.mpr hpast hend
      obtain ⟨h1, h2, h3⟩ := hrows r hr hat hmeets
      rcases hdiff with hd | hd | ⟨hd, hd'⟩
      · exact hd h1
      · exact hd h2
      · rcases h3 with h3 | ⟨x, hx, hform, h3⟩
        · exact hd h3
        · exact hd' x hx hform h3
    · rw [hsplit] at hev
      rcases scanEvents_no_skip hev (Nat.le_of_lt hlt) with heq | ⟨x, hx, hs, hend⟩
      · exact Nat.ne_of_gt hlt heq
      · exact hfol x hx hs hend

end Calls

/-! ## 6. Log streams are gap-free -/

/-- **L1's log streams have no gap and no overlap.** After any sequence of operations: the ranges
a stream of an attempt has accepted are pairwise disjoint, in order, and tile the numbers up
to its stored mark; over any further operations that mark never goes back; a call that is not
refused has taken the events of its batch above the marks and acknowledges the marks it has stored;
a replay is acknowledged with the marks and changes no row and no mark; and a call that overlaps
accepted content or skips a number is refused and changes nothing. -/
theorem log_streams_gap_free (sha256 : LogEvent → String) (cfg : LogConfig) (ops : List Op) :
    let h := exec (step sha256 cfg) start ops
    (∀ a st, Present h.store a →
      Tiles 0 (h.accepted a st) (nextSequence h.store a st) ∧
        (h.accepted a st).Pairwise fun r r' => r.2 < r'.1) ∧
    (∀ more a st, Present (exec (step sha256 cfg) h more).store a →
      nextSequence h.store a st ≤ nextSequence (exec (step sha256 cfg) h more).store a st) ∧
    (∀ c r, appendLogs sha256 cfg h.store c = .ok r →
      Answered sha256 cfg h.store c r ∧ (step sha256 cfg h (.append c)).store = r.store ∧
        ∀ st, (step sha256 cfg h (.append c)).accepted c.attemptID st =
          h.accepted c.attemptID st ++ ranges r.accepted st) ∧
    (∀ c, Admitted h.store c → Replay h.store c →
      ∃ r, appendLogs sha256 cfg h.store c = .ok r ∧
        (∀ e ∈ c.events,
          r.acknowledged e.stream = some (readLogContinuity h.store c.attemptID e.stream)) ∧
        r.store.events = h.store.events ∧ r.store.continuity = h.store.continuity ∧
        (c.leaseExpired = false → r.store = h.store) ∧
        (step sha256 cfg h (.append c)).accepted = h.accepted) ∧
    (∀ c, Overlaps sha256 cfg h.store c ∨ Skips h.store c →
      (∃ err, appendLogs sha256 cfg h.store c = .error err) ∧
        step sha256 cfg h (.append c) = h) := by
  intro h
  have hi : Inv h := exec_invariant (fun _ op hx => hx.step op) inv_start ops
  refine ⟨?_, ?_, ?_, ?_, ?_⟩
  · intro a st hp
    have htiles := hi.tiles a st hp
    exact ⟨htiles, htiles.pairwise.2⟩
  · intro more a st hp
    exact exec_mono hi more hp st
  · intro c r happ
    rw [step_append, happ]
    exact ⟨append_answered happ, rfl, fun st => if_pos rfl⟩
  · intro c hadm hr
    obtain ⟨r, happ, hstore, hacc, hack⟩ := hi.replay sha256 cfg hadm hr
    refine ⟨r, happ, hack, ?_, ?_, ?_, ?_⟩
    · rw [hstore]
      rfl
    · rw [hstore]
      rfl
    · intro hlive
      rw [hstore, expireInline_of_live hlive]
    rw [step_append, happ]
    funext a st
    show (if a = c.attemptID then h.accepted a st ++ ranges r.accepted st else _) = _
    rw [hacc]
    show (if a = c.attemptID then h.accepted a st ++ [] else h.accepted a st) = _
    rw [List.append_nil, ite_self]
  · intro c hc
    obtain ⟨err, herr⟩ := hi.refuse hc
    refine ⟨⟨err, herr⟩, ?_⟩
    rw [step_append, herr]
    rfl

/-- **L1 keeps only what it accepted, and that once.** Whatever is appended, evicted, pruned and
removed, every stored row has a range that was accepted for its stream, and two rows of one stream
of an attempt on record do not overlap. -/
theorem log_rows_are_accepted_once (sha256 : LogEvent → String) (cfg : LogConfig) (ops : List Op) :
    let h := exec (step sha256 cfg) start ops
    (∀ r ∈ h.store.events.table.rows,
      (r.event.sequence, r.sequenceEnd) ∈ h.accepted r.event.attemptID r.event.stream) ∧
    ∀ a st, Present h.store a → ∀ r ∈ h.store.events.table.rows, ∀ r' ∈ h.store.events.table.rows,
      r.at? a st = true → r'.at? a st = true → r ≠ r' →
        r.sequenceEnd < r'.event.sequence ∨ r'.sequenceEnd < r.event.sequence := by
  intro h
  have hi : Inv h := exec_invariant (fun _ op hx => hx.step op) inv_start ops
  refine ⟨hi.rows, fun a st hp r hr r' hr' hat hat' hne => ?_⟩
  have hsep := hi.separate hp st
  rcases lt_trichotomy r.event.sequence r'.event.sequence with hlt | heq | hlt
  · exact .inl (hsep.disjoint r hr hat r' hr' hat' hlt)
  · exact absurd (hsep.unique r hr hat r' hr' hat' heq) hne
  · exact .inr (hsep.disjoint r' hr' hat' r hr hat hlt)

end Wefty.LogStreams
