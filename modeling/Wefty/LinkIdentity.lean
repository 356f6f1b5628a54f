/-
A run names one L1 job, once and for all.

The job a run was dispatched as is recorded in two columns, `runs.l1_job_id` and
`dispatch_outbox.job_id`, and once more in the diagnosis of a regression. Acknowledgements,
lookups, the migration and the cancel handler all write them, on runs that are open, ended or
already given up.

What is assumed of L1 is only this. The answer to a submit may be any job id at all. An error
it is refused with is stored as the run's diagnosis with its details, so an error that
carried the ledger's own two diagnostic details could forge one; L1's errors carry neither
(`Plain`). Nothing is assumed of any other answer.
-/
import Wefty.LedgerChanges
import Mathlib.Data.Set.Subsingleton

set_option autoImplicit false

namespace Wefty.LinkIdentity

open Relation Tables RunJobLink LinkRules Dispatch LedgerStore LedgerChanges

variable {cause : APIError} {success : Prop} {run run' : Run} {jobID : String}

/-! ## 1. Link columns that agree -/

/-- The identities a run carries are one and the same job, and its diagnosis, if it names a job,
is the regression of that one. -/
structure Consistent (run : Run) : Prop where
  nonempty : ∀ jobID, run.Names jobID → jobID ≠ ""
  agree : ∀ jobID other, run.Names jobID → run.Names other → jobID = other
  diagnosis : ∀ cause, run.outbox.lastError = some cause → Plain cause ∨
    ∃ jobID, cause.l1JobID = some jobID ∧ cause.reason = l1RegressedReason ∧ jobID ≠ "" ∧
      ∀ other, run.Names other → other = jobID

theorem foldlM_joinIdentity (hne : jobID ≠ "") (identities : List (Option String))
    (h : ∀ identity ∈ identities, ∀ other, identity = some other → other = jobID) :
    ∀ known, known = "" ∨ known = jobID → ∃ joined,
      identities.foldlM joinIdentity known = .ok joined ∧
        (known = jobID ∨ some jobID ∈ identities → joined = jobID) := by
  induction identities with
  | nil =>
    intro known _
    refine ⟨known, rfl, ?_⟩
    rintro (hk | hmem)
    · exact hk
    · cases hmem
  | cons identity rest ih =>
    intro known hknown
    have hrest := ih fun identity' hmem => h identity' (List.mem_cons_of_mem _ hmem)
    cases identity with
    | none =>
      obtain ⟨joined, hfold, hjoined⟩ := hrest known hknown
      refine ⟨joined, hfold, ?_⟩
      rintro (hk | hmem)
      · exact hjoined (Or.inl hk)
      · rcases List.mem_cons.mp hmem with heq | hmem
        · cases heq
        · exact hjoined (Or.inr hmem)
    | some other =>
      have hoth : other = jobID := h _ List.mem_cons_self other rfl
      subst hoth
      -- the known identity is empty or this one, so joining it succeeds
      have hjoin : joinIdentity known (some other) = .ok other := by
        unfold joinIdentity
        rcases hknown with rfl | rfl <;> simp [hne]
      obtain ⟨joined, hfold, hjoined⟩ := hrest other (Or.inr rfl)
      refine ⟨joined, ?_, fun _ => hjoined (Or.inl rfl)⟩
      rw [List.foldlM_cons, hjoin]
      exact hfold

/-- The one job all identities of a run are, or any other where it has none. -/
theorem Consistent.identity (h : Consistent run) : ∃ jobID, jobID ≠ "" ∧
    (∀ other, run.Names other → other = jobID) ∧
      ∀ cause other, run.outbox.lastError = some cause → cause.l1JobID = some other →
        other = jobID := by
  by_cases hd : ∃ cause jobID, run.outbox.lastError = some cause ∧ cause.l1JobID = some jobID
  · obtain ⟨cause, jobID, hcause, hid⟩ := hd
    rcases h.diagnosis cause hcause with hplain | ⟨other, hoth, -, hne, hall⟩
    · rw [hplain.1] at hid
      cases hid
    rw [hid] at hoth
    cases hoth
    refine ⟨jobID, hne, hall, ?_⟩
    intro cause' other hc ho
    rw [hcause] at hc
    cases hc
    rw [hid] at ho
    exact (Option.some.inj ho).symm
  · have hnone : ∀ cause other, run.outbox.lastError = some cause → cause.l1JobID ≠ some other :=
      fun cause other hc ho => hd ⟨cause, other, hc, ho⟩
    by_cases hn : ∃ jobID, run.Names jobID
    · obtain ⟨jobID, hn⟩ := hn
      exact ⟨jobID, h.nonempty jobID hn, fun other ho => h.agree other jobID ho hn,
        fun cause other hc ho => absurd ho (hnone cause other hc)⟩
    · exact ⟨"job", by decide, fun other ho => absurd ⟨other, ho⟩ hn,
        fun cause other hc ho => absurd ho (hnone cause other hc)⟩

/-- **Consistent link columns decode.** -/
theorem Consistent.decodes (h : Consistent run) :
    ∃ knowledge, decodeRunJobLink run.observation = .ok knowledge := by
  obtain ⟨jobID, hne, hnames, hdiag⟩ := h.identity
  have hall : ∀ identity ∈ [run.l1JobID, run.outbox.jobID,
      run.outbox.lastError.bind APIError.l1JobID], ∀ other, identity = some other →
      other = jobID := by
    intro identity hmem other ho
    simp only [List.mem_cons, List.not_mem_nil, or_false] at hmem
    rcases hmem with rfl | rfl | rfl
    · exact hnames other (Or.inl ho)
    · exact hnames other (Or.inr ho)
    · obtain ⟨cause, hcause, hid⟩ := Option.bind_eq_some_iff.mp ho
      exact hdiag cause other hcause hid
  obtain ⟨joined, hfold, hjoin⟩ := foldlM_joinIdentity hne _ hall "" (Or.inl rfl)
  have hempty : run.outbox.lastError.bind APIError.l1JobID ≠ some "" := by
    intro hd
    exact hne (hall _ (by simp) "" hd).symm
  -- a regression was recorded with the identity it is the regression of
  have hregressed : run.observation.reason = l1RegressedReason → joined ≠ "" := by
    intro hreas
    cases he : run.outbox.lastError with
    | none =>
      unfold Run.observation at hreas
      rw [he] at hreas
      exact absurd (show "" = l1RegressedReason from hreas) (by decide)
    | some cause =>
      unfold Run.observation at hreas
      rw [he] at hreas
      rcases h.diagnosis cause he with hplain | ⟨other, hoth, -, -, -⟩
      · exact absurd hreas hplain.2
      · rw [hjoin (Or.inr ?_)]
        · exact hne
        · rw [he, ← hdiag cause other he hoth]
          simp [hoth]
  obtain ⟨state, hst⟩ : ∃ state, linkState run.observation joined = .ok state := by
    unfold linkState
    split
    · rename_i hreas
      rw [if_neg (hregressed hreas)]
      exact ⟨_, rfl⟩
    · repeat' split
      all_goals exact ⟨_, rfl⟩
  refine ⟨⟨state, joined⟩, ?_⟩
  unfold decodeRunJobLink
  have hobs : run.observation.lastError.bind APIError.l1JobID =
      run.outbox.lastError.bind APIError.l1JobID := rfl
  rw [hobs]
  simp only [hempty, if_false]
  show ([run.l1JobID, run.outbox.jobID, run.outbox.lastError.bind APIError.l1JobID].foldlM
    joinIdentity "" >>= fun jobID => _) = _
  rw [hfold]
  show (linkState run.observation joined >>= fun state => _) = _
  rw [hst]
  rfl

/-! ## 2. One change -/

theorem Consistent.of_columns (h : Consistent run) (hlink : run'.l1JobID = run.l1JobID)
    (hbox : run'.outbox.jobID = run.outbox.jobID)
    (herror : ∀ cause, run'.outbox.lastError = some cause → run.outbox.lastError = some cause) :
    Consistent run' := by
  have hnames : ∀ jobID, run'.Names jobID → run.Names jobID := by
    intro jobID hn
    unfold Run.Names at hn ⊢
    rwa [hlink, hbox] at hn
  refine ⟨fun jobID hn => h.nonempty jobID (hnames jobID hn),
    fun jobID other hj ho => h.agree jobID other (hnames jobID hj) (hnames other ho), ?_⟩
  intro cause hcause
  rcases h.diagnosis cause (herror cause hcause) with hplain | ⟨jobID, hid, hreas, hne, hall⟩
  · exact Or.inl hplain
  · exact Or.inr ⟨jobID, hid, hreas, hne, fun other ho => hall other (hnames other ho)⟩

/-- A diagnosis that names a job is the regression of the one the run names. -/
theorem Consistent.diagnosed (h : Consistent run) (hcause : Diagnosis (fun _ => False) run cause) :
    Consistent { run with outbox := { run.outbox with lastError := some cause } } := by
  refine ⟨h.nonempty, h.agree, ?_⟩
  intro cause' hc
  cases hc
  rcases hcause with hfalse | hplain | ⟨jobID, rfl, hnamed⟩
  · exact hfalse.elim
  · exact Or.inl hplain
  · exact Or.inr ⟨jobID, rfl, rfl, h.nonempty jobID hnamed,
      fun other ho => h.agree other jobID ho hnamed⟩

theorem linkedOutbox_lastError {evidence : Evidence} {now : Int}
    (h : (run.linkedOutbox jobID evidence now).lastError = some cause) :
    run.outbox.lastError = some cause := by
  unfold Run.linkedOutbox at h
  dsimp only at h
  split at h
  · split at h <;> cases h
  · split at h
    · cases h
    · exact h

/-- A job that conflicts with nothing recorded is what the diagnosis names, if it names one. -/
theorem unconflicted_diagnosis {other : String} (h : run.conflictsWith jobID = false)
    (hcause : run.outbox.lastError = some cause) (hreas : cause.reason = l1RegressedReason)
    (hid : cause.l1JobID = some other) (hne : other ≠ "") : other = jobID := by
  unfold Run.conflictsWith at h
  simp only [Bool.or_eq_false_iff] at h
  have hdiag := h.2
  unfold Run.observation at hdiag
  simp only [hcause, Option.map_some, Option.getD_some, hreas, Option.bind_some, hid, hne,
    decide_true, Bool.true_and, ne_eq, not_false_eq_true, decide_eq_false_iff_not,
    Decidable.not_not] at hdiag
  exact hdiag

theorem Consistent.linked (h : Consistent run) {evidence : Evidence} {now : Int} (hne : jobID ≠ "")
    (hconf : run.conflictsWith jobID = false) : Consistent (run.link jobID evidence now) := by
  have hwrites := (link_writes evidence now hconf).links
  obtain ⟨hrun, hbox⟩ := unconflicted hconf
  have hnames : ∀ other, (run.link jobID evidence now).Names other → other = jobID := by
    intro other hn
    rcases hwrites.names other hn with (hl | ho) | rfl
    · exact hrun other hl
    · exact hbox other ho
    · rfl
  refine ⟨fun other hn => (hnames other hn).symm ▸ hne,
    fun other other' hn hn' => (hnames other hn).trans (hnames other' hn').symm, ?_⟩
  intro cause hcause
  rw [(link_fields run jobID evidence now).2.2.2.2.1] at hcause
  have hcause := linkedOutbox_lastError hcause
  rcases h.diagnosis cause hcause with hplain | ⟨other, hid, hreas, hne', -⟩
  · exact Or.inl hplain
  · refine Or.inr ⟨other, hid, hreas, hne', fun named hn => ?_⟩
    rw [hnames named hn, unconflicted_diagnosis hconf hcause hreas hid hne']

theorem linkTerminalRun_l1JobID (run : Run) (jobID : String) :
    (run.linkTerminalRun jobID).l1JobID = run.l1JobID ∨
      run.l1JobID = none ∧ (run.linkTerminalRun jobID).l1JobID = some jobID := by
  unfold Run.linkTerminalRun
  split
  · rename_i hnone
    exact Or.inr ⟨by simpa using hnone.1, rfl⟩
  · exact Or.inl rfl

theorem Consistent.migrated (h : Consistent run) (hjob : run.outbox.jobID = some jobID)
    : Consistent (run.linkTerminalRun jobID) := by
  have hbox := (linkTerminalRun_fields run jobID).2.2.2.2.1
  have hnames : ∀ other, (run.linkTerminalRun jobID).Names other → run.Names other := by
    rintro other (hl | ho)
    · rcases linkTerminalRun_l1JobID run jobID with hsame | ⟨-, hnew⟩
      · exact Or.inl (hsame ▸ hl)
      · rw [hnew] at hl
        exact Or.inr (hjob.trans hl)
    · rw [hbox] at ho
      exact Or.inr ho
  refine ⟨fun other hn => h.nonempty other (hnames other hn),
    fun other other' hn hn' => h.agree other other' (hnames other hn) (hnames other' hn'), ?_⟩
  intro cause hcause
  rw [hbox] at hcause
  rcases h.diagnosis cause hcause with hplain | ⟨other, hid, hreas, hne, hall⟩
  · exact Or.inl hplain
  · exact Or.inr ⟨other, hid, hreas, hne, fun named hn => hall named (hnames named hn)⟩

structure Persists (run run' : Run) : Prop where
  link : ∀ jobID, run.l1JobID = some jobID → run'.l1JobID = some jobID
  outbox : ∀ jobID, run.outbox.jobID = some jobID → run'.outbox.jobID = some jobID

theorem Persists.of_columns (hlink : run'.l1JobID = run.l1JobID)
    (hbox : run'.outbox.jobID = run.outbox.jobID) : Persists run run' :=
  ⟨fun _ h => hlink.trans h, fun _ h => hbox.trans h⟩

theorem Persists.trans {a b c : Run} (h : Persists a b) (h' : Persists b c) : Persists a c :=
  ⟨fun jobID hj => h'.link jobID (h.link jobID hj),
    fun jobID hj => h'.outbox jobID (h.outbox jobID hj)⟩

theorem Persists.names (h : Persists run run') (hn : run.Names jobID) : run'.Names jobID :=
  hn.imp (h.link jobID) (h.outbox jobID)

theorem persists_of_change {admits : APIError → Prop} (h : Change admits success run run')
    : Persists run run' := by
  cases h with
  | quiet h | ended h => exact Persists.of_columns h.link h.outbox.jobID
  | unstaged | diagnosed => exact Persists.of_columns rfl rfl
  | begun h => exact Persists.of_columns h.link h.jobID
  | linked jobID evidence now hne hconf =>
    have hlnk := (link_writes evidence now hconf).links
    exact ⟨hlnk.link, hlnk.outboxJob⟩
  | migrated jobID hjob =>
    refine ⟨fun other ho => ?_, fun other ho => ?_⟩
    · rcases linkTerminalRun_l1JobID run jobID with hsame | ⟨hnone, -⟩
      · rw [hsame, ho]
      · rw [hnone] at ho
        cases ho
    · rw [(linkTerminalRun_fields run jobID).2.2.2.2.1, ho]

theorem Consistent.change (hc : Consistent run) (h : Change (fun _ => False) success run run')
    : Consistent run' := by
  cases h with
  | quiet h => exact hc.of_columns h.link h.outbox.jobID fun cause he => h.outbox.lastError ▸ he
  | unstaged => exact hc.of_columns rfl rfl fun _ he => he
  | diagnosed cause h => exact hc.diagnosed h
  | begun h =>
    refine hc.of_columns h.link h.jobID fun cause he => ?_
    rw [h.lastError] at he
    cases he
  | ended h => exact hc.of_columns h.link h.outbox.jobID fun cause he => h.outbox.lastError ▸ he
  | linked jobID evidence now hne hconf => exact hc.linked hne hconf
  | migrated jobID hjob => exact hc.migrated hjob

theorem Consistent.changes (hc : Consistent run) (h : Changes (fun _ => False) success run run')
    : Consistent run' ∧ Persists run run' := by
  induction h with
  | refl => exact ⟨hc, Persists.of_columns rfl rfl⟩
  | tail _ hlast ih => exact ⟨ih.1.change hlast, ih.2.trans (persists_of_change hlast)⟩

/-! ## 3. Whole runs -/

def AllConsistent (store : Store) : Prop :=
  ∀ runID run, store.ledger.runs.find runID = some run → Consistent run

theorem newRun_consistent (request : CreateRun) (now : Int) : Consistent (newRun request now) := by
  have hunnamed : ∀ jobID, ¬(newRun request now).Names jobID := by
    rintro jobID (h | h) <;> cases h
  refine ⟨fun jobID hn => absurd hn (hunnamed jobID),
    fun jobID _ hn _ => absurd hn (hunnamed jobID), ?_⟩
  intro cause hcause
  cases hcause

/-- L1's error, if the operation records one, carries none of the ledger's own diagnoses. -/
def PlainErrors (op : LedgerStore.Op) : Prop :=
  ∀ cause, op.submitError = some cause → Plain cause

instance (op : LedgerStore.Op) : Decidable (PlainErrors op) :=
  match h : op.submitError with
  | none => isTrue fun cause hc => absurd (h.symm.trans hc) (by simp)
  | some cause =>
    decidable_of_iff (cause.l1JobID = none ∧ cause.reason ≠ l1RegressedReason)
      ⟨fun hp cause' hc => Option.mem_unique h hc ▸ hp, fun hp => hp cause h⟩

/-- **One operation** keeps the link columns of every run consistent and clears none of them. -/
theorem step_persists {store : Store} {op : LedgerStore.Op} (hc : AllConsistent store)
    (hop : PlainErrors op) :
    AllConsistent (store.step op) ∧ ∀ runID run, store.ledger.runs.find runID = some run →
      ∃ run', (store.step op).ledger.runs.find runID = some run' ∧ Persists run run' := by
  have hstep := step_evolves (fun _ => False) store op fun cause h => Or.inr (hop cause h)
  refine ⟨hstep.all newRun_consistent (fun h hchg => (h.changes hchg).1) hc, fun runID run hr => ?_⟩
  obtain ⟨run', hr', hchg⟩ := hstep.old runID run hr
  exact ⟨run', hr', ((hc runID run hr).changes hchg).2⟩

theorem exec_persists {store : Store} (hc : AllConsistent store) :
    ∀ ops : List LedgerStore.Op, (∀ op ∈ ops, PlainErrors op) →
      AllConsistent (Runs.exec Store.step store ops) ∧
        ∀ runID run, store.ledger.runs.find runID = some run →
          ∃ run', (Runs.exec Store.step store ops).ledger.runs.find runID = some run' ∧
            Persists run run' := by
  intro ops
  induction ops generalizing store with
  | nil => exact fun _ => ⟨hc, fun runID run hr => ⟨run, hr, Persists.of_columns rfl rfl⟩⟩
  | cons op ops ih =>
    intro hops
    obtain ⟨hc', hkeep⟩ := step_persists hc (hops op List.mem_cons_self)
    obtain ⟨hend, hrest⟩ := ih hc' fun op' hop => hops op' (List.mem_cons_of_mem _ hop)
    refine ⟨hend, fun runID run hr => ?_⟩
    obtain ⟨run', hr', hp⟩ := hkeep runID run hr
    obtain ⟨run'', hr'', hp'⟩ := hrest runID run' hr'
    exact ⟨run'', hr'', hp.trans hp'⟩

/-- The job ids that were ever stored for a run, in either column, up to the end of `ops`. -/
def everStored (store : Store) (ops : List LedgerStore.Op) (runID : String) : Set String :=
  fun jobID => ∃ before after run, ops = before ++ after ∧
    (Runs.exec Store.step store before).ledger.runs.find runID = some run ∧ run.Names jobID

/-- **A run's job is write-once.** From a ledger with consistent link columns (an empty one, or
one of an earlier release with acknowledgements in the outbox only), under any operations with
any arguments, as long as L1's errors carry none of the ledger's own diagnoses: at most one
job id is ever stored for a run, a stored one stays in its column, and the link columns of
every run decode. -/
theorem run_job_link_write_once (store : Store) (hc : AllConsistent store)
    (ops : List LedgerStore.Op) (hops : ∀ op ∈ ops, PlainErrors op) (runID : String) :
    (everStored store ops runID).Subsingleton ∧
      (∀ before after run, ops = before ++ after →
        (Runs.exec Store.step store before).ledger.runs.find runID = some run →
        ∃ run', (Runs.exec Store.step store ops).ledger.runs.find runID = some run' ∧
          (∀ jobID, run.l1JobID = some jobID → run'.l1JobID = some jobID) ∧
          (∀ jobID, run.outbox.jobID = some jobID → run'.outbox.jobID = some jobID)) ∧
      ∀ run, (Runs.exec Store.step store ops).ledger.runs.find runID = some run →
        ∃ knowledge, decodeRunJobLink run.observation = .ok knowledge := by
  have hend := (exec_persists hc ops hops).1
  have hkeep : ∀ before after run, ops = before ++ after →
      (Runs.exec Store.step store before).ledger.runs.find runID = some run →
      ∃ run', (Runs.exec Store.step store ops).ledger.runs.find runID = some run' ∧
        Persists run run' := by
    rintro before after run rfl hr
    have hmid := (exec_persists hc before fun op hop =>
      hops op (List.mem_append_left _ hop)).1
    rw [Runs.exec_append]
    exact (exec_persists hmid after fun op hop => hops op (List.mem_append_right _ hop)).2
      runID run hr
  refine ⟨?_, ?_, fun run hr => (hend runID run hr).decodes⟩
  · -- both ids are still there at the end, where the columns agree
    rintro jobID ⟨before, after, run, hsplit, hr, hn⟩ other
      ⟨before', after', run₂, hsplit', hr₂, hn'⟩
    obtain ⟨run', hr', hp⟩ := hkeep before after run hsplit hr
    obtain ⟨run'', hr'', hp'⟩ := hkeep before' after' run₂ hsplit' hr₂
    rw [hr'] at hr''
    cases hr''
    exact (hend runID run' hr').agree jobID other (hp.names hn) (hp'.names hn')
  · intro before after run hsplit hr
    obtain ⟨run', hr', hp⟩ := hkeep before after run hsplit hr
    exact ⟨run', hr', hp.link, hp.outbox⟩

/-- A run as an earlier release may have left it: it ended, and only its outbox row names the
acknowledged job. -/
def outboxOnlyRun : Run :=
  let run := newRun ⟨"run_a", "actor", "key", "hash", "", none, .script [] "" [] 0, [], "", none,
    false, false, false⟩ 0
  { run with
    status := .failed
    dispatchAttemptNS := some 1
    finishedNS := some 2
    outbox :=
      { run.outbox with
        jobID := some "job_a"
        attemptCount := 1
        dispatchedNS := some 1 } }

def outboxOnlyStore : Store := ⟨⟨Table.empty.insert outboxOnlyRun, false⟩, false, Table.empty⟩

theorem outboxOnlyStore_consistent : AllConsistent outboxOnlyStore := by
  intro runID run hr
  have hrun : run = outboxOnlyRun := Table.eq_of_find_insert hr rfl
  have hnames : ∀ jobID, run.Names jobID → jobID = "job_a" := by
    rintro jobID (h | h)
    · rw [hrun] at h
      cases h
    · rw [hrun] at h
      exact (Option.some.inj h).symm
  refine ⟨fun jobID hn => hnames jobID hn ▸ by decide,
    fun jobID other hn hn' => (hnames jobID hn).trans (hnames other hn').symm, ?_⟩
  intro cause hcause
  rw [hrun] at hcause
  cases hcause

/-- The store is opened, which links the run, a cancel and a late acknowledgement of another job
come in, and the validation of the migrated link finds the job gone. -/
def migratedOps : List LedgerStore.Op :=
  [.openStore,
    .completeMigratedLinkValidation ⟨⟨"run_a", "run:run_a", "job_a", 0, 0⟩,
      outboxOnlyRun.migrateLegacyLink.observation⟩ .absent 3,
    .transact "run_a" (.completeDispatch "job_b" .acknowledgement none 4),
    .transact "run_a" (.requestRunCancellation "actor" 5 60)]

theorem run_job_link_write_once_migrated :
    AllConsistent outboxOnlyStore ∧ (∀ op ∈ migratedOps, PlainErrors op) ∧
      (everStored outboxOnlyStore migratedOps "run_a").Subsingleton :=
  ⟨outboxOnlyStore_consistent, by decide,
    (run_job_link_write_once outboxOnlyStore outboxOnlyStore_consistent migratedOps (by decide)
      "run_a").1⟩

end Wefty.LinkIdentity
