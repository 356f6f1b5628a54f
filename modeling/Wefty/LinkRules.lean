/-
What the ledger's transactions on one run have in common.

Some twenty transactions write the rows of a run (`Wefty.RunJobLink`). Two relations between
the run before and after a commit carry every argument about them:

* `Keeps`: identities, the minted token, the attempt count and the bearer staged for a run
  that can still be submitted are left alone, and a run that can no longer be submitted stays
  so. Every transaction but `beginDispatch` satisfies it, and `beginDispatch` has a lemma of
  its own (`beginDispatch_ok`).
* `Links jobs`: a recorded job is never cleared or replaced, a newly named one is in `jobs`,
  naming one makes a recorded cancellation pending again, and a cancellation is settled only
  where it was before or where no job is named. Every transaction but `finishRunCancellation`
  and `cancelAbsentStoredIdentity` satisfies it, with `jobs` empty except where
  `completeDispatch` runs.
-/
import Wefty.RunJobLink

set_option autoImplicit false

namespace Wefty.LinkRules

open Rows RunJobLink

variable {grace now : Int} {run run' : Run} {jobID : String} {item : UnrecordedDispatch}
variable {reason : String} {cause : APIError} {failures : Nat} {projected : ProjectedRun}

/-! ## 1. The two relations -/

structure Keeps (run run' : Run) : Prop where
  runID : run'.runID = run.runID
  intent : run'.intent = run.intent
  outboxKey : run'.outbox.dispatchKey = run.outbox.dispatchKey
  minted : run'.minted = run.minted
  attempted : run'.dispatchAttemptNS = run.dispatchAttemptNS
  attempts : run'.outbox.attemptCount = run.outbox.attemptCount
  closed : run.closed = true → run'.closed = true
  staged : run'.closed = false → run'.outbox.tokenDelivery = run.outbox.tokenDelivery

/-- What a commit may do to the job a run names, given the jobs it has evidence of. -/
structure Links (jobs : String → Prop) (run run' : Run) : Prop where
  link : ∀ jobID, run.l1JobID = some jobID → run'.l1JobID = some jobID
  outboxJob : ∀ jobID, run.outbox.jobID = some jobID → run'.outbox.jobID = some jobID
  names : ∀ jobID, run'.Names jobID → run.Names jobID ∨ jobs jobID
  recorded : run.cancellation.isSome = true → run'.cancellation.isSome = true
  settles : ∀ row', run'.cancellation = some row' → row'.settled = true →
    (∃ row, run.cancellation = some row ∧ row.settled = true) ∨ ∀ jobID, ¬run'.Names jobID
  wakes : ∀ jobID, run'.Names jobID → ¬run.Names jobID →
    ∀ row', run'.cancellation = some row' → row'.completedNS = none

theorem closed_iff : run.closed = true ↔
    run.status.terminal = true ∨ run.cancellation.isSome = true ∨
      run.outbox.dispatchedNS.isSome = true := by
  unfold Run.closed
  rw [Bool.or_eq_true, Bool.or_eq_true, or_assoc]

namespace Keeps

theorem refl (run : Run) : Keeps run run :=
  ⟨rfl, rfl, rfl, rfl, rfl, rfl, id, fun _ => rfl⟩

theorem trans {a b c : Run} (h : Keeps a b) (h' : Keeps b c) : Keeps a c where
  runID := h'.runID.trans h.runID
  intent := h'.intent.trans h.intent
  outboxKey := h'.outboxKey.trans h.outboxKey
  minted := h'.minted.trans h.minted
  attempted := h'.attempted.trans h.attempted
  attempts := h'.attempts.trans h.attempts
  closed := fun hc => h'.closed (h.closed hc)
  staged := by
    intro hc
    -- an open end means an open middle, so both steps left the bearer alone
    have hb : b.closed = false := by
      by_contra hb
      rw [h'.closed (by simpa using hb)] at hc
      exact absurd hc (by decide)
    rw [h'.staged hc, h.staged hb]

end Keeps

variable {f : Cancellation → Cancellation}

namespace Links

variable {jobs : String → Prop}

theorem of_unmoved (hlink : run'.l1JobID = run.l1JobID)
    (hbox : run'.outbox.jobID = run.outbox.jobID)
    (hsome : run.cancellation.isSome = true → run'.cancellation.isSome = true)
    (hrows : ∀ row', run'.cancellation = some row' → row'.settled = true →
      (∃ row, run.cancellation = some row ∧ row.settled = true) ∨ ∀ jobID, ¬run'.Names jobID) :
    Links jobs run run' where
  link := fun jobID h => by rw [hlink, h]
  outboxJob := fun jobID h => by rw [hbox, h]
  names := by
    intro jobID h
    unfold Run.Names at h ⊢
    rw [hlink, hbox] at h
    exact Or.inl h
  recorded := hsome
  settles := hrows
  wakes := by
    intro jobID h hn
    unfold Run.Names at h hn
    rw [hlink, hbox] at h
    exact absurd h hn

theorem of_same (hlink : run'.l1JobID = run.l1JobID) (hbox : run'.outbox.jobID = run.outbox.jobID)
    (hrow : run'.cancellation = run.cancellation) : Links jobs run run' := by
  apply of_unmoved hlink hbox (fun h => by rw [hrow, h])
  intro row' hrow' hset
  rw [hrow] at hrow'
  exact Or.inl ⟨row', hrow', hset⟩

theorem refl (run : Run) : Links jobs run run := of_same rfl rfl rfl

theorem of_map (hlink : run'.l1JobID = run.l1JobID) (hbox : run'.outbox.jobID = run.outbox.jobID)
    (hrow : run'.cancellation = run.cancellation.map f)
    (hf : ∀ row, (f row).settled = true → row.settled = true) : Links jobs run run' := by
  apply of_unmoved hlink hbox (fun h => by rw [hrow, Option.isSome_map, h])
  intro row' hrow' hset
  rw [hrow] at hrow'
  obtain ⟨row, hr, rfl⟩ := Option.map_eq_some_iff.mp hrow'
  exact Or.inl ⟨row, hr, hf row hset⟩

theorem of_unnamed (hrun : run.l1JobID = none) (hbox : run.outbox.jobID = none)
    (hrun' : run'.l1JobID = none) (hbox' : run'.outbox.jobID = none)
    (hsome : run.cancellation.isSome = true → run'.cancellation.isSome = true) :
    Links jobs run run' := by
  apply of_unmoved (hrun'.trans hrun.symm) (hbox'.trans hbox.symm) hsome
  intro _ _ _
  right
  intro jobID h
  unfold Run.Names at h
  rw [hrun', hbox'] at h
  simp at h

end Links

/-- The transaction keeps what `Keeps` says and links only what `jobs` allows. -/
structure Writes (jobs : String → Prop) (run run' : Run) : Prop where
  keeps : Keeps run run'
  links : Links jobs run run'

/-- It links no job. -/
abbrev Silent (run run' : Run) : Prop := Writes (fun _ => False) run run'

theorem Writes.refl {jobs : String → Prop} (run : Run) : Writes jobs run run :=
  ⟨Keeps.refl run, Links.refl run⟩

theorem Writes.mono {jobs jobs' : String → Prop} (h : Writes jobs run run')
    (hj : ∀ jobID, jobs jobID → run.Names jobID ∨ jobs' jobID) : Writes jobs' run run' where
  keeps := h.keeps
  links :=
    { link := h.links.link
      outboxJob := h.links.outboxJob
      names := fun jobID hn => (h.links.names jobID hn).elim Or.inl (hj jobID)
      recorded := h.links.recorded
      settles := h.links.settles
      wakes := h.links.wakes }

/-! ## 2. Ending a run -/

@[simp]
theorem expireToken_minted {expires : Int} : (run.expireToken expires).minted = run.minted := by
  unfold Run.minted Run.expireToken
  cases run.token <;> rfl

/-- A run that `failRun` leaves has ended. -/
@[simp]
theorem failRun_terminal : (run.failRun now grace reason).status.terminal = true := by
  unfold Run.failRun
  by_cases h : run.status.terminal = true
  · rw [if_pos h]
    exact h
  · rw [if_neg h]
    rfl

/-- Failing a run touches neither its link nor its cancellation. -/
theorem failRun_link (run : Run) (now grace : Int) (reason : String) :
    (run.failRun now grace reason).l1JobID = run.l1JobID ∧
      (run.failRun now grace reason).outbox.jobID = run.outbox.jobID ∧
      (run.failRun now grace reason).cancellation = run.cancellation := by
  unfold Run.failRun
  by_cases h : run.status.terminal = true
  · rw [if_pos h]
    exact ⟨rfl, rfl, rfl⟩
  · rw [if_neg h]
    exact ⟨rfl, rfl, rfl⟩

/-- Failing a run, after other writes of the same transaction that leave alone what `Keeps` and
`Links` speak of. The bearer need not be among them: the run ends in this commit. -/
theorem failRun_writes_of {run₁ : Run}
    (hid : run₁.runID = run.runID) (hint : run₁.intent = run.intent)
    (hkey : run₁.outbox.dispatchKey = run.outbox.dispatchKey) (hminted : run₁.minted = run.minted)
    (hattempted : run₁.dispatchAttemptNS = run.dispatchAttemptNS)
    (hatts : run₁.outbox.attemptCount = run.outbox.attemptCount)
    (hlink : run₁.l1JobID = run.l1JobID) (hbox : run₁.outbox.jobID = run.outbox.jobID)
    (hrow : run₁.cancellation = run.cancellation) :
    Silent run (run₁.failRun now grace reason) := by
  have hclo : (run₁.failRun now grace reason).closed = true :=
    closed_iff.mpr (Or.inl failRun_terminal)
  have hstage : (run₁.failRun now grace reason).closed = false →
      (run₁.failRun now grace reason).outbox.tokenDelivery = run.outbox.tokenDelivery := by
    intro h
    rw [hclo] at h
    cases h
  unfold Run.failRun at hclo hstage ⊢
  by_cases h : run₁.status.terminal = true
  · rw [if_pos h] at hclo hstage ⊢
    exact ⟨⟨hid, hint, hkey, hminted, hattempted, hatts, fun _ => hclo, hstage⟩,
      Links.of_same hlink hbox hrow⟩
  · rw [if_neg h] at hclo hstage ⊢
    exact ⟨⟨hid, hint, hkey, (expireToken_minted).trans hminted, hattempted, hatts,
      fun _ => hclo, hstage⟩, Links.of_same hlink hbox hrow⟩

theorem failRun_writes (run : Run) (now grace : Int) (reason : String) :
    Silent run (run.failRun now grace reason) :=
  failRun_writes_of rfl rfl rfl rfl rfl rfl rfl rfl rfl

theorem acceptEnvelope_writes (run : Run) : Silent run run.acceptEnvelope :=
  ⟨⟨rfl, rfl, rfl, rfl, rfl, rfl, id, fun _ => rfl⟩, Links.of_same rfl rfl rfl⟩

theorem acceptGate_writes {failure : Option String} :
    Silent run (run.acceptGate failure now grace) := by
  cases failure with
  | none => exact Writes.refl run
  | some reason => exact failRun_writes_of rfl rfl rfl rfl rfl rfl rfl rfl rfl

/-! ## 3. Submitting -/

/-- **A submit attempt.** It begins only on a run that can still be submitted, its bearer is the
staged one or, the first time, a fresh one that is staged and minted, and nothing else that
an argument reads is written. -/
theorem beginDispatch_ok {held : Bool} {random token : String}
    (h : run.beginDispatch held random now = .ok (token, run')) :
    run.closed = false ∧ token ≠ "" ∧
      (run.outbox.tokenDelivery = some token ∧ run'.minted = run.minted ∨
        (∀ staged, run.outbox.tokenDelivery = some staged → staged = "") ∧ run.minted = none ∧
          run'.minted = some token) ∧
      run'.outbox.tokenDelivery = some token ∧ run'.closed = false ∧
      run'.runID = run.runID ∧ run'.intent = run.intent ∧
      run'.outbox.dispatchKey = run.outbox.dispatchKey ∧ run'.l1JobID = run.l1JobID ∧
      run'.outbox.jobID = run.outbox.jobID ∧ run'.cancellation = run.cancellation ∧
      run'.dispatchAttemptNS.isSome = true ∧
      run'.outbox.attemptCount = run.outbox.attemptCount + 1 := by
  unfold Run.beginDispatch at h
  split at h
  case isFalse => cases h
  case isTrue hdue =>
    have hopen : run.status.submittable = true ∧ run.cancellation.isNone = true := by
      unfold Run.due at hdue
      simp only [Bool.and_eq_true] at hdue
      exact hdue.1.1
    have hterm := RunState.not_terminal_of_submittable hopen.1
    have hcanl : run.cancellation = none := by simpa using hopen.2
    unfold Run.ensureRunToken at h
    dsimp only at h
    split at h
    case isTrue => cases h
    case isFalse hdisp =>
      have hdisp : run.outbox.dispatchedNS = none := by simpa using hdisp
      have hclo : run.closed = false := by
        unfold Run.closed
        rw [hterm, hcanl, hdisp]
        rfl
      split at h
      · rename_i staged hstage
        obtain ⟨hdelivery, hne⟩ := Option.filter_eq_some_iff.mp hstage
        cases h
        exact ⟨hclo, by simpa using hne, Or.inl ⟨hdelivery, rfl⟩, hdelivery,
          by simp [Run.closed, hcanl, hdisp, RunState.terminal],
          rfl, rfl, rfl, rfl, rfl, rfl, rfl, rfl⟩
      · rename_i hnone
        split at h
        case isTrue => cases h
        case isFalse htoken =>
          have htoken : run.token = none := by simpa using htoken
          have hempty : ∀ staged, run.outbox.tokenDelivery = some staged → staged = "" := by
            intro staged hs
            by_contra hne
            rw [hs] at hnone
            simp [Option.filter, hne] at hnone
          cases h
          exact ⟨hclo, by simp [newToken],
            Or.inr ⟨hempty, by simp [Run.minted, htoken], rfl⟩, rfl,
            by simp [Run.closed, hcanl, hdisp, RunState.terminal],
            rfl, rfl, rfl, rfl, rfl, rfl, rfl, rfl⟩

theorem recordDispatchError_writes :
    Silent run (run.recordDispatchError cause now) := by
  unfold Run.recordDispatchError
  cases run.outbox.dispatchedNS.isNone && !run.jobLinkSettled <;>
    exact ⟨⟨rfl, rfl, rfl, rfl, rfl, rfl, id, fun _ => rfl⟩, Links.of_same rfl rfl rfl⟩

theorem failDispatch_writes : Silent run (run.failDispatch cause now grace) := by
  unfold Run.failDispatch
  cases run.outbox.dispatchedNS.isNone <;>
    exact failRun_writes_of rfl rfl rfl rfl rfl rfl rfl rfl rfl

/-! ## 4. Linking -/

theorem unconflicted (h : run.conflictsWith jobID = false) :
    (∀ other, run.l1JobID = some other → other = jobID) ∧
      ∀ other, run.outbox.jobID = some other → other = jobID := by
  unfold Run.conflictsWith at h
  simp only [Bool.or_eq_false_iff] at h
  obtain ⟨⟨hbox, hrun⟩, -⟩ := h
  constructor
  · intro other ho
    rw [ho] at hrun
    simpa using hrun
  · intro other ho
    rw [ho] at hbox
    simpa using hbox

/-- A link that conflicts with nothing leaves the outbox marked dispatched, for this job or, if
it was marked before without one, for none. -/
theorem acknowledges_eq (h : ∀ other, run.outbox.jobID = some other → other = jobID) :
    run.acknowledges jobID = run.outbox.dispatchedNS.isNone := by
  unfold Run.acknowledges
  cases hj : run.outbox.jobID with
  | none => simp
  | some other => simp [h other hj]

theorem linkedOutbox_spec (evidence : Evidence) (now : Int)
    (h : ∀ other, run.outbox.jobID = some other → other = jobID) :
    (run.linkedOutbox jobID evidence now).dispatchedNS.isSome = true ∧
      (run.linkedOutbox jobID evidence now).dispatchKey = run.outbox.dispatchKey ∧
      (run.linkedOutbox jobID evidence now).attemptCount = run.outbox.attemptCount ∧
      ((run.linkedOutbox jobID evidence now).jobID = some jobID ∨
        (run.linkedOutbox jobID evidence now).jobID = none ∧ run.outbox.jobID = none) := by
  unfold Run.linkedOutbox
  rw [acknowledges_eq h]
  cases hd : run.outbox.dispatchedNS with
  | none => cases evidence <;> simp
  | some at_ =>
    cases hj : run.outbox.jobID with
    | none => cases evidence <;> simp [hd, hj]
    | some other => cases evidence <;> simp [hd, hj, h other hj]

theorem link_l1JobID (evidence : Evidence) (now : Int)
    (h : ∀ other, run.l1JobID = some other → other = jobID) :
    (run.link jobID evidence now).l1JobID = some jobID ∨
      (run.link jobID evidence now).l1JobID = none ∧ run.l1JobID = none := by
  unfold Run.link
  by_cases hs : run.status.submittable = true
  · rw [if_pos hs]
    exact Or.inl rfl
  · rw [if_neg hs]
    unfold Run.linkTerminalRun
    cases hj : run.l1JobID with
    | none => by_cases ht : run.status.terminal = true <;> simp [ht]
    | some other => simp [h other hj]

theorem linkTerminalRun_fields (run : Run) (jobID : String) :
    (run.linkTerminalRun jobID).runID = run.runID ∧
      (run.linkTerminalRun jobID).intent = run.intent ∧
      (run.linkTerminalRun jobID).minted = run.minted ∧
      (run.linkTerminalRun jobID).dispatchAttemptNS = run.dispatchAttemptNS ∧
      (run.linkTerminalRun jobID).outbox = run.outbox ∧
      (run.linkTerminalRun jobID).cancellation = run.cancellation := by
  unfold Run.linkTerminalRun
  split <;> exact ⟨rfl, rfl, rfl, rfl, rfl, rfl⟩

theorem link_fields (run : Run) (jobID : String) (evidence : Evidence) (now : Int) :
    (run.link jobID evidence now).runID = run.runID ∧
      (run.link jobID evidence now).intent = run.intent ∧
      (run.link jobID evidence now).minted = run.minted ∧
      (run.link jobID evidence now).dispatchAttemptNS = run.dispatchAttemptNS ∧
      (run.link jobID evidence now).outbox = run.linkedOutbox jobID evidence now ∧
      (run.link jobID evidence now).cancellation =
        if run.acknowledges jobID || run.l1JobID.isNone then
          run.cancellation.map Cancellation.wake
        else run.cancellation := by
  unfold Run.link
  by_cases hs : run.status.submittable = true
  · rw [if_pos hs]
    exact ⟨rfl, rfl, rfl, rfl, rfl, rfl⟩
  · rw [if_neg hs]
    exact linkTerminalRun_fields _ jobID

/-- **Linking wakes.** A link that conflicts with nothing names only its job, closes the run to
further submits, and makes a recorded cancellation pending again where the job is new to the
run. -/
theorem link_writes (evidence : Evidence) (now : Int) (h : run.conflictsWith jobID = false) :
    Writes (fun other => other = jobID) run (run.link jobID evidence now) := by
  obtain ⟨hrun, hbox⟩ := unconflicted h
  obtain ⟨hid, hint, hminted, hatt, hout, hrow⟩ := link_fields run jobID evidence now
  obtain ⟨hdisp, hkey, hcount, hjob⟩ := linkedOutbox_spec evidence now hbox
  have hl1 := link_l1JobID evidence now hrun
  rw [← hout] at hdisp hkey hcount hjob
  have hclo : (run.link jobID evidence now).closed = true :=
    closed_iff.mpr (Or.inr (Or.inr hdisp))
  have hnames : ∀ other, (run.link jobID evidence now).Names other → other = jobID := by
    rintro other (ho | ho)
    · rcases hl1 with h' | ⟨h', -⟩ <;> rw [h'] at ho <;> simp_all
    · rcases hjob with h' | ⟨h', -⟩ <;> rw [h'] at ho <;> simp_all
  refine ⟨⟨hid, hint, hkey, hminted, hatt, hcount, fun _ => hclo,
    fun hc => absurd hclo (by rw [hc]; decide)⟩, ?_, ?_, ?_, ?_, ?_, ?_⟩
  · intro other ho
    rcases hl1 with h' | ⟨-, hnone⟩
    · rw [h', hrun other ho]
    · rw [hnone] at ho
      cases ho
  · intro other ho
    rcases hjob with h' | ⟨-, hnone⟩
    · rw [h', hbox other ho]
    · rw [hnone] at ho
      cases ho
  · exact fun other ho => Or.inr (hnames other ho)
  · intro hsome
    rw [hrow]
    split
    · rw [Option.isSome_map, hsome]
    · exact hsome
  · intro row' hrow' hset
    rw [hrow] at hrow'
    split at hrow'
    · obtain ⟨row, -, rfl⟩ := Option.map_eq_some_iff.mp hrow'
      cases hset
    · exact Or.inl ⟨row', hrow', hset⟩
  · intro other hoth hnew row' hrow'
    rw [hrow] at hrow'
    split at hrow'
    · obtain ⟨row, -, rfl⟩ := Option.map_eq_some_iff.mp hrow'
      rfl
    rename_i hquiet
    -- delivery is left alone only where the run already named this very job
    have hlink : run.l1JobID ≠ none := by
      intro hnone
      rw [hnone] at hquiet
      simp at hquiet
    obtain ⟨linked, hlink⟩ := Option.ne_none_iff_exists'.mp hlink
    rw [hnames other hoth, ← hrun linked hlink] at hnew
    exact absurd (Or.inl hlink) hnew

variable {evidence : Evidence} {observed : Option Observation}

theorem completeDispatch_ok (h : run.completeDispatch jobID evidence observed now = .ok run') :
    run' = run ∨
      jobID ≠ "" ∧ run.conflictsWith jobID = false ∧ run' = run.link jobID evidence now := by
  unfold Run.completeDispatch at h
  by_cases hempty : jobID = ""
  · simp [hempty] at h
    cases h
  by_cases hstale : evidence = .lookup ∧ run.staleLookup observed = true
  · simp [hempty, hstale] at h
    cases h
  cases hdec : decodeRunJobLink run.observation with
  | error e =>
    simp [hempty, hstale, hdec] at h
    cases h
  | ok knowledge =>
    by_cases hconf : run.conflictsWith jobID = true
    · simp [hempty, hstale, hdec, hconf] at h
      cases h
    · by_cases hstd : run.verdictStands evidence = true
      · simp [hempty, hstale, hdec, hconf, hstd] at h
        exact Or.inl (by cases h; rfl)
      · simp [hempty, hstale, hdec, hconf, hstd] at h
        exact Or.inr ⟨hempty, by simpa using hconf, by cases h; rfl⟩

theorem completeDispatch_writes
    (h : run' = run ∨ run.completeDispatch jobID evidence observed now = .ok run') :
    Writes (fun other => other = jobID ∧ jobID ≠ "") run run' := by
  rcases h.elim .inl completeDispatch_ok with rfl | ⟨hne, hconf, rfl⟩
  · exact Writes.refl run'
  · exact (link_writes evidence now hconf).mono fun other h => Or.inr ⟨h, hne⟩

theorem linkUnrecordedDispatch_ok (h : run.linkUnrecordedDispatch item jobID now = .ok run') :
    run' = run ∨ run.completeDispatch jobID .lookup (some item.observed) now = .ok run' := by
  unfold Run.linkUnrecordedDispatch at h
  by_cases howned : run.cancellation.isSome = true
  · simp only [howned, if_true] at h
    cases h
    exact Or.inl rfl
  · by_cases hempty : jobID = ""
    · simp [howned, hempty] at h
      cases h
    by_cases hkey : run.intent.dispatchKey ≠ item.dispatchKey ∨
        run.outbox.dispatchKey ≠ run.intent.dispatchKey ∨ run.conflictsWith jobID = true
    · simp only [howned, hempty, hkey] at h
      cases h
    · simp only [howned, hempty, hkey] at h
      exact Or.inr h

theorem acceptRecoveredCancellation_ok
    (h : run.acceptRecoveredCancellation item jobID now = .ok run') :
    run' = run ∨ run.completeDispatch jobID .lookup (some item.observed) now = .ok run' := by
  unfold Run.acceptRecoveredCancellation at h
  by_cases howned : run.cancellation.isNone = true
  · simp only [howned, if_true] at h
    cases h
    exact Or.inl rfl
  · by_cases hkey : run.intent.dispatchKey ≠ item.dispatchKey ∨
        run.outbox.dispatchKey ≠ run.intent.dispatchKey
    · simp only [howned, hkey] at h
      cases h
    · simp only [howned, hkey] at h
      exact Or.inr h

variable {lookupStarted : Int}

theorem settleUnrecordedDispatch_writes :
    Silent run (run.settleUnrecordedDispatch item lookupStarted) := by
  unfold Run.settleUnrecordedDispatch
  split
  · rename_i hdue
    -- the bearer is dropped, but only of a run that has ended
    have hterm : run.status.terminal = true := by
      unfold Run.settlementDue at hdue
      simp only [Bool.and_eq_true] at hdue
      exact hdue.1.1.1.1.2
    have hclo := closed_iff.mpr (Or.inl hterm)
    exact ⟨⟨rfl, rfl, rfl, rfl, rfl, rfl, id, fun hc => absurd (hclo.symm.trans hc) (by decide)⟩,
      Links.of_same rfl rfl rfl⟩
  · exact Writes.refl run

theorem deferUnrecordedDispatch_writes :
    Silent run (run.deferUnrecordedDispatch failures now) := by
  unfold Run.deferUnrecordedDispatch
  split
  · exact ⟨⟨rfl, rfl, rfl, rfl, rfl, rfl, id, fun _ => rfl⟩, Links.of_same rfl rfl rfl⟩
  · exact Writes.refl run

/-! ## 5. Cancelling -/

theorem keeps_of_cancellation {cancellation : Option Cancellation}
    (h : run.cancellation.isSome = true → cancellation.isSome = true) :
    Keeps run { run with cancellation := cancellation } := by
  refine ⟨rfl, rfl, rfl, rfl, rfl, rfl, fun hc => ?_, fun _ => rfl⟩
  rcases closed_iff.mp hc with ht | hrow | hd
  · exact closed_iff.mpr (Or.inl ht)
  · exact closed_iff.mpr (Or.inr (Or.inl (h hrow)))
  · exact closed_iff.mpr (Or.inr (Or.inr hd))

theorem writes_of_map (run : Run) (hf : ∀ row, (f row).settled = true → row.settled = true) :
    Silent run { run with cancellation := run.cancellation.map f } :=
  ⟨keeps_of_cancellation (by simp), Links.of_map rfl rfl rfl hf⟩

theorem refuseRunCancellation_writes (run : Run) (cause : APIError) (now : Int) :
    Silent run (run.refuseRunCancellation cause now) := by
  apply writes_of_map
  intro row h
  by_cases hn : row.completedNS.isNone = true
  · simp [hn, Cancellation.settled] at h
  · simpa [hn] using h

theorem writeCancellationBackoff_writes {retryNS : Int} :
    Silent run (run.writeCancellationBackoff failures retryNS cause) := by
  apply writes_of_map
  intro row h
  split at h <;> exact h

theorem deferRunCancellation_writes (run : Run) (cause : APIError) (now : Int) :
    Silent run (run.deferRunCancellation cause now) :=
  writeCancellationBackoff_writes

theorem clearDeliveryFailure_writes (run : Run) :
    Silent run run.clearDeliveryFailure := by
  apply writes_of_map
  intro row h
  split at h <;> exact h

theorem deferUnlinkedRunCancellation_writes (run : Run) (cause : APIError) (now : Int) :
    Silent run (run.deferUnlinkedRunCancellation cause now).2 ∧
      ∀ jobID, (run.deferUnlinkedRunCancellation cause now).1 = some jobID →
        run.l1JobID = some jobID := by
  unfold Run.deferUnlinkedRunCancellation
  cases h : run.l1JobID.filter (fun jobID => jobID ≠ "") with
  | none =>
    refine ⟨deferRunCancellation_writes run cause now, ?_⟩
    intro jobID hj
    cases hj
  | some linked =>
    refine ⟨Writes.refl run, ?_⟩
    intro jobID hj
    cases hj
    exact (Option.filter_eq_some_iff.mp h).1

/-- An absence beyond the horizon settles only a cancellation of a run that names no job. -/
theorem cancelAbsentDispatch_writes
    (h : run.cancelAbsentDispatch lookupStarted now grace = .ok run') :
    Silent run run' := by
  unfold Run.cancelAbsentDispatch at h
  split at h
  · cases h
    exact Writes.refl run
  rename_i hnone
  obtain ⟨hlink, hbox⟩ : run.l1JobID = none ∧ run.outbox.jobID = none := by
    simpa using hnone
  split at h
  · cases h
  split at h
  · obtain ⟨hkeeps, hlnk⟩ :=
      failRun_writes run now grace "canceled before dispatch was confirmed"
    have hfail := failRun_link run now grace "canceled before dispatch was confirmed"
    cases h
    refine ⟨?_, Links.of_unnamed hlink hbox (hfail.1.trans hlink)
      (hfail.2.1.trans hbox) fun hsome => ?_⟩
    · refine hkeeps.trans ⟨rfl, rfl, rfl, rfl, rfl, rfl, fun _ => ?_, fun _ => rfl⟩
      exact closed_iff.mpr (Or.inl failRun_terminal)
    · rw [Option.isSome_map, hfail.2.2, hsome]
  · cases h
    exact Writes.refl run

theorem cancelStoredJobID_names (h : run.cancelStoredJobID = some jobID) : run.Names jobID := by
  unfold Run.cancelStoredJobID at h
  split at h
  · rename_i linked hl
    exact Or.inl (hl.trans h)
  · split at h
    · exact Or.inr h
    · cases h

theorem linkStoredEvidence_writes (h : run.linkStoredEvidence now = .ok run')
    : Writes run.Names run run' := by
  unfold Run.linkStoredEvidence at h
  split at h
  · rename_i jobID _ _ hstore _
    have hnamed : run.Names jobID := cancelStoredJobID_names hstore
    exact (completeDispatch_writes (.inr h)).mono fun other ho => Or.inl (ho.1 ▸ hnamed)
  · cases h
    exact Writes.refl run

/-- A request leaves the run alone, or links its stored evidence, fails it if it was never
submitted, and records the cancellation. -/
theorem requestRunCancellation_ok (h : run.requestRunCancellation now grace = .ok run') :
    run' = run ∨
      (run.dispatchAttemptNS = none ∧ run.cancelStoredJobID = none ∧
        run' = { run.failRun now grace "canceled before dispatch was confirmed" with
          cancellation := some ((run.failRun now grace
            "canceled before dispatch was confirmed").recordCancellation true now) }) ∨
      ∃ linked, run.linkStoredEvidence now = .ok linked ∧
        run' = { linked with cancellation := some (linked.recordCancellation false now) } := by
  unfold Run.requestRunCancellation at h
  cases hu : (run.dispatchAttemptNS.isNone && run.cancelStoredJobID.isNone) with
  | true =>
    obtain ⟨hnone, hstore⟩ : run.dispatchAttemptNS = none ∧ run.cancelStoredJobID = none := by
      simpa using hu
    have hnolink : run.linkStoredEvidence now = .ok run := by
      unfold Run.linkStoredEvidence
      rw [hstore]
      split
      · rename_i heq _
        cases heq
      · rfl
    rw [hu, hnolink] at h
    cases hterm : run.status.terminal with
    | true =>
      rw [hterm] at h
      cases h
      exact Or.inl rfl
    | false =>
      rw [hterm] at h
      cases h
      exact Or.inr (Or.inl ⟨hnone, hstore, rfl⟩)
  | false =>
    rw [hu] at h
    dsimp only at h
    rw [Bool.and_false] at h
    cases hl : run.linkStoredEvidence now with
    | error e =>
      rw [hl] at h
      cases h
    | ok linked =>
      rw [hl] at h
      cases h
      exact Or.inr (Or.inr ⟨linked, rfl, rfl⟩)

theorem requestRunCancellation_keeps (h : run.requestRunCancellation now grace = .ok run')
    : Keeps run run' := by
  rcases requestRunCancellation_ok h with rfl | ⟨-, -, rfl⟩ | ⟨linked, hl, rfl⟩
  · exact Keeps.refl run'
  · exact (failRun_writes run now grace _).keeps.trans (keeps_of_cancellation fun _ => rfl)
  · exact (linkStoredEvidence_writes hl).keeps.trans (keeps_of_cancellation fun _ => rfl)

/-- The row a request of a submitted run leaves is pending, or it is the row that was there. -/
theorem recordCancellation_pending (run : Run) (now : Int) :
    (run.recordCancellation false now).completedNS = none ∨
      run.cancellation = some (run.recordCancellation false now) := by
  unfold Run.recordCancellation
  cases run.cancellation with
  | none => exact Or.inl rfl
  | some row =>
    dsimp only
    split
    · exact Or.inl rfl
    · exact Or.inr rfl

/-- **A request.** Where every named job was submitted, a cancellation is settled on request only
for a run that names no job. -/
theorem requestRunCancellation_links
    (hatt : ∀ jobID, run.Names jobID → run.dispatchAttemptNS ≠ none)
    (h : run.requestRunCancellation now grace = .ok run') : Links run.Names run run' := by
  rcases requestRunCancellation_ok h with rfl | ⟨hnone, -, rfl⟩ | ⟨linked, hl, rfl⟩
  · exact Links.refl run'
  · have hlink : run.l1JobID = none :=
      Option.eq_none_iff_forall_ne_some.mpr fun jobID hl => hatt jobID (Or.inl hl) hnone
    have hbox : run.outbox.jobID = none :=
      Option.eq_none_iff_forall_ne_some.mpr fun jobID ho => hatt jobID (Or.inr ho) hnone
    have hfail := failRun_link run now grace "canceled before dispatch was confirmed"
    exact Links.of_unnamed hlink hbox (hfail.1.trans hlink) (hfail.2.1.trans hbox)
      fun _ => rfl
  · have hlnk := (linkStoredEvidence_writes hl).links
    have hrow := recordCancellation_pending linked now
    refine ⟨hlnk.link, hlnk.outboxJob, hlnk.names, fun _ => rfl, ?_, ?_⟩
    · intro row' hr hset
      cases hr
      rcases hrow with hpend | hsame
      · unfold Cancellation.settled at hset
        rw [hpend] at hset
        cases hset
      · exact hlnk.settles _ hsame hset
    · intro jobID hnew hold row' hr
      cases hr
      rcases hrow with hpend | hsame
      · exact hpend
      · exact hlnk.wakes jobID hnew hold _ hsame

/-- What settling on an absent acknowledged job writes: nothing, the cancellation row, or that row
and the regression of the job the run is linked to. -/
theorem cancelAbsentStoredIdentity_ok {observed : Observation}
    (h : run.cancelAbsentStoredIdentity observed now = .ok run') :
    run' = run ∨
      (∃ cancellation, (run.cancellation.isSome = true → cancellation.isSome = true) ∧
        run' = { run with cancellation := cancellation }) ∨
      ∃ cancellation jobID, run.l1JobID = some jobID ∧
        (run.cancellation.isSome = true → cancellation.isSome = true) ∧
        run' = { run.markTerminalLinkRegressed jobID with cancellation := cancellation } := by
  unfold Run.cancelAbsentStoredIdentity at h
  by_cases hobs : run.observation ≠ observed
  · rw [if_pos hobs] at h
    cases h
  rw [if_neg hobs] at h
  cases hid : run.storedIdentity with
  | error e =>
    rw [hid] at h
    cases h
  | ok jobID =>
    rw [hid] at h
    cases hterm : run.status.terminal with
    | false =>
      rw [hterm] at h
      cases h
      exact Or.inl rfl
    | true =>
      rw [hterm] at h
      cases hl : run.l1JobID.filter (fun jobID => jobID ≠ "") with
      | none =>
        rw [hl] at h
        cases h
        exact Or.inr (Or.inl ⟨_, by simp, rfl⟩)
      | some linked =>
        rw [hl] at h
        cases hd : run.outbox.dispatchedNS.isNone with
        | true =>
          rw [hd] at h
          cases h
        | false =>
          rw [hd] at h
          cases h
          have hlink := (Option.filter_eq_some_iff.mp hl).1
          refine Or.inr (Or.inr ⟨_, linked, hlink, ?_, rfl⟩)
          intro hsome
          rw [Option.isSome_map]
          exact hsome

theorem cancelAbsentStoredIdentity_keeps {observed : Observation}
    (h : run.cancelAbsentStoredIdentity observed now = .ok run') : Keeps run run' := by
  rcases cancelAbsentStoredIdentity_ok h with rfl | ⟨cancellation, hsome, rfl⟩ |
    ⟨cancellation, jobID, -, hsome, rfl⟩
  · exact Keeps.refl run'
  · exact keeps_of_cancellation hsome
  · have hmark : Keeps run (run.markTerminalLinkRegressed jobID) :=
      ⟨rfl, rfl, rfl, rfl, rfl, rfl, id, fun _ => rfl⟩
    exact hmark.trans (keeps_of_cancellation hsome)

/-! ## 6. Projecting -/

variable {job : JobState}

theorem projectJobState_some {current target : RunState}
    (h : projectJobState current job = some target) : current.terminal = false := by
  unfold projectJobState at h
  cases ht : current.terminal with
  | false => rfl
  | true =>
    rw [ht] at h
    cases h

theorem projectJobState_ne_succeeded {current target : RunState}
    (h : projectJobState current job = some target) (hjob : job ≠ .succeeded) :
    target ≠ .succeeded := by
  rintro rfl
  unfold projectJobState at h
  split at h
  case isTrue => cases h
  case isFalse =>
    cases job <;> simp [projectionTarget] at h hjob

theorem projectJobOutcome_writes {jobFailure : String} {children : Children} :
    Silent run
      (run.projectJobOutcome projected job jobFailure children now grace) := by
  unfold Run.projectJobOutcome
  split
  · exact Writes.refl run
  rename_i target reason htgt
  split
  · exact Writes.refl run
  rename_i hst
  have hst : run.status = projected.state := by simpa using hst
  obtain ⟨target₀, htarget₀, -⟩ := Option.bind_eq_some_iff.mp htgt
  have hlive : run.status.terminal = false := by
    rw [hst]
    exact projectJobState_some htarget₀
  have hclo : run.closed = true →
      run.cancellation.isSome = true ∨ run.outbox.dispatchedNS.isSome = true := by
    intro hc
    rcases closed_iff.mp hc with ht | hc
    · rw [hlive] at ht
      cases ht
    · exact hc
  dsimp only
  split
  · rename_i hterm
    refine ⟨⟨rfl, rfl, rfl, expireToken_minted, rfl, rfl, ?_, ?_⟩,
      Links.of_same rfl rfl rfl⟩
    · exact fun _ => closed_iff.mpr (Or.inl hterm)
    · intro hc
      refine absurd ?_ (Bool.eq_false_iff.mp hc)
      exact closed_iff.mpr (Or.inl hterm)
  · exact ⟨⟨rfl, rfl, rfl, rfl, rfl, rfl, fun hc => closed_iff.mpr (Or.inr (hclo hc)),
      fun _ => rfl⟩, Links.of_same rfl rfl rfl⟩

theorem failMissingL1Job_writes :
    Silent run (run.failMissingL1Job projected now grace) := by
  unfold Run.failMissingL1Job
  split
  · exact ⟨⟨rfl, rfl, rfl, expireToken_minted, rfl, rfl,
      fun _ => closed_iff.mpr (Or.inl rfl), fun _ => rfl⟩, Links.of_same rfl rfl rfl⟩
  · exact Writes.refl run

end Wefty.LinkRules
