/-
A cancellation is not dropped while its job lives.

A cancellation row is settled (`completed_ns` set, not refused) in four places: on request
for a run that was never submitted, on an absence beyond the horizon, on the absence of an
acknowledged job, and when L1 answered the cancel with an ended job. The first two are
decided while the run names no job. But the submit that was in flight then may still be
stored and acknowledged, after the row was settled as absent; what saves the cancellation is
that the commit which links the job also makes the row pending again (`Links.wakes`). The
third needs L1 to lose a job it had acknowledged. The fourth is delivered long after the
answer was read, so it needs the run's link to be the same then: links are written once.
-/
import Wefty.DispatchOnce

set_option autoImplicit false

namespace Wefty.CancelDelivery

open Tables RunIntent RunJobLink LinkRules Dispatch
  Wefty.DispatchSteps

variable {call : Call} {jobs jobs' : List Job} {run run' : Run} {runID jobID : String}
variable {input : Input}
variable {w w' : World}

/-! ## 1. L1's word -/

def Named (jobs : List Job) (runID jobID : String) : Prop :=
  ∃ job ∈ jobs, job.spec.dispatchKey = dispatchKey runID ∧ job.jobID = jobID

def Ended (jobs : List Job) (jobID : String) : Prop :=
  ∃ job ∈ jobs, job.jobID = jobID ∧ ended job.state = true

theorem Named.grows (h : Named jobs runID jobID)
    (hg : Grows jobs jobs') : Named jobs' runID jobID := by
  obtain ⟨job, hj, hkey, rfl⟩ := h
  obtain ⟨job', hj', hid, hspec, -⟩ := hg.kept job hj
  exact ⟨job', hj', by rw [hspec, hkey], hid⟩

theorem Ended.grows (h : Ended jobs jobID) (hg : Grows jobs jobs') : Ended jobs' jobID := by
  obtain ⟨job, hj, rfl, he⟩ := h
  obtain ⟨job', hj', hid, -, hend⟩ := hg.kept job hj
  exact ⟨job', hj', hid, hend he⟩

variable {spec : JobSpec}

theorem submitJob_grows {newID : String} :
    Grows jobs (submitJob jobs spec newID).1 := by
  unfold submitJob
  split
  · split <;> exact Grows.refl jobs
  split
  · exact Grows.refl jobs
  rename_i hfresh
  refine ⟨fun job hj => ⟨job, List.mem_append_left _ hj, rfl, rfl, id⟩, fun hids => ?_⟩
  rw [List.map_append, List.map_singleton, List.nodup_append_comm]
  refine List.nodup_cons.mpr ⟨fun hmem => hfresh (Or.inr ?_), hids⟩
  obtain ⟨job, hj, hid⟩ := List.mem_map.mp hmem
  exact List.find?_isSome.mpr ⟨job, hj, by simpa using hid⟩

theorem submitJob_named {newID jobID : String}
    (hkey : spec.dispatchKey = dispatchKey runID) (h : (submitJob jobs spec newID).2 = .job jobID) :
    Named (submitJob jobs spec newID).1 runID jobID := by
  unfold submitJob at h ⊢
  cases hl : lookupJobByDispatchKey jobs spec.dispatchKey with
  | some job =>
    rw [hl] at h
    dsimp only at h ⊢
    have hjkey : job.spec.dispatchKey = spec.dispatchKey := by simpa using List.find?_some hl
    split at h
    · rename_i hsame
      cases h
      rw [if_pos hsame]
      exact ⟨job, List.mem_of_find?_eq_some hl, hjkey.trans hkey, rfl⟩
    · cases h
  | none =>
    rw [hl] at h
    dsimp only at h ⊢
    split at h
    · cases h
    · rename_i hfresh
      cases h
      rw [if_neg hfresh]
      exact ⟨⟨newID, spec, .queued⟩, List.mem_append_right _ (List.mem_singleton.mpr rfl), hkey,
        rfl⟩

theorem lookup_named {job : Job} (h : lookupJobByDispatchKey jobs (dispatchKey runID) = some job) :
    Named jobs runID job.jobID :=
  ⟨job, List.mem_of_find?_eq_some h, by simpa using List.find?_some h, rfl⟩

theorem getJob_of_named (h : Named jobs runID jobID) : getJob jobs jobID ≠ none := by
  obtain ⟨job, hj, -, hid⟩ := h
  intro hnone
  exact List.find?_eq_none.mp hnone job hj (by simpa using hid)

theorem getJob_ended {job : Job} (h : getJob jobs jobID = some job)
    (he : ended job.state = true) : Ended jobs jobID :=
  ⟨job, List.mem_of_find?_eq_some h, by simpa using List.find?_some h, he⟩

/-! ## 2. What the program points hold -/

def Linked (ledger : Ledger) (runID jobID : String) : Prop :=
  ∃ run, ledger.runs.find runID = some run ∧ run.l1JobID = some jobID ∧
    run.outbox.jobID = some jobID

/-- What each call in flight may rely on. The job it holds is one L1 stores under the run's key;
an answered cancel holds the job both references name; and a stored job is never reported
gone. -/
def Holds (ledger : Ledger) (jobs : List Job) : Call → Prop
  | .answered runID (.job jobID) => Named jobs runID jobID
  | .recover item => item.dispatchKey = dispatchKey item.runID ∧
      (item.outboxJobID ≠ "" → Named jobs item.runID item.outboxJobID)
  | .recoverByID item _ => Named jobs item.runID item.outboxJobID
  | .recovered item jobID | .recoveredOwned item jobID => Named jobs item.runID jobID
  | .cancel runID jobID key => key = dispatchKey runID ∧ (jobID ≠ "" → Named jobs runID jobID)
  | .cancelLookup runID key observed => key = dispatchKey runID ∧
      ∀ jobID, observed.outboxJob = some jobID → Named jobs runID jobID
  | .cancelByID runID jobID _ => Named jobs runID jobID
  | .cancelAbsent _ _ _ => False
  | .cancelFound runID jobID _ => Named jobs runID jobID
  | .cancelLinked runID jobID => jobID ≠ "" → Named jobs runID jobID
  | .cancelReady runID jobID _ => Linked ledger runID jobID
  | .canceled runID jobID _ state =>
      Linked ledger runID jobID ∧ (ended state = true → Ended jobs jobID)
  | .canceledEnded runID jobID _ => Linked ledger runID jobID ∧ Ended jobs jobID
  | .cancelRefused runID jobID _ _ => Named jobs runID jobID
  | .finish runID jobID => Linked ledger runID jobID ∧ Ended jobs jobID
  | _ => True

/-- What holds of every run: its references are jobs L1 stores under its key, and a settled
cancellation names none that lives. -/
structure Delivered (jobs : List Job) (runID : String) (run : Run) : Prop where
  named : ∀ jobID, run.Names jobID → Named jobs runID jobID
  settled : ∀ row, run.cancellation = some row → row.settled = true →
    ∀ jobID, run.Names jobID → Ended jobs jobID

structure Inv (w : World) : Prop where
  once : DispatchOnce.Inv w
  runs : ∀ runID run, w.ledger.runs.find runID = some run → Delivered w.l1 runID run
  calls : ∀ call ∈ w.calls, Holds w.ledger w.l1 call
  ids : (w.l1.map Job.jobID).Nodup

theorem inv_start : Inv World.start :=
  ⟨DispatchOnce.inv_start, fun runID run h => (by cases h), by simp [World.start],
    by simp [World.start]⟩

theorem attempted_of_named (h : DispatchOnce.Inv w) (hr : w.ledger.runs.find runID = some run)
    (hn : Named w.l1 runID jobID) : run.dispatchAttemptNS ≠ none := by
  obtain ⟨job, hj, hkey, -⟩ := hn
  obtain ⟨runID', run', token, hr', ht, hspec⟩ := h.jobs job.spec (List.mem_map_of_mem hj)
  have hkey' : job.spec.dispatchKey = dispatchKey runID' := by
    rw [hspec, DispatchIntent.jobSpec_dispatchKey]
    exact (h.runs runID' run' hr').key
  have hsame : runID' = runID := dispatchKey_inj (hkey'.symm.trans hkey)
  subst hsame
  cases hr.symm.trans hr'
  exact (h.runs runID' run hr).attempted (by rw [ht]; simp)

/-! ## 3. The ledger -/

/-- A commit that links only jobs L1 stores keeps the run delivered: a job that is new to it
woke the cancellation, and the others had ended if it was settled. -/
theorem Delivered.links {evidence : String → Prop} (h : Delivered jobs runID run)
    (hg : Grows jobs jobs') (hl : Links evidence run run')
    (he : ∀ jobID, evidence jobID → Named jobs' runID jobID) : Delivered jobs' runID run' := by
  constructor
  · intro jobID hj
    rcases hl.names jobID hj with hold | hnew
    · exact (h.named jobID hold).grows hg
    · exact he jobID hnew
  · intro row' hrow' hset jobID hj
    rcases hl.settles row' hrow' hset with ⟨row, hrow, hrset⟩ | hnone
    · by_cases hold : run.Names jobID
      · exact (h.settled row hrow hrset jobID hold).grows hg
      · have hpend := hl.wakes jobID hj hold row' hrow'
        unfold Cancellation.settled at hset
        rw [hpend] at hset
        cases hset
    · exact absurd hj (hnone jobID)

theorem Delivered.finish (h : Delivered jobs runID run) (hg : Grows jobs jobs')
    (hrun : run.l1JobID = some jobID) (hbox : run.outbox.jobID = some jobID) (he : Ended jobs jobID)
    (now : Int) : Delivered jobs' runID (run.finishRunCancellation now) := by
  refine ⟨fun other ho => (h.named other ho).grows hg, fun row _ _ other ho => ?_⟩
  have hoth : other = jobID := by
    rcases ho with ho | ho
    · exact Option.mem_unique ho hrun
    · exact Option.mem_unique ho hbox
  rw [hoth]
  exact he.grows hg

theorem newRun_delivered {request : CreateRun} {now : Int} :
    Delivered jobs runID (newRun request now) := by
  constructor
  · rintro jobID (hn | hn) <;> cases hn
  · intro row hrow
    cases hrow

theorem moves_link {evidence finishing : String → Prop} {absent : Prop}
    (hatt : ∀ jobID, run.Names jobID → run.dispatchAttemptNS ≠ none)
    (hm : Moves evidence finishing absent run run') (habs : ¬absent) :
    (∀ jobID, run.l1JobID = some jobID → run'.l1JobID = some jobID) ∧
      ∀ jobID, run.outbox.jobID = some jobID → run'.outbox.jobID = some jobID := by
  cases hm with
  | writes h => exact ⟨h.links.link, h.links.outboxJob⟩
  | begun held random token now h =>
    obtain ⟨-, -, -, -, -, -, -, -, hlink, hbox, -⟩ := beginDispatch_ok h
    exact ⟨fun jobID hj => hlink.trans hj, fun jobID hj => hbox.trans hj⟩
  | requested now grace h =>
    have hl := requestRunCancellation_links hatt h
    exact ⟨hl.link, hl.outboxJob⟩
  | finished jobID hf now h =>
    subst h
    exact ⟨fun _ hj => hj, fun _ hj => hj⟩
  | regressed ha h => exact absurd ha habs

/-! ## 4. One step -/

/-- What every commit of a step is about: its links are jobs L1 stores, its finishes are of ended
jobs, and it reports none gone. -/
theorem Inv.evidence (h : Inv w) :
    (∀ runID jobID, (∃ call ∈ w.calls, call.links runID jobID) → Named w.l1 runID jobID) ∧
      (∀ runID jobID, (∃ call ∈ w.calls, call.finishes runID jobID) →
        Linked w.ledger runID jobID ∧ Ended w.l1 jobID) ∧
      ∀ runID, ¬∃ call ∈ w.calls, call.regresses runID := by
  refine ⟨?_, ?_, ?_⟩
  · rintro runID jobID ⟨call, hc, hl⟩
    have hold := h.calls call hc
    cases call with
    | answered r answer =>
      cases answer with
      | job j =>
        obtain ⟨rfl, rfl⟩ := hl
        exact hold
      | _ => exact hl.elim
    | recovered | recoveredOwned | cancelFound =>
      obtain ⟨rfl, rfl⟩ := hl
      exact hold
    | cancelLinked r j =>
      obtain ⟨rfl, rfl, hne⟩ := hl
      exact hold hne
    | _ => exact hl.elim
  · rintro runID jobID ⟨call, hc, hf⟩
    have hold := h.calls call hc
    cases call with
    | finish r j =>
      obtain ⟨rfl, rfl⟩ := hf
      exact hold
    | _ => exact hf.elim
  · rintro runID ⟨call, hc, hr⟩
    have hold := h.calls call hc
    cases call with
    | cancelAbsent => exact hold
    | _ => exact hr.elim

theorem Inv.attempted (h : Inv w) (hr : w.ledger.runs.find runID = some run) (jobID : String)
    (hn : run.Names jobID) : run.dispatchAttemptNS ≠ none :=
  attempted_of_named h.once hr ((h.runs runID run hr).named jobID hn)

theorem Inv.runs_step (h : Inv w) (hg : Grows w.l1 w'.l1) (hl : StepMoves w w'.ledger) :
    ∀ runID run, w'.ledger.runs.find runID = some run → Delivered w'.l1 runID run := by
  obtain ⟨hlnk, hfin, habs⟩ := h.evidence
  intro runID run' hr'
  cases hr : w.ledger.runs.find runID with
  | none =>
    obtain ⟨request, now, rfl⟩ := hl.new runID run' hr' hr
    exact newRun_delivered
  | some run =>
    obtain ⟨run'', hr'', hm⟩ := hl.old runID run hr
    cases hr'.symm.trans hr''
    have hd := h.runs runID run hr
    cases hm with
    | writes hw => exact hd.links hg hw.links fun jobID he => (hlnk runID jobID he).grows hg
    | begun held random token now hb =>
      obtain ⟨-, -, -, -, -, -, -, -, hlink, hbox, hrow, -⟩ := beginDispatch_ok hb
      exact hd.links hg (Links.of_same hlink hbox hrow : Links (fun _ => False) run run')
        fun _ he => he.elim
    | requested now grace hq =>
      exact hd.links hg (requestRunCancellation_links (h.attempted hr) hq)
        fun jobID hn => (hd.named jobID hn).grows hg
    | finished jobID hf now heq =>
      obtain ⟨⟨linked, hlr, hrun, hout⟩, hend⟩ := hfin runID jobID hf
      cases hr.symm.trans hlr
      subst heq
      exact hd.finish hg hrun hout hend now
    | regressed ha hk => exact absurd ha (habs runID)

theorem Inv.linked_step (h : Inv w) (hl : StepMoves w w'.ledger)
    (hk : Linked w.ledger runID jobID) : Linked w'.ledger runID jobID := by
  obtain ⟨run, hr, hrun, hout⟩ := hk
  obtain ⟨run', hr', hm⟩ := hl.old runID run hr
  obtain ⟨hlink, hbox⟩ := moves_link (h.attempted hr) hm (h.evidence.2.2 runID)
  exact ⟨run', hr', hlink jobID hrun, hbox jobID hout⟩

theorem Inv.holds_step (h : Inv w) (hg : Grows w.l1 w'.l1) (hl : StepMoves w w'.ledger)
    (hc : Holds w.ledger w.l1 call) : Holds w'.ledger w'.l1 call := by
  cases call with
  | answered runID answer =>
    cases answer with
    | job jobID => exact Named.grows hc hg
    | _ => trivial
  | recoverByID | recovered | recoveredOwned | cancelByID | cancelFound | cancelRefused =>
    exact Named.grows hc hg
  | recover | cancel => exact ⟨hc.1, fun hne => (hc.2 hne).grows hg⟩
  | cancelLookup runID key observed => exact ⟨hc.1, fun jobID hj => (hc.2 jobID hj).grows hg⟩
  | cancelAbsent => exact hc.elim
  | cancelLinked runID jobID => exact fun hne => (hc hne).grows hg
  | cancelReady runID jobID observed => exact h.linked_step hl hc
  | canceled runID jobID current state =>
    exact ⟨h.linked_step hl hc.1, fun he => (hc.2 he).grows hg⟩
  | canceledEnded | finish => exact ⟨h.linked_step hl hc.1, hc.2.grows hg⟩
  | _ => trivial

/-! ## 5. What a step leaves in flight -/

/-- Every call of `w'` was in flight in `w` or holds what it must. -/
def New (w w' : World) : Prop :=
  ∀ call ∈ w'.calls, call ∈ w.calls ∨ Holds w'.ledger w'.l1 call

namespace New

theorem of_calls (h : w'.calls = w.calls) : New w w' :=
  fun _ hc => Or.inl (h ▸ hc)

theorem push (h : New w w') (hc : Holds w'.ledger w'.l1 call) : New w (w'.push call) := by
  intro c hc'
  rcases List.mem_append.mp hc' with h' | h'
  · exact h c h'
  · rw [List.mem_singleton.mp h']
    exact Or.inr hc

theorem reading {f : Run → World} (h : ∀ run, w.ledger.runs.find runID = some run → New w (f run)) :
    New w (w.reading runID f) := by
  unfold World.reading
  cases hr : w.ledger.runs.find runID with
  | none => exact of_calls rfl
  | some run => exact h run hr

theorem deliver (input : Input) (runID : String) (tx : RunTx) {next : Call}
    (hn : ∀ ledger jobs, Holds ledger jobs next) : New w (w.deliver input runID tx next) := by
  refine reading fun run _ => ?_
  cases tx run with
  | error e => exact of_calls rfl
  | ok run' => exact (of_calls rfl : New w (w.transact runID tx)).push (hn _ _)

end New

theorem eq_some_getD {jobID : Option String} (h : jobID.getD "" ≠ "") :
    jobID = some (jobID.getD "") := by
  cases jobID with
  | none => exact absurd rfl h
  | some value => rfl

theorem submitOutcome_new (h : Inv w)
    (hr : DispatchOnce.Issued w.ledger runID spec) : New w (w.submitOutcome input runID spec) := by
  have hkey : spec.dispatchKey = dispatchKey runID := by
    obtain ⟨run, token, hrun, -, rfl⟩ := hr
    rw [DispatchIntent.jobSpec_dispatchKey]
    exact (h.once.runs runID run hrun).key
  unfold World.submitOutcome
  cases input.outcome with
  | delivered =>
    refine (New.of_calls rfl : New w (w.arrive spec input.fresh)).push ?_
    cases ha : (submitJob w.l1 spec input.fresh).2 with
    | job jobID => exact submitJob_named hkey ha
    | dispatchKeyConflict => trivial
    | unavailable => trivial
  | failed => exact (New.of_calls rfl).push trivial
  | refused => exact New.of_calls rfl

theorem recover_new {item : UnrecordedDispatch}
    (hc : Holds w.ledger w.l1 (.recover item)) : New w (w.recover input item) := by
  unfold World.recover
  split
  · cases hl : lookupJobByDispatchKey w.l1 item.dispatchKey with
    | some job =>
      dsimp only
      split
      · rw [hc.1] at hl
        exact (New.of_calls rfl).push (lookup_named hl)
      · rename_i hne
        exact (New.of_calls rfl).push (hc.2 fun he => hne (Or.inl he))
    | none =>
      dsimp only
      split
      · rename_i hne
        exact (New.of_calls rfl).push (hc.2 hne)
      · exact (New.of_calls rfl).push trivial
  · exact New.of_calls rfl

variable {observed : Observation}

theorem cancelLookup_new {key : String}
    (hc : Holds w.ledger w.l1 (.cancelLookup runID key observed)) :
    New w (w.cancelLookup input runID key observed) := by
  unfold World.cancelLookup
  split
  · split
    · rename_i job _ hl
      rw [hc.1] at hl
      exact (New.of_calls rfl).push (lookup_named hl)
    · rename_i jobID _ hj
      exact (New.of_calls rfl).push (hc.2 jobID (Option.filter_eq_some_iff.mp hj).1)
    · exact (New.of_calls rfl).push trivial
  · exact (New.of_calls rfl).push trivial

theorem ended_of_observedState {job : Job} (h : ended (World.observedState input job) = true) :
    ended job.state = true := by
  unfold World.observedState at h
  split at h
  · cases h
  · exact h

theorem cancelJob_new (h : Inv w)
    (hc : Linked w.ledger runID jobID) : New w (w.cancelJob input runID jobID observed) := by
  have hnamed : Named w.l1 runID jobID := by
    obtain ⟨run, hr, hrun, -⟩ := hc
    exact (h.runs runID run hr).named jobID (Or.inl hrun)
  unfold World.cancelJob
  split
  · exact New.of_calls rfl
  · exact (New.of_calls rfl).push hnamed
  have hasked : New w { w with l1 := advance w.l1 jobID input.state } := New.of_calls rfl
  dsimp only
  split
  · rename_i job hj
    exact hasked.push ⟨hc, fun he => getJob_ended hj (ended_of_observedState he)⟩
  · exact hasked.push (hnamed.grows (advance_grows w.l1 jobID input.state))

/-- **What a step of a call leaves in flight holds what it must.** -/
theorem proceed_new (h : Inv w) (hr : DispatchOnce.Ready w.ledger call)
    (hc : Holds w.ledger w.l1 call) : New w (w.proceed input call) := by
  cases call with
  | listed intent =>
    refine New.reading fun run _ => ?_
    cases run.beginDispatch w.ledger.held input.fresh input.now with
    | error e => exact New.of_calls rfl
    | ok begun => exact New.push (New.of_calls rfl) trivial
  | begun intent token => exact New.push (New.of_calls rfl) trivial
  | submit runID spec => exact submitOutcome_new h hr
  | stray | recoveredOwned | absent | cancelProvisional | finish | refuse | observed | lost =>
    exact New.of_calls rfl
  | answered runID answer =>
    show New w (w.answered input runID answer)
    unfold World.answered
    split <;> exact New.of_calls rfl
  | recover item => exact recover_new hc
  | recoverByID item lookupStarted =>
    show New w (w.recoverByID input item lookupStarted)
    unfold World.recoverByID
    split
    · split
      · exact (New.of_calls rfl).push hc
      · exact (New.of_calls rfl).push trivial
    · exact New.of_calls rfl
  | recovered item jobID => exact New.push (New.of_calls rfl) hc
  | cancel runID jobID key =>
    show New w (w.cancelObserve runID jobID key)
    unfold World.cancelObserve
    split
    · exact (New.of_calls rfl).push hc.2
    · refine New.reading fun run hfind => (New.of_calls rfl).push ⟨hc.1, fun j hj => ?_⟩
      exact (h.runs runID run hfind).named j (Or.inr hj)
  | cancelLookup runID key observed => exact cancelLookup_new hc
  | cancelByID runID jobID observed =>
    show New w (w.cancelByID input runID jobID observed)
    unfold World.cancelByID
    split
    · split
      · exact (New.of_calls rfl).push hc
      · rename_i hnone
        exact absurd hnone (getJob_of_named hc)
    · exact New.of_calls rfl
  | cancelAbsent => exact hc.elim
  | cancelMissing | cancelFound | cancelLinked => exact New.deliver input _ _ fun _ _ => trivial
  | cancelUnlinked runID =>
    refine New.reading fun run hfind => ?_
    split
    · rename_i jobID hj
      refine (New.of_calls rfl).push fun _ => ?_
      have hlink := (deferUnlinkedRunCancellation_writes run input.cause input.now).2 jobID hj
      exact (h.runs runID run hfind).named jobID (Or.inl hlink)
    · exact New.of_calls rfl
  | cancelReread runID =>
    refine New.reading fun run hfind => (New.of_calls rfl).push fun hne => ?_
    exact (h.runs runID run hfind).named _ (Or.inl (eq_some_getD hne))
  | cancelRecorded runID jobID =>
    refine New.reading fun run hfind => ?_
    split
    · rename_i hboth
      exact (New.of_calls rfl).push ⟨run, hfind, hboth.1, hboth.2.1⟩
    · exact New.of_calls rfl
  | cancelReady runID jobID observed => exact cancelJob_new h hc
  | canceled runID jobID current state =>
    refine New.reading fun run _ => ?_
    have hclr : New w ((w.write runID Run.clearDeliveryFailure).push
        (.observed ⟨runID, jobID, current, run.requiredEnvelope⟩ state)) :=
      (New.of_calls rfl).push trivial
    split
    · rename_i he
      refine hclr.push ⟨?_, hc.2 he⟩
      have hmvs : StepMoves w (w.write runID Run.clearDeliveryFailure).ledger :=
        write_moves clearDeliveryFailure_writes
      exact h.linked_step hmvs hc.1
    · exact hclr
  | canceledEnded runID jobID state =>
    refine New.reading fun run _ => ?_
    have hprojected : New w (w.push
        (.observed ⟨runID, jobID, run.status, run.requiredEnvelope⟩ state)) :=
      (New.of_calls rfl).push trivial
    exact hprojected.push hc
  | cancelRefused runID jobID observed cause =>
    show New w (w.cancelRefused input runID jobID observed cause)
    unfold World.cancelRefused
    split
    · rename_i hgone
      exact absurd (Option.isNone_iff_eq_none.mp hgone.2.2) (getJob_of_named hc)
    · exact (New.of_calls rfl).push trivial
  | project projected =>
    show New w (w.project input projected)
    unfold World.project
    split
    · split <;> exact (New.of_calls rfl).push trivial
    · exact New.of_calls rfl

/-! ## 6. Every run of the system -/

theorem proceed_grows (w : World) (input : Input) (call : Call) :
    Grows w.l1 (w.proceed input call).l1 := by
  cases hc : call.inert with
  | true => exact (proceed_goes w input hc).inert.grows
  | false =>
    cases call with
    | listed intent =>
      show Grows w.l1 (w.begin input intent).l1
      unfold World.begin World.reading
      split
      · exact Grows.refl w.l1
      · dsimp only
        split <;> exact Grows.refl w.l1
    | begun intent token => exact Grows.refl w.l1
    | submit runID spec =>
      show Grows w.l1 (w.submitOutcome input runID spec).l1
      unfold World.submitOutcome
      cases input.outcome with
      | delivered => exact submitJob_grows
      | failed => exact Grows.refl w.l1
      | refused => exact Grows.refl w.l1
    | stray spec => exact submitJob_grows
    | _ => cases hc

/-- What the steps of `DispatchOnce.Inv` and the ledger leave to show: L1 grew, and each call is
an old one or holds what it must. -/
theorem Inv.of_new (h : Inv w) (honce : DispatchOnce.Inv w') (hg : Grows w.l1 w'.l1)
    (hl : StepMoves w w'.ledger) (hn : New w w') : Inv w' where
  once := honce
  runs := h.runs_step hg hl
  calls := by
    intro call hc
    rcases hn call hc with hold | hnew
    · exact h.holds_step hg hl (h.calls call hold)
    · exact hnew
  ids := hg.ids h.ids

theorem step_new (h : Inv w) {op : Op} (hop : ∀ index input, op ≠ .resume index input) :
    New w (w.step op) := by
  cases op with
  | pendingDispatches runID now =>
    refine New.reading fun run _ => ?_
    split
    · exact (New.of_calls rfl).push trivial
    · exact New.of_calls rfl
  | unrecordedDispatches runID now =>
    refine New.reading fun run hr => ?_
    split
    · have hid : run.runID = runID := w.ledger.runs.key_of_find hr
      subst hid
      refine (New.of_calls rfl).push ⟨(h.once.runs _ run hr).key, fun hne => ?_⟩
      exact (h.runs _ run hr).named _ (Or.inr (eq_some_getD hne))
    · exact New.of_calls rfl
  | pendingRunCancellations runID now =>
    refine New.reading fun run hr => ?_
    split
    · refine (New.of_calls rfl).push ⟨(h.once.runs runID run hr).key, fun hne => ?_⟩
      exact (h.runs runID run hr).named _ (cancelStoredJobID_names (eq_some_getD hne))
    · exact New.of_calls rfl
  | activeProjectedRuns runID =>
    refine New.reading fun run _ => ?_
    split
    · split
      · exact New.of_calls rfl
      · exact (New.of_calls rfl).push trivial
    · exact New.of_calls rfl
  | resume index input => exact absurd rfl (hop index input)
  | restart =>
    intro call hc
    obtain ⟨before, -, haft⟩ := List.mem_filterMap.mp hc
    right
    cases before with
    | submit runID spec =>
      cases haft
      trivial
    | stray spec =>
      cases haft
      trivial
    | _ => cases haft
  | _ => exact New.of_calls rfl

theorem step_grows {op : Op} : Grows w.l1 (w.step op).l1 := by
  cases hq : DispatchOnce.quiet op with
  | true => exact (DispatchOnce.step_inert w hq).grows
  | false =>
    cases op with
    | pendingDispatches runID now =>
      show Grows w.l1 (w.reading runID _).l1
      unfold World.reading
      split
      · exact Grows.refl w.l1
      · dsimp only
        split <;> exact Grows.refl w.l1
    | resume index input =>
      obtain heq | ⟨call, -, heq⟩ := step_resume w index input
      · rw [heq]
        exact Grows.refl w.l1
      · rw [heq]
        exact proceed_grows { w with calls := w.calls.eraseIdx index } input call
    | restart => exact Grows.refl w.l1
    | _ => cases hq

theorem Inv.step (h : Inv w) (op : Op) : Inv (w.step op) := by
  refine h.of_new (h.once.step op) step_grows (step_ledger w op) ?_
  cases op with
  | resume index input =>
    obtain heq | ⟨call, hi, heq⟩ := step_resume w index input
    · rw [heq]
      exact New.of_calls rfl
    have hmem : call ∈ w.calls := List.mem_of_getElem? hi
    have hsub : ∀ c ∈ w.calls.eraseIdx index, c ∈ w.calls :=
      fun c hc => List.mem_of_mem_eraseIdx hc
    have hfewer : Inv { w with calls := w.calls.eraseIdx index } :=
      ⟨h.once.fewer hsub, h.runs, fun c hc => h.calls c (hsub c hc), h.ids⟩
    rw [heq]
    intro c hc
    rcases proceed_new hfewer (h.once.calls call hmem) (h.calls call hmem) c hc with
      hold | hnew
    · exact Or.inl (hsub c hold)
    · exact Or.inr hnew
  | _ => exact step_new h (by intro index input heq; cases heq)

theorem inv_reached (ops : List Op) : Inv (World.reached ops) :=
  Runs.exec_invariant (fun _ op h => h.step op) inv_start ops

theorem getJob_of_ended (hids : (jobs.map Job.jobID).Nodup) (h : Ended jobs jobID)
    : ∃ job, getJob jobs jobID = some job ∧ ended job.state = true := by
  obtain ⟨job, hj, hid, he⟩ := h
  cases hg : getJob jobs jobID with
  | none => exact absurd hid (by simpa using List.find?_eq_none.mp hg job hj)
  | some found =>
    have hfid : found.jobID = jobID := by simpa using List.find?_some hg
    have hsame : found = job :=
      List.inj_on_of_nodup_map hids (List.mem_of_find?_eq_some hg) hj (hfid.trans hid.symm)
    exact ⟨found, rfl, hsame ▸ he⟩

variable {row : Cancellation}

theorem Links.pending {jobs : String → Prop} (h : Links jobs run run') (hnew : run'.Names jobID)
    (hold : ¬run.Names jobID) (hrow : run.cancellation = some row) :
    ∃ row', run'.cancellation = some row' ∧ row'.completedNS = none := by
  have hsome := h.recorded (by rw [hrow]; rfl)
  obtain ⟨row', hrow'⟩ := Option.isSome_iff_exists.mp hsome
  exact ⟨row', hrow', h.wakes jobID hnew hold row' hrow'⟩

/-- The commit that first names a job makes a recorded cancellation pending. -/
theorem Inv.step_wakes (h : Inv w) (op : Op) (hr : w.ledger.runs.find runID = some run)
    (hr' : (w.step op).ledger.runs.find runID = some run') (hnew : run'.Names jobID)
    (hold : ¬run.Names jobID) (hrow : run.cancellation = some row) :
    ∃ row', run'.cancellation = some row' ∧ row'.completedNS = none := by
  obtain ⟨run'', hr'', hm⟩ := (step_ledger w op).old runID run hr
  cases hr'.symm.trans hr''
  cases hm with
  | writes hw => exact Links.pending hw.links hnew hold hrow
  | begun held random token now hb =>
    obtain ⟨-, -, -, -, -, -, -, -, hlink, hbox, -⟩ := beginDispatch_ok hb
    unfold Run.Names at hnew
    rw [hlink, hbox] at hnew
    exact absurd hnew hold
  | requested now grace hq =>
    exact Links.pending (requestRunCancellation_links (h.attempted hr) hq) hnew hold hrow
  | finished jobID' hf now heq =>
    subst heq
    exact absurd hnew hold
  | regressed ha hk => exact absurd ha (h.evidence.2.2 runID)

/-- **A cancellation is not dropped while its job lives.** Whatever happened, in whatever order
answers came: a cancellation that was settled without a refusal names only jobs that have
ended, and the commit that first names a job, however late, leaves the cancellation
pending. -/
theorem canceled_job_ended (ops : List Op) (runID jobID : String) (run : Run)
    (hr : (World.reached ops).ledger.runs.find runID = some run) :
    (∀ row, run.cancellation = some row → row.completedNS ≠ none → row.refused = false →
      run.Names jobID →
        ∃ job, getJob (World.reached ops).l1 jobID = some job ∧ ended job.state = true) ∧
    ∀ op run' row, ((World.reached ops).step op).ledger.runs.find runID = some run' →
      run.cancellation = some row → run'.Names jobID → ¬run.Names jobID →
        ∃ row', run'.cancellation = some row' ∧ row'.completedNS = none := by
  have h := inv_reached ops
  constructor
  · intro row hrow hcompleted hrefused hnamed
    have hset : row.settled = true := by
      unfold Cancellation.settled
      rw [hrefused, Option.isSome_iff_ne_none.mpr hcompleted]
      rfl
    exact getJob_of_ended h.ids ((h.runs runID run hr).settled row hrow hset jobID hnamed)
  · exact fun op run' row hr' hrow hnew hold => h.step_wakes op hr hr' hnew hold hrow

def deliveredOps : List Op :=
  let resume (index : Nat) : Op := .resume index DispatchOnce.sampleInput
  [.createRun DispatchOnce.sampleRequest 0, .pendingDispatches "r" 0, resume 0, resume 0, resume 0,
    resume 0, .requestRunCancellation "r" "a" 0 0, .pendingRunCancellations "r" 0, resume 0,
    resume 0, resume 0, .resume 0 { DispatchOnce.sampleInput with state := .failed }, resume 0,
    resume 1, resume 2]

/-- The submit is still on its way when a lookup beyond the horizon finds no job and settles the
cancellation; then L1 stores the job, and its answer is the call in flight. -/
def settledOps : List Op :=
  let resume (index : Nat) : Op := .resume index DispatchOnce.sampleInput
  [.createRun DispatchOnce.sampleRequest 0, .pendingDispatches "r" 0, resume 0, resume 0,
    .requestRunCancellation "r" "a" 0 0, .pendingRunCancellations "r" 0, resume 1,
    .resume 1 { DispatchOnce.sampleInput with now := unrecordedDispatchSettleHorizon }, resume 1,
    resume 0]

theorem canceled_job_ended_delivered :
    (∃ run row job, (World.reached deliveredOps).ledger.runs.find "r" = some run ∧
      run.cancellation = some row ∧ row.completedNS ≠ none ∧
      getJob (World.reached deliveredOps).l1 "f" = some job ∧ ended job.state = true) ∧
    ∃ run row run' row', (World.reached settledOps).ledger.runs.find "r" = some run ∧
      run.cancellation = some row ∧ row.settled = true ∧
      ((World.reached settledOps).step (.resume 1 DispatchOnce.sampleInput)).ledger.runs.find "r" =
        some run' ∧ run'.Names "f" ∧
      run'.cancellation = some row' ∧ row'.completedNS = none := by
  constructor
  · obtain ⟨job, hjob, hend⟩ := (canceled_job_ended deliveredOps "r" "f" _ rfl).1 _ rfl
      (by decide +kernel) (by decide +kernel) (Or.inl rfl)
    exact ⟨_, _, job, rfl, rfl, by decide +kernel, hjob, hend⟩
  · obtain ⟨row', hrow', hpend⟩ := (canceled_job_ended settledOps "r" "f" _ rfl).2
      (.resume 1 DispatchOnce.sampleInput) _ _ rfl rfl (Or.inr rfl)
      (by rintro (hn | hn) <;> cases hn)
    exact ⟨_, _, _, row', rfl, rfl, by decide +kernel, rfl, Or.inr rfl, hrow', hpend⟩

end Wefty.CancelDelivery
