/-
At most one L1 job a run.

The reconciler submits a run over and over until L1 acknowledges it, and between
`beginDispatch` and the submit, and between the submit and what is recorded of it, anything
may commit. What makes the retries one job is that they are one document: the intent is
immutable and the run token is minted once and staged until the run can no longer be
submitted. `Sound` is that invariant on one run, `Issued` the document it determines; every
submit that was ever started and every job L1 stores is issued, so L1 never sees two
documents under one dispatch key.
-/
import Wefty.DispatchSteps

set_option autoImplicit false

namespace Wefty.DispatchOnce

open Tables RunIntent RunJobLink LinkRules Dispatch
  Wefty.DispatchSteps

variable {call : Call} {spec : JobSpec} {runID : String} {w : World}

/-! ## 1. One run -/

/-- What holds of every run in the ledger: its intent carries its own key, a minted token is
staged for as long as the run can be submitted, and a token is minted only by an attempt. -/
structure Sound (runID : String) (run : Run) : Prop where
  intentID : run.intent.runID = runID
  key : run.intent.dispatchKey = dispatchKey runID
  staged : run.closed = false → run.outbox.tokenDelivery = run.minted
  nonempty : run.minted ≠ some ""
  attempted : run.minted ≠ none → run.dispatchAttemptNS ≠ none

theorem newRun_sound (request : CreateRun) (now : Int) :
    Sound (newRun request now).runID (newRun request now) :=
  ⟨rfl, rfl, fun _ => rfl, by simp [Run.minted, newRun], fun h => absurd rfl h⟩

section Run
variable {evidence finishing : String → Prop} {absent : Prop} {run run' : Run}

/-- A commit keeps the invariant. The two cases are those of `Moves.keeps_or_begun`. -/
theorem Sound.moves (h : Sound runID run) (hm : Moves evidence finishing absent run run') :
    Sound runID run' := by
  rcases hm.keeps_or_begun with hk | ⟨held, random, token, now, hb⟩
  · refine ⟨?_, ?_, ?_, ?_, ?_⟩
    · rw [hk.intent, h.intentID]
    · rw [hk.intent, h.key]
    · intro hc
      have hopen : run.closed = false := by
        cases hr : run.closed with
        | false => rfl
        | true =>
          rw [hk.closed hr] at hc
          cases hc
      rw [hk.staged hc, h.staged hopen, hk.minted]
    · rw [hk.minted]
      exact h.nonempty
    · rw [hk.minted, hk.attempted]
      exact h.attempted
  · obtain ⟨hopen, hne, htoken, hstage, -, -, hint, -, -, -, -, hatt, -⟩ :=
      beginDispatch_ok hb
    -- staged or fresh, the bearer handed out is the minted one
    have hminted : run'.minted = some token := by
      rcases htoken with ⟨hold, hsame⟩ | ⟨-, -, hnew⟩
      · rw [hsame, ← h.staged hopen, hold]
      · exact hnew
    refine ⟨?_, ?_, ?_, ?_, ?_⟩
    · rw [hint, h.intentID]
    · rw [hint, h.key]
    · exact fun _ => hstage.trans hminted.symm
    · rw [hminted]
      exact fun he => hne (Option.some.inj he)
    · intro _ hnone
      rw [hnone] at hatt
      cases hatt

/-- What no commit changes: the intent, a minted token, that the run is closed, and how many
attempts a closed run has had. -/
theorem moves_stable (hm : Moves evidence finishing absent run run') :
    run'.intent = run.intent ∧ (∀ token, run.minted = some token → run'.minted = some token) ∧
      (run.closed = true →
        run'.closed = true ∧ run'.outbox.attemptCount = run.outbox.attemptCount) := by
  rcases hm.keeps_or_begun with hk | ⟨held, random, token, now, hb⟩
  · exact ⟨hk.intent, fun t ht => hk.minted.trans ht, fun hc => ⟨hk.closed hc, hk.attempts⟩⟩
  obtain ⟨hopen, -, htoken, -, -, -, hint, -⟩ := beginDispatch_ok hb
  refine ⟨hint, ?_, fun hc => ?_⟩
  · intro t ht
    rcases htoken with ⟨-, hsame⟩ | ⟨-, hnone, -⟩
    · rw [hsame, ht]
    · rw [hnone] at ht
      cases ht
  · rw [hopen] at hc
    cases hc

end Run

/-! ## 2. The document a run determines -/

def Issued (ledger : Ledger) (runID : String) (spec : JobSpec) : Prop :=
  ∃ run token, ledger.runs.find runID = some run ∧ run.minted = some token ∧
    spec = run.intent.jobSpec token

theorem Issued.unique {ledger : Ledger} {spec' : JobSpec} (h : Issued ledger runID spec)
    (h' : Issued ledger runID spec') : spec = spec' := by
  obtain ⟨run, token, hr, ht, rfl⟩ := h
  obtain ⟨run', token', hr', ht', rfl⟩ := h'
  cases hr.symm.trans hr'
  cases ht.symm.trans ht'
  rfl

def Ready (ledger : Ledger) : Call → Prop
  | .listed intent => ∃ run, ledger.runs.find intent.runID = some run ∧ run.intent = intent
  | .begun intent token => ∃ run, ledger.runs.find intent.runID = some run ∧
      run.intent = intent ∧ run.minted = some token
  | .submit runID spec => Issued ledger runID spec
  | .stray spec => ∃ runID, Issued ledger runID spec
  | _ => True

theorem ready_of_inert {ledger : Ledger} (h : call.inert = true) : Ready ledger call := by
  cases call <;> trivial

structure Inv (w : World) : Prop where
  runs : ∀ runID run, w.ledger.runs.find runID = some run → Sound runID run
  calls : ∀ call ∈ w.calls, Ready w.ledger call
  submitted : ∀ runID spec, (runID, spec) ∈ w.submitted → Issued w.ledger runID spec
  jobs : ∀ spec ∈ w.l1.map Job.spec, ∃ runID, Issued w.ledger runID spec
  keys : ((w.l1.map Job.spec).map JobSpec.dispatchKey).Nodup
  answers : SubmitAnswer.dispatchKeyConflict ∉ w.answers

theorem inv_start : Inv World.start :=
  ⟨fun runID run h => (by cases h), by simp [World.start], by simp [World.start],
    by simp [World.start], by simp [World.start], by simp [World.start]⟩

section Ledger
variable {evidence finishing : String → String → Prop} {absent : String → Prop}
  {ledger ledger' : Ledger}

theorem Issued.moves (hl : LedgerMoves evidence finishing absent ledger ledger')
    (h : Issued ledger runID spec) : Issued ledger' runID spec := by
  obtain ⟨run, token, hr, ht, rfl⟩ := h
  obtain ⟨run', hr', hm⟩ := hl.old runID run hr
  obtain ⟨hint, hminted, -⟩ := moves_stable hm
  exact ⟨run', token, hr', hminted token ht, by rw [hint]⟩

theorem ready_moves (hl : LedgerMoves evidence finishing absent ledger ledger')
    (h : Ready ledger call) : Ready ledger' call := by
  cases call with
  | listed intent =>
    obtain ⟨run, hr, hi⟩ := h
    obtain ⟨run', hr', hm⟩ := hl.old _ run hr
    exact ⟨run', hr', (moves_stable hm).1.trans hi⟩
  | begun intent token =>
    obtain ⟨run, hr, hi, ht⟩ := h
    obtain ⟨run', hr', hm⟩ := hl.old _ run hr
    obtain ⟨hint, hminted, -⟩ := moves_stable hm
    exact ⟨run', hr', hint.trans hi, hminted token ht⟩
  | submit runID spec => exact Issued.moves hl h
  | stray spec =>
    obtain ⟨runID, hi⟩ := h
    exact ⟨runID, hi.moves hl⟩
  | _ => trivial

theorem Inv.of_moves (h : Inv w) (hl : LedgerMoves evidence finishing absent w.ledger ledger') :
    Inv { w with ledger := ledger' } where
  runs := by
    intro runID run' hr'
    cases hr : w.ledger.runs.find runID with
    | some run =>
      obtain ⟨run'', hr'', hm⟩ := hl.old runID run hr
      cases hr'.symm.trans hr''
      exact (h.runs runID run hr).moves hm
    | none =>
      obtain ⟨request, now, rfl⟩ := hl.new runID run' hr' hr
      have hid : (newRun request now).runID = runID := Table.key_of_find hr'
      rw [← hid]
      exact newRun_sound request now
  calls := fun call hc => ready_moves hl (h.calls call hc)
  submitted := fun runID spec hs => (h.submitted runID spec hs).moves hl
  jobs := by
    intro spec hj
    obtain ⟨runID, hi⟩ := h.jobs spec hj
    exact ⟨runID, hi.moves hl⟩
  keys := h.keys
  answers := h.answers

end Ledger

/-! ## 3. One step -/

theorem Inv.push (h : Inv w) (hc : Ready w.ledger call) : Inv (w.push call) := by
  refine ⟨h.runs, ?_, h.submitted, h.jobs, h.keys, h.answers⟩
  intro c hc'
  rcases List.mem_append.mp hc' with h' | h'
  · exact h.calls c h'
  · rw [List.mem_singleton.mp h']
    exact hc

theorem Inv.fewer (h : Inv w) {calls : List Call} (hsub : ∀ c ∈ calls, c ∈ w.calls) :
    Inv { w with calls := calls } :=
  ⟨h.runs, fun c hc => h.calls c (hsub c hc), h.submitted, h.jobs, h.keys, h.answers⟩

/-- A step that carries no submit keeps the invariant whatever it commits. -/
theorem Inv.of_inert {evidence finishing : String → String → Prop} {absent : String → Prop}
    {w' : World} (h : Inv w) (hl : LedgerMoves evidence finishing absent w.ledger w'.ledger)
    (hi : Inert w w') : Inv w' := by
  have h' := h.of_moves hl
  obtain ⟨new, hcalls, hnew⟩ := hi.calls
  refine ⟨h'.runs, ?_, ?_, ?_, ?_, ?_⟩
  · intro call hc
    rw [hcalls] at hc
    rcases List.mem_append.mp hc with hc | hc
    · exact h'.calls call hc
    · exact ready_of_inert (hnew call hc)
  · rw [hi.submitted]
    exact h'.submitted
  · rw [hi.specs]
    exact h'.jobs
  · rw [hi.specs]
    exact h'.keys
  · rw [hi.answers]
    exact h'.answers

theorem Inv.issued_of_key (h : Inv w) {runID' : String} {spec' : JobSpec}
    (hi : Issued w.ledger runID spec) (hi' : Issued w.ledger runID' spec')
    (hkey : spec.dispatchKey = spec'.dispatchKey) : spec = spec' := by
  have hkeyed : ∀ {r s}, Issued w.ledger r s → s.dispatchKey = dispatchKey r := by
    rintro r s ⟨run, token, hr, -, rfl⟩
    rw [DispatchIntent.jobSpec_dispatchKey]
    exact (h.runs r run hr).key
  rw [hkeyed hi, hkeyed hi'] at hkey
  rw [dispatchKey_inj hkey] at hi
  exact hi.unique hi'

/-- **L1 accepts an issued document.** It is stored or already is, and is never refused for
another document under its key. -/
theorem Inv.arrive (h : Inv w) (hi : Issued w.ledger runID spec) (newID : String)
    : Inv (w.arrive spec newID) := by
  have hsubmit : (submitJob w.l1 spec newID).2 ≠ .dispatchKeyConflict ∧
      ((submitJob w.l1 spec newID).1 = w.l1 ∨
        (submitJob w.l1 spec newID).1 = w.l1 ++ [⟨newID, spec, .queued⟩] ∧
          lookupJobByDispatchKey w.l1 spec.dispatchKey = none) := by
    unfold submitJob
    cases hl : lookupJobByDispatchKey w.l1 spec.dispatchKey with
    | some job =>
      obtain ⟨runID', hi'⟩ := h.jobs job.spec
        (List.mem_map_of_mem (List.mem_of_find?_eq_some hl))
      have hkey : job.spec.dispatchKey = spec.dispatchKey := by
        simpa using List.find?_some hl
      have hsame : job.spec = spec := h.issued_of_key hi' hi hkey
      simp [hsame]
    | none =>
      dsimp only
      split
      · exact ⟨by simp, Or.inl rfl⟩
      · exact ⟨by simp, Or.inr ⟨rfl, rfl⟩⟩
  obtain ⟨hanswer, hjobs⟩ := hsubmit
  refine ⟨h.runs, h.calls, h.submitted, ?_, ?_, ?_⟩
  · rcases hjobs with hjobs | ⟨hjobs, -⟩
    · show ∀ s ∈ (submitJob w.l1 spec newID).1.map Job.spec, _
      rw [hjobs]
      exact h.jobs
    · show ∀ s ∈ (submitJob w.l1 spec newID).1.map Job.spec, _
      rw [hjobs, List.map_append]
      intro s hs
      rcases List.mem_append.mp hs with hs | hs
      · exact h.jobs s hs
      · rw [List.mem_singleton.mp hs]
        exact ⟨runID, hi⟩
  · show (((submitJob w.l1 spec newID).1.map Job.spec).map JobSpec.dispatchKey).Nodup
    rcases hjobs with hjobs | ⟨hjobs, hnone⟩
    · rw [hjobs]
      exact h.keys
    rw [hjobs, List.map_append, List.map_append]
    refine List.nodup_append'.mpr ⟨h.keys, List.nodup_singleton _, ?_⟩
    rw [List.map_singleton, List.map_singleton, List.disjoint_singleton, List.map_map]
    intro hmem
    obtain ⟨job, hjob, hkey⟩ := List.mem_map.mp hmem
    have := List.find?_eq_none.mp hnone job hjob
    exact this (by simpa using hkey)
  · show SubmitAnswer.dispatchKeyConflict ∉ w.answers ++ [(submitJob w.l1 spec newID).2]
    intro hmem
    rcases List.mem_append.mp hmem with hmem | hmem
    · exact h.answers hmem
    · exact hanswer (List.mem_singleton.mp hmem).symm

theorem Inv.begin (h : Inv w) (input : Input) {intent : DispatchIntent}
    (hr : Ready w.ledger (.listed intent)) : Inv (w.begin input intent) := by
  obtain ⟨run, hfind, hint⟩ := hr
  have hl : LedgerMoves (fun _ _ => False) (fun _ _ => False) (fun _ => False) w.ledger
      (w.begin input intent).ledger := begin_moves w input
  unfold World.begin World.reading at hl ⊢
  rw [hfind] at hl ⊢
  dsimp only at hl ⊢
  cases hb : run.beginDispatch w.ledger.held input.fresh input.now with
  | error e => exact h
  | ok begun =>
    obtain ⟨token, run'⟩ := begun
    rw [hb] at hl
    obtain ⟨hopen, -, htoken, -, -, hid, hint', -⟩ := beginDispatch_ok hb
    refine (h.of_moves hl).push ⟨run', ?_, hint'.trans hint, ?_⟩
    · refine find_transact_ok hfind ?_ hid
      rw [hb]
      rfl
    · rcases htoken with ⟨hold, hsame⟩ | ⟨-, -, hnew⟩
      · rw [hsame, ← (h.runs _ run hfind).staged hopen, hold]
      · exact hnew

theorem Inv.submit (h : Inv w) {intent : DispatchIntent} {token : String}
    (hr : Ready w.ledger (.begun intent token)) : Inv (w.submit intent token) := by
  obtain ⟨run, hfind, hint, hminted⟩ := hr
  have hissued : Issued w.ledger intent.runID (intent.jobSpec token) :=
    ⟨run, token, hfind, hminted, by rw [hint]⟩
  have hs : Inv { w with submitted := w.submitted ++ [(intent.runID, intent.jobSpec token)] } := by
    refine ⟨h.runs, h.calls, ?_, h.jobs, h.keys, h.answers⟩
    intro runID spec hmem
    rcases List.mem_append.mp hmem with hmem | hmem
    · exact h.submitted runID spec hmem
    · cases List.mem_singleton.mp hmem
      exact hissued
  exact hs.push hissued

theorem Inv.proceed (h : Inv w) (input : Input) (hr : Ready w.ledger call)
    : Inv (w.proceed input call) := by
  cases hc : call.inert with
  | true => exact h.of_inert (proceed_goes w input hc).ledger (proceed_goes w input hc).inert
  | false =>
    cases call with
    | listed intent => exact h.begin input hr
    | begun intent token => exact h.submit hr
    | submit runID spec =>
      show Inv (w.submitOutcome input runID spec)
      have hl : LedgerMoves (fun _ _ => False) (fun _ _ => False) (fun _ => False) w.ledger
        (w.submitOutcome input runID spec).ledger := submitOutcome_moves w input
      unfold World.submitOutcome at hl ⊢
      cases ho : input.outcome with
      | delivered => exact (h.arrive hr input.fresh).push trivial
      | failed =>
        rw [ho] at hl
        exact (h.of_moves hl).push ⟨runID, hr.moves hl⟩
      | refused =>
        rw [ho] at hl
        exact h.of_moves hl
    | stray spec =>
      obtain ⟨runID, hi⟩ := hr
      exact h.arrive hi input.fresh
    | _ => cases hc

/-- A restart turns submits on their way into strays and forgets every other call. -/
theorem Inv.restart (h : Inv w) : Inv (w.step .restart) := by
  refine ⟨h.runs, ?_, h.submitted, h.jobs, h.keys, h.answers⟩
  intro call hc
  obtain ⟨before, hmem, haft⟩ := List.mem_filterMap.mp hc
  have hready := h.calls before hmem
  cases before with
  | submit runID spec =>
    cases haft
    exact ⟨runID, hready⟩
  | stray spec =>
    cases haft
    exact hready
  | _ => cases haft

def quiet : Op → Bool
  | .pendingDispatches _ _ | .resume _ _ | .restart => false
  | _ => true

theorem step_inert (w : World) {op : Op} (hop : quiet op = true) : Inert w (w.step op) := by
  cases op with
  | createRun | hold => exact Inert.of_ledger rfl rfl rfl rfl
  | appendEnvelope | appendGateResult | rejectProtocolWrite => exact Inert.write w _ _
  | requestRunCancellation runID actor now grace => exact Inert.transact w _ _
  | unrecordedDispatches | pendingRunCancellations =>
    refine Inert.reading fun run => ?_
    split
    · exact (Inert.refl w).push rfl
    · exact Inert.refl w
  | activeProjectedRuns runID =>
    refine Inert.reading fun run => ?_
    split
    · split
      · exact Inert.refl w
      · exact (Inert.refl w).push rfl
    · exact Inert.refl w
  | advance jobID state => exact advance_inert w jobID state
  | pendingDispatches | resume | restart => cases hop

theorem Inv.step (h : Inv w) (op : Op) : Inv (w.step op) := by
  cases hq : quiet op with
  | true => exact h.of_inert (step_ledger w op) (step_inert w hq)
  | false =>
    cases op with
    | pendingDispatches runID now =>
      show Inv (w.reading runID _)
      unfold World.reading
      cases hr : w.ledger.runs.find runID with
      | none => exact h
      | some run =>
        dsimp only
        split
        · refine h.push ⟨run, ?_, rfl⟩
          rw [(h.runs runID run hr).intentID]
          exact hr
        · exact h
    | resume index input =>
      obtain heq | ⟨call, hc, heq⟩ := step_resume w index input
      · rw [heq]
        exact h
      · have hw : Inv { w with calls := w.calls.eraseIdx index } :=
          h.fewer fun c hc => List.mem_of_mem_eraseIdx hc
        rw [heq]
        exact hw.proceed input (h.calls call (List.mem_of_getElem? hc))
    | restart => exact h.restart
    | _ => cases hq

theorem inv_reached (ops : List Op) : Inv (World.reached ops) :=
  Runs.exec_invariant (fun _ op h => h.step op) inv_start ops

/-! ## 4. A closed run -/

/-- How many `SubmitJob` calls have been started for the run. -/
def starts (w : World) (runID : String) : Nat := w.submitted.countP fun p => p.1 = runID

/-- The call is an attempt of the run between `beginDispatch` and `SubmitJob`. -/
def begins (runID : String) : Call → Bool
  | .begun intent _ => intent.runID = runID
  | _ => false

/-- How many attempts of the run have begun and not yet called `SubmitJob`. -/
def pending (w : World) (runID : String) : Nat := w.calls.countP (begins runID)

theorem pending_push (w : World) (call : Call) (runID : String) :
    pending (w.push call) runID = pending w runID + if begins runID call then 1 else 0 := by
  unfold pending World.push
  rw [List.countP_append, List.countP_singleton]

theorem begins_of_inert (h : call.inert = true) (runID : String) : begins runID call = false := by
  cases call <;> first | rfl | cases h

theorem inert_counts {w' : World} (h : Inert w w') (runID : String) :
    starts w' runID = starts w runID ∧ pending w' runID = pending w runID := by
  obtain ⟨new, hcalls, hnew⟩ := h.calls
  constructor
  · unfold starts
    rw [h.submitted]
  · unfold pending
    rw [hcalls, List.countP_append]
    have : new.countP (begins runID) = 0 :=
      List.countP_eq_zero.mpr fun call hc => by simp [begins_of_inert (hnew call hc)]
    omega

theorem countP_eraseIdx (p : Call → Bool) {calls : List Call} {index : Nat}
    (h : calls[index]? = some call) :
    calls.countP p = (calls.eraseIdx index).countP p + if p call then 1 else 0 := by
  obtain ⟨hlt, rfl⟩ := List.getElem?_eq_some_iff.mp h
  rw [List.eraseIdx_eq_take_drop_succ, List.countP_append]
  nth_rewrite 1 [← List.take_append_drop index calls]
  rw [List.countP_append, List.drop_eq_getElem_cons hlt, List.countP_cons]
  omega

section Closed
variable {run : Run}

/-- **No attempt begins on a closed run.** -/
theorem begin_closed (hr : w.ledger.runs.find runID = some run) (hc : run.closed = true)
    (input : Input) (intent : DispatchIntent) :
    starts (w.begin input intent) runID = starts w runID ∧
      pending (w.begin input intent) runID = pending w runID := by
  unfold World.begin World.reading
  cases hfind : w.ledger.runs.find intent.runID with
  | none => exact ⟨rfl, rfl⟩
  | some listed =>
    dsimp only
    cases hb : listed.beginDispatch w.ledger.held input.fresh input.now with
    | error e => exact ⟨rfl, rfl⟩
    | ok begun =>
      obtain ⟨hopen, -⟩ := beginDispatch_ok (show _ = Except.ok (begun.1, begun.2) from hb)
      refine ⟨rfl, ?_⟩
      dsimp only
      rw [pending_push]
      have hoth : intent.runID ≠ runID := by
        rintro rfl
        cases hr.symm.trans hfind
        rw [hc] at hopen
        cases hopen
      simp [begins, hoth, pending, World.transact]

theorem submitOutcome_counts (w : World) (runID : String) (input : Input) (other : String)
    (spec : JobSpec) :
    starts (w.submitOutcome input other spec) runID = starts w runID ∧
      pending (w.submitOutcome input other spec) runID = pending w runID := by
  unfold World.submitOutcome
  cases input.outcome with
  | delivered => exact ⟨rfl, pending_push _ _ _⟩
  | failed => exact ⟨rfl, pending_push _ _ _⟩
  | refused => exact ⟨rfl, rfl⟩

/-- A step of a call starts a submit of a closed run only by using up an attempt that had
begun. -/
theorem proceed_closed (hr : w.ledger.runs.find runID = some run) (hc : run.closed = true)
    (input : Input) (call : Call) :
    starts (w.proceed input call) runID + pending (w.proceed input call) runID ≤
      starts w runID + pending w runID + if begins runID call then 1 else 0 := by
  cases hi : call.inert with
  | true =>
    obtain ⟨hs, hp⟩ := inert_counts (proceed_goes w input hi).inert runID
    omega
  | false =>
    cases call with
    | listed intent =>
      obtain ⟨hs, hp⟩ := begin_closed hr hc input intent
      show starts (w.begin input intent) runID + pending (w.begin input intent) runID ≤ _
      omega
    | begun intent token =>
      show starts (w.submit intent token) runID + pending (w.submit intent token) runID ≤ _
      unfold World.submit
      rw [pending_push]
      simp [starts, pending, begins, World.push, List.countP_append, List.countP_singleton]
      omega
    | submit other spec =>
      obtain ⟨hs, hp⟩ := submitOutcome_counts w runID input other spec
      show starts (w.submitOutcome input other spec) runID +
        pending (w.submitOutcome input other spec) runID ≤ _
      omega
    | stray spec => exact Nat.le_add_right _ _
    | _ => cases hi

/-- **A closed run starts no new attempt in one step.** -/
theorem step_closed (hr : w.ledger.runs.find runID = some run) (hc : run.closed = true) (op : Op) :
    starts (w.step op) runID + pending (w.step op) runID ≤ starts w runID + pending w runID := by
  cases hq : quiet op with
  | true =>
    obtain ⟨hs, hp⟩ := inert_counts (step_inert w hq) runID
    omega
  | false =>
    cases op with
    | pendingDispatches other now =>
      show starts (w.reading other _) runID + pending (w.reading other _) runID ≤ _
      unfold World.reading
      cases w.ledger.runs.find other with
      | none => exact Nat.le_refl _
      | some listed =>
        dsimp only
        split
        · rw [pending_push]
          exact Nat.le_refl _
        · exact Nat.le_refl _
    | resume index input =>
      obtain heq | ⟨call, hcall, heq⟩ := step_resume w index input
      · simp [heq]
      have hstep : _ ≤ starts w runID +
          (w.calls.eraseIdx index).countP (begins runID) + _ :=
        proceed_closed (w := { w with calls := w.calls.eraseIdx index }) hr hc input call
      have hcount : pending w runID = _ := countP_eraseIdx (begins runID) hcall
      rw [heq]
      omega
    | restart =>
      have hnone : pending (w.step .restart) runID = 0 := by
        refine List.countP_eq_zero.mpr fun call hmem => ?_
        obtain ⟨before, -, haft⟩ := List.mem_filterMap.mp hmem
        cases before <;> cases haft <;> simp [begins]
      have hsame : starts (w.step .restart) runID = starts w runID := rfl
      omega
    | _ => cases hq

end Closed

/-! ## 5. Runs -/

/-- Once a run is closed, its attempts are counted: each later submit uses up one that had begun
when it closed. -/
theorem exec_closed {run : Run} (hr : w.ledger.runs.find runID = some run) (hc : run.closed = true)
    (more : List Op) :
    (∃ run', (Runs.exec World.step w more).ledger.runs.find runID = some run' ∧
        run'.closed = true ∧ run'.outbox.attemptCount = run.outbox.attemptCount) ∧
      starts (Runs.exec World.step w more) runID + pending (Runs.exec World.step w more) runID ≤
        starts w runID + pending w runID := by
  refine Runs.exec_invariant
    (P := fun v => (∃ run', v.ledger.runs.find runID = some run' ∧ run'.closed = true ∧
        run'.outbox.attemptCount = run.outbox.attemptCount) ∧
      starts v runID + pending v runID ≤ starts w runID + pending w runID) ?_
    ⟨⟨run, hr, hc, rfl⟩, Nat.le_refl _⟩ more
  rintro v op ⟨⟨run', hr', hc', hcount⟩, hle⟩
  obtain ⟨run'', hr'', hm⟩ := (step_ledger v op).old runID run' hr'
  obtain ⟨-, -, hfroz⟩ := moves_stable hm
  obtain ⟨hc'', hcount'⟩ := hfroz hc'
  exact ⟨⟨run'', hr'', hc'', hcount'.trans hcount⟩, Nat.le_trans (step_closed hr' hc' op) hle⟩

/-- **At most one L1 job a run.** However submits succeed, fail, lose their answers or are cut
short by restarts, and whatever commits meanwhile: all submits of one run carry the same
document, under the run's dispatch key; L1 stores at most one job under that key and answers
no submit with a key conflict; and from the moment the run has ended, is cancelled or is
marked dispatched, no attempt begins, and the submits started together with the attempts that have
begun and not yet called never become more. -/
theorem one_job_per_run (ops more : List Op) (runID : String) :
    (∀ spec spec', (runID, spec) ∈ (World.reached ops).submitted →
        (runID, spec') ∈ (World.reached ops).submitted → spec = spec') ∧
      (∀ spec, (runID, spec) ∈ (World.reached ops).submitted →
        spec.dispatchKey = dispatchKey runID) ∧
      (∀ job ∈ (World.reached ops).l1, ∀ job' ∈ (World.reached ops).l1,
        job.spec.dispatchKey = dispatchKey runID → job'.spec.dispatchKey = dispatchKey runID →
          job = job') ∧
      SubmitAnswer.dispatchKeyConflict ∉ (World.reached ops).answers ∧
      ∀ run, (World.reached ops).ledger.runs.find runID = some run → run.closed = true →
        (∃ run', (World.reached (ops ++ more)).ledger.runs.find runID = some run' ∧
          run'.closed = true ∧ run'.outbox.attemptCount = run.outbox.attemptCount) ∧
        starts (World.reached (ops ++ more)) runID +
            pending (World.reached (ops ++ more)) runID ≤
          starts (World.reached ops) runID + pending (World.reached ops) runID := by
  have h := inv_reached ops
  refine ⟨?_, ?_, ?_, h.answers, ?_⟩
  · exact fun spec spec' hs hs' => (h.submitted runID spec hs).unique (h.submitted runID spec' hs')
  · intro spec hs
    obtain ⟨run, token, hr, -, rfl⟩ := h.submitted runID spec hs
    rw [DispatchIntent.jobSpec_dispatchKey]
    exact (h.runs runID run hr).key
  · intro job hj job' hj' hkey hkey'
    have hnodup : ((World.reached ops).l1.map fun job => job.spec.dispatchKey).Nodup := by
      have := h.keys
      rw [List.map_map] at this
      exact this
    exact List.inj_on_of_nodup_map hnodup hj hj' (hkey.trans hkey'.symm)
  · intro run hr hc
    have happ : World.reached (ops ++ more) = Runs.exec World.step (World.reached ops) more :=
      Runs.exec_append _ _ _ _
    rw [happ]
    exact exec_closed hr hc more

def sampleRequest : CreateRun where
  runID := "r"
  actor := "a"
  idempotencyKey := "k"
  requestHash := "h"
  parentRunID := ""
  rerunOf := none
  program := .script [] "" [] 0
  tags := []
  params := ""
  maxRuntimeSeconds := none
  dispatchAuthority := false
  restartable := false
  requiredEnvelope := false

def sampleInput : Input where
  now := 0
  tokenGrace := 0
  outcome := .delivered
  cause := ⟨"", "", false, "", none⟩
  fresh := "f"
  state := .queued
  attemptStarted := false

/-- An attempt begins, the run is cancelled, and only then the attempt calls `SubmitJob`. -/
theorem submit_starts_on_canceled_run :
    ∃ (ops : List Op) (op : Op) (runID : String) (run : Run),
      (World.reached ops).ledger.runs.find runID = some run ∧ run.cancellation.isSome = true ∧
        starts (World.reached ops) runID = 0 ∧ starts ((World.reached ops).step op) runID = 1 :=
  ⟨[.createRun sampleRequest 0, .pendingDispatches "r" 0, .resume 0 sampleInput,
      .requestRunCancellation "r" "a" 0 0],
    .resume 0 sampleInput, "r", _, rfl, by decide +kernel, by decide +kernel, by decide +kernel⟩

end Wefty.DispatchOnce
